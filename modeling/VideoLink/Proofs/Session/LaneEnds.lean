import VideoLink.Proofs.Session.Agree
import VideoLink.Proofs.Session.Alone

/-! How a lane begins and how it ends. At the start it depends on the video of its own direction alone, and
the stop reads the statistics and the lost packets of a direction off its lane. -/
namespace VideoLink

namespace Session

variable {σ γ : Type}

/-! The start. -/

theorem lane_addGenerator_of_ne {s : Session σ γ} (hs : s.events.Orderly) {d e : Direction}
    (h : e ≠ d) (feed : Feed σ γ) : (s.addGenerator e feed).lane d = s.lane d := by
  rcases addGenerator_cases s e feed with heq | ⟨time, ticket, heq⟩ <;> rw [heq]
  · exact lane_setGenerator_of_ne s h _
  · rw [lane_setGenerator_of_ne _ h, lane_schedule hs,
      show s.happening? d (.frameTick e) = none from if_neg h]
    rfl

section

variable {c : Config} {monitor : Monitor} {segmenter : Segmenter} {d : Direction}
  {s s' : Session σ γ}

theorem lane_addGenerator_agree (hs : s.Untouched c monitor segmenter)
    (hs' : s'.Untouched (c.only d) monitor segmenter) (h : s.lane d = s'.lane d)
    (feed : Feed σ γ) : (s.addGenerator d feed).lane d = (s'.addGenerator d feed).lane d := by
  have hnow : s.events.now = s'.events.now := hs.now.trans hs'.now.symm
  unfold addGenerator
  rw [hs.config, hs'.config]
  obtain ⟨hlane, harmed⟩ := lane_arm_agree h hs.orderly hs'.orderly hnow
    (u := (Generator.idle c d feed none).source) rfl
  exact Agree.setGenerator hlane (Generator.unticketed_eq.2 ⟨harmed, rfl, rfl, rfl⟩)

/-- Runs that differ in the video of the other direction begin with the same lane. -/
theorem Begins.lane_agree {feeds feeds' : Duplex (Option (Feed σ γ))} (hs : s.Begins c feeds)
    (hs' : s'.Begins (c.only d) feeds') (hfeed : feeds'.get d = feeds.get d) :
    s.lane d = s'.lane d := by
  obtain ⟨monitor, segmenter, journal, hm, hg, rfl⟩ := hs.state
  obtain ⟨monitor', segmenter', journal', hm', hg', rfl⟩ := hs'.state
  obtain rfl : monitor = monitor' := Except.ok.inj (hm.symm.trans hm')
  obtain rfl : segmenter = segmenter' := Except.ok.inj (hg.symm.trans hg')
  obtain ⟨_, hstart⟩ := start_eq c monitor segmenter feeds
  obtain ⟨_, hstart'⟩ := start_eq (c.only d) monitor segmenter feeds'
  rw [hstart, hstart']
  have hadd : ∀ {s : Session σ γ} {c : Config}, s.Untouched c monitor segmenter → ∀ (e : Direction)
      (feed? : Option (Feed σ γ)), (feed?.elim s (s.addGenerator e)).Untouched c monitor segmenter ∧
        (e ≠ d → (feed?.elim s (s.addGenerator e)).lane d = s.lane d) := by
    intro s c hs e feed?
    cases feed? with
    | none => exact ⟨hs, fun _ => rfl⟩
    | some feed => exact ⟨hs.addGenerator e feed, fun hne => lane_addGenerator_of_ne hs.orderly hne feed⟩
  have hstep : ∀ {s s' : Session σ γ}, s.Untouched c monitor segmenter →
      s'.Untouched (c.only d) monitor segmenter → s.lane d = s'.lane d → ∀ e,
      ((feeds.get e).elim s (s.addGenerator e)).lane d =
        ((feeds'.get e).elim s' (s'.addGenerator e)).lane d := by
    intro s s' hs hs' h e
    by_cases he : e = d
    · subst he
      rw [hfeed]
      cases feeds.get e with
      | none => exact h
      | some feed => exact lane_addGenerator_agree hs hs' h feed
    · rw [(hadd hs e _).2 he, (hadd hs' e _).2 he, h]
  have hbare := untouched_bare (σ := σ) (γ := γ) c monitor segmenter
  have hbare' := untouched_bare (σ := σ) (γ := γ) (c.only d) monitor segmenter
  have hup := hstep hbare hbare' rfl .uplink
  exact hstep (hadd hbare _ _).1 (hadd hbare' _ _).1 hup .downlink

/-! The stop. -/

theorem generatorReport?_eq (s : Session σ γ) (d : Direction) : s.generatorReport? d =
    (s.lane d).video?.map fun g => ⟨d, g.source.stats, g.socket.stats⟩ := by
  show _ = ((s.generator? d).map Generator.unticketed).map _
  rw [Option.map_map]
  rfl

/-- The packets in the flow of a direction are the parcels of its lane. -/
theorem Routed.parcels_eq (hs : s.Routed c) (hudp : c.transport.protocol = .udp) (d : Direction) :
    (s.underWay.filter fun p => p.flow = videoFlow .udp d).map s.parcel = (s.lane d).parcels := by
  have hcoming : (s.events.packets.filter fun p => p.flow = videoFlow .udp d).map s.parcel =
      (s.agenda d).filterMap (·.2.parcel?) := by
    unfold EventQueue.packets agenda
    rw [List.filter_filterMap, List.map_filterMap, List.filterMap_filterMap]
    apply List.filterMap_congr
    intro a ha
    have hroute := hs.coming a ha
    obtain ⟨ticket, e⟩ := a
    cases e with
    | stop => rfl
    | frameTick e | segmentDue e | wireFree e =>
      by_cases he : e = d <;> simp [Event.packet?, item?, happening?, Happening.parcel?, he]
    | arrival e p =>
      have hflow : p.flow = videoFlow .udp e := Config.Routes.of_udp hroute hudp
      by_cases he : e = d
      · simp [Event.packet?, item?, happening?, Happening.parcel?, hflow, he]
      · have hne : videoFlow .udp e ≠ videoFlow .udp d := fun heq => he (videoFlow_inj heq)
        simp [Event.packet?, item?, happening?, hflow, he, hne]
  have hown : (s.link.channel d).queue.toList.filter (fun p => p.flow = videoFlow .udp d) =
      (s.link.channel d).queue.toList :=
    List.filter_eq_self.2 fun p hp => decide_eq_true ((hs.queued d p hp).of_udp hudp)
  have hother : ∀ e, e ≠ d →
      (s.link.channel e).queue.toList.filter (fun p => p.flow = videoFlow .udp d) = [] := by
    intro e he
    apply List.filter_eq_nil_iff.2
    intro p hp
    rw [(hs.queued e p hp).of_udp hudp, decide_eq_true_iff]
    exact fun heq => he (videoFlow_inj heq)
  have hqueued : (s.link.queues.filter fun p => p.flow = videoFlow .udp d) =
      (s.link.channel d).queue.toList := by
    cases d with
    | uplink => rw [Link.queues, List.filter_append, hown, hother .downlink (by decide), List.append_nil]
    | downlink => rw [Link.queues, List.filter_append, hown, hother .uplink (by decide), List.nil_append]
  unfold underWay
  rw [List.filter_append, List.map_append, hqueued, hcoming]
  rfl

theorem Live.countP_overdue {now : Instant} (hs : s.Live c now) (time : Instant) (d : Direction) :
    (s.monitor.overdue time).countP (·.2.flow = videoFlow .udp d) =
      (s.lane d).parcels.countP fun x =>
        x.known?.any fun y => (s.lane d).maxDelay < time.elapsed y.sentAt := by
  have hknown : ∀ p ∈ s.underWay, ((s.monitor.inFlight[p.uid]?).any fun y =>
      decide (y.flow = videoFlow .udp d) && s.monitor.isOverdue time y) =
      (((s.parcel p).known?.any fun y => (s.lane d).maxDelay < time.elapsed y.sentAt) &&
        decide (p.flow = videoFlow .udp d)) := by
    intro p hp
    obtain ⟨sentAt, hvalue, _⟩ := hs.accounted.tally.known hp
    unfold parcel
    rw [hvalue, Bool.and_comm]
    rfl
  calc (s.monitor.overdue time).countP (·.2.flow = videoFlow .udp d)
      = s.monitor.inFlight.toList.countP fun a =>
          decide (a.2.flow = videoFlow .udp d) && s.monitor.isOverdue time a.2 := by
        rw [Monitor.overdue, List.countP_filter]
    _ = s.underWay.countP fun p => (s.monitor.inFlight[p.uid]?).any fun y =>
          decide (y.flow = videoFlow .udp d) && s.monitor.isOverdue time y :=
        hs.accounted.tally.countP fun y =>
          decide (y.flow = videoFlow .udp d) && s.monitor.isOverdue time y
    _ = s.underWay.countP fun p =>
          ((s.parcel p).known?.any fun y => (s.lane d).maxDelay < time.elapsed y.sentAt) &&
            decide (p.flow = videoFlow .udp d) :=
        List.countP_congr fun p hp => by rw [hknown p hp]
    _ = _ := by rw [← hs.routed.parcels_eq hs.udp d, List.countP_map, List.countP_filter]; rfl

theorem stop_agree {c' : Config} {before before' now now' : Instant}
    {events events' : EventQueue Event} (hs : s.Live c before) (hs' : s'.Live c' before')
    (h : s.lane d = s'.lane d) (hpop : s.events.pop? = some ((now, .stop), events))
    (hpop' : s'.events.pop? = some ((now', .stop), events')) :
    ((s.advanced events).onStop now).generatorReport? d =
      ((s'.advanced events').onStop now').generatorReport? d ∧
    ((s.advanced events).onStop now).link.stats d = ((s'.advanced events').onStop now').link.stats d ∧
    ((s.advanced events).onStop now).monitor.flow? (videoFlow .udp d) =
      ((s'.advanced events').onStop now').monitor.flow? (videoFlow .udp d) := by
  obtain ⟨rfl, _, _⟩ := lane_advanced_agree h hpop hpop' (x := .stop) rfl
    (show s'.happening? d .stop = some .stop from rfl)
  obtain ⟨_, _, heq, _⟩ := onStop_eq (s.advanced events) now
  obtain ⟨_, _, heq', _⟩ := onStop_eq (s'.advanced events') now
  have hcount := hs.countP_overdue now d
  rw [h, ← hs'.countP_overdue now d] at hcount
  rw [heq, heq']
  refine ⟨?_, congrArg Lane.stats h, ?_⟩
  · have hhalted : ∀ s : Session σ γ, ((s.generators.map (Option.map Generator.halted)).get d).map
        (fun g => GeneratorReport.mk d g.source.stats g.socket.stats) = s.generatorReport? d := by
      intro s
      rw [Duplex.get_map, Option.map_map]
      rfl
    refine (hhalted s).trans (Eq.trans ?_ (hhalted s').symm)
    rw [generatorReport?_eq, generatorReport?_eq, h]
  · show (s.monitor.giveUp now).2.flow? _ = (s'.monitor.giveUp now).2.flow? _
    have hfresh : s.monitor.fresh = s'.monitor.fresh := congrArg Lane.fresh h
    have hrecord : s.monitor.flow? (videoFlow .udp d) = s'.monitor.flow? (videoFlow .udp d) :=
      congrArg Lane.record? h
    rw [Monitor.giveUp_eq, Monitor.giveUp_eq, Monitor.flow?_foldl_addLost,
      Monitor.flow?_foldl_addLost, hcount]
    show (fun r? => some (r?.getD s.monitor.fresh).addLost)^[_] (s.monitor.flow? _) =
      (fun r? => some (r?.getD s'.monitor.fresh).addLost)^[_] (s'.monitor.flow? _)
    rw [hfresh, hrecord]

end

end Session

end VideoLink
