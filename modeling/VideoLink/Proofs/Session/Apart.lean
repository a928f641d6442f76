import VideoLink.Proofs.Session.Lane
import VideoLink.Proofs.Session.Routes

/-! Two directions without answers. The packets of each stay in their own flow, so what happens in one
direction leaves the lane of the other as it is. -/
namespace VideoLink.Session

variable {σ γ : Type}

/-- What holds at an instant of a run without answers, before its stop. -/
structure Live (c : Config) (now : Instant) (s : Session σ γ) : Prop where
  udp : c.transport.protocol = .udp
  standing : s.Standing c
  accounted : s.Accounted c
  routed : s.Routed c
  time : s.events.now = now

variable [Draws σ Nat] [Draws γ Span]

theorem Move.live {now : Instant} {d : Direction} {c : Config} {s t : Session σ γ}
    (h : Move now d s t) (hs : s.Live c now) : t.Live c now := by
  have hclock := (h.orderly hs.standing.orderly).2
  exact ⟨hs.udp, h.standing hs.standing,
    (h.traced hs.standing).accounted hs.accounted hs.standing hs.time hclock,
    h.routed hs.standing hs.routed, hclock.trans hs.time⟩

theorem Moves.live {now : Instant} {d : Direction} {c : Config} {s t : Session σ γ}
    (h : Moves now d s t) (hs : s.Live c now) : t.Live c now :=
  h.induct hs fun hu hm => hm.live hu

omit [Draws σ Nat] [Draws γ Span] in
theorem Opening.live {now before : Instant} {c : Config} {s t : Session σ γ}
    (h : s.Opening now t) (hs : s.Live c before) : t.Live c now := by
  obtain ⟨hstanding, _, hnow⟩ := h.standing hs.standing
  exact ⟨hs.udp, hstanding, h.accounted hs.accounted hs.standing, h.routed hs.routed, hnow⟩

/-! A packet that is sent or that arrives. -/

section

variable {c : Config} {now : Instant} {s : Session σ γ}

omit [Draws σ Nat] [Draws γ Span]

theorem Live.lane_send (hs : s.Live c now) {p : Packet} (hp : p.uid = s.uids.next) (d : Direction) :
    ({ s with monitor := s.monitor.send p.flow p.uid p.size now } : Session σ γ).lane d =
      (s.lane d).update d p.flow (·.addSent p.size now) := by
  apply lane_monitor (m := s.monitor.send p.flow p.uid p.size now) rfl rfl rfl
  intro q hq
  have hlt := hs.accounted.tally.numbered q hq
  have hne : p.uid ≠ q.uid := by omega
  change (s.monitor.inFlight.insert p.uid ⟨p.flow, now⟩)[q.uid]? = _
  rw [Std.TreeMap.getElem?_insert, if_neg (by simpa using hne)]

theorem parcel_send (s : Session σ γ) (now : Instant) (p : Packet) :
    ({ s with monitor := s.monitor.send p.flow p.uid p.size now } : Session σ γ).parcel p =
      ⟨p.flow, p.payload, some ⟨p.flow, now⟩⟩ := by
  change Parcel.mk _ _ (s.monitor.inFlight.insert p.uid ⟨p.flow, now⟩)[p.uid]? = _
  rw [Std.TreeMap.getElem?_insert_self]

theorem Live.lane_receive (hs : s.Live c now) {time : Instant} {e : Direction} {p : Packet}
    {events : EventQueue Event} (hpop : s.events.pop? = some ((time, .arrival e p), events)) :
    ∃ sentAt, s.parcel p = ⟨p.flow, p.payload, some ⟨p.flow, sentAt⟩⟩ ∧ ∀ d,
      ({ s.advanced events with
        monitor := (s.monitor.receive p.flow p.uid p.size time).2 } : Session σ γ).lane d =
      ((s.advanced events).lane d).update d p.flow
        (·.addReceived p.size time (time.elapsed sentAt)) := by
  have hunder : s.underWay = p :: (s.advanced events).underWay := by
    rw [underWay, EventQueue.packets_of_pop? hpop]
    rfl
  have htally := hs.accounted.tally.later (Nat.le_refl _) (hs.standing.orderly.of_pop? hpop).1
  rw [hunder] at htally
  obtain ⟨sentAt, hknown, hle⟩ := htally.known List.mem_cons_self
  refine ⟨sentAt, by rw [parcel, hknown], fun d => ?_⟩
  rw [Monitor.receive_of_known hknown hle p.size]
  have herased : ∀ q ∈ (s.advanced events).underWay,
      (s.monitor.inFlight.erase p.uid)[q.uid]? = s.monitor.inFlight[q.uid]? := by
    intro q hq
    have hnodup := htally.nodup
    rw [List.map_cons, List.nodup_cons] at hnodup
    have hne : p.uid ≠ q.uid := fun heq => hnodup.1 (heq ▸ List.mem_map_of_mem hq)
    rw [Std.TreeMap.getElem?_erase, if_neg (by simpa using hne)]
  exact lane_monitor (s := s.advanced events)
    (m := Monitor.update { s.monitor with inFlight := s.monitor.inFlight.erase p.uid } p.flow
      (·.addReceived p.size time (time.elapsed sentAt))) rfl rfl rfl herased d

/-! What happens in the other direction. -/

theorem Lane.update_of_ne {l : Lane σ γ} {d e : Direction} (h : e ≠ d)
    (f : FlowRecord → FlowRecord) : l.update d (videoFlow .udp e) f = l :=
  if_neg fun heq => h (videoFlow_inj heq)

end

theorem Move.lane_of_ne {now : Instant} {d e : Direction} {c : Config} {s t : Session σ γ}
    (h : Move now e s t) (hs : s.Live c now) (hne : e ≠ d) : t.lane d = s.lane d := by
  have hset : ∀ (s : Session σ γ) (g : Generator σ γ), (s.setGenerator e g).lane d = s.lane d :=
    fun s g => lane_setGenerator_of_ne s hne g
  have hscheduled : ∀ {s : Session σ γ}, s.events.Orderly → ∀ (time : Instant) (ev : Event),
      s.happening? d ev = none → (s.schedule time ev).lane d = s.lane d := by
    intro s horderly time ev hnone
    rw [lane_schedule horderly, hnone, Option.elim_none]
  cases h with
  | note => rfl
  | frame | paced | segment | noSegment => exact hset s _
  | armPacer hfound hpaced harm =>
    apply (hset _ _).trans
    rcases Pacer.events_of_arm harm with rfl | ⟨time, rfl⟩
    · rfl
    · exact hscheduled hs.standing.orderly time (.segmentDue e) (if_neg hne)
  | armSource hfound harm =>
    apply (hset _ _).trans
    obtain ⟨_, _, rfl | ⟨time, rfl⟩⟩ := FrameSource.arm_cases harm
    · rfl
    · exact hscheduled hs.standing.orderly time (.frameTick e) (if_neg hne)
  | @load _ _ g p socket uids hroom hfound hnext =>
    obtain ⟨hnumber, hflow⟩ := hs.standing.of_next? hfound hnext
    rw [hs.udp] at hflow
    have hsent := hs.lane_send hnumber d
    rw [hflow, Lane.update_of_ne hne] at hsent
    rw [hflow]
    exact ((hset _ { g with socket }).trans (lane_setChannel_of_ne _ hne _)).trans hsent
  | @start _ _ t link hstart =>
    obtain ⟨_, queue, hpop, _, _, rfl⟩ := start?_eq_some hstart
    have horderly := hs.standing.orderly
    apply (hscheduled (horderly.schedule _ _) t.arrival (.arrival e t.packet) (if_neg hne)).trans
    refine (hscheduled (s := { s with link := s.link.setChannel e _ }) horderly t.finish
      (.wireFree e) (if_neg hne)).trans ?_
    exact lane_setChannel_of_ne s hne _
  | count hfound hacks | answer hfound hacks | refuse hfound hacks =>
    rw [hs.standing.acks?_eq_none hs.udp hfound] at hacks
    cases hacks

theorem Moves.lane_of_ne {now : Instant} {d e : Direction} {c : Config} {s t : Session σ γ}
    (h : Moves now e s t) (hs : s.Live c now) (hne : e ≠ d) : t.lane d = s.lane d :=
  (h.induct (P := fun u => u.Live c now ∧ u.lane d = s.lane d) ⟨hs, rfl⟩ fun hu hm =>
    ⟨hm.live hu.1, (hm.lane_of_ne hu.1 hne).trans hu.2⟩).2

omit [Draws σ Nat] [Draws γ Span] in
theorem Standing.onArrival_eq {c : Config} {s : Session σ γ} (hs : s.Standing c)
    (hudp : c.transport.protocol = .udp) (d : Direction) (now : Instant) (p : Packet) :
    ∃ journal capture, s.onArrival d now p = { s with
      journal
      capture
      monitor := (s.monitor.receive p.flow p.uid p.size now).2 } := by
  obtain ⟨journal, capture, hreceive⟩ := receive_eq s d now p
  refine ⟨journal, capture, ?_⟩
  unfold onArrival
  rw [hreceive]
  cases p.kind with
  | ack => rfl
  | data =>
    rcases acknowledge_cases { s with
      journal
      capture
      monitor := (s.monitor.receive p.flow p.uid p.size now).2 } d now with ⟨heq, _⟩ | hanswering
    · exact heq
    · obtain ⟨_, _, _, _, hfound, hacks, _⟩ := hanswering
      rw [hs.acks?_eq_none hudp hfound] at hacks
      cases hacks

theorem Live.handle_arrival {c : Config} {before now : Instant} {s : Session σ γ} {e : Direction}
    {p : Packet} {events : EventQueue Event} (hs : s.Live c before)
    (hpop : s.events.pop? = some ((now, .arrival e p), events)) :
    ((s.advanced events).handle now (.arrival e p)).Live c now ∧ p.flow = videoFlow .udp e ∧
    ∃ sentAt, s.parcel p = ⟨p.flow, p.payload, some ⟨p.flow, sentAt⟩⟩ ∧ ∀ d,
      ((s.advanced events).handle now (.arrival e p)).lane d =
        ((s.advanced events).lane d).update d p.flow
          (·.addReceived p.size now (now.elapsed sentAt)) := by
  have hlive := Opening.live (.arrival hpop) hs
  have hstanding : (s.advanced events).Standing c :=
    ⟨hs.standing.config, hs.standing.settings, hs.standing.limit, hs.standing.monitor,
      (hs.standing.orderly.of_pop? hpop).2.2, hs.standing.fit, hs.standing.video⟩
  have hhome : p.flow = videoFlow .udp e := (hs.routed.of_pop? hpop).of_udp hs.udp
  obtain ⟨journal, capture, heq⟩ := hstanding.onArrival_eq hs.udp e now p
  obtain ⟨sentAt, hparcel, hreceived⟩ := hs.lane_receive hpop
  have hnote : Move now e { s.advanced events with
      monitor := (s.monitor.receive p.flow p.uid p.size now).2 } _ := .note e _ journal capture
  rw [handle, heq]
  exact ⟨hnote.live hlive, hhome, sentAt, hparcel, hreceived⟩

/-- What is nothing to a direction leaves its lane as it is. -/
theorem Live.handle_apart {c : Config} {before now : Instant} {d : Direction} {s : Session σ γ}
    {e : Event} {events : EventQueue Event} (hs : s.Live c before)
    (hpop : s.events.pop? = some ((now, e), events)) (hnone : s.happening? d e = none) :
    ((s.advanced events).handle now e).Live c now ∧
      ((s.advanced events).handle now e).lane d = s.lane d := by
  have hadvanced : (s.advanced events).lane d = s.lane d := by
    rw [lane_of_pop? hpop, hnone]
    rfl
  rw [← hadvanced]
  cases e with
  | stop => cases hnone
  | frameTick e =>
    have hne : e ≠ d := fun heq => by simp [happening?, heq] at hnone
    have hlive : (s.advanced events).Live c now := Opening.live (.tick hpop) hs
    have hmoves := moves_onFrameTick (s.advanced events) e now
    exact ⟨hmoves.live hlive, hmoves.lane_of_ne hlive hne⟩
  | segmentDue e =>
    have hne : e ≠ d := fun heq => by simp [happening?, heq] at hnone
    have hlive : (s.advanced events).Live c now := Opening.live (.due hpop) hs
    have hmoves := moves_onSegmentDue (s.advanced events) e now
    exact ⟨hmoves.live hlive, hmoves.lane_of_ne hlive hne⟩
  | wireFree e =>
    have hne : e ≠ d := fun heq => by simp [happening?, heq] at hnone
    have hlive := Opening.live (.free hpop) hs
    have hmoves := moves_fill { s.advanced events with link := s.link.complete e } e now
    exact ⟨hmoves.live hlive,
      (hmoves.lane_of_ne hlive hne).trans (lane_setChannel_of_ne (s.advanced events) hne _)⟩
  | arrival e p =>
    have hne : e ≠ d := fun heq => by simp [happening?, heq] at hnone
    obtain ⟨hlive, hhome, sentAt, _, hlane⟩ := hs.handle_arrival hpop
    refine ⟨hlive, (hlane d).trans ?_⟩
    rw [hhome, Lane.update_of_ne hne]

end VideoLink.Session
