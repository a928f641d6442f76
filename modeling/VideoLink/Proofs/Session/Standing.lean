import VideoLink.Proofs.Measure.Records
import VideoLink.Proofs.Session.Start

/-! What holds of a run from its beginning to its end: the settings stay, the queue is orderly, every socket
is sound, and the stop is pending until it comes. -/
namespace VideoLink.Session

variable {σ γ : Type}

/-! The stop. -/

theorem stopGenerator_eq (s : Session σ γ) (d : Direction) : ∃ events journal,
    s.stopGenerator d = { s with
      events
      journal
      generators := s.generators.set d ((s.generators.get d).map Generator.halted) } ∧
    events.clear = s.events.clear ∧ (∀ n ∈ s.journal, n ∈ journal) ∧
    ∀ g, s.generator? d = some g → Notice.generatorStopped d (weight id g.waiting)
      g.socket.unsent (s.link.queued d) ∈ journal := by
  unfold stopGenerator
  split
  · rename_i hnone
    refine ⟨s.events, s.journal, ?_, rfl, fun _ hn => hn, fun g hg => ?_⟩
    · have hset : s.generators.set d ((s.generators.get d).map Generator.halted) =
          s.generators := by
        rw [show s.generators.get d = none from hnone, Option.map_none]
        apply Duplex.ext
        intro e
        by_cases he : e = d
        · rw [he, Duplex.get_set_self]
          exact hnone.symm
        · rw [Duplex.get_set_of_ne _ he]
      rw [hset]
    · rw [hnone] at hg
      cases hg
  · rename_i g hfound
    rw [show s.generators.get d = some g from hfound, Option.map_some]
    have hcancel : ∀ (q : EventQueue Event) (t? : Option Ticket),
        (t?.elim q q.cancel).clear = q.clear := by
      intro q t?
      cases t? <;> rfl
    obtain ⟨source, pacer?, socket, acks?⟩ := g
    cases pacer? with
    | none =>
      refine ⟨_, _, rfl, hcancel _ source.pending?, fun n hn => Array.mem_push_of_mem _ hn, ?_⟩
      intro g hg
      rw [hfound] at hg
      cases hg
      exact Array.mem_push_self
    | some pacer =>
      refine ⟨_, _, rfl, (hcancel _ pacer.pending?).trans (hcancel _ source.pending?),
        fun n hn => Array.mem_push_of_mem _ hn, ?_⟩
      intro g hg
      rw [hfound] at hg
      cases hg
      have hdropped := foldl_add 0 pacer.queued.toList
      rw [Nat.zero_add] at hdropped
      change Notice.generatorStopped d (weight id pacer.queued.toList) _ _ ∈ _
      rw [← hdropped]
      exact Array.mem_push_self

/-- The stop ends the video of both directions, empties the queue and gives up what is overdue. It notes
the bytes that it drops. -/
theorem onStop_eq (s : Session σ γ) (now : Instant) : ∃ journal discarded,
    s.onStop now = { s with
      events := s.events.clear
      generators := s.generators.map (Option.map Generator.halted)
      monitor := (s.monitor.giveUp now).2
      summary? := some ⟨now, s.processed, discarded, (s.monitor.giveUp now).1⟩
      journal } ∧
    ∀ d g, s.generator? d = some g → Notice.generatorStopped d (weight id g.waiting)
      g.socket.unsent (s.link.queued d) ∈ journal := by
  obtain ⟨events, journal, hup, hclear, _, hnoted⟩ := stopGenerator_eq s .uplink
  obtain ⟨events', journal', hdown, hclear', hkept, hnoted'⟩ :=
    stopGenerator_eq (s.stopGenerator .uplink) .downlink
  have hevents : events'.clear = s.events.clear := by
    rw [hup] at hclear'
    exact hclear'.trans hclear
  have hboth : (s.stopGenerator .uplink).stopGenerator .downlink = { s with
      events := events'
      journal := journal'
      generators := s.generators.map (Option.map Generator.halted) } := by
    rw [hdown, hup]
    rfl
  rw [hup] at hkept hnoted'
  unfold onStop
  rw [hboth, ← hevents]
  refine ⟨_, _, rfl, fun d g hg => Array.mem_push_of_mem _ ?_⟩
  cases d with
  | uplink => exact hkept _ (hnoted g hg)
  | downlink => exact hnoted' g hg

theorem generator?_onStop (s : Session σ γ) (now : Instant) (d : Direction) :
    (s.onStop now).generator? d = (s.generator? d).map Generator.halted := by
  obtain ⟨_, _, heq, _⟩ := onStop_eq s now
  rw [heq]
  exact Duplex.get_map ..

/-! The events. -/

/-- The settings of a run and what its parts keep of them. -/
structure Standing (c : Config) (s : Session σ γ) : Prop where
  config : s.config = c
  settings : s.link.settings = c.link
  limit : s.segmenter.limit = c.maxSegment
  monitor : ∃ m, Monitor.new? c.monitor = .ok m ∧ s.monitor.fresh = m.fresh ∧
    s.monitor.maxDelay = m.maxDelay
  orderly : s.events.Orderly
  fit : ∀ d g, s.generator? d = some g → g.Fit c d
  video : ∀ d, (s.generator? d).isSome = c.hasVideo d

theorem limit_of_new? {limit : Nat} {g : Segmenter} (h : Segmenter.new? limit = .ok g) :
    g.limit = limit := by
  unfold Segmenter.new? at h
  split at h <;> cases h
  rfl

theorem Begins.standing {c : Config} {feeds : Duplex (Option (Feed σ γ))} {s : Session σ γ}
    (h : s.Begins c feeds) : s.Standing c := by
  obtain ⟨monitor, segmenter, hm, hg, hu, hgen⟩ := h.untouched
  refine ⟨hu.config, by rw [hu.link]; rfl, by rw [hu.segmenter]; exact limit_of_new? hg,
    ⟨monitor, hm, by rw [hu.monitor], by rw [hu.monitor]⟩, hu.orderly, fun d g hfound => ?_,
    fun d => ?_⟩
  · obtain ⟨pending?, hd⟩ := hgen d
    rw [hfound] at hd
    obtain ⟨feed, _, rfl⟩ := Option.map_eq_some_iff.1 hd.symm
    exact Generator.fit_idle c d feed pending?
  · obtain ⟨pending?, hd⟩ := hgen d
    rw [hd, Option.isSome_map]
    exact h.video d

theorem Standing.fresh {c : Config} {s : Session σ γ} (h : s.Standing c) :
    ∃ delays jitters, s.monitor.fresh = .empty delays jitters := by
  obtain ⟨m, hm, hfresh, _⟩ := h.monitor
  obtain ⟨delays, jitters, _, _, rfl⟩ := Monitor.of_new? hm
  exact ⟨delays, jitters, hfresh⟩

theorem Standing.of_next? {c : Config} {s : Session σ γ} (hs : s.Standing c) {d : Direction}
    {g : Generator σ γ} {p : Packet} {socket : Socket} {uids : UidCounter}
    (hfound : s.generator? d = some g) (hnext : g.socket.next? s.uids = some (p, socket, uids)) :
    p.uid = s.uids.next ∧ p.flow = videoFlow c.transport.protocol d := by
  have hg := hs.fit d g hfound
  obtain ⟨_, hreleased, hnumber, _⟩ := hg.sound.of_next? hnext
  exact ⟨hnumber, hreleased.flow.trans hg.socket.flow⟩

theorem Standing.flow_of_onData {c : Config} {s : Session σ γ} (hs : s.Standing c) {d : Direction}
    {g : Generator σ γ} {acks rest : AckCounter} {uids : UidCounter} {ack : Packet}
    (hfound : s.generator? d = some g) (hacks : g.acks? = some acks)
    (hcount : acks.onData s.uids = (some ack, rest, uids)) :
    ack.flow = (videoFlow c.transport.protocol d).reversed := by
  obtain ⟨_, hflow⟩ := (hs.fit d g hfound).acks acks hacks
  obtain ⟨rfl, _⟩ := AckCounter.of_onData hcount
  exact hflow

theorem Standing.acks?_eq_none {c : Config} {s : Session σ γ} (hs : s.Standing c)
    (hudp : c.transport.protocol = .udp) {d : Direction} {g : Generator σ γ}
    (hfound : s.generator? d = some g) : g.acks? = none := by
  rw [Option.eq_none_iff_forall_not_mem]
  intro acks hacks
  obtain ⟨htcp, _⟩ := (hs.fit d g hfound).acks acks hacks
  rw [hudp] at htcp
  cases htcp

variable [Draws σ Nat] [Draws γ Span]

omit [Draws σ Nat] [Draws γ Span] in
theorem Opening.sameSetup {now : Instant} {s t : Session σ γ} (h : s.Opening now t) :
    s.SameSetup t := by
  cases h with
  | @arrival d p events hpop =>
    obtain ⟨hfresh, hmax⟩ := s.monitor.receive_settings p.flow p.uid p.size now
    exact ⟨rfl, rfl, rfl, hfresh, hmax, rfl⟩
  | _ => exact ⟨rfl, rfl, rfl, rfl, rfl, rfl⟩

/-- The queue of events only grows by what is scheduled. -/
theorem Move.events_eq {now : Instant} {d : Direction} {s t : Session σ γ} (h : Move now d s t) :
    t.events = s.events ∨ (∃ time e, t.events = (s.events.schedule time e).2) ∨
      ∃ time e time' e', t.events = ((s.events.schedule time e).2.schedule time' e').2 := by
  cases h with
  | armPacer _ _ harm =>
    rcases Pacer.events_of_arm harm with rfl | ⟨time, rfl⟩
    · exact .inl rfl
    · exact .inr (.inl ⟨_, _, rfl⟩)
  | armSource _ harm =>
    obtain ⟨_, _, rfl | ⟨time, rfl⟩⟩ := FrameSource.arm_cases harm
    · exact .inl rfl
    · exact .inr (.inl ⟨_, _, rfl⟩)
  | start => exact .inr (.inr ⟨_, _, _, _, rfl⟩)
  | _ => exact .inl rfl

theorem Move.fit {now : Instant} {d : Direction} {c : Config} {s t : Session σ γ} (h : Move now d s t)
    (hs : ∀ d g, s.generator? d = some g → g.Fit c d) :
    ∀ d g, t.generator? d = some g → g.Fit c d := by
  cases h with
  | note => exact hs
  | frame hfound hunpaced hemit hsent =>
    have hg := hs _ _ hfound
    obtain ⟨hsound, hdisp⟩ := hg.sound.of_dispatch hsent
    exact forall_setGenerator hs ⟨hg.socket.trans hdisp.continues, hsound, hg.acks, hg.answered⟩
  | segment hfound hpaced htake hsent =>
    have hg := hs _ _ hfound
    obtain ⟨hsound, hdisp⟩ := hg.sound.of_dispatch hsent
    exact forall_setGenerator hs ⟨hg.socket.trans hdisp.continues, hsound, hg.acks, hg.answered⟩
  | load hroom hfound hnext =>
    have hg := hs _ _ hfound
    obtain ⟨hsound, hreleased, _⟩ := hg.sound.of_next? hnext
    exact forall_setGenerator hs ⟨hg.socket.trans hreleased.continues, hsound, hg.acks, hg.answered⟩
  | paced hfound | noSegment hfound | armPacer hfound | armSource hfound =>
    have hg := hs _ _ hfound
    exact forall_setGenerator hs ⟨hg.socket, hg.sound, hg.acks, hg.answered⟩
  | start hstart => exact hs
  | count hfound hacks hcount | answer hfound hacks hcount | refuse hfound hacks hcount =>
    have hg := hs _ _ hfound
    refine forall_setGenerator hs ⟨hg.socket, hg.sound, fun acks' heq => ?_, fun _ => rfl⟩
    cases heq
    obtain ⟨hp, hflow⟩ := hg.acks _ hacks
    exact ⟨hp, (AckCounter.flow_of_onData hcount).trans hflow⟩

theorem Move.video {now : Instant} {d : Direction} {s t : Session σ γ} (h : Move now d s t)
    (e : Direction) : (t.generator? e).isSome = (s.generator? e).isSome := by
  have hset : ∀ {d : Direction} {g : Generator σ γ}, s.generator? d = some g →
      ∀ g' : Generator σ γ,
        ((s.setGenerator d g').generator? e).isSome = (s.generator? e).isSome := by
    intro d g hfound g'
    by_cases he : e = d
    · rw [he, generator?_setGenerator, hfound]
      rfl
    · rw [generator?_setGenerator_of_ne _ he]
  cases h with
  | note | start => rfl
  | frame hfound | paced hfound | segment hfound | noSegment hfound | armPacer hfound
  | armSource hfound | load _ hfound | count hfound | answer hfound | refuse hfound =>
    exact hset hfound _

theorem Move.orderly {now : Instant} {d : Direction} {s t : Session σ γ} (h : Move now d s t)
    (hs : s.events.Orderly) : t.events.Orderly ∧ t.events.now = s.events.now := by
  rcases h.events_eq with heq | ⟨_, _, heq⟩ | ⟨_, _, _, _, heq⟩ <;> rw [heq]
  · exact ⟨hs, rfl⟩
  · exact ⟨hs.schedule _ _, rfl⟩
  · exact ⟨(hs.schedule _ _).schedule _ _, rfl⟩

theorem Move.mem_events {now : Instant} {d : Direction} {s t : Session σ γ} (h : Move now d s t)
    (hs : s.events.Orderly) {a : Ticket × Event} (ha : a ∈ s.events.toList) :
    a ∈ t.events.toList := by
  rcases h.events_eq with heq | ⟨_, _, heq⟩ | ⟨_, _, _, _, heq⟩ <;> rw [heq]
  · exact ha
  · exact (hs.perm_schedule _ _).mem_iff.2 (List.mem_cons_of_mem _ ha)
  · exact ((hs.schedule _ _).perm_schedule _ _).mem_iff.2
      (List.mem_cons_of_mem _ ((hs.perm_schedule _ _).mem_iff.2 (List.mem_cons_of_mem _ ha)))

omit [Draws σ Nat] [Draws γ Span] in
theorem Opening.popped {now : Instant} {s t : Session σ γ} (h : s.Opening now t) :
    ∃ e, e ≠ .stop ∧ s.events.pop? = some ((now, e), t.events) ∧ t.generators = s.generators := by
  cases h with
  | tick hpop | due hpop | free hpop | arrival hpop =>
    exact ⟨_, by simp, hpop, rfl⟩

omit [Draws σ Nat] [Draws γ Span] in
theorem Standing.of_sameSetup {c : Config} {s t : Session σ γ} (hs : s.Standing c)
    (same : s.SameSetup t) (horderly : t.events.Orderly)
    (hfit : ∀ d g, t.generator? d = some g → g.Fit c d)
    (hvideo : ∀ d, (t.generator? d).isSome = (s.generator? d).isSome) : t.Standing c := by
  obtain ⟨m, hm, hfresh, hmax⟩ := hs.monitor
  exact ⟨same.config.trans hs.config, same.settings ▸ hs.settings, same.segmenter ▸ hs.limit,
    ⟨m, hm, same.fresh.trans hfresh, same.maxDelay.trans hmax⟩, horderly, hfit,
    fun d => (hvideo d).trans (hs.video d)⟩

omit [Draws σ Nat] [Draws γ Span] in
theorem Opening.standing {now : Instant} {c : Config} {s t : Session σ γ} (h : s.Opening now t)
    (hs : s.Standing c) : t.Standing c ∧ s.events.now ≤ now ∧ t.events.now = now := by
  obtain ⟨_, _, hpop, hgen⟩ := h.popped
  obtain ⟨hle, hnow, horderly⟩ := hs.orderly.of_pop? hpop
  have hsame : ∀ d, t.generator? d = s.generator? d := fun d => by rw [generator?, hgen]; rfl
  refine ⟨hs.of_sameSetup h.sameSetup horderly (fun d g hfound => ?_) fun d => ?_, hle, hnow⟩
  · exact hs.fit d g (hsame d ▸ hfound)
  · rw [hsame]

theorem Move.standing {now : Instant} {d : Direction} {c : Config} {s t : Session σ γ}
    (h : Move now d s t) (hs : s.Standing c) : t.Standing c :=
  hs.of_sameSetup h.sameSetup (h.orderly hs.orderly).1 (h.fit hs.fit) h.video

theorem Moves.standing {now : Instant} {d : Direction} {c : Config} {s t : Session σ γ}
    (h : Moves now d s t) (hs : s.Standing c) : t.Standing c ∧ t.events.now = s.events.now := by
  refine h.induct (P := fun u => u.Standing c ∧ u.events.now = s.events.now) ⟨hs, rfl⟩ ?_
  rintro u v ⟨hu, hnow⟩ hm
  exact ⟨hm.standing hu, (hm.orderly hu.orderly).2.trans hnow⟩

/-- A property that holds in a standing run is kept by all moves at the time of the event. -/
theorem Moves.induct_standing {P : Session σ γ → Prop} {now : Instant} {d : Direction}
    {c : Config} {s t : Session σ γ} (h : Moves now d s t) (hstanding : s.Standing c)
    (hnow : s.events.now = now) (hs : P s)
    (move : ∀ {u v}, u.Standing c → u.events.now = now → P u → Move now d u v → P v) :
    P t ∧ t.Standing c ∧ t.events.now = now := by
  refine h.induct (P := fun u => P u ∧ u.Standing c ∧ u.events.now = now) ⟨hs, hstanding, hnow⟩ ?_
  rintro u v ⟨hu, hstand, htime⟩ hm
  exact ⟨move hstand htime hu hm, hm.standing hstand, (hm.orderly hstand.orderly).2.trans htime⟩

omit [Draws σ Nat] [Draws γ Span] in
theorem Standing.onStop {c : Config} {s : Session σ γ} (hs : s.Standing c)
    (events : EventQueue Event) (now : Instant) : ((s.advanced events).onStop now).Standing c := by
  obtain ⟨journal, discarded, heq, _⟩ := onStop_eq (s.advanced events) now
  obtain ⟨m, hm, hfresh, hmax⟩ := hs.monitor
  obtain ⟨hfresh', hmax'⟩ := s.monitor.giveUp_settings now
  rw [heq]
  refine ⟨hs.config, hs.settings, hs.limit, ⟨m, hm, hfresh'.trans hfresh, hmax'.trans hmax⟩,
    EventQueue.orderly_clear _, fun d g hfound => ?_, fun d => ?_⟩
  · change (s.generators.map (Option.map Generator.halted)).get d = some g at hfound
    rw [Duplex.get_map, Option.map_eq_some_iff] at hfound
    obtain ⟨g', hg', rfl⟩ := hfound
    exact (hs.fit d g' hg').halted
  · show ((s.generators.map (Option.map Generator.halted)).get d).isSome = _
    rw [Duplex.get_map, Option.isSome_map]
    exact hs.video d

/-- What holds of a running run and is kept by every event but the stop. -/
theorem Standing.of_step? {c : Config} {s t : Session σ γ} (hs : s.Standing c)
    (h : s.step? = some t) : t.Standing c := by
  obtain ⟨_, now, ⟨_, u, hopen, hmoves⟩ | ⟨events, _, rfl⟩⟩ := step_cases h
  · obtain ⟨hu, _⟩ := hopen.standing hs
    exact (hmoves.standing hu).1
  · exact hs.onStop events now

theorem Moves.stopPending {now : Instant} {d : Direction} {s t : Session σ γ} {c : Config}
    (h : Moves now d s t) (hstanding : s.Standing c) (hnow : s.events.now = now)
    (hs : s.StopPending) : t.StopPending := by
  refine (h.induct_standing hstanding hnow hs fun hu _ hp hm => ?_).1
  unfold StopPending
  rw [hm.sameSetup.config]
  exact hm.mem_events hu.orderly hp

omit [Draws σ Nat] [Draws γ Span] in
theorem Opening.stopPending {now : Instant} {s t : Session σ γ} (h : s.Opening now t)
    (hs : s.StopPending) : t.StopPending := by
  obtain ⟨e, hne, hpop, _⟩ := h.popped
  obtain ⟨number, hl, _⟩ := EventQueue.toList_of_pop? hpop
  unfold StopPending at hs ⊢
  rw [hl, ← h.sameSetup.config] at hs
  rcases List.mem_cons.1 hs with heq | hrest
  · exact absurd (congrArg Prod.snd heq).symm hne
  · exact hrest

/-! The run as a whole. -/

/-- A state of a run, between two events or at either end. -/
def Reaches (s t : Session σ γ) : Prop := (s.note (.started s.directions.length)).Leads t

/-- The stop took a run from one state to the other. -/
structure Stops (s t : Session σ γ) : Prop where
  running : s.summary? = none
  step : s.step? = some t
  stop : ∃ now events, s.events.pop? = some ((now, .stop), events) ∧
    t = (s.advanced events).onStop now

theorem Stops.summary? {s t : Session σ γ} (h : s.Stops t) : ∃ summary, t.summary? = some summary := by
  obtain ⟨now, events, _, rfl⟩ := h.stop
  obtain ⟨journal, discarded, heq, _⟩ := onStop_eq (s.advanced events) now
  exact ⟨_, by rw [heq]⟩

theorem Reaches.standing {c : Config} {feeds : Duplex (Option (Feed σ γ))} {s t : Session σ γ}
    (h : s.Reaches t) (hs : s.Begins c feeds) : t.Standing c :=
  h.induct (hs.note _).standing fun hu hstep => hu.of_step? hstep

/-- A run goes on until its stop, and the stop is its last event. -/
theorem Reaches.running_or_stopped {c : Config} {feeds : Duplex (Option (Feed σ γ))}
    {s t : Session σ γ} (h : s.Reaches t) (hs : s.Begins c feeds) :
    t.summary? = none ∧ t.StopPending ∨ ∃ last, s.Reaches last ∧ last.Stops t := by
  have hbegins := hs.note (.started s.directions.length)
  obtain ⟨_, _, _, _, hu, _⟩ := hbegins.untouched
  refine (h.induct (P := fun t => s.Reaches t ∧ (t.summary? = none ∧ t.StopPending ∨
    ∃ last, s.Reaches last ∧ last.Stops t)) ⟨.refl, .inl ⟨hu.summary?, hu.stop⟩⟩ ?_).2
  rintro u v ⟨hreach, hcase⟩ hstep
  refine ⟨.tail hreach hstep, ?_⟩
  obtain ⟨hrunning, now, ⟨_, w, hopen, hmoves⟩ | ⟨events, hpop, rfl⟩⟩ := step_cases hstep
  · rcases hcase with ⟨_, hpending⟩ | ⟨last, _, hstop⟩
    · obtain ⟨hw, _, hnow⟩ := hopen.standing (hreach.standing hs)
      refine .inl ⟨?_, hmoves.stopPending hw hnow (hopen.stopPending hpending)⟩
      rw [hmoves.sameSetup.summary?, hopen.sameSetup.summary?]
      exact hrunning
    · obtain ⟨summary, hsummary⟩ := hstop.summary?
      rw [hsummary] at hrunning
      cases hrunning
  · exact .inr ⟨u, hreach, hrunning, hstep, now, events, hpop, rfl⟩

theorem Reaches.pop? {c : Config} {feeds : Duplex (Option (Feed σ γ))} {s t : Session σ γ}
    (h : s.Reaches t) (hs : s.Begins c feeds) (hrunning : t.summary? = none) :
    ∃ now e events, t.events.pop? = some ((now, e), events) ∧
      t.step? = some ((t.advanced events).handle now e) := by
  rcases h.running_or_stopped hs with ⟨_, hpending⟩ | ⟨last, _, hstop⟩
  · cases hpop : t.events.pop? with
    | none =>
      unfold StopPending at hpending
      rw [EventQueue.pop?_eq_none.1 hpop] at hpending
      cases hpending
    | some r =>
      obtain ⟨⟨now, e⟩, events⟩ := r
      refine ⟨now, e, events, rfl, ?_⟩
      unfold step?
      rw [if_neg (by rw [hrunning]; decide), hpop]
      rfl
  · obtain ⟨summary, hsummary⟩ := hstop.summary?
    rw [hsummary] at hrunning
    cases hrunning

/-- What holds at the beginning and is kept by every event but the stop holds until the stop. -/
theorem Reaches.induct_running {P : Session σ γ → Prop} {c : Config}
    {feeds : Duplex (Option (Feed σ γ))} {s t : Session σ γ} (h : s.Reaches t) (hs : s.Begins c feeds)
    (hrunning : t.summary? = none) (begins : P (s.note (.started s.directions.length)))
    (step : ∀ {u v}, u.Standing c → P u → u.step? = some v → v.summary? = none → P v) : P t := by
  refine (h.induct (P := fun t => s.Reaches t ∧ (t.summary? = none → P t))
    ⟨.refl, fun _ => begins⟩ ?_).2 hrunning
  rintro u v ⟨hreach, hu⟩ hstep
  refine ⟨.tail hreach hstep, fun hv => ?_⟩
  exact step (hreach.standing hs) (hu (step?_eq_some hstep).1) hstep hv

theorem opening_of_step? {s t : Session σ γ} (h : s.step? = some t) (hrunning : t.summary? = none) :
    ∃ now d u, s.Opening now u ∧ Moves now d u t := by
  obtain ⟨_, now, ⟨d, u, hopen, hmoves⟩ | ⟨events, _, rfl⟩⟩ := step_cases h
  · exact ⟨now, d, u, hopen, hmoves⟩
  · obtain ⟨_, _, heq, _⟩ := onStop_eq (s.advanced events) now
    rw [heq] at hrunning
    cases hrunning

theorem Reaches.induct_moves {P : Session σ γ → Prop} {c : Config}
    {feeds : Duplex (Option (Feed σ γ))} {s t : Session σ γ} (h : s.Reaches t) (hs : s.Begins c feeds)
    (hrunning : t.summary? = none) (begins : P (s.note (.started s.directions.length)))
    (opening : ∀ {u v now}, u.Standing c → P u → u.Opening now v → P v)
    (move : ∀ {u v now d}, u.Standing c → u.events.now = now → P u → Move now d u v → P v) : P t := by
  apply h.induct_running hs hrunning begins
  intro u v hu hp hstep hv
  obtain ⟨now, d, w, hopen, hmoves⟩ := opening_of_step? hstep hv
  obtain ⟨hw, _, hnow⟩ := hopen.standing hu
  exact (hmoves.induct_standing hw hnow (opening hu hp hopen) move).1

/-- What a run returns is what its stop left. -/
theorem Begins.run_stops {c : Config} {feeds : Duplex (Option (Feed σ γ))} {s : Session σ γ}
    (hs : s.Begins c feeds) : ∃ last, s.Reaches last ∧ last.Stops s.run.2 ∧
      s.run.2.summary? = some s.run.1 := by
  obtain ⟨_, _, _, _, hu, _⟩ := hs.untouched
  obtain ⟨hleads, hend⟩ := leads_runEvents (s.note (.started s.directions.length))
  obtain ⟨t, ht⟩ : ∃ t, t = (s.note (.started s.directions.length)).runEvents := ⟨_, rfl⟩
  have hrun : s.run = (t.summary?.getD t.exhausted,
      { t with summary? := some (t.summary?.getD t.exhausted) }) := by
    unfold run
    rw [hu.summary?, ht]
  rw [← ht] at hleads hend
  have hreach : s.Reaches t := hleads
  rcases hreach.running_or_stopped hs with ⟨hrunning, _⟩ | ⟨last, hlast, hstop⟩
  · obtain ⟨_, _, _, _, hstep⟩ := hreach.pop? hs hrunning
    rw [hend] at hstep
    cases hstep
  · obtain ⟨summary, hsummary⟩ := hstop.summary?
    have hsame : ({ t with summary? := some (t.summary?.getD t.exhausted) } : Session σ γ) = t := by
      rw [hsummary, Option.getD_some, ← hsummary]
    refine ⟨last, hlast, ?_⟩
    rw [hrun, hsame]
    exact ⟨hstop, by rw [hsummary]; rfl⟩

end VideoLink.Session
