import VideoLink.Proofs.Session.Standing
import VideoLink.Proofs.Video.Timetable

/-! The frames and the paced segments of a direction that are to come. The next frame is pending under the
ticket of its source, and a segment is pending under the ticket of the pacer as long as one waits. A step is
a frame, or a segment, or it leaves all that as it is. -/
namespace VideoLink

variable {σ γ : Type}

def FrameSource.unrecorded (s : FrameSource σ) : FrameSource σ :=
  { s with stats := { frames := s.stats.frames, bytes := s.stats.bytes } }

/-- What decides on the frames and the paced segments to come. -/
def Generator.plan (g : Generator σ γ) : FrameSource σ × Option (Pacer γ) :=
  (g.source.unrecorded, g.pacer?)

/-- A segment is pending as long as one waits, under the ticket that the pacer holds. -/
structure Generator.Paced (d : Direction) (q : EventQueue Event) (g : Generator σ γ) : Prop where
  dues : q.ticketsOf (.segmentDue d) = (g.pacer?.bind (·.pending?)).toList
  due : ∀ pacer, g.pacer? = some pacer → (pacer.pending? = none ↔ pacer.queued.toList = [])

/-- The next frame is pending as well, if one is to come, at its time and under the ticket of the source. -/
structure Generator.Scheduled (d : Direction) (q : EventQueue Event) (g : Generator σ γ) : Prop
    extends Paced d q g where
  ticks : q.ticketsOf (.frameTick d) = g.source.pending?.toList
  tick : g.source.pending?.map (·.time) = g.source.nextTick?

theorem FrameSource.nextTick?_of_unrecorded {s s' : FrameSource σ}
    (h : s'.unrecorded = s.unrecorded) : s'.nextTick? = s.nextTick? := by
  have hunrecorded : ∀ s : FrameSource σ, s.unrecorded.nextTick? = s.nextTick? := fun s =>
    nextTick?_congr rfl rfl rfl rfl rfl
  rw [← hunrecorded, h, hunrecorded]

theorem Generator.waiting_of_plan {g g' : Generator σ γ} (h : g'.plan = g.plan) :
    g'.waiting = g.waiting := by
  have hpacer : g'.pacer? = g.pacer? := congrArg Prod.snd h
  rw [waiting, hpacer, waiting]

theorem Generator.Scheduled.of_plan {d : Direction} {q q' : EventQueue Event} {g g' : Generator σ γ}
    (h : g.Scheduled d q) (hplan : g'.plan = g.plan)
    (hticks : q'.ticketsOf (.frameTick d) = q.ticketsOf (.frameTick d))
    (hdues : q'.ticketsOf (.segmentDue d) = q.ticketsOf (.segmentDue d)) : g'.Scheduled d q' := by
  have hpending : g'.source.pending? = g.source.pending? := congrArg (·.1.pending?) hplan
  have hpacer : g'.pacer? = g.pacer? := congrArg Prod.snd hplan
  constructor
  · constructor
    · rw [hdues, hpacer]
      exact h.dues
    · rw [hpacer]
      exact h.due
  · rw [hticks, hpending]
    exact h.ticks
  · rw [hpending, FrameSource.nextTick?_of_unrecorded (congrArg Prod.fst hplan)]
    exact h.tick

/-! Arming. -/

theorem Pacer.arm_eq [Draws γ Span] {α : Type} (p : Pacer γ) (q : EventQueue α) (now : Instant)
    (event : α) :
    (p.pending?.isSome ∨ p.queued.toList = []) ∧ p.arm q now event = (none, p, q) ∨
    p.pending? = none ∧ p.queued.toList ≠ [] ∧
      let time := now.after (Draws.draw p.gaps : Span × γ).1
      p.arm q now event = (some time,
        { p with
          gaps := (Draws.draw p.gaps : Span × γ).2
          pending? := some (q.schedule time event).1 }, (q.schedule time event).2) := by
  unfold arm
  by_cases hbusy : p.pending?.isSome = true ∨ p.queued.toList = []
  · have hidle : (p.pending?.isSome || p.queued.isEmpty) = true := by
      rw [Bool.or_eq_true, Fifo.isEmpty_iff]
      exact hbusy
    rw [if_pos hidle]
    exact .inl ⟨hbusy, rfl⟩
  · have hdue : ¬ (p.pending?.isSome || p.queued.isEmpty) = true := by
      rw [Bool.or_eq_true, Fifo.isEmpty_iff]
      exact hbusy
    rw [not_or, Option.not_isSome_iff_eq_none] at hbusy
    rw [if_neg hdue]
    exact .inr ⟨hbusy.1, hbusy.2, rfl⟩

theorem Pacer.of_take {p rest : Pacer γ} {size? : Option Nat} (h : p.take = (size?, rest)) :
    rest.gaps = p.gaps ∧ rest.pending? = none := by
  unfold take at h
  split at h <;> cases h <;> exact ⟨rfl, rfl⟩

section

variable {α : Type} [DecidableEq α] {q events : EventQueue α} {event : α} {time? : Option Instant}

theorem Pacer.scheduled_of_arm [Draws γ Span] {p rest : Pacer γ} {now : Instant}
    (harm : p.arm q now event = (time?, rest, events)) (hq : q.Orderly)
    (htickets : q.ticketsOf event = p.pending?.toList)
    (hwaiting : p.pending?.isSome → p.queued.toList ≠ []) :
    rest.queued = p.queued ∧ events.ticketsOf event = rest.pending?.toList ∧
      (rest.pending? = none ↔ rest.queued.toList = []) ∧
      ∀ e, event ≠ e → events.ticketsOf e = q.ticketsOf e := by
  rcases p.arm_eq q now event with ⟨hidle, heq⟩ | ⟨hnone, hsome, heq⟩ <;> rw [heq] at harm <;>
    cases harm
  · refine ⟨rfl, htickets, ⟨fun hnone => ?_, fun hempty => ?_⟩, fun e _ => rfl⟩
    · rw [hnone] at hidle
      exact hidle.resolve_left Bool.false_ne_true
    · rw [← Option.not_isSome_iff_eq_none]
      exact fun hpending => hwaiting hpending hempty
  · rw [hnone] at htickets
    refine ⟨rfl, hq.ticketsOf_schedule_self _ htickets, ⟨fun h => ?_, fun h => absurd h hsome⟩,
      fun e he => hq.ticketsOf_schedule_of_ne _ he⟩
    cases h

theorem FrameSource.scheduled_of_arm {s source : FrameSource σ}
    (harm : s.arm q event = (time?, source, events)) (hq : q.Orderly)
    (hnone : q.ticketsOf event = []) (hlate : ∀ time, s.nextTick? = some time → q.now ≤ time) :
    (∃ pending?, source = { s with pending? }) ∧ events.ticketsOf event = source.pending?.toList ∧
      source.pending?.map (·.time) = source.nextTick? ∧
      ∀ e, event ≠ e → events.ticketsOf e = q.ticketsOf e := by
  have hticket : ∀ pending? : Option Ticket, { s with pending? }.nextTick? = s.nextTick? :=
    fun pending? => nextTick?_congr rfl rfl rfl rfl rfl
  rcases s.arm_eq q event with ⟨htick, heq⟩ | ⟨time, htick, heq⟩ <;> rw [heq] at harm <;> cases harm
  · exact ⟨⟨_, rfl⟩, hnone, by rw [hticket, htick]; rfl, fun e _ => rfl⟩
  · refine ⟨⟨_, rfl⟩, hq.ticketsOf_schedule_self time hnone, ?_,
      fun e he => hq.ticketsOf_schedule_of_ne time he⟩
    rw [hticket, htick, Option.map_some, EventQueue.ticket_schedule,
      Instant.latest_of_le (hlate time htick)]

end

namespace Session

/-- The events of a direction's video are those that its source and its pacer have scheduled. -/
structure Planned (d : Direction) (s : Session σ γ) : Prop where
  found : ∀ g, s.generator? d = some g → g.Scheduled d s.events
  absent : s.generator? d = none →
    s.events.ticketsOf (.frameTick d) = [] ∧ s.events.ticketsOf (.segmentDue d) = []

theorem planned_of_found {d : Direction} {s : Session σ γ} {g : Generator σ γ}
    (hfound : s.generator? d = some g) (hg : g.Scheduled d s.events) : s.Planned d := by
  refine ⟨fun g' hfound' => ?_, fun hnone => ?_⟩
  · rw [hfound, Option.some.injEq] at hfound'
    exact hfound' ▸ hg
  · rw [hfound] at hnone
    cases hnone

/-- Neither the plan of a direction changes nor the events that are pending for it. -/
structure SamePlan (d : Direction) (s t : Session σ γ) : Prop where
  plan : (t.generator? d).map Generator.plan = (s.generator? d).map Generator.plan
  ticks : t.events.ticketsOf (.frameTick d) = s.events.ticketsOf (.frameTick d)
  dues : t.events.ticketsOf (.segmentDue d) = s.events.ticketsOf (.segmentDue d)

section

variable {d e : Direction} {s t u : Session σ γ}

theorem SamePlan.refl (d : Direction) (s : Session σ γ) : SamePlan d s s := ⟨rfl, rfl, rfl⟩

theorem SamePlan.trans (st : SamePlan d s t) (tu : SamePlan d t u) : SamePlan d s u :=
  ⟨tu.plan.trans st.plan, tu.ticks.trans st.ticks, tu.dues.trans st.dues⟩

theorem SamePlan.of_eq (h : SamePlan d s t) (hgen : u.generators = t.generators)
    (hevents : u.events = t.events) : SamePlan d s u := by
  refine ⟨?_, by rw [hevents]; exact h.ticks, by rw [hevents]; exact h.dues⟩
  rw [generator?, hgen]
  exact h.plan

theorem SamePlan.exists_generator (h : SamePlan d s t) {g : Generator σ γ}
    (hfound : s.generator? d = some g) : ∃ g', t.generator? d = some g' ∧ g'.plan = g.plan := by
  have hplan := h.plan
  rw [hfound, Option.map_some, Option.map_eq_some_iff] at hplan
  exact hplan

theorem SamePlan.planned (h : SamePlan d s t) (hs : s.Planned d) : t.Planned d := by
  constructor
  · intro g hfound
    have hplan := h.plan
    rw [hfound, Option.map_some, eq_comm, Option.map_eq_some_iff] at hplan
    obtain ⟨g', hfound', heq⟩ := hplan
    exact (hs.found g' hfound').of_plan heq.symm h.ticks h.dues
  · intro hnone
    have hplan := h.plan
    rw [hnone, Option.map_none, eq_comm, Option.map_eq_none_iff] at hplan
    rw [h.ticks, h.dues]
    exact hs.absent hplan

theorem SamePlan.setGenerator {g g' : Generator σ γ} (hfound : s.generator? e = some g)
    (hplan : g'.plan = g.plan) (d : Direction) : SamePlan d s (s.setGenerator e g') := by
  refine ⟨?_, rfl, rfl⟩
  by_cases hd : d = e
  · rw [hd, generator?_setGenerator, hfound, Option.map_some, Option.map_some, hplan]
  · rw [generator?_setGenerator_of_ne _ hd]

theorem SamePlan.setGenerator_of_ne (hd : d ≠ e) (g : Generator σ γ) :
    SamePlan d s (s.setGenerator e g) := by
  refine ⟨?_, rfl, rfl⟩
  rw [generator?_setGenerator_of_ne _ hd]

theorem SamePlan.schedule (hs : s.events.Orderly) (time : Instant) {a : Event}
    (htick : a ≠ .frameTick d) (hdue : a ≠ .segmentDue d) : SamePlan d s (s.schedule time a) :=
  ⟨rfl, hs.ticketsOf_schedule_of_ne time htick, hs.ticketsOf_schedule_of_ne time hdue⟩

theorem SamePlan.started (hs : s.events.Orderly) (finish arrival : Instant) (e : Direction) (p : Packet) :
    SamePlan d s ((s.schedule finish (.wireFree e)).schedule arrival (.arrival e p)) := by
  have hfree : SamePlan d s (s.schedule finish (.wireFree e)) :=
    .schedule hs finish (a := .wireFree e) (by simp) (by simp)
  have harrival : SamePlan d (s.schedule finish (.wireFree e)) _ :=
    .schedule (hs.schedule finish _) arrival (a := .arrival e p) (by simp) (by simp)
  exact hfree.trans harrival

theorem SamePlan.of_pop? {now : Instant} {a : Event} (hpop : s.events.pop? = some ((now, a), t.events))
    (hgen : t.generators = s.generators) (htick : a ≠ .frameTick d) (hdue : a ≠ .segmentDue d) :
    SamePlan d s t := by
  obtain ⟨_, htickets⟩ := EventQueue.ticketsOf_of_pop? hpop
  have hticks := htickets (.frameTick d)
  have hdues := htickets (.segmentDue d)
  rw [if_neg htick, List.nil_append] at hticks
  rw [if_neg hdue, List.nil_append] at hdues
  refine ⟨?_, hticks.symm, hdues.symm⟩
  rw [generator?, hgen]
  rfl

/-! What leaves the plans of both directions alone. -/

theorem samePlan_startWire (hs : s.events.Orderly) (e : Direction) (now : Instant) (d : Direction) :
    SamePlan d s (s.startWire e now) := by
  rcases s.startWire_cases e now with ⟨_, heq⟩ | ⟨x, link, journal, capture, _, heq⟩ <;> rw [heq]
  · exact .refl d s
  · have hlink : SamePlan d s { s with link, journal, capture } := ⟨rfl, rfl, rfl⟩
    exact hlink.trans (.started (by exact hs) x.finish x.arrival e x.packet)

theorem samePlan_loadUpTo (e : Direction) (now : Instant) (n : Nat) (s : Session σ γ)
    (d : Direction) : SamePlan d s (loadUpTo e now n s) ∧ (loadUpTo e now n s).events = s.events := by
  induction n generalizing s with
  | zero => exact ⟨.refl d s, rfl⟩
  | succ n ih =>
    rw [loadUpTo]
    cases hload : s.load? e now with
    | none => exact ⟨.refl d s, rfl⟩
    | some t =>
      obtain ⟨g, p, socket, uids, hfound, _, heq⟩ := load?_eq_some hload
      have hset : SamePlan d s (s.setGenerator e { g with socket }) := .setGenerator hfound (by rfl) d
      have hloaded : SamePlan d s t := hset.of_eq (by rw [heq]) (by rw [heq])
      obtain ⟨hrest, hevents⟩ := ih t
      exact ⟨hloaded.trans hrest, hevents.trans (by rw [heq]; rfl)⟩

theorem samePlan_fill (hs : s.events.Orderly) (e : Direction) (now : Instant) (d : Direction) :
    SamePlan d s (s.fill e now) := by
  obtain ⟨hload, hevents⟩ := samePlan_loadUpTo e now (s.link.room e) s d
  rw [fill_eq]
  exact hload.trans (samePlan_startWire (by rw [hevents]; exact hs) e now d)

theorem samePlan_acknowledge (hs : s.events.Orderly) (e : Direction) (now : Instant)
    (d : Direction) : SamePlan d s (s.acknowledge e now) := by
  rcases s.acknowledge_cases e now with ⟨heq, _⟩ | ⟨g, acks, rest, uids, hfound, _, hcases⟩
  · rw [heq]
    exact .refl d s
  · have hset : SamePlan d s (s.setGenerator e { g with acks? := some rest }) :=
      .setGenerator hfound (by rfl) d
    rcases hcases with ⟨_, heq⟩ | ⟨ack, _, ⟨_, heq⟩ | ⟨_, journal, heq⟩⟩ <;> rw [heq]
    · exact hset.of_eq rfl rfl
    · have hsent : SamePlan d s { s.setGenerator e { g with acks? := some rest } with
          uids
          link := s.link.push e.reverse ack
          monitor := s.monitor.send ack.flow ack.uid ack.size now } := hset.of_eq rfl rfl
      exact hsent.trans (samePlan_startWire (by exact hs) e.reverse now d)
    · exact hset.of_eq rfl rfl

theorem samePlan_onArrival (hs : s.events.Orderly) (e : Direction) (now : Instant) (p : Packet)
    (d : Direction) : SamePlan d s (s.onArrival e now p) := by
  obtain ⟨journal, capture, hreceive⟩ := receive_eq s e now p
  have hreceived : SamePlan d s { s with
      journal
      capture
      monitor := (s.monitor.receive p.flow p.uid p.size now).2 } := (SamePlan.refl d s).of_eq rfl rfl
  unfold onArrival
  rw [hreceive]
  cases p.kind with
  | data =>
    refine hreceived.trans (samePlan_acknowledge ?_ e now d)
    exact hs
  | ack => exact hreceived

end

variable [Draws σ Nat] [Draws γ Span]

/-- The moves of a direction leave the plan of the other one alone. -/
theorem Move.samePlan_of_ne {now : Instant} {d e : Direction} {s t : Session σ γ} (h : Move now e s t)
    (hs : s.events.Orderly) (hd : d ≠ e) : SamePlan d s t := by
  have hset : ∀ (u : Session σ γ) (g : Generator σ γ), SamePlan d u (u.setGenerator e g) :=
    fun u g => .setGenerator_of_ne hd g
  have hne : ∀ time, SamePlan d s (s.schedule time (.frameTick e)) ∧
      SamePlan d s (s.schedule time (.segmentDue e)) := fun time =>
    ⟨.schedule hs time (by simpa using Ne.symm hd) (by simp),
      .schedule hs time (by simp) (by simpa using Ne.symm hd)⟩
  have hanswer : ∀ {g : Generator σ γ}, s.generator? e.reverse = some g → ∀ acks?,
      SamePlan d s (s.setGenerator e.reverse { g with acks? }) := fun hfound acks? =>
    .setGenerator hfound (by rfl) d
  cases h with
  | note => exact (SamePlan.refl d s).of_eq rfl rfl
  | frame | paced | segment | noSegment => exact hset s _
  | armPacer _ _ harm =>
    rcases Pacer.events_of_arm harm with rfl | ⟨time, rfl⟩
    · exact hset s _
    · exact (hne time).2.trans (hset (s.schedule time (.segmentDue e)) _)
  | armSource _ harm =>
    obtain ⟨_, _, rfl | ⟨time, rfl⟩⟩ := FrameSource.arm_cases harm
    · exact hset s _
    · exact (hne time).1.trans (hset (s.schedule time (.frameTick e)) _)
  | load => exact (hset s _).of_eq rfl rfl
  | @start _ _ t link =>
    have hlink : SamePlan d s { s with link } := ⟨rfl, rfl, rfl⟩
    exact hlink.trans (.started (by exact hs) t.finish t.arrival e t.packet)
  | count hfound | answer hfound | refuse hfound => exact (hanswer hfound _).of_eq rfl rfl

theorem Moves.samePlan_of_ne {now : Instant} {d e : Direction} {s t : Session σ γ}
    (h : Moves now e s t) (hs : s.events.Orderly) (hd : d ≠ e) : SamePlan d s t := by
  refine (h.induct (P := fun u => u.events.Orderly ∧ SamePlan d s u) ⟨hs, .refl d s⟩ ?_).2
  rintro u v ⟨hu, hsame⟩ hmove
  exact ⟨(hmove.orderly hu).1, hsame.trans (hmove.samePlan_of_ne hu hd)⟩

/-! The frame and the segments that an event brings. -/

section

variable {c : Config} {d : Direction} {s t u : Session σ γ} {now : Instant} {events : EventQueue Event}

omit [Draws γ Span]

def made? (s : Session σ γ) (now : Instant) : Event → Direction → Option Frame
  | .frameTick d, e => if e = d then (s.generator? d).map fun g => (g.source.emit now).1 else none
  | _, _ => none

def handed (s : Session σ γ) (now : Instant) : Event → Direction → List Nat
  | .frameTick d, e =>
    if e = d then (s.generator? d).elim [] fun g =>
      match g.pacer? with
      | some _ => []
      | none => s.segmenter.sizes (g.source.emit now).1.size
    else []
  | .segmentDue d, e =>
    if e = d then ((s.generator? d).bind (·.pacer?)).elim [] (·.take.1.toList) else []
  | _, _ => []

def nextFrame? (s : Session σ γ) (d : Direction) : Option Frame :=
  match s.events.pop? with
  | none => none
  | some ((now, e), _) => s.made? now e d

def nextHanded (s : Session σ γ) (d : Direction) : List Nat :=
  match s.events.pop? with
  | none => []
  | some ((now, e), _) => s.handed now e d

/-- What an event other than the stop does to the plan of a direction. -/
inductive Turn (d : Direction) (s t : Session σ γ) : Prop
  | rest (noFrame : s.nextFrame? d = none) (handed : s.nextHanded d = []) (same : SamePlan d s t)
  /-- The next frame comes at its time and its segments go on, behind those that wait. -/
  | frame {now : Instant} {g g' : Generator σ γ} (found : s.generator? d = some g)
      (found' : t.generator? d = some g') (tick : g.source.nextTick? = some now)
      (made : s.nextFrame? d = some (g.source.emit now).1)
      (source : ∃ pending?,
        g'.source.unrecorded = { (g.source.emit now).2.unrecorded with pending? })
      (segments : s.nextHanded d ++ g'.waiting =
        g.waiting ++ s.segmenter.sizes (g.source.emit now).1.size)
      (scheduled : g'.Scheduled d t.events)
  /-- A segment that waited goes on. -/
  | segment {g g' : Generator σ γ} (found : s.generator? d = some g)
      (found' : t.generator? d = some g') (noFrame : s.nextFrame? d = none)
      (source : g'.source.unrecorded = g.source.unrecorded)
      (segments : s.nextHanded d ++ g'.waiting = g.waiting) (scheduled : g'.Scheduled d t.events)

theorem Turn.trans_same (h : Turn d s t) (same : SamePlan d t u) : Turn d s u := by
  cases h with
  | rest hnone hhanded hsame => exact .rest hnone hhanded (hsame.trans same)
  | frame hfound hfound' htick hmade hsource hsegments hscheduled =>
    obtain ⟨g, hg, hplan⟩ := same.exists_generator hfound'
    refine .frame hfound hg htick hmade ?_ ?_ (hscheduled.of_plan hplan same.ticks same.dues)
    · obtain ⟨pending?, hunrecorded⟩ := hsource
      exact ⟨pending?, (congrArg Prod.fst hplan :).trans hunrecorded⟩
    · rw [Generator.waiting_of_plan hplan]
      exact hsegments
  | segment hfound hfound' hnone hsource hsegments hscheduled =>
    obtain ⟨g, hg, hplan⟩ := same.exists_generator hfound'
    refine .segment hfound hg hnone ?_ ?_ (hscheduled.of_plan hplan same.ticks same.dues)
    · exact (congrArg Prod.fst hplan :).trans hsource
    · rw [Generator.waiting_of_plan hplan]
      exact hsegments

theorem Turn.planned (h : Turn d s t) (hs : s.Planned d) : t.Planned d := by
  cases h with
  | rest _ _ hsame => exact hsame.planned hs
  | frame _ hfound' _ _ _ _ hscheduled | segment _ hfound' _ _ _ hscheduled =>
    exact planned_of_found hfound' hscheduled

omit [Draws σ Nat] in
theorem plan_recordDispatch (s : Session σ γ) (d : Direction) (g : Generator σ γ)
    (o : DispatchOutcome) (socket : Socket) :
    (∃ g', (s.recordDispatch d g o socket).generator? d = some g' ∧ g'.plan = g.plan) ∧
      (s.recordDispatch d g o socket).events = s.events := by
  refine ⟨⟨_, generator?_recordDispatch s d g o socket, rfl⟩, ?_⟩
  unfold recordDispatch
  cases failureNotice? d o <;> rfl

omit [Draws σ Nat] in
theorem plan_afterSegment (s : Session σ γ) (d : Direction) (g : Generator σ γ) (size? : Option Nat) :
    (∃ g', (s.afterSegment d g size?).generator? d = some g' ∧ g'.plan = g.plan) ∧
      (s.afterSegment d g size?).events = s.events := by
  cases size? with
  | none => exact ⟨⟨g, generator?_setGenerator .., rfl⟩, rfl⟩
  | some size => exact s.plan_recordDispatch d g _ _

omit [Draws σ Nat] in
theorem plan_hand [Draws γ Span] (hs : s.events.Orderly) {g : Generator σ γ}
    (hg : g.Paced d s.events) (now : Instant) (frame : Frame) :
    ∃ g', (s.hand d now g frame).generator? d = some g' ∧
      g'.source.unrecorded = g.source.unrecorded ∧
      (match g.pacer? with
        | some _ => []
        | none => s.segmenter.sizes frame.size) ++ g'.waiting =
        g.waiting ++ s.segmenter.sizes frame.size ∧
      g'.Paced d (s.hand d now g frame).events ∧
      (s.hand d now g frame).events.ticketsOf (.frameTick d) = s.events.ticketsOf (.frameTick d) := by
  obtain ⟨hdues, hdue⟩ := hg
  unfold hand
  dsimp only
  cases hpaced : g.pacer? with
  | none =>
    obtain ⟨⟨g', hfound, hplan⟩, hevents⟩ := s.plan_recordDispatch d g
      (dispatch g.socket (s.segmenter.sizes frame.size)).1
      (dispatch g.socket (s.segmenter.sizes frame.size)).2
    have hpacer : g'.pacer? = none := (congrArg Prod.snd hplan :).trans hpaced
    refine ⟨g', hfound, congrArg Prod.fst hplan, ?_, ⟨?_, fun pacer h => ?_⟩, by rw [hevents]⟩
    · rw [Generator.waiting, hpacer, Generator.waiting, hpaced, Option.elim_none, List.append_nil,
        List.nil_append]
    · rw [hevents, hpacer, hdues, hpaced]
    · rw [hpacer] at h
      cases h
  | some pacer =>
    rw [hpaced] at hdues
    dsimp only
    generalize harm : (pacer.push (s.segmenter.sizes frame.size)).arm s.events now (.segmentDue d) = r
    obtain ⟨time?, rest, events⟩ := r
    have hpushed : (pacer.push (s.segmenter.sizes frame.size)).queued.toList =
        pacer.queued.toList ++ s.segmenter.sizes frame.size := Fifo.toList_pushAll _ _
    have hwaiting : pacer.pending?.isSome → pacer.queued.toList ++ s.segmenter.sizes frame.size ≠ [] := by
      intro hpending hempty
      rw [(hdue pacer hpaced).2 (List.append_eq_nil_iff.1 hempty).1] at hpending
      cases hpending
    rw [← hpushed] at hwaiting
    obtain ⟨hqueued, htickets, hnext, hothers⟩ := Pacer.scheduled_of_arm harm hs hdues hwaiting
    refine ⟨_, generator?_setGenerator .., rfl, ?_, ⟨htickets, fun pacer h => ?_⟩, hothers _ (by simp)⟩
    · rw [Generator.waiting, Generator.waiting, hpaced, Option.elim_some, Option.elim_some, hqueued,
        hpushed, List.nil_append]
    · cases h
      exact hnext

omit [Draws σ Nat] in
theorem plan_armSource (hs : s.events.Orderly) {g : Generator σ γ} (hfound : s.generator? d = some g)
    (hg : g.Paced d s.events) (hticks : s.events.ticketsOf (.frameTick d) = [])
    (hlate : ∀ time, g.source.nextTick? = some time → s.events.now ≤ time) :
    ∃ g', (s.armSource d).generator? d = some g' ∧
      (∃ pending?, g'.source = { g.source with pending? }) ∧ g'.waiting = g.waiting ∧
      g'.Scheduled d (s.armSource d).events := by
  unfold armSource
  rw [hfound]
  dsimp only
  generalize harm : g.source.arm s.events (.frameTick d) = r
  obtain ⟨time?, source, events⟩ := r
  obtain ⟨hsource, htickets, htime, hothers⟩ := FrameSource.scheduled_of_arm harm hs hticks hlate
  exact ⟨_, generator?_setGenerator .., hsource, rfl, ⟨(hothers _ (by simp)).trans hg.dues, hg.due⟩,
    htickets, htime⟩

omit [Draws σ Nat] in
theorem plan_armPacer [Draws γ Span] (hs : s.events.Orderly) {g : Generator σ γ}
    (hfound : s.generator? d = some g) {pacer : Pacer γ} (hpaced : g.pacer? = some pacer)
    (hfree : pacer.pending? = none) (hdues : s.events.ticketsOf (.segmentDue d) = [])
    (hticks : s.events.ticketsOf (.frameTick d) = g.source.pending?.toList)
    (htick : g.source.pending?.map (·.time) = g.source.nextTick?) (now : Instant) :
    ∃ g', (s.armPacer d now).generator? d = some g' ∧ g'.source = g.source ∧
      g'.waiting = pacer.queued.toList ∧ g'.Scheduled d (s.armPacer d now).events := by
  unfold armPacer
  rw [hfound]
  dsimp only
  rw [hpaced]
  dsimp only
  generalize harm : pacer.arm s.events now (.segmentDue d) = r
  obtain ⟨time?, rest, events⟩ := r
  have hidle : s.events.ticketsOf (.segmentDue d) = pacer.pending?.toList := by
    rw [hdues, hfree]
    rfl
  obtain ⟨hqueued, htickets, hnext, hothers⟩ := Pacer.scheduled_of_arm harm hs hidle (by simp [hfree])
  refine ⟨_, generator?_setGenerator .., rfl, congrArg Fifo.toList hqueued,
    ⟨htickets, fun pacer h => ?_⟩, (hothers _ (by simp)).trans hticks, htick⟩
  cases h
  exact hnext

/-! The events. -/

variable [Draws γ Span]

omit [Draws σ Nat] [Draws γ Span] in
theorem ticket_of_pop? {now : Instant} {a : Event} {ticket? : Option Ticket}
    (hpop : s.events.pop? = some ((now, a), events)) (htickets : s.events.ticketsOf a = ticket?.toList) :
    ticket?.map (·.time) = some now ∧ events.ticketsOf a = [] := by
  obtain ⟨number, hall⟩ := EventQueue.ticketsOf_of_pop? hpop
  have hown := hall a
  rw [if_pos rfl, htickets] at hown
  cases ticket? with
  | none => cases hown
  | some ticket =>
    obtain ⟨rfl, hrest⟩ := List.cons.inj hown
    exact ⟨rfl, hrest.symm⟩

theorem Standing.plan_frame (hs : s.Standing c) (hnow : s.events.now = now) {g : Generator σ γ}
    (hfound : s.generator? d = some g) (hg : g.Paced d s.events)
    (hticks : s.events.ticketsOf (.frameTick d) = []) (htick : g.source.nextTick? = some now)
    {frame : Frame} {source : FrameSource σ} (hemit : g.source.emit now = (frame, source)) :
    ((s.hand d now { g with source } frame).armSource d).events.Orderly ∧
    ∃ g', ((s.hand d now { g with source } frame).armSource d).generator? d = some g' ∧
      (∃ pending?, g'.source.unrecorded = { source.unrecorded with pending? }) ∧
      (match g.pacer? with
        | some _ => []
        | none => s.segmenter.sizes frame.size) ++ g'.waiting =
        g.waiting ++ s.segmenter.sizes frame.size ∧
      g'.Scheduled d ((s.hand d now { g with source } frame).armSource d).events := by
  have hpaced : ({ g with source } : Generator σ γ).Paced d s.events := ⟨hg.dues, hg.due⟩
  obtain ⟨g₁, hfound₁, hsource₁, hsegments, hpaced₁, hticks₁⟩ :=
    plan_hand hs.orderly hpaced now frame
  obtain ⟨hstanding₁, hnow₁⟩ := (moves_hand hfound hemit).standing hs
  have hlate : ∀ time, g₁.source.nextTick? = some time →
      (s.hand d now { g with source } frame).events.now ≤ time := by
    intro time h
    have hsource : source = (g.source.emit now).2 := (congrArg Prod.snd hemit).symm
    rw [FrameSource.nextTick?_of_unrecorded hsource₁, hsource] at h
    rw [hnow₁, hnow]
    exact FrameSource.le_nextTick?_emit htick h
  obtain ⟨g₂, hfound₂, ⟨pending?, hsource₂⟩, hwaiting₂, hscheduled⟩ :=
    plan_armSource hstanding₁.orderly hfound₁ hpaced₁ (hticks₁.trans hticks) hlate
  obtain ⟨hstanding₂, _⟩ := (moves_armSource _ d now).standing hstanding₁
  refine ⟨hstanding₂.orderly, g₂, hfound₂, ⟨pending?, ?_⟩, ?_, hscheduled⟩
  · rw [hsource₂]
    exact congrArg (fun s : FrameSource σ => { s with pending? }) hsource₁
  · rw [hwaiting₂]
    exact hsegments

theorem Standing.turn_of_tick (hs : s.Standing c) (hp : s.Planned d)
    (hpop : s.events.pop? = some ((now, .frameTick d), events)) :
    Turn d s ((s.advanced events).onFrameTick d now) := by
  obtain ⟨number, hall⟩ := EventQueue.ticketsOf_of_pop? hpop
  have hdues := hall (.segmentDue d)
  rw [if_neg (by simp), List.nil_append] at hdues
  obtain ⟨hstanding, _, hnow⟩ := (Opening.tick hpop).standing hs
  cases hfound : s.generator? d with
  | none =>
    have hticks := hall (.frameTick d)
    rw [(hp.absent hfound).1, if_pos rfl] at hticks
    cases hticks
  | some g =>
    have hg := hp.found g hfound
    obtain ⟨htime, hnone⟩ := ticket_of_pop? hpop hg.ticks
    have htick : g.source.nextTick? = some now := hg.tick.symm.trans htime
    obtain ⟨⟨frame, source⟩, hemit⟩ : ∃ r, g.source.emit now = r := ⟨_, rfl⟩
    have hfound' : (s.advanced events).generator? d = some g := hfound
    rw [onFrameTick_of_found hfound' hemit]
    have hnote : Move now d (s.advanced events)
        ((s.advanced events).note (.frameGenerated frame.index frame.size now)) := .note d _ _ _
    have hpaced : g.Paced d events := ⟨hdues.symm.trans hg.dues, hg.due⟩
    obtain ⟨horderly, g', hg', hsource, hsegments, hscheduled⟩ :=
      (hnote.standing hstanding).plan_frame hnow hfound' hpaced hnone htick hemit
    refine Turn.trans_same ?_ (samePlan_fill horderly d now d)
    have hmade : s.nextFrame? d = some (g.source.emit now).1 := by
      simp only [nextFrame?, hpop, made?, hfound, if_true, Option.map_some]
    refine .frame hfound hg' htick hmade (by rw [hemit]; exact hsource) ?_ hscheduled
    simp only [nextHanded, hpop, handed, hfound, if_true, Option.elim_some, hemit]
    exact hsegments

theorem Standing.plan_segment (hs : s.Standing c) {g : Generator σ γ} (hfound : s.generator? d = some g)
    {pacer rest : Pacer γ} {size? : Option Nat} (hpaced : g.pacer? = some pacer)
    (htake : pacer.take = (size?, rest)) (hdues : s.events.ticketsOf (.segmentDue d) = [])
    (hticks : s.events.ticketsOf (.frameTick d) = g.source.pending?.toList)
    (htick : g.source.pending?.map (·.time) = g.source.nextTick?) (now : Instant) :
    ((s.afterSegment d { g with pacer? := some rest } size?).armPacer d now).events.Orderly ∧
    ∃ g', ((s.afterSegment d { g with pacer? := some rest } size?).armPacer d now).generator? d =
        some g' ∧ g'.source.unrecorded = g.source.unrecorded ∧ g'.waiting = rest.queued.toList ∧
      g'.Scheduled d
        ((s.afterSegment d { g with pacer? := some rest } size?).armPacer d now).events := by
  obtain ⟨_, hfree⟩ := Pacer.of_take htake
  have hmoves : Moves now d s _ := moves_afterSegment hfound hpaced htake
  obtain ⟨hstanding₁, _⟩ := hmoves.standing hs
  obtain ⟨⟨g₁, hfound₁, hplan₁⟩, hevents₁⟩ := s.plan_afterSegment d { g with pacer? := some rest } size?
  have hsource₁ : g₁.source.unrecorded = g.source.unrecorded := congrArg Prod.fst hplan₁
  have hpending₁ : g₁.source.pending? = g.source.pending? := congrArg (·.pending?) hsource₁
  obtain ⟨g₂, hfound₂, hsource₂, hwaiting₂, hscheduled⟩ := plan_armPacer hstanding₁.orderly hfound₁
    (congrArg Prod.snd hplan₁) hfree (by rw [hevents₁, hdues]) (by rw [hevents₁, hpending₁, hticks])
    (by rw [hpending₁, htick, FrameSource.nextTick?_of_unrecorded hsource₁]) now
  obtain ⟨hstanding₂, _⟩ := (moves_armPacer _ d now).standing hstanding₁
  exact ⟨hstanding₂.orderly, g₂, hfound₂, by rw [hsource₂, hsource₁], hwaiting₂, hscheduled⟩

theorem Standing.turn_of_due (hs : s.Standing c) (hp : s.Planned d)
    (hpop : s.events.pop? = some ((now, .segmentDue d), events)) :
    Turn d s ((s.advanced events).onSegmentDue d now) := by
  obtain ⟨number, hall⟩ := EventQueue.ticketsOf_of_pop? hpop
  have hown := hall (.segmentDue d)
  have hticks := hall (.frameTick d)
  rw [if_pos rfl] at hown
  rw [if_neg (by simp), List.nil_append] at hticks
  obtain ⟨hstanding, _⟩ := (Opening.due hpop).standing hs
  cases hfound : s.generator? d with
  | none =>
    rw [(hp.absent hfound).2] at hown
    cases hown
  | some g =>
    have hg := hp.found g hfound
    cases hpaced : g.pacer? with
    | none =>
      rw [hg.dues, hpaced] at hown
      cases hown
    | some pacer =>
      have htickets := hg.dues
      rw [hpaced, Option.bind_some] at htickets
      obtain ⟨_, hnone⟩ := ticket_of_pop? hpop htickets
      obtain ⟨⟨size?, rest⟩, htake⟩ : ∃ r, pacer.take = r := ⟨_, rfl⟩
      have hfound' : (s.advanced events).generator? d = some g := hfound
      rw [onSegmentDue_of_found hfound' hpaced htake]
      obtain ⟨horderly, g', hg', hsource, hwaiting, hscheduled⟩ :=
        hstanding.plan_segment hfound' hpaced htake hnone (hticks.symm.trans hg.ticks) hg.tick now
      refine Turn.trans_same ?_ (samePlan_fill horderly d now d)
      have hmade : s.nextFrame? d = none := by
        simp only [nextFrame?, hpop, made?]
      have hhanded : s.nextHanded d = size?.toList := by
        simp only [nextHanded, hpop, handed, hfound, hpaced, if_true, Option.bind_some,
          Option.elim_some, htake]
      refine .segment hfound hg' hmade hsource ?_ hscheduled
      rw [hhanded, hwaiting, Generator.waiting, hpaced, Option.elim_some, Pacer.toList_of_take htake]

theorem Standing.turn_of_other (hs : s.Standing c) {a : Event}
    (hpop : s.events.pop? = some ((now, a), events)) (htick : a ≠ .frameTick d)
    (hdue : a ≠ .segmentDue d) (hgoing : a ≠ .stop) : Turn d s ((s.advanced events).handle now a) := by
  have hmade : s.nextFrame? d = none := by
    rw [nextFrame?, hpop]
    cases a with
    | frameTick e => exact if_neg fun heq => htick (by rw [heq])
    | _ => rfl
  have hhanded : s.nextHanded d = [] := by
    rw [nextHanded, hpop]
    cases a with
    | frameTick e => exact if_neg fun heq => htick (by rw [heq])
    | segmentDue e => exact if_neg fun heq => hdue (by rw [heq])
    | _ => rfl
  have hopened : SamePlan d s (s.advanced events) := .of_pop? hpop rfl htick hdue
  have horderly : (s.advanced events).events.Orderly := (hs.orderly.of_pop? hpop).2.2
  refine .rest hmade hhanded (hopened.trans ?_)
  cases a with
  | frameTick e =>
    exact (moves_onFrameTick _ e now).samePlan_of_ne horderly fun heq => htick (by rw [heq])
  | segmentDue e =>
    exact (moves_onSegmentDue _ e now).samePlan_of_ne horderly fun heq => hdue (by rw [heq])
  | wireFree e =>
    have hfreed : SamePlan d (s.advanced events)
        { s.advanced events with link := (s.advanced events).link.complete e } :=
      (SamePlan.refl d _).of_eq rfl rfl
    exact hfreed.trans (samePlan_fill (by exact horderly) e now d)
  | arrival e p => exact samePlan_onArrival horderly e now p d
  | stop => exact absurd rfl hgoing

/-- Every event but the stop does one of three things to the plan of a direction. -/
theorem Standing.turn_of_step? (hs : s.Standing c) (hp : s.Planned d) (hstep : s.step? = some t)
    (hrunning : t.summary? = none) : Turn d s t := by
  obtain ⟨_, now, a, events, hpop, rfl⟩ := step?_eq_some hstep
  by_cases htick : a = .frameTick d
  · subst htick
    exact hs.turn_of_tick hp hpop
  · by_cases hdue : a = .segmentDue d
    · subst hdue
      exact hs.turn_of_due hp hpop
    · refine hs.turn_of_other hpop htick hdue ?_
      rintro rfl
      obtain ⟨_, _, heq, _⟩ := onStop_eq (s.advanced events) now
      rw [handle, heq] at hrunning
      cases hrunning

end

/-! The run. -/

section

omit [Draws σ Nat] [Draws γ Span]

theorem addGenerator_eq (s : Session σ γ) (d : Direction) (feed : Feed σ γ) :
    let armed := (Generator.idle s.config d feed none).source.arm s.events (.frameTick d)
    s.addGenerator d feed = { s with events := armed.2.2 }.setGenerator d
      { Generator.idle s.config d feed none with source := armed.2.1 } := rfl

theorem Planned.addGenerator {s : Session σ γ} (hs : ∀ e, s.Planned e) (horderly : s.events.Orderly)
    (hnow : s.events.now = .zero) {d : Direction} (hnone : s.generator? d = none) (feed : Feed σ γ)
    (e : Direction) : (s.addGenerator d feed).Planned e := by
  have heq := s.addGenerator_eq d feed
  obtain ⟨g, hg⟩ : ∃ g, g = Generator.idle s.config d feed none := ⟨_, rfl⟩
  rw [← hg] at heq
  generalize harm : g.source.arm s.events (.frameTick d) = r at heq
  obtain ⟨time?, source, events⟩ := r
  obtain ⟨hticks, hdues⟩ := (hs d).absent hnone
  obtain ⟨_, htickets, htime, hothers⟩ := FrameSource.scheduled_of_arm harm horderly hticks
    (fun time _ => by rw [hnow]; exact Nat.zero_le _)
  rw [heq]
  by_cases he : e = d
  · subst he
    refine planned_of_found (generator?_setGenerator _ e { g with source }) ⟨⟨?_, ?_⟩, htickets, htime⟩
    · show events.ticketsOf (.segmentDue e) = _
      rw [hothers _ (by simp), hdues, hg, Generator.idle]
      cases feed.gaps? <;> rfl
    · intro pacer hpaced
      rw [hg] at hpaced
      obtain ⟨gaps, _, rfl⟩ := Option.map_eq_some_iff.1 hpaced
      exact ⟨fun _ => rfl, fun _ => rfl⟩
  · refine SamePlan.planned ⟨?_, hothers _ ?_, hothers _ (by simp)⟩ (hs e)
    · rw [generator?_setGenerator_of_ne _ he]
      rfl
    · simpa using Ne.symm he

theorem Begins.planned {c : Config} {feeds : Duplex (Option (Feed σ γ))} {s : Session σ γ}
    (h : s.Begins c feeds) (d : Direction) : s.Planned d := by
  obtain ⟨monitor, segmenter, journal, _, _, rfl⟩ := h.state
  obtain ⟨journal', heq⟩ := start_eq c monitor segmenter feeds
  rw [heq]
  have hbare := untouched_bare (σ := σ) (γ := γ) c monitor segmenter
  have hempty : ∀ e, (bare c monitor segmenter : Session σ γ).Planned e := by
    intro e
    have hnone : ∀ a, a ≠ Event.stop →
        (bare c monitor segmenter : Session σ γ).events.ticketsOf a = [] := by
      intro a ha
      have hother := EventQueue.orderly_empty.ticketsOf_schedule_of_ne
        (Instant.zero.after c.duration) (Ne.symm ha)
      exact hother.trans (by rw [EventQueue.ticketsOf, EventQueue.toList_empty]; rfl)
    refine ⟨fun g hfound => ?_, fun _ => ⟨hnone _ (by simp), hnone _ (by simp)⟩⟩
    cases e <;> cases hfound
  have hadd : ∀ {s : Session σ γ}, s.Untouched c monitor segmenter → (∀ e, s.Planned e) →
      ∀ d, s.generator? d = none → ∀ e, ((feeds.get d).elim s (s.addGenerator d)).Planned e := by
    intro s hu hs d hnone
    cases feeds.get d with
    | none => exact hs
    | some feed => exact Planned.addGenerator hs hu.orderly hu.now hnone feed
  obtain ⟨u, hu⟩ : ∃ u : Session σ γ, u = (feeds.get .uplink).elim (bare c monitor segmenter)
      ((bare c monitor segmenter).addGenerator .uplink) := ⟨_, rfl⟩
  have huntouched : u.Untouched c monitor segmenter := by
    rw [hu]
    cases feeds.get .uplink with
    | none => exact hbare
    | some feed => exact hbare.addGenerator .uplink feed
  have hnone : u.generator? .downlink = none := by
    rw [hu]
    cases feeds.get .uplink with
    | none => rfl
    | some feed => exact generator?_addGenerator_of_ne _ (by decide) feed
  have hplanned : ∀ e, (populated c monitor segmenter feeds).Planned e := by
    have hfirst : ∀ e, u.Planned e := hu ▸ hadd hbare hempty .uplink rfl
    have hsecond := hadd huntouched hfirst .downlink hnone
    rw [hu] at hsecond
    exact hsecond
  refine SamePlan.planned ?_ (hplanned d)
  exact ⟨rfl, rfl, rfl⟩

end

/-- Until the stop the next frame and the next segment of a direction are pending, if there are any. -/
theorem Reaches.planned {c : Config} {feeds : Duplex (Option (Feed σ γ))} {s t : Session σ γ}
    (h : s.Reaches t) (hs : s.Begins c feeds) (hrunning : t.summary? = none) (d : Direction) :
    t.Planned d := by
  refine h.induct_running (P := fun t => t.Planned d) hs hrunning ((hs.note _).planned d) ?_
  intro u v hstanding hu hstep hv
  exact (hstanding.turn_of_step? hu hstep hv).planned hu

end Session

end VideoLink
