import VideoLink.Session.Handlers
import VideoLink.Session.Work

/-! Why a run ends. The frame of a tick is one of the 2^32 frames of its direction, and every other event
leads to less work than it is itself. `decreases_of_step?` says both at once. -/
namespace VideoLink.Session

variable {σ γ : Type}

/-- The frames that are still to come, those whose tick is pending counted twice. -/
def framesLeft (s : Session σ γ) : Nat :=
  s.events.load Event.ticks + s.generators.total (·.elim 0 Generator.framesLeft)

/-- A bound on the events that are still to come, if no frame comes any more. -/
def work (s : Session σ γ) : Nat :=
  s.events.load Event.work + s.link.work + s.generators.total (·.elim 0 Generator.work)

theorem framesLeft_setGenerator {s : Session σ γ} {d : Direction} {g : Generator σ γ}
    (h : s.generator? d = some g) (g' : Generator σ γ) :
    (s.setGenerator d g').framesLeft + g.framesLeft = s.framesLeft + g'.framesLeft := by
  have total := s.generators.total_set (·.elim 0 Generator.framesLeft) d (some g')
  rw [show s.generators.get d = some g from h] at total
  simp only [Option.elim_some] at total
  simp only [framesLeft, setGenerator]
  omega

theorem work_setGenerator {s : Session σ γ} {d : Direction} {g : Generator σ γ}
    (h : s.generator? d = some g) (g' : Generator σ γ) :
    (s.setGenerator d g').work + g.work = s.work + g'.work := by
  have total := s.generators.total_set (·.elim 0 Generator.work) d (some g')
  rw [show s.generators.get d = some g from h] at total
  simp only [Option.elim_some] at total
  simp only [work, setGenerator]
  omega

@[simp] theorem generator?_setGenerator (s : Session σ γ) (d : Direction) (g : Generator σ γ) :
    (s.setGenerator d g).generator? d = some g :=
  s.generators.get_set_self d (some g)

/-- One state leads to at most `extra` more work than another, and to no more frames. -/
def Within (extra : Nat) (t s : Session σ γ) : Prop :=
  t.framesLeft ≤ s.framesLeft ∧ t.work ≤ s.work + extra

namespace Within

theorem refl (s : Session σ γ) : Within 0 s s := ⟨Nat.le_refl _, Nat.le_refl _⟩

theorem trans {m n : Nat} {u t s : Session σ γ} (ut : Within m u t) (ts : Within n t s) :
    Within (m + n) u s := by
  obtain ⟨_, _⟩ := ut
  obtain ⟨_, _⟩ := ts
  constructor <;> omega

theorem mono {m n : Nat} {t s : Session σ γ} (h : Within m t s) (le : m ≤ n) : Within n t s :=
  ⟨h.1, Nat.le_trans h.2 (Nat.add_le_add_left le _)⟩

end Within

theorem within_noteAny (s : Session σ γ) (n? : Option Notice) : Within 0 (s.noteAny n?) s := by
  cases n? <;> exact .refl s

theorem within_see (s : Session σ γ) (point : CapturePoint) (d : Direction) (now : Instant)
    (p : Packet) : Within 0 (s.see point d now p) s :=
  within_noteAny _ _

theorem within_schedule (s : Session σ γ) (time : Instant) {e : Event} (h : e.ticks = 0) :
    Within e.work (s.schedule time e) s := by
  have ticks := EventQueue.load_schedule_le Event.ticks s.events time e
  have works := EventQueue.load_schedule_le Event.work s.events time e
  simp only [Within, framesLeft, work, schedule]
  omega

theorem within_startWire (s : Session σ γ) (d : Direction) (now : Instant) :
    Within 0 (s.startWire d now) s := by
  unfold startWire
  split
  · exact .refl s
  · rename_i t link started
    have left := Link.work_of_start? started
    have rest := (within_schedule _ t.arrival (e := .arrival d t.packet) rfl).trans
      ((within_schedule _ t.finish (e := .wireFree d) rfl).trans
        (within_see { s with link } .transmit d now t.packet))
    simp only [Within, framesLeft, work, Event.work] at rest ⊢
    omega

/-- A packet that leaves a socket takes its work along, wherever it goes. -/
theorem within_drawn {s : Session σ γ} {d : Direction} {g : Generator σ γ} {p : Packet}
    {socket : Socket} {uids : UidCounter} (found : s.generator? d = some g)
    (next : g.socket.next? s.uids = some (p, socket, uids)) (monitor : Monitor) :
    Within 0 { s.setGenerator d { g with socket } with
      uids, link := (s.link.enqueue d p).2, monitor } s := by
  have left := Socket.work_of_next? next
  have queued := s.link.work_enqueue d p
  have frames := framesLeft_setGenerator found { g with socket }
  have works := work_setGenerator found { g with socket }
  simp only [framesLeft, work, Generator.framesLeft, Generator.work, setGenerator] at frames works
  simp only [Within, framesLeft, work, setGenerator]
  split at queued <;> omega

theorem within_load (s : Session σ γ) (d : Direction) (now : Instant) :
    Within 0 (s.load d now) s := by
  fun_induction load s d now with
  | case1 | case2 | case5 => exact .refl _
  | case3 s _ g found p socket uids next t link taken ih =>
    have drawn := within_drawn found next (s.monitor.send p.flow p.uid p.size now)
    rw [taken] at drawn
    exact ih.trans drawn
  | case4 s _ g found p socket uids next t link refused =>
    have drawn := within_drawn found next s.monitor
    rw [refused] at drawn
    exact drawn

theorem within_fill (s : Session σ γ) (d : Direction) (now : Instant) :
    Within 0 (s.fill d now) s :=
  (within_startWire _ d now).trans (within_load s d now)

theorem within_onWireFree (s : Session σ γ) (d : Direction) (now : Instant) :
    Within 0 (s.onWireFree d now) s := by
  have freed : Within 0 { s with link := s.link.complete d } s := by
    simp only [Within, framesLeft, work, Link.work_complete]
    omega
  exact (within_fill _ d now).trans freed

theorem within_sendAck (s : Session σ γ) (d : Direction) (now : Instant) {ack : Packet}
    (h : ack.kind = .ack) : Within 2 (s.sendAck d now ack) s := by
  have queued := s.link.work_enqueue d ack
  unfold sendAck
  generalize s.link.enqueue d ack = r at queued
  obtain ⟨taken, link⟩ := r
  simp only [Event.arrivalWork, h] at queued
  cases taken with
  | true =>
    have started := within_startWire
      { s with link, monitor := s.monitor.send ack.flow ack.uid ack.size now } d now
    simp only [if_true] at queued ⊢
    simp only [Within, framesLeft, work] at started ⊢
    omega
  | false =>
    simp only [Within, framesLeft, work, note, Bool.false_eq_true, if_false] at queued ⊢
    omega

theorem within_acknowledge (s : Session σ γ) (d : Direction) (now : Instant) :
    Within 2 (s.acknowledge d now) s := by
  unfold acknowledge
  split
  · exact (Within.refl s).mono (by decide)
  · rename_i g found
    split
    · exact (Within.refl s).mono (by decide)
    · rename_i acks _
      have counted : ∀ acks uids,
          Within 0 ({ s with uids }.setGenerator d { g with acks? := some acks }) s := by
        intro acks uids
        have frames := framesLeft_setGenerator found { g with acks? := some acks }
        have works := work_setGenerator found { g with acks? := some acks }
        simp only [framesLeft, work, Generator.framesLeft, Generator.work, setGenerator] at frames works
        simp only [Within, framesLeft, work, setGenerator]
        omega
      have kind := acks.kind_of_onData s.uids
      generalize acks.onData s.uids = r at kind
      obtain ⟨ack?, acks, uids⟩ := r
      cases ack? with
      | none => exact (counted acks uids).mono (by decide)
      | some ack => exact (within_sendAck _ d.reverse now (kind ack rfl)).trans (counted acks uids)

theorem within_receive (s : Session σ γ) (now : Instant) (p : Packet) :
    Within 0 (s.receive now p) s := by
  unfold receive
  generalize s.monitor.receive p.flow p.uid p.size now = r
  obtain ⟨delay?, monitor⟩ := r
  cases delay? <;> exact .refl s

theorem within_onArrival (s : Session σ γ) (d : Direction) (now : Instant) (p : Packet) :
    Within (Event.arrivalWork p - 1) (s.onArrival d now p) s := by
  have received := (within_receive _ now p).trans (within_see s .receive d now p)
  unfold onArrival Event.arrivalWork
  cases p.kind with
  | data => exact (within_acknowledge _ d now).trans received
  | ack => exact received

theorem generator?_recordDispatch (s : Session σ γ) (d : Direction) (g : Generator σ γ)
    (o : DispatchOutcome) (socket : Socket) :
    (s.recordDispatch d g o socket).generator? d =
      some { g with source := g.source.record o, socket } :=
  generator?_setGenerator _ _ _

theorem left_recordDispatch {s : Session σ γ} {d : Direction} {old : Generator σ γ}
    (h : s.generator? d = some old) (g : Generator σ γ) (o : DispatchOutcome) (socket : Socket) :
    (s.recordDispatch d g o socket).framesLeft + old.framesLeft = s.framesLeft + g.framesLeft ∧
      (s.recordDispatch d g o socket).work + old.work + g.socket.work =
        s.work + g.work + socket.work := by
  have kept : ∀ n?, (s.noteAny n?).generator? d = some old ∧
      (s.noteAny n?).framesLeft = s.framesLeft ∧ (s.noteAny n?).work = s.work := by
    intro n?
    cases n? <;> exact ⟨h, rfl, rfl⟩
  obtain ⟨found, sameFrames, sameWork⟩ := kept (failureNotice? d o)
  have frames := framesLeft_setGenerator found { g with source := g.source.record o, socket }
  have works := work_setGenerator found { g with source := g.source.record o, socket }
  simp only [Generator.framesLeft, Generator.work, FrameSource.record] at frames works ⊢
  simp only [recordDispatch, FrameSource.record]
  omega

theorem within_armPacer [Draws γ Span] {s : Session σ γ} {d : Direction} {g : Generator σ γ}
    {pacer : Pacer γ} (found : s.generator? d = some g) (paced : g.pacer? = some pacer)
    (now : Instant) :
    Within (if pacer.queued.isEmpty then 0 else 1) (s.armPacer d now) s := by
  have frames := fun p => framesLeft_setGenerator found { g with pacer? := some p }
  have works := fun p => work_setGenerator found { g with pacer? := some p }
  simp only [framesLeft, work, Generator.framesLeft, Generator.work, setGenerator, Pacer.work,
    paced, Option.elim_some] at frames works
  simp only [Within, armPacer, found, paced, Pacer.arm]
  split
  · have f := frames pacer
    have w := works pacer
    simp only [framesLeft, work, setGenerator]
    omega
  · rename_i waiting
    simp only [Bool.or_eq_true, not_or, Bool.not_eq_true] at waiting
    generalize Draws.draw pacer.gaps = r
    obtain ⟨gap, gaps⟩ := r
    have scheduled := within_schedule s (now.after gap) (e := .segmentDue d) rfl
    have f := frames
      { pacer with gaps, pending? := some (s.events.schedule (now.after gap) (.segmentDue d)).1 }
    have w := works
      { pacer with gaps, pending? := some (s.events.schedule (now.after gap) (.segmentDue d)).1 }
    simp only [Within, schedule, framesLeft, work, Event.work, waiting.2, Bool.false_eq_true,
      if_false, setGenerator] at scheduled f w ⊢
    omega

theorem within_onSegmentDue [Draws γ Span] (s : Session σ γ) (d : Direction) (now : Instant) :
    Within 0 (s.onSegmentDue d now) s := by
  unfold onSegmentDue
  split
  · exact .refl s
  · rename_i g found
    split
    · exact .refl s
    · rename_i pacer paced
      have taken := pacer.work_take
      have last := @pacer.isEmpty_of_take
      generalize pacer.take = r at taken last
      obtain ⟨size?, rest⟩ := r
      cases size? with
      | none =>
        have frames := framesLeft_setGenerator found { g with pacer? := some rest }
        have works := work_setGenerator found { g with pacer? := some rest }
        have armed := within_armPacer
          (generator?_setGenerator s d { g with pacer? := some rest }) rfl now
        have filled := (within_fill _ d now).trans armed
        simp only [last rfl, if_true, Within] at filled
        simp only [Generator.framesLeft, Generator.work, paced, Option.elim_some, Option.elim_none]
          at frames works taken
        simp only [Within]
        omega
      | some size =>
        have sent := g.socket.work_dispatch [size]
        simp only
        generalize dispatch g.socket [size] = r at sent
        obtain ⟨outcome, socket⟩ := r
        obtain ⟨frames, works⟩ :=
          left_recordDispatch found { g with pacer? := some rest } outcome socket
        have armed := within_armPacer (generator?_recordDispatch s d
          { g with pacer? := some rest } outcome socket) rfl now
        have filled := (within_fill _ d now).trans (armed.mono (n := 1) (by split <;> decide))
        simp only [Within] at filled
        simp only [Generator.framesLeft, Generator.work, paced, Option.elim_some, weight_cons,
          weight_nil, id] at frames works taken sent
        simp only [Within]
        omega

/-- A frame is scheduled only if its number is below 2^32. -/
theorem framesLeft_armSource {s : Session σ γ} {d : Direction} {g : Generator σ γ}
    (found : s.generator? d = some g) :
    (s.armSource d).framesLeft ≤ s.framesLeft + if g.source.nextIndex < UInt32.size then 1 else 0 := by
  have frames := fun pending? =>
    framesLeft_setGenerator found { g with source := { g.source with pending? := pending? } }
  simp only [armSource, found, FrameSource.arm]
  cases tick : g.source.nextTick? with
  | none =>
    have armed := frames none
    simp only [framesLeft, setGenerator, Generator.framesLeft] at armed ⊢
    omega
  | some time =>
    have armed := frames (some (s.events.schedule time (.frameTick d)).1)
    have ticks := EventQueue.load_schedule_le Event.ticks s.events time (.frameTick d)
    have numbered := FrameSource.nextIndex_lt_of_nextTick? tick
    simp only [numbered, if_true, Event.ticks, framesLeft, setGenerator, Generator.framesLeft]
      at armed ticks ⊢
    omega

theorem framesLeft_hand [Draws γ Span] {s : Session σ γ} {d : Direction} {old : Generator σ γ}
    (found : s.generator? d = some old) (now : Instant) (g : Generator σ γ) (frame : Frame) :
    (s.hand d now g frame).framesLeft + old.framesLeft ≤ s.framesLeft + g.framesLeft ∧
      ∃ next, (s.hand d now g frame).generator? d = some next ∧
        next.source.nextIndex = g.source.nextIndex := by
  unfold hand
  cases g.pacer? with
  | none =>
    refine ⟨Nat.le_of_eq (left_recordDispatch found g _ _).1, _, generator?_recordDispatch .., rfl⟩
  | some pacer =>
    simp only
    refine ⟨?_, _, generator?_setGenerator .., rfl⟩
    have armed := (pacer.push (s.segmenter.sizes frame.size)).load_arm_le Event.ticks s.events now
      (.segmentDue d)
    generalize (pacer.push (s.segmenter.sizes frame.size)).arm s.events now (.segmentDue d) = r
      at armed
    obtain ⟨_, pacer, events⟩ := r
    have frames := framesLeft_setGenerator found { g with pacer? := some pacer }
    simp only [framesLeft, setGenerator, Generator.framesLeft, Event.ticks] at armed frames ⊢
    omega

theorem framesLeft_onFrameTick [Draws σ Nat] [Draws γ Span] (s : Session σ γ) (d : Direction)
    (now : Instant) : (s.onFrameTick d now).framesLeft ≤ s.framesLeft := by
  unfold onFrameTick
  split
  · exact Nat.le_refl _
  · rename_i g found
    simp only
    generalize emitted : g.source.emit now = r
    obtain ⟨frame, source⟩ := r
    have index : source.nextIndex = g.source.nextIndex + 1 :=
      (congrArg (·.2.nextIndex) emitted).symm
    have found' : (s.note (.frameGenerated frame.index frame.size now)).generator? d = some g := found
    obtain ⟨handed, next, known, same⟩ := framesLeft_hand found' now { g with source } frame
    have armed := framesLeft_armSource known
    refine Nat.le_trans (within_fill _ d now).1 (Nat.le_trans armed ?_)
    have noted : (s.note (.frameGenerated frame.index frame.size now)).framesLeft = s.framesLeft := rfl
    simp only [Generator.framesLeft, index, same, noted] at handed ⊢
    split <;> omega

theorem within_stopGenerator (s : Session σ γ) (d : Direction) :
    Within 0 (s.stopGenerator d) s := by
  unfold stopGenerator
  split
  · exact .refl s
  · rename_i g found
    have ticks := g.source.load_halt_le Event.ticks s.events
    have works := g.source.load_halt_le Event.work s.events
    have index : (g.source.halt s.events).1.nextIndex = g.source.nextIndex := rfl
    generalize g.source.halt s.events = r at ticks works index
    obtain ⟨source, events⟩ := r
    cases paced : g.pacer? with
    | none =>
      have frames := framesLeft_setGenerator found
        { g with source, pacer? := none, socket := g.socket.close }
      have left := work_setGenerator found
        { g with source, pacer? := none, socket := g.socket.close }
      simp only [framesLeft, work, Generator.framesLeft, Generator.work, Socket.work, Socket.close,
        setGenerator, Option.elim_none] at index ticks works frames left
      simp only [Within, framesLeft, work, Socket.close, setGenerator, note]
      omega
    | some pacer =>
      have pacerTicks := pacer.load_stop_le Event.ticks events
      have pacerWork := pacer.load_stop_le Event.work events
      have dropped : (pacer.stop events).2.1.work = 0 := rfl
      simp only
      generalize pacer.stop events = r at pacerTicks pacerWork dropped
      obtain ⟨unpaced, rest, events⟩ := r
      have frames := framesLeft_setGenerator found
        { g with source, pacer? := some rest, socket := g.socket.close }
      have left := work_setGenerator found
        { g with source, pacer? := some rest, socket := g.socket.close }
      simp only [framesLeft, work, Generator.framesLeft, Generator.work, Socket.work, Socket.close,
        setGenerator, Option.elim_some] at index ticks works pacerTicks pacerWork dropped frames left
      simp only [Within, framesLeft, work, Socket.close, setGenerator, note]
      omega

theorem within_conclude (s : Session σ γ) (now : Instant) : Within 0 (s.conclude now) s := by
  unfold conclude
  generalize s.monitor.giveUp now = r
  obtain ⟨lost, monitor⟩ := r
  simp only [Within, framesLeft, work, note, EventQueue.load_clear]
  omega

theorem within_onStop (s : Session σ γ) (now : Instant) : Within 0 (s.onStop now) s :=
  (within_conclude _ now).trans
    ((within_stopGenerator _ .downlink).trans (within_stopGenerator s .uplink))

/-- Every event brings a run nearer to its end. -/
theorem decreases_of_step? [Draws σ Nat] [Draws γ Span] {s t : Session σ γ}
    (h : s.step? = some t) :
    Prod.Lex (· < ·) (· < ·) (t.framesLeft, t.work) (s.framesLeft, s.work) := by
  unfold step? at h
  split at h
  · cases h
  · split at h
    · cases h
    · rename_i now e events popped
      have ticks := EventQueue.load_of_pop? Event.ticks popped
      have works := EventQueue.load_of_pop? Event.work popped
      cases h
      let rest : Session σ γ := { s with events, processed := s.processed + 1 }
      have frames : s.framesLeft = rest.framesLeft + e.ticks := by
        simp only [framesLeft, rest]
        omega
      have left : s.work = rest.work + e.work := by
        simp only [work, rest]
        omega
      have within : ∀ {u : Session σ γ} {n : Nat}, Within n u rest → n < e.work →
          Prod.Lex (· < ·) (· < ·) (u.framesLeft, u.work) (s.framesLeft, s.work) := by
        intro u n inside lt
        obtain ⟨_, _⟩ := inside
        exact Prod.Lex.right' _ (by omega) (by omega)
      cases e with
      | frameTick d =>
        -- A tick may bring any amount of work, but there is one frame less to come.
        have := rest.framesLeft_onFrameTick d now
        exact .left _ _ (Nat.lt_of_le_of_lt this (by rw [frames]; exact Nat.lt_succ_self _))
      | segmentDue d => exact within (within_onSegmentDue rest d now) Nat.zero_lt_one
      | wireFree d => exact within (within_onWireFree rest d now) Nat.zero_lt_one
      | arrival d p =>
        refine within (within_onArrival rest d now p) ?_
        simp only [Event.work, Event.arrivalWork]
        split <;> decide
      | stop => exact within (within_onStop rest now) Nat.zero_lt_one

end VideoLink.Session
