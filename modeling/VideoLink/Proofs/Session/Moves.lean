import Mathlib.Logic.Relation
import VideoLink.Session.Build

/-! What an event can do to a run, move by move. Each handler is a sequence of moves, and an invariant that
every move keeps is kept by every event. -/
namespace VideoLink

@[simp] theorem Duplex.set_set {α : Type} (p : Duplex α) (d : Direction) (a b : α) :
    (p.set d a).set d b = p.set d b := by
  cases d <;> rfl

namespace Session

variable {σ γ : Type}

theorem generator?_setGenerator_of_ne (s : Session σ γ) {d e : Direction} (h : e ≠ d)
    (g : Generator σ γ) : (s.setGenerator d g).generator? e = s.generator? e :=
  s.generators.get_set_of_ne h (some g)

@[simp] theorem setGenerator_setGenerator (s : Session σ γ) (d : Direction) (g g' : Generator σ γ) :
    (s.setGenerator d g).setGenerator d g' = s.setGenerator d g' := by
  simp only [setGenerator, Duplex.set_set]

variable [Draws σ Nat] [Draws γ Span]

/-- One change that an event makes to the video of a direction or to its packets. -/
inductive Move (now : Instant) : Direction → Session σ γ → Session σ γ → Prop
  | note (d : Direction) (s : Session σ γ) (journal : Array Notice) (capture : Capture) :
      Move now d s { s with journal, capture }
  /-- A frame goes into the socket at once. -/
  | frame {s : Session σ γ} {d : Direction} {g : Generator σ γ} {frame : Frame}
      {source : FrameSource σ} {o : DispatchOutcome} {socket : Socket}
      (found : s.generator? d = some g) (unpaced : g.pacer? = none)
      (emitted : g.source.emit now = (frame, source))
      (sent : dispatch g.socket (s.segmenter.sizes frame.size) = (o, socket)) :
      Move now d s (s.setGenerator d { g with source := source.record o, socket })
  /-- A frame goes to the pacer. -/
  | paced {s : Session σ γ} {d : Direction} {g : Generator σ γ} {pacer : Pacer γ} {frame : Frame}
      {source : FrameSource σ}
      (found : s.generator? d = some g) (paced : g.pacer? = some pacer)
      (emitted : g.source.emit now = (frame, source)) :
      Move now d s (s.setGenerator d
        { g with source, pacer? := some (pacer.push (s.segmenter.sizes frame.size)) })
  /-- A paced segment goes into the socket. -/
  | segment {s : Session σ γ} {d : Direction} {g : Generator σ γ} {pacer rest : Pacer γ}
      {size : Nat} {o : DispatchOutcome} {socket : Socket}
      (found : s.generator? d = some g) (paced : g.pacer? = some pacer)
      (taken : pacer.take = (some size, rest)) (sent : dispatch g.socket [size] = (o, socket)) :
      Move now d s (s.setGenerator d
        { g with source := g.source.record o, pacer? := some rest, socket })
  | noSegment {s : Session σ γ} {d : Direction} {g : Generator σ γ} {pacer rest : Pacer γ}
      (found : s.generator? d = some g) (paced : g.pacer? = some pacer)
      (taken : pacer.take = (none, rest)) :
      Move now d s (s.setGenerator d { g with pacer? := some rest })
  | armPacer {s : Session σ γ} {d : Direction} {g : Generator σ γ} {pacer rest : Pacer γ}
      {time? : Option Instant} {events : EventQueue Event}
      (found : s.generator? d = some g) (paced : g.pacer? = some pacer)
      (armed : pacer.arm s.events now (.segmentDue d) = (time?, rest, events)) :
      Move now d s ({ s with events }.setGenerator d { g with pacer? := some rest })
  | armSource {s : Session σ γ} {d : Direction} {g : Generator σ γ} {source : FrameSource σ}
      {time? : Option Instant} {events : EventQueue Event}
      (found : s.generator? d = some g)
      (armed : g.source.arm s.events (.frameTick d) = (time?, source, events)) :
      Move now d s ({ s with events }.setGenerator d { g with source })
  | load {s : Session σ γ} {d : Direction} {g : Generator σ γ} {p : Packet} {socket : Socket}
      {uids : UidCounter}
      (room : s.link.queued d < s.link.settings.capacity) (found : s.generator? d = some g)
      (next : g.socket.next? s.uids = some (p, socket, uids)) :
      Move now d s { s.setGenerator d { g with socket } with
        uids
        link := s.link.push d p
        monitor := s.monitor.send p.flow p.uid p.size now }
  | start {s : Session σ γ} {d : Direction} {t : Transmission} {link : Link}
      (started : s.link.start? d now = some (t, link)) :
      Move now d s (({ s with link }.schedule t.finish (.wireFree d)).schedule t.arrival
        (.arrival d t.packet))
  /-- A data packet from the other side is counted that needs no answer yet. -/
  | count {s : Session σ γ} {d : Direction} {g : Generator σ γ} {acks rest : AckCounter}
      {uids : UidCounter}
      (found : s.generator? d.reverse = some g) (answering : g.acks? = some acks)
      (counted : acks.onData s.uids = (none, rest, uids)) :
      Move now d s ({ s with uids }.setGenerator d.reverse { g with acks? := some rest })
  /-- An answer to the other side enters a queue. -/
  | answer {s : Session σ γ} {d : Direction} {g : Generator σ γ} {acks rest : AckCounter}
      {uids : UidCounter} {ack : Packet}
      (found : s.generator? d.reverse = some g) (answering : g.acks? = some acks)
      (counted : acks.onData s.uids = (some ack, rest, uids))
      (room : s.link.queued d < s.link.settings.capacity) :
      Move now d s { s.setGenerator d.reverse { g with acks? := some rest } with
        uids
        link := s.link.push d ack
        monitor := s.monitor.send ack.flow ack.uid ack.size now }
  /-- An answer to the other side finds a queue full. -/
  | refuse {s : Session σ γ} {d : Direction} {g : Generator σ γ} {acks rest : AckCounter}
      {uids : UidCounter} {ack : Packet}
      (found : s.generator? d.reverse = some g) (answering : g.acks? = some acks)
      (counted : acks.onData s.uids = (some ack, rest, uids))
      (full : ¬ s.link.queued d < s.link.settings.capacity) :
      Move now d s { s.setGenerator d.reverse { g with acks? := some rest } with
        uids
        link := (s.link.enqueue d ack).2 }

def Moves (now : Instant) (d : Direction) : Session σ γ → Session σ γ → Prop :=
  Relation.ReflTransGen (Move now d)

theorem Moves.trans {now : Instant} {d : Direction} {s t u : Session σ γ}
    (st : Moves now d s t) (tu : Moves now d t u) : Moves now d s u :=
  Relation.ReflTransGen.trans st tu

theorem Moves.induct {P : Session σ γ → Prop} {now : Instant} {d : Direction}
    {s t : Session σ γ} (h : Moves now d s t) (hs : P s)
    (move : ∀ {u v}, P u → Move now d u v → P v) : P t := by
  induction h with
  | refl => exact hs
  | tail _ hv ih => exact move ih hv

theorem moves_noteAny (now : Instant) (d : Direction) (s : Session σ γ) (n? : Option Notice) :
    Moves now d s (s.noteAny n?) := by
  cases n? with
  | none => exact .refl
  | some n => exact .single (.note d s _ _)

omit [Draws σ Nat] [Draws γ Span] in
theorem see_eq (s : Session σ γ) (point : CapturePoint) (d : Direction) (now : Instant)
    (p : Packet) : ∃ journal capture, s.see point d now p = { s with journal, capture } := by
  unfold see
  generalize s.capture.see point d now p = r
  obtain ⟨n?, capture⟩ := r
  cases n? with
  | none => exact ⟨s.journal, capture, rfl⟩
  | some n => exact ⟨s.journal.push n, capture, rfl⟩

omit [Draws σ Nat] [Draws γ Span] in
theorem startWire_cases (s : Session σ γ) (d : Direction) (now : Instant) :
    (s.link.start? d now = none ∧ s.startWire d now = s) ∨
    ∃ t link journal capture, s.link.start? d now = some (t, link) ∧ s.startWire d now =
      (({ s with link, journal, capture }.schedule t.finish (.wireFree d)).schedule t.arrival
        (.arrival d t.packet)) := by
  unfold startWire
  cases h : s.link.start? d now with
  | none => exact .inl ⟨rfl, rfl⟩
  | some r =>
    obtain ⟨t, link⟩ := r
    obtain ⟨journal, capture, hsee⟩ := see_eq { s with link } .transmit d now t.packet
    refine .inr ⟨t, link, journal, capture, rfl, ?_⟩
    dsimp only
    rw [hsee]

theorem moves_startWire (s : Session σ γ) (d : Direction) (now : Instant) :
    Moves now d s (s.startWire d now) := by
  rcases s.startWire_cases d now with ⟨_, heq⟩ | ⟨t, link, journal, capture, hstart, heq⟩
  · rw [heq]
    exact .refl
  · have hnote : Move now d s { s with journal, capture } := .note d s journal capture
    have hmove : Move now d { s with journal, capture } _ := .start hstart
    rw [heq]
    exact .tail (.single hnote) hmove

theorem queued_push (l : Link) (d : Direction) (p : Packet) :
    (l.push d p).queued d = l.queued d + 1 := by
  rw [Link.queued, Link.push, Link.channel_setChannel_self]
  rfl

theorem room_push (l : Link) (d : Direction) (p : Packet) :
    (l.push d p).room d = l.room d - 1 := by
  change l.settings.capacity - (l.push d p).queued d = _
  rw [queued_push, Link.room]
  omega

theorem enqueue_of_room {l : Link} {d : Direction} (h : l.queued d < l.settings.capacity)
    (p : Packet) : l.enqueue d p = (true, l.push d p) := by
  have hc : (l.channel d).enqueue l.settings.capacity p = (true, (l.channel d).push p) := if_pos h
  rw [Link.enqueue, hc]
  rfl

theorem enqueue_of_full {l : Link} {d : Direction} (h : ¬ l.queued d < l.settings.capacity)
    (p : Packet) : l.enqueue d p = (false, l.setChannel d { l.channel d with
      stats := { (l.channel d).stats with drops := (l.channel d).stats.drops + 1 } }) := by
  have hc : (l.channel d).enqueue l.settings.capacity p = (false, _) := if_neg h
  rw [Link.enqueue, hc]

/-! Loading, packet by packet. -/

def load? (s : Session σ γ) (d : Direction) (now : Instant) : Option (Session σ γ) := do
  let g ← s.generator? d
  let (p, socket, uids) ← g.socket.next? s.uids
  let s := s.setGenerator d { g with socket }
  return { s with
    uids
    link := s.link.push d p
    monitor := s.monitor.send p.flow p.uid p.size now }

def loadUpTo (d : Direction) (now : Instant) : Nat → Session σ γ → Session σ γ
  | 0, s => s
  | n + 1, s =>
    match s.load? d now with
    | some s => loadUpTo d now n s
    | none => s

omit [Draws σ Nat] [Draws γ Span] in
theorem load?_eq_some {s t : Session σ γ} {d : Direction} {now : Instant}
    (h : s.load? d now = some t) : ∃ g p socket uids, s.generator? d = some g ∧
      g.socket.next? s.uids = some (p, socket, uids) ∧
      t = { s.setGenerator d { g with socket } with
        uids
        link := s.link.push d p
        monitor := s.monitor.send p.flow p.uid p.size now } := by
  simp only [load?, Option.bind_eq_bind, Option.bind_eq_some_iff, Option.pure_def,
    Option.some.injEq, Prod.exists] at h
  obtain ⟨g, hfound, p, socket, uids, hnext, rfl⟩ := h
  exact ⟨g, p, socket, uids, hfound, hnext, rfl⟩

theorem move_load? {s t : Session σ γ} {d : Direction} {now : Instant} {n : Nat}
    (h : s.load? d now = some t) (hn : n + 1 ≤ s.link.room d) :
    Move now d s t ∧ n ≤ t.link.room d := by
  obtain ⟨g, p, socket, uids, hfound, hnext, rfl⟩ := load?_eq_some h
  have hroom : s.link.queued d < s.link.settings.capacity := by
    unfold Link.room at hn
    omega
  refine ⟨.load hroom hfound hnext, ?_⟩
  change n ≤ (s.link.push d p).room d
  rw [room_push]
  omega

theorem moves_loadUpTo (d : Direction) (now : Instant) (n : Nat) (s : Session σ γ)
    (h : n ≤ s.link.room d) : Moves now d s (loadUpTo d now n s) := by
  induction n generalizing s with
  | zero => exact .refl
  | succ n ih =>
    rw [loadUpTo]
    split
    · rename_i t hload
      obtain ⟨hmove, hleft⟩ := move_load? hload h
      exact .head hmove (ih t hleft)
    · exact .refl

omit [Draws σ Nat] [Draws γ Span] in
/-- No packet that is loaded finds the queue full: as many are moved as there is room for. -/
theorem load_eq (s : Session σ γ) (d : Direction) (now : Instant) :
    s.load d now = loadUpTo d now (s.link.room d) s := by
  generalize hn : s.link.room d = n
  induction n generalizing s with
  | zero =>
    have hfull : ¬ s.link.hasRoom d = true := by
      simp only [Link.hasRoom, decide_eq_true_eq]
      unfold Link.room at hn
      omega
    rw [load, if_neg hfull]
    rfl
  | succ n ih =>
    have hroom : s.link.queued d < s.link.settings.capacity := by
      unfold Link.room at hn
      omega
    have htaken : s.link.hasRoom d = true := decide_eq_true hroom
    rw [load, if_pos htaken, loadUpTo]
    unfold load?
    cases hfound : s.generator? d with
    | none => rfl
    | some g =>
      cases hnext : g.socket.next? s.uids with
      | none => simp only [hnext, Option.bind_eq_bind, Option.bind_some, Option.bind_none]
      | some r =>
        obtain ⟨p, socket, uids⟩ := r
        have henqueue := enqueue_of_room hroom p
        simp only [hnext, Option.bind_eq_bind, Option.bind_some, Option.pure_def]
        split
        · rename_i link heq
          rw [henqueue, Prod.mk.injEq] at heq
          obtain ⟨_, rfl⟩ := heq
          apply ih
          show (s.link.push d p).room d = n
          rw [room_push, hn]
          rfl
        · rename_i link heq
          rw [henqueue] at heq
          cases heq

omit [Draws σ Nat] [Draws γ Span] in
theorem fill_eq (s : Session σ γ) (d : Direction) (now : Instant) :
    s.fill d now = (loadUpTo d now (s.link.room d) s).startWire d now := by
  rw [fill, load_eq]

theorem moves_fill (s : Session σ γ) (d : Direction) (now : Instant) :
    Moves now d s (s.fill d now) := by
  rw [fill_eq]
  exact (moves_loadUpTo d now _ s (Nat.le_refl _)).trans (moves_startWire _ d now)

theorem moves_armSource (s : Session σ γ) (d : Direction) (now : Instant) :
    Moves now d s (s.armSource d) := by
  unfold armSource
  split
  · exact .refl
  · rename_i g hfound
    exact .single (.armSource hfound rfl)

theorem moves_armPacer (s : Session σ γ) (d : Direction) (now : Instant) :
    Moves now d s (s.armPacer d now) := by
  unfold armPacer
  split
  · exact .refl
  · rename_i g hfound
    split
    · exact .refl
    · rename_i pacer hpaced
      exact .single (.armPacer hfound hpaced rfl)

theorem moves_hand {s : Session σ γ} {d : Direction} {g : Generator σ γ} {now : Instant}
    {frame : Frame} {source : FrameSource σ} (hfound : s.generator? d = some g)
    (hemit : g.source.emit now = (frame, source)) :
    Moves now d s (s.hand d now { g with source } frame) := by
  unfold hand
  dsimp only
  split
  · rename_i pacer hpaced
    generalize harm : (pacer.push (s.segmenter.sizes frame.size)).arm s.events now (.segmentDue d) = r
    obtain ⟨time?, rest, events⟩ := r
    have hmove : Move now d (s.setGenerator d { g with
        source, pacer? := some (pacer.push (s.segmenter.sizes frame.size)) }) _ :=
      .armPacer (generator?_setGenerator ..) rfl harm
    have hset : ∀ g₁ g₂ : Generator σ γ, ({ s.setGenerator d g₁ with events } : Session σ γ).setGenerator
        d g₂ = { s with events }.setGenerator d g₂ := fun g₁ g₂ =>
      setGenerator_setGenerator { s with events } d g₁ g₂
    rw [hset] at hmove
    exact .head (.paced hfound hpaced hemit) (.single hmove)
  · rename_i hpaced
    generalize hsent : dispatch g.socket (s.segmenter.sizes frame.size) = r
    obtain ⟨o, socket⟩ := r
    have hkept : (s.noteAny (failureNotice? d o)).generator? d = some g ∧
        (s.noteAny (failureNotice? d o)).segmenter = s.segmenter := by
      cases failureNotice? d o <;> exact ⟨hfound, rfl⟩
    rw [← hkept.2] at hsent
    have hmove : Move now d (s.noteAny (failureNotice? d o)) _ := .frame hkept.1 hpaced hemit hsent
    exact (moves_noteAny now d s _).trans (.single hmove)

theorem onFrameTick_of_found {s : Session σ γ} {d : Direction} {now : Instant}
    {g : Generator σ γ} {frame : Frame} {source : FrameSource σ} (hfound : s.generator? d = some g)
    (hemit : g.source.emit now = (frame, source)) : s.onFrameTick d now =
      (((s.note (.frameGenerated frame.index frame.size now)).hand d now { g with source }
        frame).armSource d).fill d now := by
  unfold onFrameTick
  rw [hfound]
  dsimp only
  rw [hemit]

/-- A frame tick ends with filling the queue, if the direction has video. -/
theorem onFrameTick_cases (s : Session σ γ) (d : Direction) (now : Instant) :
    s.onFrameTick d now = s ∨ ∃ u, Moves now d s u ∧ s.onFrameTick d now = u.fill d now := by
  cases hfound : s.generator? d with
  | none =>
    left
    unfold onFrameTick
    rw [hfound]
  | some g =>
    obtain ⟨⟨frame, source⟩, hemit⟩ : ∃ r, g.source.emit now = r := ⟨_, rfl⟩
    have hnote : Move now d s (s.note (.frameGenerated frame.index frame.size now)) :=
      .note d s _ s.capture
    have hhand := moves_hand (s := s.note (.frameGenerated frame.index frame.size now)) hfound hemit
    exact .inr ⟨_, (Moves.trans (.single hnote) hhand).trans (moves_armSource _ d now),
      onFrameTick_of_found hfound hemit⟩

theorem moves_onFrameTick (s : Session σ γ) (d : Direction) (now : Instant) :
    Moves now d s (s.onFrameTick d now) := by
  rcases s.onFrameTick_cases d now with heq | ⟨u, hmoves, heq⟩ <;> rw [heq]
  · exact .refl
  · exact hmoves.trans (moves_fill u d now)

def afterSegment (s : Session σ γ) (d : Direction) (g : Generator σ γ) (size? : Option Nat) :
    Session σ γ :=
  match size? with
  | some size => s.recordDispatch d g (dispatch g.socket [size]).1 (dispatch g.socket [size]).2
  | none => s.setGenerator d g

omit [Draws σ Nat] in
theorem onSegmentDue_of_found {s : Session σ γ} {d : Direction} {now : Instant}
    {g : Generator σ γ} {pacer rest : Pacer γ} {size? : Option Nat}
    (hfound : s.generator? d = some g) (hpaced : g.pacer? = some pacer)
    (htake : pacer.take = (size?, rest)) : s.onSegmentDue d now =
      ((s.afterSegment d { g with pacer? := some rest } size?).armPacer d now).fill d now := by
  unfold onSegmentDue
  rw [hfound]
  dsimp only
  rw [hpaced]
  dsimp only
  rw [htake]
  cases size? <;> rfl

theorem moves_afterSegment {s : Session σ γ} {d : Direction} {now : Instant} {g : Generator σ γ}
    {pacer rest : Pacer γ} {size? : Option Nat} (hfound : s.generator? d = some g)
    (hpaced : g.pacer? = some pacer) (htake : pacer.take = (size?, rest)) :
    Moves now d s (s.afterSegment d { g with pacer? := some rest } size?) := by
  cases size? with
  | none => exact .single (.noSegment hfound hpaced htake)
  | some size =>
    obtain ⟨⟨o, socket⟩, hsent⟩ : ∃ r, dispatch g.socket [size] = r := ⟨_, rfl⟩
    unfold afterSegment
    dsimp only
    rw [hsent]
    have hfound' : (s.noteAny (failureNotice? d o)).generator? d = some g := by
      cases failureNotice? d o <;> exact hfound
    have hmove : Move now d (s.noteAny (failureNotice? d o)) _ :=
      .segment hfound' hpaced htake hsent
    exact (moves_noteAny now d s _).trans (.single hmove)

theorem onSegmentDue_cases (s : Session σ γ) (d : Direction) (now : Instant) :
    s.onSegmentDue d now = s ∨ ∃ u, Moves now d s u ∧ s.onSegmentDue d now = u.fill d now := by
  cases hfound : s.generator? d with
  | none =>
    left
    unfold onSegmentDue
    rw [hfound]
  | some g =>
    cases hpaced : g.pacer? with
    | none =>
      left
      unfold onSegmentDue
      rw [hfound]
      dsimp only
      rw [hpaced]
    | some pacer =>
      obtain ⟨⟨size?, rest⟩, htake⟩ : ∃ r, pacer.take = r := ⟨_, rfl⟩
      exact .inr ⟨_, (moves_afterSegment hfound hpaced htake).trans (moves_armPacer _ d now),
        onSegmentDue_of_found hfound hpaced htake⟩

theorem moves_onSegmentDue (s : Session σ γ) (d : Direction) (now : Instant) :
    Moves now d s (s.onSegmentDue d now) := by
  rcases s.onSegmentDue_cases d now with heq | ⟨u, hmoves, heq⟩ <;> rw [heq]
  · exact .refl
  · exact hmoves.trans (moves_fill u d now)

omit [Draws σ Nat] [Draws γ Span] in
/-- A data packet is not counted, or needs no answer, or its answer finds room or none. -/
theorem acknowledge_cases (s : Session σ γ) (d : Direction) (now : Instant) :
    (s.acknowledge d now = s ∧ ∀ g, s.generator? d = some g → g.acks? = none) ∨
    ∃ g acks rest uids, s.generator? d = some g ∧ g.acks? = some acks ∧
      (acks.onData s.uids = (none, rest, uids) ∧
        s.acknowledge d now = { s with uids }.setGenerator d { g with acks? := some rest } ∨
      ∃ ack, acks.onData s.uids = (some ack, rest, uids) ∧
        (s.link.queued d.reverse < s.link.settings.capacity ∧
          s.acknowledge d now = ({ s.setGenerator d { g with acks? := some rest } with
            uids
            link := s.link.push d.reverse ack
            monitor := s.monitor.send ack.flow ack.uid ack.size now } : Session σ γ).startWire
              d.reverse now ∨
        ¬ s.link.queued d.reverse < s.link.settings.capacity ∧
          ∃ journal, s.acknowledge d now = { s.setGenerator d { g with acks? := some rest } with
            uids
            link := (s.link.enqueue d.reverse ack).2
            journal })) := by
  unfold acknowledge
  cases hfound : s.generator? d with
  | none => exact .inl ⟨rfl, fun g hg => by cases hg⟩
  | some g =>
    cases hacks : g.acks? with
    | none =>
      refine .inl ⟨?_, fun g' hg => ?_⟩
      · dsimp only
        rw [hacks]
      · cases hg
        exact hacks
    | some acks =>
      refine .inr ⟨g, acks, (acks.onData s.uids).2.1, (acks.onData s.uids).2.2, rfl, hacks, ?_⟩
      dsimp only
      rw [hacks]
      dsimp only
      generalize acks.onData s.uids = r
      obtain ⟨ack?, rest, uids⟩ := r
      cases ack? with
      | none => exact .inl ⟨rfl, rfl⟩
      | some ack =>
        refine .inr ⟨ack, rfl, ?_⟩
        dsimp only
        unfold sendAck
        by_cases hroom : s.link.queued d.reverse < s.link.settings.capacity
        · have htaken : ({ s with uids }.setGenerator d { g with acks? := some rest }).link.enqueue
              d.reverse ack = (true, s.link.push d.reverse ack) := enqueue_of_room hroom ack
          rw [htaken]
          exact .inl ⟨hroom, rfl⟩
        · have hrefused : (s.link.enqueue d.reverse ack).1 = false := by
            rw [enqueue_of_full hroom ack]
          have hfull : ({ s with uids }.setGenerator d { g with acks? := some rest }).link.enqueue
              d.reverse ack = (false, (s.link.enqueue d.reverse ack).2) := Prod.ext hrefused rfl
          rw [hfull]
          exact .inr ⟨hroom, _, rfl⟩

theorem moves_acknowledge (s : Session σ γ) (d : Direction) (now : Instant) :
    Moves now d s (s.acknowledge d.reverse now) := by
  have hcases := s.acknowledge_cases d.reverse now
  rw [d.reverse_reverse] at hcases
  rcases hcases with ⟨heq, _⟩ | ⟨g, acks, rest, uids, hfound, hacks, hcases⟩
  · rw [heq]
    exact .refl
  · rcases hcases with ⟨hcount, heq⟩ | ⟨ack, hcount, ⟨hroom, heq⟩ | ⟨hfull, journal, heq⟩⟩ <;>
      rw [heq]
    · exact .single (.count hfound hacks hcount)
    · exact .head (.answer hfound hacks hcount hroom) (moves_startWire _ d now)
    · exact .tail (.single (.refuse hfound hacks hcount hfull)) (.note d _ journal s.capture)

/-- The event that a step takes out of the queue, and what it does by itself. -/
inductive Opening (s : Session σ γ) (now : Instant) : Session σ γ → Prop
  | tick {d : Direction} {events : EventQueue Event}
      (popped : s.events.pop? = some ((now, .frameTick d), events)) :
      Opening s now { s with events, processed := s.processed + 1 }
  | due {d : Direction} {events : EventQueue Event}
      (popped : s.events.pop? = some ((now, .segmentDue d), events)) :
      Opening s now { s with events, processed := s.processed + 1 }
  | free {d : Direction} {events : EventQueue Event}
      (popped : s.events.pop? = some ((now, .wireFree d), events)) :
      Opening s now { s with events, processed := s.processed + 1, link := s.link.complete d }
  | arrival {d : Direction} {p : Packet} {events : EventQueue Event}
      (popped : s.events.pop? = some ((now, .arrival d p), events)) :
      Opening s now { s with
        events
        processed := s.processed + 1
        monitor := (s.monitor.receive p.flow p.uid p.size now).2 }

def advanced (s : Session σ γ) (events : EventQueue Event) : Session σ γ :=
  { s with events, processed := s.processed + 1 }

omit [Draws σ Nat] [Draws γ Span] in
theorem receive_eq (s : Session σ γ) (d : Direction) (now : Instant) (p : Packet) :
    ∃ journal capture, (s.see .receive d now p).receive now p = { s with
      journal
      capture
      monitor := (s.monitor.receive p.flow p.uid p.size now).2 } := by
  obtain ⟨journal, capture, hsee⟩ := see_eq s .receive d now p
  rw [hsee]
  unfold receive
  generalize s.monitor.receive p.flow p.uid p.size now = r
  obtain ⟨delay?, monitor⟩ := r
  cases delay? with
  | none => exact ⟨_, capture, rfl⟩
  | some delay => exact ⟨journal, capture, rfl⟩

theorem moves_onArrival {s u : Session σ γ} {d : Direction} {now : Instant} {p : Packet}
    (hu : u = { s with monitor := (s.monitor.receive p.flow p.uid p.size now).2 }) :
    Moves now d.reverse u (s.onArrival d now p) := by
  subst hu
  obtain ⟨journal, capture, hreceive⟩ := receive_eq s d now p
  have hnote : Move now d.reverse
      { s with monitor := (s.monitor.receive p.flow p.uid p.size now).2 } _ :=
    .note d.reverse _ journal capture
  unfold onArrival
  rw [hreceive]
  cases p.kind with
  | data =>
    have hmoves := moves_acknowledge { s with
      journal
      capture
      monitor := (s.monitor.receive p.flow p.uid p.size now).2 } d.reverse now
    rw [Direction.reverse_reverse] at hmoves
    exact .head hnote hmoves
  | ack => exact .single hnote

theorem step?_eq_some {s t : Session σ γ} (h : s.step? = some t) : s.summary? = none ∧
    ∃ now e events, s.events.pop? = some ((now, e), events) ∧
      t = (s.advanced events).handle now e := by
  unfold step? at h
  split at h
  · cases h
  · rename_i hrunning
    split at h
    · cases h
    · rename_i now e events hpop
      cases h
      exact ⟨Option.not_isSome_iff_eq_none.1 hrunning, now, e, events, hpop, rfl⟩

/-- A step is the effect of one event and the moves that follow it, or it is the stop. -/
theorem step_cases {s t : Session σ γ} (h : s.step? = some t) : s.summary? = none ∧ ∃ now,
    (∃ d u, s.Opening now u ∧ Moves now d u t) ∨
    ∃ events, s.events.pop? = some ((now, .stop), events) ∧
      t = (s.advanced events).onStop now := by
  obtain ⟨hrunning, now, e, events, hpop, rfl⟩ := step?_eq_some h
  refine ⟨hrunning, now, ?_⟩
  cases e with
  | frameTick d => exact .inl ⟨d, _, .tick hpop, moves_onFrameTick _ d now⟩
  | segmentDue d => exact .inl ⟨d, _, .due hpop, moves_onSegmentDue _ d now⟩
  | wireFree d => exact .inl ⟨d, _, .free hpop, moves_fill _ d now⟩
  | arrival d p => exact .inl ⟨d.reverse, _, .arrival hpop, moves_onArrival rfl⟩
  | stop => exact .inr ⟨events, hpop, rfl⟩

/-! What no event changes before the stop. -/

/-- The parts of a run that stay as they were set up. -/
structure SameSetup (s t : Session σ γ) : Prop where
  config : t.config = s.config
  segmenter : t.segmenter = s.segmenter
  settings : t.link.settings = s.link.settings
  fresh : t.monitor.fresh = s.monitor.fresh
  maxDelay : t.monitor.maxDelay = s.monitor.maxDelay
  summary? : t.summary? = s.summary?

omit [Draws σ Nat] [Draws γ Span] in
theorem SameSetup.trans {s t u : Session σ γ} (st : s.SameSetup t) (tu : t.SameSetup u) :
    s.SameSetup u :=
  ⟨tu.config.trans st.config, tu.segmenter.trans st.segmenter, tu.settings.trans st.settings,
    tu.fresh.trans st.fresh, tu.maxDelay.trans st.maxDelay, tu.summary?.trans st.summary?⟩

theorem start?_eq_some {l link : Link} {d : Direction} {now : Instant} {t : Transmission}
    (h : l.start? d now = some (t, link)) : (l.channel d).busy = false ∧
      ∃ queue, (l.channel d).queue.pop? = some (t.packet, queue) ∧
        t.finish = now.after (l.settings.serialization t.packet.size) ∧
        t.arrival = t.finish.after l.settings.delay ∧
        link = l.setChannel d (({ l.channel d with queue }).carry t.packet) := by
  unfold Link.start? at h
  split at h
  · rename_i hidle
    simp only [Link.dequeue?, Channel.dequeue?, Option.map_map, Option.map_eq_some_iff, Prod.exists,
      Function.comp_apply, Link.transmit, Prod.mk.injEq] at h
    obtain ⟨p, queue, hpop, rfl, rfl⟩ := h
    refine ⟨by simpa [Link.isIdle] using hidle, queue, hpop, rfl, rfl, ?_⟩
    simp only [Link.setChannel, Link.channel, Duplex.get_set_self, Duplex.set_set]
  · cases h

theorem Move.sameSetup {now : Instant} {d : Direction} {s t : Session σ γ}
    (h : Move now d s t) : s.SameSetup t := by
  cases h with
  | start hstart =>
    obtain ⟨_, _, _, _, _, rfl⟩ := start?_eq_some hstart
    exact ⟨rfl, rfl, rfl, rfl, rfl, rfl⟩
  | _ => exact ⟨rfl, rfl, rfl, rfl, rfl, rfl⟩

theorem Moves.sameSetup {now : Instant} {d : Direction} {s t : Session σ γ} (h : Moves now d s t) :
    s.SameSetup t :=
  h.induct ⟨rfl, rfl, rfl, rfl, rfl, rfl⟩ fun hs hm => hs.trans hm.sameSetup

end Session

end VideoLink
