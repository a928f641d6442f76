import VideoLink.EventQueue.View
import VideoLink.Session.Basic

/-! The work that is left in the parts of a run, a bound on the events, frame ticks aside, that what they
hold can lead to. A segment becomes bytes of the socket, bytes become packets of the queue, a packet takes
the wire and arrives, and a data packet that arrives may be answered. -/
namespace VideoLink

namespace Event

def ticks : Event → Nat
  | frameTick _ => 1
  | _ => 0

/-- The work of a packet on its way: its arrival, and that of an answer with its time on the wire. -/
def arrivalWork (p : Packet) : Nat :=
  match p.kind with
  | .data => 3
  | .ack => 1

/-- A bound on the events, frame ticks aside, that an event leads to, itself included. -/
def work : Event → Nat
  | frameTick _ => 0
  | segmentDue _ => 1
  | wireFree _ => 1
  | arrival _ p => arrivalWork p
  | stop => 1

end Event

/-- A queued packet takes the wire and arrives. -/
def Channel.work (c : Channel) : Nat :=
  weight (fun p => 1 + Event.arrivalWork p) c.queue.toList

def Link.work (l : Link) : Nat := l.channels.total Channel.work

/-- A byte makes at most one packet. -/
def Socket.work (s : Socket) : Nat := 4 * (s.pending.toList.length + weight id s.backlog.toList)

/-- A waiting segment is due once, and then its bytes are sent. -/
def Pacer.work {γ : Type} (p : Pacer γ) : Nat :=
  weight (fun bytes => 1 + 4 * bytes) p.queued.toList

namespace Generator

variable {σ γ : Type}

def framesLeft (g : Generator σ γ) : Nat := UInt32.size - g.source.nextIndex

def work (g : Generator σ γ) : Nat := g.socket.work + g.pacer?.elim 0 Pacer.work

end Generator

namespace Link

theorem work_setChannel (l : Link) (d : Direction) (c : Channel) :
    (l.setChannel d c).work + (l.channel d).work = l.work + c.work :=
  l.channels.total_set Channel.work d c

theorem work_push (l : Link) (d : Direction) (p : Packet) :
    (l.push d p).work = l.work + (1 + Event.arrivalWork p) := by
  have total := l.work_setChannel d ((l.channel d).push p)
  simp only [Channel.push, Channel.work, Fifo.toList_push, weight_append, weight_cons, weight_nil]
    at total
  simp only [push, Channel.push]
  omega

theorem work_enqueue (l : Link) (d : Direction) (p : Packet) :
    (l.enqueue d p).2.work ≤ l.work + if (l.enqueue d p).1 then 1 + Event.arrivalWork p else 0 := by
  by_cases room : (l.channel d).queue.size < l.settings.capacity
  · have pushed := l.work_push d p
    simp only [enqueue, Channel.enqueue, room, if_true]
    exact Nat.le_of_eq pushed
  · have total := l.work_setChannel d ((l.channel d).enqueue l.settings.capacity p).2
    simp only [Channel.enqueue, room, if_false, Channel.work] at total
    simp only [enqueue, Channel.enqueue, room, if_false]
    omega

theorem work_complete (l : Link) (d : Direction) : (l.complete d).work = l.work := by
  have total := l.work_setChannel d (l.channel d).release
  simp only [Channel.work, Channel.release] at total
  simp only [complete, Channel.release]
  omega

theorem work_transmit (l : Link) (d : Direction) (now : Instant) (p : Packet) :
    (l.transmit d now p).2.work = l.work := by
  have total := l.work_setChannel d ((l.channel d).carry p)
  simp only [Channel.work, Channel.carry] at total
  simp only [transmit, Channel.carry]
  omega

theorem work_of_dequeue? {l link : Link} {d : Direction} {p : Packet}
    (h : l.dequeue? d = some (p, link)) : l.work = link.work + (1 + Event.arrivalWork p) := by
  simp only [dequeue?, Channel.dequeue?, Option.map_map, Option.map_eq_some_iff, Prod.exists,
    Function.comp_apply, Prod.mk.injEq] at h
  obtain ⟨_, queue, popped, rfl, rfl⟩ := h
  have total := l.work_setChannel d { l.channel d with queue }
  simp only [Channel.work, Fifo.toList_of_pop? popped, weight_cons] at total
  omega

theorem work_of_start? {l link : Link} {d : Direction} {now : Instant} {t : Transmission}
    (h : l.start? d now = some (t, link)) :
    l.work = link.work + (1 + Event.arrivalWork t.packet) := by
  unfold start? at h
  split at h
  · obtain ⟨⟨p, rest⟩, dequeued, transmitted⟩ := Option.map_eq_some_iff.1 h
    have kept := rest.work_transmit d now p
    have packet : p = t.packet := congrArg (·.1.packet) transmitted
    have after : (rest.transmit d now p).2 = link := congrArg (·.2) transmitted
    rw [work_of_dequeue? dequeued, packet, ← after, kept]
  · cases h

end Link

namespace Socket

theorem work_accept (s : Socket) (bytes : Nat) : (s.accept bytes).work ≤ s.work + 4 * bytes := by
  have count := pieceCount_le s.mss bytes
  simp only [work, accept, Fifo.toList_pushAll, List.length_append, length_pieces]
  omega

theorem work_send (s : Socket) (bytes : Nat) : (s.send bytes).2.work ≤ s.work + 4 * bytes := by
  have accepted := s.work_accept bytes
  unfold send
  split
  · exact Nat.le_add_right _ _
  · split
    · exact Nat.le_add_right _ _
    · split
      · exact accepted
      · split
        · simp only [work]
          omega
        · simp only [work, defer, Fifo.toList_push, weight_append, weight_cons, weight_nil, id]
          omega

theorem work_acceptBacklog (s : Socket) : s.acceptBacklog.work ≤ s.work := by
  fun_induction acceptBacklog s with
  | case1 => exact Nat.le_refl _
  | case2 s bytes backlog popped fits ih =>
    have accepted := work_accept { s with backlog, backlogged := s.backlogged - bytes } bytes
    have waiting : s.work = work { s with backlog, backlogged := s.backlogged - bytes } + 4 * bytes := by
      simp only [work, Fifo.toList_of_pop? popped, weight_cons, id]
      omega
    omega
  | case3 => exact Nat.le_refl _

theorem work_of_next? {s socket : Socket} {uids rest : UidCounter} {p : Packet}
    (h : s.next? uids = some (p, socket, rest)) :
    socket.work + (1 + Event.arrivalWork p) ≤ s.work := by
  simp only [next?, Option.map_eq_some_iff, Prod.exists, Prod.mk.injEq] at h
  obtain ⟨payload, pending, popped, rfl, rfl, _⟩ := h
  have filled := work_acceptBacklog { s with pending, buffered := s.buffered - payload }
  simp only [work, Event.arrivalWork, Fifo.toList_of_pop? popped, List.length_cons] at filled ⊢
  omega

theorem work_dispatch (s : Socket) (sizes : List Nat) :
    (dispatch s sizes).2.work ≤ s.work + 4 * weight id sizes := by
  suffices go : ∀ o, (dispatch.go o s sizes).2.work ≤ s.work + 4 * weight id sizes from go {}
  induction sizes generalizing s with
  | nil => intro o; exact Nat.le_add_right _ _
  | cons size rest ih =>
    intro o
    have sent := s.work_send size
    have rewritten : SegmentSink.send s size = s.send size := rfl
    rw [dispatch.go, rewritten]
    generalize s.send size = r at sent
    obtain ⟨status, socket⟩ := r
    cases status with
    | error e =>
      simp only [weight_cons, id] at sent ⊢
      omega
    | ok status =>
      have after := ih socket (o.addTaken size status)
      simp only [weight_cons, id] at sent ⊢
      omega

end Socket

theorem AckCounter.kind_of_onData (c : AckCounter) (uids : UidCounter) :
    ∀ ack, (c.onData uids).1 = some ack → ack.kind = .ack := by
  unfold onData
  split
  · intro ack h
    cases h
  · intro ack h
    cases h
    rfl

namespace Pacer

variable {γ : Type}

theorem load_arm_le {α : Type} [Draws γ Span] (weigh : α → Nat) (p : Pacer γ) (q : EventQueue α)
    (now : Instant) (event : α) : (p.arm q now event).2.2.load weigh ≤ q.load weigh + weigh event := by
  unfold arm
  split
  · exact Nat.le_add_right _ _
  · exact q.load_schedule_le weigh _ event

theorem load_stop_le {α : Type} (weigh : α → Nat) (p : Pacer γ) (q : EventQueue α) :
    (p.stop q).2.2.load weigh ≤ q.load weigh := by
  unfold stop
  cases p.pending? with
  | none => exact Nat.le_refl _
  | some ticket => exact q.load_cancel_le weigh ticket

theorem isEmpty_of_take {p : Pacer γ} (h : p.take.1 = none) : p.take.2.queued.isEmpty = true := by
  unfold take at h ⊢
  split at h
  · cases h
  · rename_i empty
    exact Fifo.isEmpty_iff.2 (Fifo.pop?_eq_none.1 empty)

theorem work_take (p : Pacer γ) :
    p.take.2.work + (p.take.1.elim 0 fun bytes => 1 + 4 * bytes) = p.work := by
  unfold take
  split
  · rename_i popped
    simp only [work, Fifo.toList_of_pop? popped, weight_cons, Option.elim_some]
    omega
  · rfl

end Pacer

theorem FrameSource.load_halt_le {σ α : Type} (weigh : α → Nat) (s : FrameSource σ)
    (q : EventQueue α) : (s.halt q).2.load weigh ≤ q.load weigh := by
  unfold halt
  cases s.pending? with
  | none => exact Nat.le_refl _
  | some ticket => exact q.load_cancel_le weigh ticket

end VideoLink
