import Std.Data.TreeMap.Lemmas
import Std.Data.TreeSet.Lemmas
import VideoLink.Time.Basic

/-! The queue of pending events. Each event waits under a ticket, its time and the number of its submission;
the least ticket leaves first, so events of one instant leave in submission order. A withdrawn event stays
in the heap, marked, until its turn comes and it is passed over. The view is `toList`, the pending events in
their order. -/
namespace VideoLink

/-- The place of an event in the order of the queue. -/
structure Ticket where
  time : Instant
  number : Nat
deriving DecidableEq, Repr

namespace Ticket

/-- By time, then by number. -/
def order (a b : Ticket) : Ordering :=
  if a.time.nanos < b.time.nanos then .lt
  else if b.time.nanos < a.time.nanos then .gt
  else if a.number < b.number then .lt
  else if b.number < a.number then .gt
  else .eq

theorem order_eq_lt {a b : Ticket} : order a b = .lt ↔
    a.time < b.time ∨ a.time = b.time ∧ a.number < b.number := by
  have same : a.time = b.time ↔ a.time.nanos = b.time.nanos := ⟨congrArg _, Instant.ext⟩
  rw [order, same, Instant.lt_iff]
  grind

theorem order_eq_eq {a b : Ticket} : order a b = .eq ↔ a = b := by
  rcases a with ⟨⟨t, _⟩, n⟩
  rcases b with ⟨⟨u, _⟩, m⟩
  simp only [order, mk.injEq, Instant.mk.injEq]
  grind

instance : Std.OrientedCmp order where
  eq_swap {a b} := by
    simp only [order]
    grind [Ordering.swap]

instance : Std.TransCmp order where
  isLE_trans {a b c} := by
    simp only [order, Ordering.isLE]
    grind

instance : Std.LawfulEqCmp order where
  eq_of_compare h := order_eq_eq.1 h

end Ticket

structure EventQueue (α : Type) where
  /-- The events that have not left, the withdrawn ones among them. -/
  heap : Std.TreeMap Ticket α Ticket.order
  /-- The tickets of the withdrawn events in the heap. -/
  cancelled : Std.TreeSet Ticket Ticket.order
  /-- The time of the event that left last. -/
  now : Instant
  nextNumber : Nat
  mem_of_cancelled : ∀ t ∈ cancelled, t ∈ heap
  number_lt : ∀ t ∈ heap, t.number < nextNumber

namespace EventQueue

variable {α : Type}

def empty : EventQueue α where
  heap := ∅
  cancelled := ∅
  now := .zero
  nextNumber := 0
  mem_of_cancelled _ h := absurd h Std.TreeSet.not_mem_emptyc
  number_lt _ h := absurd h Std.TreeMap.not_mem_emptyc

/-- The pending events in the order in which they leave. -/
def toList (q : EventQueue α) : List (Ticket × α) :=
  q.heap.toList.filter fun a => a.1 ∉ q.cancelled

def pending (q : EventQueue α) : Nat := q.heap.size - q.cancelled.size

/-- Submits an event for a time, or for now if that time is past, and tells its ticket. -/
def schedule (q : EventQueue α) (time : Instant) (event : α) : Ticket × EventQueue α :=
  let ticket := ⟨time.latest q.now, q.nextNumber⟩
  (ticket, { q with
    heap := q.heap.insert ticket event
    nextNumber := q.nextNumber + 1
    mem_of_cancelled t h := Std.TreeMap.mem_insert.2 (.inr (q.mem_of_cancelled t h))
    number_lt t h := by
      rcases Std.TreeMap.mem_insert.1 h with heq | h
      · rw [← Ticket.order_eq_eq.1 heq]
        exact Nat.lt_succ_self _
      · exact Nat.lt_succ_of_lt (q.number_lt t h) })

/-- Withdraws the event of a ticket, if it is still pending. -/
def cancel (q : EventQueue α) (ticket : Ticket) : EventQueue α :=
  { q with
    cancelled := if ticket ∈ q.heap then q.cancelled.insert ticket else q.cancelled
    mem_of_cancelled t h := by
      split at h
      · rename_i hmem
        rcases Std.TreeSet.mem_insert.1 h with heq | h
        · rwa [← Ticket.order_eq_eq.1 heq]
        · exact q.mem_of_cancelled t h
      · exact q.mem_of_cancelled t h }

/-- Takes a ticket out of the heap, and its mark with it. -/
def discard (q : EventQueue α) (ticket : Ticket) : EventQueue α :=
  { q with
    heap := q.heap.erase ticket
    cancelled := q.cancelled.erase ticket
    mem_of_cancelled t h := by
      obtain ⟨hne, h⟩ := Std.TreeSet.mem_erase.1 h
      exact Std.TreeMap.mem_erase.2 ⟨hne, q.mem_of_cancelled t h⟩
    number_lt t h := q.number_lt t (Std.TreeMap.mem_of_mem_erase h) }

theorem size_discard_lt (q : EventQueue α) {ticket : Ticket} (h : ticket ∈ q.heap) :
    (q.discard ticket).heap.size < q.heap.size := by
  have hcontains := Std.TreeMap.contains_iff_mem.2 h
  have hsize : (q.discard ticket).heap.size = q.heap.size - 1 :=
    Std.TreeMap.size_erase.trans (if_pos hcontains)
  have hfull := Std.TreeMap.isEmpty_eq_false_of_contains hcontains
  rw [Std.TreeMap.isEmpty_eq_size_eq_zero, beq_eq_false_iff_ne] at hfull
  omega

/-- The first pending event leaves and the clock moves to its time. The withdrawn events before it are
passed over. -/
def pop? (q : EventQueue α) : Option ((Instant × α) × EventQueue α) :=
  match _ : q.heap.minKey? with
  | none => none
  | some ticket =>
    if ticket ∈ q.cancelled then (q.discard ticket).pop?
    else q.heap[ticket]?.map fun event =>
      ((ticket.time, event), { q.discard ticket with now := ticket.time })
termination_by q.heap.size
decreasing_by exact q.size_discard_lt (Std.TreeMap.minKey?_eq_some_iff_mem_and_forall.1 ‹_›).1

def clear (q : EventQueue α) : EventQueue α :=
  { q with
    heap := ∅
    cancelled := ∅
    mem_of_cancelled _ h := absurd h Std.TreeSet.not_mem_emptyc
    number_lt _ h := absurd h Std.TreeMap.not_mem_emptyc }

end EventQueue

end VideoLink
