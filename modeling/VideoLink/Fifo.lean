/-! First-in first-out queues of known size. The view is `toList`, the elements from the next one out to the
last one in; every operation has one equation through it. -/
namespace VideoLink

structure Fifo (α : Type) where
  front : List α
  back : List α
  size : Nat
  size_eq : size = front.length + back.length

namespace Fifo

variable {α : Type}

/-- The elements in the order in which they leave. -/
def toList (q : Fifo α) : List α := q.front ++ q.back.reverse

def empty : Fifo α := ⟨[], [], 0, rfl⟩

instance : Inhabited (Fifo α) := ⟨empty⟩

def isEmpty (q : Fifo α) : Bool := q.size = 0

def push (q : Fifo α) (a : α) : Fifo α :=
  ⟨q.front, a :: q.back, q.size + 1, by simp [q.size_eq, Nat.add_assoc]⟩

def pushAll (q : Fifo α) (as : List α) : Fifo α := as.foldl push q

def pop? (q : Fifo α) : Option (α × Fifo α) :=
  match h : q.front with
  | a :: front => some (a, ⟨front, q.back, q.size - 1, by simp [q.size_eq, h]⟩)
  | [] =>
    match h' : q.back.reverse with
    | a :: front => some (a, ⟨front, [], q.size - 1, by
        have := congrArg List.length h'
        simp only [List.length_reverse, List.length_cons, q.size_eq, h, List.length_nil,
          Nat.zero_add, Nat.add_zero] at this ⊢
        omega⟩)
    | [] => none

theorem length_toList (q : Fifo α) : q.toList.length = q.size := by
  simp [toList, q.size_eq]

@[simp] theorem toList_empty : (empty : Fifo α).toList = [] := rfl

@[simp] theorem toList_push (q : Fifo α) (a : α) : (q.push a).toList = q.toList ++ [a] := by
  simp [toList, push]

@[simp] theorem toList_pushAll (q : Fifo α) (as : List α) :
    (q.pushAll as).toList = q.toList ++ as := by
  induction as generalizing q with
  | nil => simp [pushAll]
  | cons a as ih =>
    have := ih (q.push a)
    simp only [pushAll, List.foldl_cons] at this ⊢
    simp [this]

theorem isEmpty_iff {q : Fifo α} : q.isEmpty = true ↔ q.toList = [] := by
  rw [← List.length_eq_zero_iff, length_toList, isEmpty, decide_eq_true_iff]

theorem pop?_eq_none {q : Fifo α} : q.pop? = none ↔ q.toList = [] := by
  unfold pop? toList
  split
  · rename_i h; simp [h]
  · rename_i h
    split
    · rename_i h'; simp [h, h']
    · rename_i h'; simp [h, h']

theorem toList_of_pop? {q rest : Fifo α} {a : α} (h : q.pop? = some (a, rest)) :
    q.toList = a :: rest.toList := by
  unfold pop? at h
  split at h
  · rename_i hf
    cases h
    simp [toList, hf]
  · rename_i hf
    split at h
    · rename_i hb
      cases h
      simp [toList, hf, hb]
    · cases h

theorem size_of_pop? {q rest : Fifo α} {a : α} (h : q.pop? = some (a, rest)) :
    q.size = rest.size + 1 := by
  rw [← length_toList, ← length_toList, toList_of_pop? h, List.length_cons]

end Fifo

end VideoLink
