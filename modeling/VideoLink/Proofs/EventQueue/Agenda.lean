import VideoLink.Proofs.Calls
import VideoLink.Proofs.EventQueue.Orderly

/-! A queue in use against a list. An agenda holds the events that are to come in the order of their
submission and looks through all of them for the first; a queue gives the same answers. -/
namespace VideoLink

namespace EventQueue

/-- A call on a queue. An event is withdrawn by the number of its submission. -/
inductive Call (α : Type)
  | schedule (time : Instant) (event : α)
  | cancel (number : Nat)
  | pop
  | pending
  | now
  | clear

inductive Answer (α : Type)
  | submitted (number : Nat)
  | cancelled
  | popped (first? : Option (Instant × α))
  | pending (count : Nat)
  | now (time : Instant)
  | cleared (count : Nat)

variable {α : Type}

/-- A queue in use, with the tickets that it told. -/
structure Client (α : Type) where
  queue : EventQueue α
  tickets : List Ticket

namespace Client

def new : Client α := ⟨.empty, []⟩

def call (c : Client α) : Call α → Answer α × Client α
  | .schedule time event =>
    let (ticket, queue) := c.queue.schedule time event
    (.submitted ticket.number, ⟨queue, c.tickets ++ [ticket]⟩)
  | .cancel number => (.cancelled, { c with queue := c.tickets[number]?.elim c.queue c.queue.cancel })
  | .pop =>
    match c.queue.pop? with
    | some (first, queue) => (.popped (some first), { c with queue })
    -- The search for an event took every withdrawn one out of the heap.
    | none => (.popped none, { c with queue := c.queue.clear })
  | .pending => (.pending c.queue.pending, c)
  | .now => (.now c.queue.now, c)
  | .clear => (.cleared c.queue.pending, { c with queue := c.queue.clear })

end Client

/-! The list. -/

structure Entry (α : Type) where
  time : Instant
  number : Nat
  event : α

def Entry.before (x y : Entry α) : Bool :=
  x.time < y.time ∨ x.time = y.time ∧ x.number < y.number

structure Agenda (α : Type) where
  entries : List (Entry α)
  now : Instant
  submitted : Nat

namespace Agenda

def new : Agenda α := ⟨[], .zero, 0⟩

def first? (a : Agenda α) : Option (Entry α) :=
  a.entries.find? fun x => a.entries.all fun y => !y.before x

def without (a : Agenda α) (number : Nat) : List (Entry α) :=
  a.entries.filter (·.number ≠ number)

def call (a : Agenda α) : Call α → Answer α × Agenda α
  | .schedule time event =>
    let time := if time < a.now then a.now else time
    (.submitted a.submitted, { a with
      entries := a.entries ++ [⟨time, a.submitted, event⟩]
      submitted := a.submitted + 1 })
  | .cancel number => (.cancelled, { a with entries := a.without number })
  | .pop =>
    match a.first? with
    | some x => (.popped (some (x.time, x.event)),
        { a with entries := a.without x.number, now := x.time })
    | none => (.popped none, a)
  | .pending => (.pending a.entries.length, a)
  | .now => (.now a.now, a)
  | .clear => (.cleared a.entries.length, { a with entries := [] })

theorem first?_eq_some {a : Agenda α} {x : Entry α} (hx : x ∈ a.entries)
    (hleast : ∀ y ∈ a.entries, y = x ∨ x.before y) : a.first? = some x := by
  have hasymm : ∀ {y z : Entry α}, y.before z → ¬ z.before y := by
    intro y z h
    simp only [Entry.before, Instant.lt_iff, decide_eq_true_iff] at h ⊢
    rintro (hlt | ⟨heq, hlt⟩)
    · rcases h with h | ⟨h, _⟩
      · omega
      · rw [h] at hlt
        omega
    · rw [heq] at h
      omega
  have hirrefl : ∀ y : Entry α, ¬ y.before y := fun y h => hasymm h h
  cases hfound : a.first? with
  | none =>
    have hnot := List.find?_eq_none.1 hfound x hx
    refine absurd (List.all_eq_true.2 fun y hy => ?_) hnot
    rw [Bool.not_eq_true', Bool.eq_false_iff]
    rcases hleast y hy with rfl | hlt
    · exact hirrefl _
    · exact hasymm hlt
  | some z =>
    obtain ⟨hz, _⟩ := List.find?_eq_some_iff_append.1 hfound
    have hnone := List.all_eq_true.1 hz x hx
    rcases hleast z (List.mem_of_find?_eq_some hfound) with rfl | hlt
    · rfl
    · rw [hlt] at hnone
      cases hnone

end Agenda

/-! The queue keeps the list. -/

def entry (a : Ticket × α) : Entry α := ⟨a.1.time, a.1.number, a.2⟩

namespace Client

/-- The pending events of a queue are the entries of an agenda, and every ticket was told as the one of
its number. -/
structure Keeps (c : Client α) (a : Agenda α) : Prop where
  entries : a.entries.Perm (c.queue.toList.map entry)
  now : a.now = c.queue.now
  submitted : a.submitted = c.queue.nextNumber
  orderly : c.queue.Orderly
  told : c.tickets.length = c.queue.nextNumber
  known : ∀ x ∈ c.queue.toList, c.tickets[x.1.number]? = some x.1
  numbers : ∀ (n : Nat) (t : Ticket), c.tickets[n]? = some t → t.number = n

namespace Keeps

variable {c : Client α} {a : Agenda α}

theorem new : (new : Client α).Keeps Agenda.new := by
  refine ⟨?_, rfl, rfl, orderly_empty, rfl, ?_, ?_⟩
  · rw [Client.new, toList_empty]
    exact .refl _
  · intro x hx
    rw [Client.new, toList_empty] at hx
    cases hx
  · intro n t h
    cases h

theorem ticket_eq (h : c.Keeps a) {x y : Ticket × α} (hx : x ∈ c.queue.toList)
    (hy : y ∈ c.queue.toList) (heq : x.1.number = y.1.number) : x.1 = y.1 := by
  have hknown := h.known x hx
  rw [heq, h.known y hy] at hknown
  exact (Option.some.inj hknown).symm

theorem schedule (h : c.Keeps a) (time : Instant) (event : α) :
    (c.call (.schedule time event)).1 = (a.call (.schedule time event)).1 ∧
      (c.call (.schedule time event)).2.Keeps (a.call (.schedule time event)).2 := by
  have hperm := h.orderly.perm_schedule time event
  have htime : (if time < a.now then a.now else time) = time.latest c.queue.now := by
    rw [← h.now]
    apply Instant.ext
    rw [Instant.nanos_latest]
    split <;> rename_i hlt <;> rw [Instant.lt_iff] at hlt <;> omega
  have hentry : entry ((c.queue.schedule time event).1, event) =
      ⟨time.latest c.queue.now, a.submitted, event⟩ := by
    rw [h.submitted]
    rfl
  refine ⟨congrArg Answer.submitted h.submitted.symm, ?_, h.now, congrArg (· + 1) h.submitted,
    h.orderly.schedule time event, ?_, ?_, ?_⟩
  · refine List.Perm.trans ?_ (hperm.map entry).symm
    rw [List.map_cons, hentry]
    show (a.entries ++ [_]).Perm _
    rw [htime]
    exact (List.perm_append_singleton _ _).trans (h.entries.cons _)
  · show (c.tickets ++ [_]).length = c.queue.nextNumber + 1
    rw [List.length_append, h.told]
    rfl
  · intro x hx
    show (c.tickets ++ [_])[x.1.number]? = _
    rcases List.mem_cons.1 (hperm.mem_iff.1 hx) with rfl | hx
    · exact List.getElem?_append_right (Nat.le_of_eq h.told) |>.trans (by
        rw [ticket_schedule, h.told, Nat.sub_self]
        rfl)
    · rw [List.getElem?_append_left (h.told ▸ h.orderly.numbered x hx)]
      exact h.known x hx
  · intro n t ht
    change (c.tickets ++ [_])[n]? = some t at ht
    rw [List.getElem?_append] at ht
    split at ht
    · exact h.numbers n t ht
    · rw [List.getElem?_singleton] at ht
      split at ht <;> cases ht
      rename_i hge hzero
      rw [h.told] at hge hzero
      show c.queue.nextNumber = n
      omega

theorem cancel (h : c.Keeps a) (number : Nat) :
    (c.call (.cancel number)).2.Keeps (a.call (.cancel number)).2 := by
  show Keeps ⟨c.tickets[number]?.elim c.queue c.queue.cancel, c.tickets⟩
    { a with entries := a.without number }
  have hfiltered := h.entries.filter (·.number ≠ number)
  cases ht : c.tickets[number]? with
  | none =>
    have hall : (c.queue.toList.map entry).filter (·.number ≠ number) = c.queue.toList.map entry := by
      rw [List.filter_eq_self]
      intro x hx
      obtain ⟨y, hy, rfl⟩ := List.mem_map.1 hx
      refine decide_eq_true fun heq => ?_
      have hknown := h.known y hy
      rw [show y.1.number = number from heq, ht] at hknown
      cases hknown
    rw [hall] at hfiltered
    exact ⟨hfiltered, h.now, h.submitted, h.orderly, h.told, h.known, h.numbers⟩
  | some t =>
    have hmem : ∀ {x : Ticket × α}, x ∈ (c.queue.cancel t).toList → x ∈ c.queue.toList := by
      intro x hx
      rw [toList_cancel] at hx
      exact (List.mem_filter.1 hx).1
    refine ⟨?_, h.now, h.submitted, h.orderly.cancel t, h.told, fun x hx => h.known x (hmem hx),
      h.numbers⟩
    show (a.without number).Perm ((c.queue.cancel t).toList.map entry)
    rw [toList_cancel]
    rw [List.filter_map] at hfiltered
    refine hfiltered.trans (List.Perm.of_eq (congrArg _ (List.filter_congr fun x hx => ?_)))
    have hknown := h.known x hx
    refine decide_eq_decide.2 (not_congr ⟨fun heq => ?_, fun heq => ?_⟩)
    · rw [show x.1.number = number from heq, ht] at hknown
      exact (Option.some.inj hknown).symm
    · show x.1.number = number
      rw [heq]
      exact h.numbers number t ht

theorem clear (h : c.Keeps a) : (c.call .clear).2.Keeps (a.call .clear).2 := by
  refine ⟨?_, h.now, h.submitted, orderly_clear c.queue, h.told, ?_, h.numbers⟩
  · show List.Perm [] (c.queue.clear.toList.map entry)
    rw [toList_clear]
    exact .refl _
  · intro x hx
    change x ∈ c.queue.clear.toList at hx
    rw [toList_clear] at hx
    cases hx

theorem pop (h : c.Keeps a) : (c.call .pop).1 = (a.call .pop).1 ∧
    (c.call .pop).2.Keeps (a.call .pop).2 := by
  rcases c.queue.pop?_cases with ⟨hpop, hl⟩ | ⟨ticket, event, rest, hpop, hl, hnow, hnext⟩
  · have hentries := h.entries
    rw [hl, List.map_nil, List.perm_nil] at hentries
    have hnone : a.first? = none := by
      rw [Agenda.first?, hentries]
      rfl
    have hcleared : (a.call .clear).2 = a := by
      rw [Agenda.call, ← hentries]
    have hclear := h.clear
    rw [hcleared] at hclear
    simp only [call, Agenda.call, hpop, hnone]
    exact ⟨trivial, hclear⟩
  · have hsorted := c.queue.toList_pairwise
    rw [hl] at hsorted
    have hentries := h.entries
    rw [hl, List.map_cons] at hentries
    have hfirst : a.first? = some (entry (ticket, event)) := by
      refine Agenda.first?_eq_some (hentries.mem_iff.2 List.mem_cons_self) fun y hy => ?_
      rcases List.mem_cons.1 (hentries.mem_iff.1 hy) with rfl | hy
      · exact .inl rfl
      · obtain ⟨x, hx, rfl⟩ := List.mem_map.1 hy
        have hlt := Ticket.order_eq_lt.1 (List.rel_of_pairwise_cons hsorted hx)
        exact .inr (decide_eq_true hlt)
    have hothers : ∀ x ∈ rest.toList, x.1.number ≠ ticket.number := by
      intro x hx heq
      have hlt := List.rel_of_pairwise_cons hsorted hx
      have hsame := h.ticket_eq (x := x) (y := (ticket, event))
        (by rw [hl]; exact List.mem_cons_of_mem _ hx) (by rw [hl]; exact List.mem_cons_self) heq
      rw [hsame, Ticket.order_eq_eq.2 rfl] at hlt
      cases hlt
    have hkept : (rest.toList.map entry).filter (·.number ≠ ticket.number) = rest.toList.map entry := by
      rw [List.filter_eq_self]
      intro x hx
      obtain ⟨y, hy, rfl⟩ := List.mem_map.1 hx
      exact decide_eq_true (hothers y hy)
    have hfiltered := hentries.filter (·.number ≠ ticket.number)
    rw [List.filter_cons_of_neg (by simp [entry]), hkept] at hfiltered
    simp only [call, Agenda.call, hpop, hfirst]
    refine ⟨rfl, hfiltered, hnow.symm, h.submitted.trans hnext.symm, (h.orderly.of_pop? hpop).2.2,
      h.told.trans hnext.symm, fun x hx => h.known x ?_, h.numbers⟩
    rw [hl]
    exact List.mem_cons_of_mem _ hx

theorem length_entries (h : c.Keeps a) : a.entries.length = c.queue.pending := by
  rw [h.entries.length_eq, List.length_map, length_toList]

/-- Every call has the same answer, and keeps the agenda. -/
theorem call (h : c.Keeps a) (k : Call α) :
    (c.call k).1 = (a.call k).1 ∧ (c.call k).2.Keeps (a.call k).2 := by
  cases k with
  | schedule time event => exact h.schedule time event
  | cancel number => exact ⟨rfl, h.cancel number⟩
  | pop => exact h.pop
  | pending => exact ⟨congrArg Answer.pending h.length_entries.symm, h⟩
  | now => exact ⟨congrArg Answer.now h.now.symm, h⟩
  | clear => exact ⟨congrArg Answer.cleared h.length_entries.symm, h.clear⟩

theorem answers (h : c.Keeps a) (calls : List (Call α)) :
    answers Client.call c calls = answers Agenda.call a calls := by
  induction calls generalizing c a with
  | nil => rfl
  | cons k calls ih =>
    obtain ⟨hanswer, hkeeps⟩ := h.call k
    rw [VideoLink.answers, VideoLink.answers, hanswer, ih hkeeps]

end Keeps

end Client

end EventQueue

end VideoLink
