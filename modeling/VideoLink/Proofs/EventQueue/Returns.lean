import Mathlib.Data.List.Induction
import Mathlib.Logic.Function.Basic
import VideoLink.Proofs.EventQueue.Agenda

/-! What a queue returns over its whole history. An event leaves after it was submitted and not after it was
withdrawn, it leaves once, and the times of those that leave never go back. -/
namespace VideoLink.EventQueue

variable {α : Type}

def Answer.left? : Answer α → Option (Instant × α)
  | .popped first? => first?
  | _ => none

def timesLeft (as : List (Answer α)) : List Instant := as.filterMap fun r => r.left?.map (·.1)

/-- The submission of a number was made for an event before the call at `i`, not for later than a time, and
was not withdrawn before that call. -/
def Stands (calls : List (Call α)) (as : List (Answer α)) (i number : Nat) (time : Instant) (event : α) :
    Prop :=
  ∃ j < i, (∃ requested, calls[j]? = some (.schedule requested event) ∧ requested ≤ time) ∧
    as[j]? = some (.submitted number) ∧
    ∀ k, j < k → k < i → calls[k]? ≠ some (.cancel number) ∧ calls[k]? ≠ some .clear

/-- What left at each call is a submission that stood until then, and no two calls brought the same one. -/
structure Returns (calls : List (Call α)) (as : List (Answer α)) (number : Nat → Nat) : Prop where
  stands : ∀ (i : Nat) time event, as[i]? = some (.popped (some (time, event))) →
    Stands calls as i (number i) time event
  once : ∀ (i j : Nat) x y, as[i]? = some (.popped (some x)) → as[j]? = some (.popped (some y)) →
    number i = number j → i = j

section

variable {calls : List (Call α)} {as : List (Answer α)} {i n : Nat} {time : Instant} {event : α}

theorem Stands.concat (h : Stands calls as i n time event) (hlen : as.length = calls.length)
    (hi : i ≤ calls.length) (c : Call α) (r : Answer α) :
    Stands (calls ++ [c]) (as ++ [r]) i n time event := by
  obtain ⟨j, hj, ⟨requested, hcall, hle⟩, hanswer, hkept⟩ := h
  refine ⟨j, hj, ⟨requested, ?_, hle⟩, ?_, fun k hjk hk => ?_⟩
  · rwa [List.getElem?_append_left (by omega)]
  · rwa [List.getElem?_append_left (by omega)]
  · rw [List.getElem?_append_left (by omega)]
    exact hkept k hjk hk

theorem Stands.later (h : Stands calls as calls.length n time event) (hlen : as.length = calls.length)
    {c : Call α} (hcancel : c ≠ .cancel n) (hclear : c ≠ .clear) (r : Answer α) :
    Stands (calls ++ [c]) (as ++ [r]) (calls.length + 1) n time event := by
  obtain ⟨j, hj, hcall, hanswer, hkept⟩ := h.concat hlen (Nat.le_refl _) c r
  refine ⟨j, by omega, hcall, hanswer, fun k hjk hk => ?_⟩
  by_cases hlast : k = calls.length
  · rw [hlast, List.getElem?_concat_length]
    exact ⟨fun heq => hcancel (Option.some.inj heq), fun heq => hclear (Option.some.inj heq)⟩
  · exact hkept k hjk (by omega)

theorem getElem?_concat_popped {r : Answer α} {x : Instant × α}
    (h : (as ++ [r])[i]? = some (.popped (some x))) :
    as[i]? = some (.popped (some x)) ∧ i < as.length ∨ i = as.length ∧ r = .popped (some x) := by
  rw [List.getElem?_append] at h
  split at h
  · exact .inl ⟨h, ‹_›⟩
  · rw [List.getElem?_singleton] at h
    split at h
    · exact .inr ⟨by omega, Option.some.inj h⟩
    · cases h

end

/-- What an agenda remembers of its history. -/
structure Agenda.Recalls (a : Agenda α) (calls : List (Call α)) (as : List (Answer α)) : Prop where
  length : as.length = calls.length
  stands : ∀ x ∈ a.entries, Stands calls as calls.length x.number x.time x.event
  timely : ∀ x ∈ a.entries, a.now ≤ x.time
  numbered : ∀ x ∈ a.entries, x.number < a.submitted
  past : ∀ t ∈ timesLeft as, t ≤ a.now
  sorted : (timesLeft as).Pairwise (· ≤ ·)
  returns : ∃ number, Returns calls as number ∧
    ∀ (i : Nat) x, as[i]? = some (.popped (some x)) →
      number i < a.submitted ∧ ∀ y ∈ a.entries, y.number ≠ number i

namespace Agenda.Recalls

variable {a : Agenda α} {calls : List (Call α)} {as : List (Answer α)}

theorem new : (Agenda.new : Agenda α).Recalls [] [] := by
  refine ⟨rfl, ?_, ?_, ?_, ?_, List.Pairwise.nil, fun _ => 0, ⟨?_, ?_⟩, ?_⟩
  · intro x hx
    cases hx
  · intro x hx
    cases hx
  · intro x hx
    cases hx
  · intro t ht
    cases ht
  · intro i time event h
    cases h
  · intro i j x y h
    cases h
  · intro i x h
    cases h

theorem quiet (h : a.Recalls calls as) {a' : Agenda α} {c : Call α} {r : Answer α}
    (hr : r.left? = none) (hnow : a'.now = a.now) (hsubmitted : a.submitted ≤ a'.submitted)
    (hentries : ∀ x ∈ a'.entries, (x ∈ a.entries ∧ c ≠ .cancel x.number ∧ c ≠ .clear) ∨
      x.number = a.submitted ∧ a.submitted < a'.submitted ∧ a.now ≤ x.time ∧
        r = .submitted x.number ∧ ∃ requested, c = .schedule requested x.event ∧ requested ≤ x.time) :
    a'.Recalls (calls ++ [c]) (as ++ [r]) := by
  have htimes : timesLeft (as ++ [r]) = timesLeft as := by
    rw [timesLeft, List.filterMap_append, List.filterMap_cons, hr]
    exact List.append_nil _
  have hold : ∀ {i : Nat} {x : Instant × α}, (as ++ [r])[i]? = some (.popped (some x)) →
      as[i]? = some (.popped (some x)) ∧ i < as.length := by
    intro i x hx
    rcases getElem?_concat_popped hx with hx | ⟨_, heq⟩
    · exact hx
    · rw [heq] at hr
      cases hr
  obtain ⟨number, hreturns, hgone⟩ := h.returns
  refine ⟨by simp [h.length], fun x hx => ?_, fun x hx => ?_, fun x hx => ?_, ?_, ?_,
    number, ⟨?_, ?_⟩, fun i x hx => ?_⟩
  · rw [List.length_append]
    rcases hentries x hx with ⟨hmem, hcancel, hclear⟩ | ⟨_, _, _, hanswer, requested, hcall, hle⟩
    · exact (h.stands x hmem).later h.length hcancel hclear r
    · refine ⟨calls.length, Nat.lt_succ_self _, ⟨requested, ?_, hle⟩, ?_, fun k hlt hk => ?_⟩
      · rw [List.getElem?_concat_length, hcall]
      · rw [← h.length, List.getElem?_concat_length, hanswer]
      · rw [List.length_singleton] at hk
        omega
  · rw [hnow]
    rcases hentries x hx with ⟨hmem, _⟩ | ⟨_, _, hle, _⟩
    · exact h.timely x hmem
    · exact hle
  · rcases hentries x hx with ⟨hmem, _⟩ | ⟨heq, hlt, _⟩
    · exact Nat.lt_of_lt_of_le (h.numbered x hmem) hsubmitted
    · rwa [heq]
  · rw [htimes, hnow]
    exact h.past
  · rw [htimes]
    exact h.sorted
  · intro i time event hx
    obtain ⟨hx, hi⟩ := hold hx
    exact (hreturns.stands i time event hx).concat h.length (by have := h.length; omega) c r
  · intro i j x y hx hy heq
    exact hreturns.once i j x y (hold hx).1 (hold hy).1 heq
  · obtain ⟨hlt, hne⟩ := hgone i x (hold hx).1
    refine ⟨Nat.lt_of_lt_of_le hlt hsubmitted, fun y hy => ?_⟩
    rcases hentries y hy with ⟨hmem, _⟩ | ⟨heq, _⟩
    · exact hne y hmem
    · omega

theorem leave (h : a.Recalls calls as) {x : Entry α} (hx : x ∈ a.entries)
    (hleast : ∀ y ∈ a.entries, x.time ≤ y.time) :
    Recalls { a with entries := a.without x.number, now := x.time } (calls ++ [.pop])
      (as ++ [.popped (some (x.time, x.event))]) := by
  have hkept : ∀ {y : Entry α}, y ∈ a.without x.number → y ∈ a.entries ∧ y.number ≠ x.number := by
    intro y hy
    obtain ⟨hmem, hne⟩ := List.mem_filter.1 hy
    exact ⟨hmem, of_decide_eq_true hne⟩
  have htimes : timesLeft (as ++ [.popped (some (x.time, x.event))]) = timesLeft as ++ [x.time] := by
    rw [timesLeft, List.filterMap_append]
    rfl
  have hpast : ∀ t ∈ timesLeft as, t ≤ x.time := fun t ht =>
    Nat.le_trans (h.past t ht) (h.timely x hx)
  obtain ⟨number, hreturns, hgone⟩ := h.returns
  have hnumber : ∀ {i : Nat}, i < as.length →
      Function.update number as.length x.number i = number i :=
    fun hi => Function.update_of_ne (Nat.ne_of_lt hi) _ _
  -- The entry leaves by the last call, so only this call gets its number.
  have hlast : Function.update number as.length x.number as.length = x.number :=
    Function.update_self _ _ _
  refine ⟨by simp [h.length], fun y hy => ?_, fun y hy => hleast y (hkept hy).1,
    fun y hy => h.numbered y (hkept hy).1, ?_, ?_, Function.update number as.length x.number,
    ⟨?_, ?_⟩, ?_⟩
  · rw [List.length_append]
    exact (h.stands y (hkept hy).1).later h.length (by simp) (by simp) _
  · rw [htimes]
    intro t ht
    rcases List.mem_append.1 ht with ht | ht
    · exact hpast t ht
    · rw [List.mem_singleton.1 ht]
      exact Nat.le_refl _
  · rw [htimes, List.pairwise_append]
    refine ⟨h.sorted, List.pairwise_singleton _ _, fun t ht u hu => ?_⟩
    rw [List.mem_singleton.1 hu]
    exact hpast t ht
  · intro i time event hy
    rcases getElem?_concat_popped hy with ⟨hy, hi⟩ | ⟨rfl, heq⟩
    · rw [hnumber hi]
      exact (hreturns.stands i time event hy).concat h.length (by have := h.length; omega) _ _
    · cases heq
      rw [hlast, h.length]
      exact (h.stands x hx).concat h.length (Nat.le_refl _) _ _
  · intro i j y z hy hz heq
    rcases getElem?_concat_popped hy with ⟨hy, hi⟩ | ⟨rfl, _⟩ <;>
      rcases getElem?_concat_popped hz with ⟨hz, hj⟩ | ⟨rfl, _⟩
    · rw [hnumber hi, hnumber hj] at heq
      exact hreturns.once i j y z hy hz heq
    · rw [hnumber hi, hlast] at heq
      exact absurd heq.symm ((hgone i y hy).2 x hx)
    · rw [hnumber hj, hlast] at heq
      exact absurd heq ((hgone j z hz).2 x hx)
    · rfl
  · intro i y hy
    rcases getElem?_concat_popped hy with ⟨hy, hi⟩ | ⟨rfl, _⟩
    · rw [hnumber hi]
      exact ⟨(hgone i y hy).1, fun z hz => (hgone i y hy).2 z (hkept hz).1⟩
    · rw [hlast]
      exact ⟨h.numbered x hx, fun z hz => (hkept hz).2⟩

theorem call (h : a.Recalls calls as) (c : Call α) :
    (a.call c).2.Recalls (calls ++ [c]) (as ++ [(a.call c).1]) := by
  have hsame : ∀ {c : Call α} {r : Answer α}, r.left? = none → (∀ n, c ≠ .cancel n) → c ≠ .clear →
      a.Recalls (calls ++ [c]) (as ++ [r]) := fun hr hcancel hclear =>
    h.quiet hr rfl (Nat.le_refl _) fun x hx => .inl ⟨hx, hcancel _, hclear⟩
  cases c with
  | schedule requested event =>
    refine h.quiet rfl rfl (Nat.le_succ _) fun x hx => ?_
    rcases List.mem_append.1 hx with hx | hx
    · exact .inl ⟨hx, by simp, by simp⟩
    · rw [List.mem_singleton.1 hx]
      refine .inr ⟨rfl, Nat.lt_succ_self _, ?_, rfl, requested, rfl, ?_⟩ <;> dsimp only <;> split
      · exact Nat.le_refl _
      · exact Nat.le_of_not_lt ‹_›
      · exact Nat.le_of_lt ‹_›
      · exact Nat.le_refl _
  | cancel number =>
    refine h.quiet rfl rfl (Nat.le_refl _) fun x hx => ?_
    obtain ⟨hmem, hne⟩ := List.mem_filter.1 hx
    exact .inl ⟨hmem, fun heq => of_decide_eq_true hne (Call.cancel.inj heq).symm, by simp⟩
  | pop =>
    rw [Agenda.call]
    cases hfirst : a.first? with
    | none => exact hsame rfl (by simp) (by simp)
    | some x =>
      refine h.leave (List.mem_of_find?_eq_some hfirst) fun y hy => ?_
      have hleast := List.all_eq_true.1 (List.find?_eq_some_iff_append.1 hfirst).1 y hy
      simp only [Entry.before, Bool.not_eq_true', decide_eq_false_iff_not, not_or] at hleast
      exact Nat.le_of_not_lt hleast.1
  | pending => exact hsame rfl (by simp) (by simp)
  | now => exact hsame rfl (by simp) (by simp)
  | clear =>
    refine h.quiet rfl rfl (Nat.le_refl _) fun x hx => ?_
    cases hx

theorem after (calls : List (Call α)) : (after Agenda.call Agenda.new calls).Recalls calls
    (answers Agenda.call Agenda.new calls) := by
  induction calls using List.reverseRecOn with
  | nil => exact .new
  | append_singleton calls c ih =>
    rw [after_concat, answers_concat]
    exact ih.call c

end Agenda.Recalls

/-- A new queue answers every sequence of calls as the list does, and never counts more withdrawn events than
it holds. What leaves it was submitted, was not withdrawn and leaves once, and time never goes back. -/
theorem answers_as_a_sorted_list (calls : List (Call α)) :
    answers Client.call .new calls = answers Agenda.call .new calls ∧
    (after Client.call .new calls).queue.cancelled.size ≤
      (after Client.call .new calls).queue.heap.size ∧
    (timesLeft (answers Client.call .new calls)).Pairwise (· ≤ ·) ∧
    ∃ number, Returns calls (answers Client.call .new calls) number := by
  have hsame := Client.Keeps.new.answers calls
  have hrecalls := Agenda.Recalls.after calls
  obtain ⟨number, hreturns, _⟩ := hrecalls.returns
  rw [hsame]
  exact ⟨rfl, cancelled_le _, hrecalls.sorted, number, hreturns⟩

end VideoLink.EventQueue
