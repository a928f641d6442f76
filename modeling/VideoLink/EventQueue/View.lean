import VideoLink.EventQueue.Basic
import VideoLink.Weight

/-! The queue of events as a sorted list. `toList` is strictly increasing in the ticket; scheduling inserts
an element, cancelling deletes one, and what leaves is the head. -/
namespace VideoLink.EventQueue

variable {α : Type}

theorem toList_pairwise (q : EventQueue α) :
    q.toList.Pairwise (fun a b => Ticket.order a.1 b.1 = .lt) :=
  Std.TreeMap.ordered_keys_toList.filter _

private theorem nodup_of_pairwise {l : List (Ticket × α)}
    (h : l.Pairwise (fun a b => Ticket.order a.1 b.1 = .lt)) : l.Nodup :=
  h.imp fun {a b} lt eq => by
    rw [eq, Ticket.order_eq_eq.2 rfl] at lt
    cases lt

theorem eq_of_mem_iff {l m : List (Ticket × α)}
    (hl : l.Pairwise (fun a b => Ticket.order a.1 b.1 = .lt))
    (hm : m.Pairwise (fun a b => Ticket.order a.1 b.1 = .lt))
    (same : ∀ a, a ∈ l ↔ a ∈ m) : l = m := by
  refine List.Perm.eq_of_pairwise ?_ hl hm
    ((List.perm_ext_iff_of_nodup (nodup_of_pairwise hl) (nodup_of_pairwise hm)).2 same)
  intro a b _ _ ab ba
  have := Std.TransCmp.lt_trans ab ba
  rw [Ticket.order_eq_eq.2 rfl] at this
  cases this

theorem mem_toList {q : EventQueue α} {t : Ticket} {e : α} :
    (t, e) ∈ q.toList ↔ q.heap[t]? = some e ∧ t ∉ q.cancelled := by
  rw [toList, List.mem_filter, Std.TreeMap.mem_toList_iff_getElem?_eq_some, decide_eq_true_iff]

theorem length_filter_cancelled (q : EventQueue α) :
    (q.heap.toList.filter fun a => a.1 ∈ q.cancelled).length = q.cancelled.size := by
  have hsorted : q.heap.toList.Pairwise (fun a b => Ticket.order a.1 b.1 = .lt) :=
    Std.TreeMap.ordered_keys_toList
  have hperm : ((q.heap.toList.filter fun a => a.1 ∈ q.cancelled).map (·.1)).Perm
      q.cancelled.toList := by
    refine (List.perm_ext_iff_of_nodup ?_ ?_).2 fun t => ?_
    · refine List.pairwise_map.2 ((hsorted.filter _).imp fun {a b} hlt heq => ?_)
      rw [heq, Ticket.order_eq_eq.2 rfl] at hlt
      cases hlt
    · refine Std.TreeSet.ordered_toList.imp fun {a b} hlt heq => ?_
      rw [heq, Ticket.order_eq_eq.2 rfl] at hlt
      cases hlt
    · rw [List.mem_map, Std.TreeSet.mem_toList]
      constructor
      · rintro ⟨a, ha, rfl⟩
        exact of_decide_eq_true (List.mem_filter.1 ha).2
      · intro ht
        obtain ⟨e, he⟩ := Option.isSome_iff_exists.1
          (Std.TreeMap.mem_iff_isSome_getElem?.1 (q.mem_of_cancelled t ht))
        refine ⟨(t, e), List.mem_filter.2 ⟨?_, decide_eq_true ht⟩, rfl⟩
        exact Std.TreeMap.mem_toList_iff_getElem?_eq_some.2 he
  rw [← List.length_map, hperm.length_eq, Std.TreeSet.length_toList]

theorem cancelled_le (q : EventQueue α) : q.cancelled.size ≤ q.heap.size := by
  rw [← length_filter_cancelled, ← Std.TreeMap.length_toList]
  exact List.length_filter_le _ _

theorem length_toList (q : EventQueue α) : q.toList.length = q.pending := by
  have hsplit := List.length_eq_countP_add_countP (fun a : Ticket × α => a.1 ∈ q.cancelled)
    (l := q.heap.toList)
  have hmarked := q.length_filter_cancelled
  rw [← List.countP_eq_length_filter] at hmarked
  rw [Std.TreeMap.length_toList, hmarked] at hsplit
  have hlive : q.toList.length = q.heap.toList.countP fun a => ¬ decide (a.1 ∈ q.cancelled) := by
    rw [toList, ← List.countP_eq_length_filter]
    exact List.countP_congr fun a _ => by simp
  rw [hlive, pending]
  omega

@[simp] theorem toList_empty : (empty : EventQueue α).toList = [] := by
  rw [← List.length_eq_zero_iff, length_toList]
  rfl

@[simp] theorem toList_clear (q : EventQueue α) : q.clear.toList = [] := by
  rw [← List.length_eq_zero_iff, length_toList]
  rfl

theorem toList_cancel (q : EventQueue α) (ticket : Ticket) :
    (q.cancel ticket).toList = q.toList.filter (fun a => a.1 ≠ ticket) := by
  refine eq_of_mem_iff (toList_pairwise _) ((toList_pairwise q).filter _) fun ⟨t, e⟩ => ?_
  rw [List.mem_filter, mem_toList, mem_toList, decide_eq_true_iff, and_assoc]
  refine and_congr_right fun he => ?_
  have ht : t ∈ q.heap :=
    Std.TreeMap.mem_iff_isSome_getElem?.2 (Option.isSome_of_eq_some he)
  show t ∉ (if ticket ∈ q.heap then q.cancelled.insert ticket else q.cancelled) ↔ _
  by_cases hmem : ticket ∈ q.heap
  · rw [if_pos hmem, Std.TreeSet.mem_insert, Ticket.order_eq_eq, not_or, and_comm, eq_comm]
  · have hne : t ≠ ticket := fun heq => hmem (heq ▸ ht)
    rw [if_neg hmem]
    exact (and_iff_left hne).symm

/-- The new event stands in the place of any other under its ticket. -/
theorem toList_schedule (q : EventQueue α) (time : Instant) (event : α) :
    (q.schedule time event).2.toList.Perm
      (((q.schedule time event).1, event) ::
        q.toList.filter (fun a => a.1 ≠ (q.schedule time event).1)) := by
  have hunmarked : (q.schedule time event).1 ∉ q.cancelled := fun h =>
    Nat.lt_irrefl _ (q.number_lt _ (q.mem_of_cancelled _ h))
  have hperm := (Std.TreeMap.toList_insert_perm (t := q.heap) (k := (q.schedule time event).1)
    (v := event)).filter fun a => a.1 ∉ q.cancelled
  rw [List.filter_cons_of_pos (by exact decide_eq_true hunmarked), List.filter_filter] at hperm
  refine hperm.trans (List.Perm.cons _ (List.Perm.of_eq ?_))
  rw [toList, List.filter_filter]
  refine List.filter_congr fun a _ => ?_
  rw [Bool.and_comm]
  congr 1
  exact decide_eq_decide.2 (by rw [beq_iff_eq]; exact ne_comm)

theorem mem_toList_discard {q : EventQueue α} {ticket t : Ticket} {e : α} :
    (t, e) ∈ (q.discard ticket).toList ↔ t ≠ ticket ∧ (t, e) ∈ q.toList := by
  rw [mem_toList, mem_toList, discard, Std.TreeMap.getElem?_erase, Std.TreeSet.mem_erase]
  simp only [Ticket.order_eq_eq]
  by_cases h : ticket = t
  · simp [h]
  · simp [h, Ne.symm h]

theorem toList_of_least {q : EventQueue α} {ticket : Ticket} (h : q.heap.minKey? = some ticket) :
    ∃ e, q.heap[ticket]? = some e ∧ q.toList =
      (if ticket ∈ q.cancelled then [] else [(ticket, e)]) ++ (q.discard ticket).toList := by
  obtain ⟨hmem, hleast⟩ := Std.TreeMap.minKey?_eq_some_iff_mem_and_forall.1 h
  obtain ⟨e, he⟩ := Option.isSome_iff_exists.1 (Std.TreeMap.mem_iff_isSome_getElem?.1 hmem)
  refine ⟨e, he, eq_of_mem_iff (toList_pairwise q) ?_ fun ⟨t, x⟩ => ?_⟩
  · refine List.pairwise_append.2 ⟨?_, toList_pairwise _, fun a ha b hb => ?_⟩
    · split
      · exact List.Pairwise.nil
      · exact List.pairwise_singleton _ _
    · split at ha
      · cases ha
      · rw [List.mem_singleton.1 ha]
        obtain ⟨hne, hb⟩ := mem_toList_discard.1 hb
        have hle := hleast b.1 (Std.TreeMap.mem_iff_isSome_getElem?.2
          (Option.isSome_of_eq_some (mem_toList.1 hb).1))
        have hne' : Ticket.order ticket b.1 ≠ .eq := fun heq => hne (Ticket.order_eq_eq.1 heq).symm
        revert hle hne'
        cases Ticket.order ticket b.1 <;> simp
  · rw [List.mem_append, mem_toList_discard]
    by_cases heq : t = ticket
    · subst heq
      rw [mem_toList, he]
      by_cases hmarked : t ∈ q.cancelled
      · simp [hmarked]
      · simp [hmarked, eq_comm (a := e)]
    · have hnot : (t, x) ∉ (if ticket ∈ q.cancelled then [] else [(ticket, e)]) := by
        split <;> simp [heq]
      simp [hnot, heq]

/-- What leaves is the head, and the clock shows its time. Without a head nothing leaves. -/
theorem pop?_cases (q : EventQueue α) :
    (q.pop? = none ∧ q.toList = []) ∨ ∃ ticket event rest,
      q.pop? = some ((ticket.time, event), rest) ∧ q.toList = (ticket, event) :: rest.toList ∧
      rest.now = ticket.time ∧ rest.nextNumber = q.nextNumber := by
  fun_induction pop? q with
  | case1 q hleast =>
    have hempty : q.heap.toList = [] := by
      rw [Std.TreeMap.minKey?_eq_head?_keys, ← Std.TreeMap.map_fst_toList_eq_keys,
        List.head?_eq_none_iff, List.map_eq_nil_iff] at hleast
      exact hleast
    exact .inl ⟨rfl, by rw [toList, hempty]; rfl⟩
  | case2 q ticket hleast hmarked ih =>
    obtain ⟨e, _, hl⟩ := toList_of_least hleast
    rw [if_pos hmarked, List.nil_append] at hl
    rwa [hl]
  | case3 q ticket hleast hunmarked =>
    obtain ⟨e, he, hl⟩ := toList_of_least hleast
    rw [if_neg hunmarked] at hl
    exact .inr ⟨ticket, e, { q.discard ticket with now := ticket.time }, by rw [he]; rfl, hl, rfl, rfl⟩

theorem pop?_eq_none {q : EventQueue α} : q.pop? = none ↔ q.toList = [] := by
  rcases q.pop?_cases with ⟨hpop, hl⟩ | ⟨ticket, event, rest, hpop, hl, _⟩ <;> rw [hpop, hl] <;> simp

theorem toList_of_pop? {q rest : EventQueue α} {time : Instant} {event : α}
    (h : q.pop? = some ((time, event), rest)) :
    ∃ number, q.toList = (⟨time, number⟩, event) :: rest.toList ∧ rest.now = time ∧
      rest.nextNumber = q.nextNumber := by
  rcases q.pop?_cases with ⟨hpop, _⟩ | ⟨ticket, event, rest, hpop, hl, hnow, hnext⟩ <;>
    rw [hpop] at h <;> cases h
  exact ⟨ticket.number, hl, hnow, hnext⟩

/-! The weight of the pending events, whatever an event weighs. -/

def load (weigh : α → Nat) (q : EventQueue α) : Nat := weight (fun a => weigh a.2) q.toList

@[simp] theorem load_clear (weigh : α → Nat) (q : EventQueue α) : q.clear.load weigh = 0 := by
  rw [load, toList_clear, weight_nil]

theorem load_cancel_le (weigh : α → Nat) (q : EventQueue α) (ticket : Ticket) :
    (q.cancel ticket).load weigh ≤ q.load weigh := by
  rw [load, toList_cancel]
  exact weight_filter_le _ _ _

theorem load_schedule_le (weigh : α → Nat) (q : EventQueue α) (time : Instant) (event : α) :
    (q.schedule time event).2.load weigh ≤ q.load weigh + weigh event := by
  rw [load, weight_perm _ (toList_schedule q time event), weight_cons, Nat.add_comm]
  exact Nat.add_le_add_right (weight_filter_le _ _ _) _

theorem load_of_pop? (weigh : α → Nat) {q rest : EventQueue α} {time : Instant} {event : α}
    (h : q.pop? = some ((time, event), rest)) : q.load weigh = weigh event + rest.load weigh := by
  obtain ⟨number, eq, _⟩ := toList_of_pop? h
  rw [load, eq, weight_cons, load]

end VideoLink.EventQueue
