import VideoLink.EventQueue.View

/-! Queues whose events were all submitted to them. A new event then takes its place behind every event of
its time or an earlier one, whatever the numbers are. -/
namespace VideoLink.EventQueue

variable {α : Type}

/-- Every pending event has a number that was given out, and a time that is not past. -/
structure Orderly (q : EventQueue α) : Prop where
  numbered : ∀ a ∈ q.toList, a.1.number < q.nextNumber
  timely : ∀ a ∈ q.toList, q.now ≤ a.1.time

theorem orderly_empty : (empty : EventQueue α).Orderly := by
  constructor <;> intro a ha <;> rw [toList_empty] at ha <;> cases ha

theorem ticket_schedule (q : EventQueue α) (time : Instant) (event : α) :
    (q.schedule time event).1 = ⟨time.latest q.now, q.nextNumber⟩ := rfl

theorem Orderly.fresh {q : EventQueue α} (h : q.Orderly) (time : Instant) (event : α) :
    ∀ a ∈ q.toList, a.1 ≠ (q.schedule time event).1 := by
  intro a ha eq
  have hn := h.numbered a ha
  rw [eq, ticket_schedule] at hn
  exact Nat.lt_irrefl _ hn

theorem Orderly.perm_schedule {q : EventQueue α} (h : q.Orderly) (time : Instant) (event : α) :
    (q.schedule time event).2.toList.Perm (((q.schedule time event).1, event) :: q.toList) := by
  have hp := toList_schedule q time event
  rw [List.filter_eq_self.2 (by simpa using h.fresh time event)] at hp
  exact hp

theorem Orderly.perm_schedule_of_le {q : EventQueue α} (h : q.Orderly) {time : Instant}
    (hle : q.now ≤ time) (event : α) :
    (q.schedule time event).2.toList.Perm ((⟨time, q.nextNumber⟩, event) :: q.toList) := by
  have hp := h.perm_schedule time event
  rwa [ticket_schedule, Instant.latest_of_le hle] at hp

theorem Orderly.countP_schedule {q : EventQueue α} (h : q.Orderly) (time : Instant) (event : α)
    (f : α → Bool) : (q.schedule time event).2.toList.countP (fun a => f a.2) =
      q.toList.countP (fun a => f a.2) + if f event then 1 else 0 := by
  rw [(h.perm_schedule time event).countP_eq, List.countP_cons]

theorem countP_of_pop? {q rest : EventQueue α} {time : Instant} {event : α}
    (h : q.pop? = some ((time, event), rest)) (f : α → Bool) :
    q.toList.countP (fun a => f a.2) =
      rest.toList.countP (fun a => f a.2) + if f event then 1 else 0 := by
  obtain ⟨number, hl, _⟩ := toList_of_pop? h
  rw [hl, List.countP_cons]

theorem Orderly.schedule {q : EventQueue α} (h : q.Orderly) (time : Instant) (event : α) :
    (q.schedule time event).2.Orderly := by
  constructor
  · intro a ha
    rw [(h.perm_schedule time event).mem_iff, List.mem_cons] at ha
    change a.1.number < q.nextNumber + 1
    rcases ha with rfl | ha
    · exact Nat.lt_succ_self _
    · have := h.numbered a ha
      omega
  · intro a ha
    rw [(h.perm_schedule time event).mem_iff, List.mem_cons] at ha
    rcases ha with rfl | ha
    · change q.now.nanos ≤ (time.latest q.now).nanos
      rw [Instant.nanos_latest]
      omega
    · exact h.timely a ha

theorem Orderly.cancel {q : EventQueue α} (h : q.Orderly) (ticket : Ticket) :
    (q.cancel ticket).Orderly := by
  constructor <;> intro a ha <;> rw [toList_cancel] at ha
  · exact h.numbered a (List.mem_filter.1 ha).1
  · exact h.timely a (List.mem_filter.1 ha).1

theorem orderly_clear (q : EventQueue α) : q.clear.Orderly := by
  constructor <;> intro a ha <;> rw [toList_clear] at ha <;> cases ha

/-- The clock never goes back, and what is left is orderly again. -/
theorem Orderly.of_pop? {q rest : EventQueue α} {time : Instant} {event : α} (h : q.Orderly)
    (hp : q.pop? = some ((time, event), rest)) : q.now ≤ time ∧ rest.now = time ∧ rest.Orderly := by
  obtain ⟨number, hl, hnow, hnext⟩ := toList_of_pop? hp
  have hsorted := toList_pairwise q
  rw [hl] at hsorted
  refine ⟨h.timely (⟨time, number⟩, event) (by rw [hl]; exact List.mem_cons_self), hnow, ?_, ?_⟩
  · intro a ha
    rw [hnext]
    exact h.numbered a (by rw [hl]; exact List.mem_cons_of_mem _ ha)
  · intro a ha
    rw [hnow]
    rcases Ticket.order_eq_lt.1 (List.rel_of_pairwise_cons hsorted ha) with hlt | ⟨heq, _⟩
    · exact Nat.le_of_lt hlt
    · exact Nat.le_of_eq (congrArg Instant.nanos heq)

/-- A new event comes after all events of its time. -/
theorem Orderly.toList_schedule_eq {q : EventQueue α} (h : q.Orderly) (time : Instant) (event : α) :
    (q.schedule time event).2.toList =
      q.toList.filter (fun a => a.1.time ≤ time.latest q.now) ++
        ((q.schedule time event).1, event) ::
          q.toList.filter (fun a => ¬ a.1.time ≤ time.latest q.now) := by
  apply eq_of_mem_iff (toList_pairwise _)
  · have hs := toList_pairwise q
    rw [ticket_schedule, List.pairwise_append, List.pairwise_cons]
    refine ⟨hs.filter _, ⟨?_, hs.filter _⟩, ?_⟩
    · intro b hb
      have hlate := of_decide_eq_true (List.mem_filter.1 hb).2
      exact Ticket.order_eq_lt.2 (.inl (Nat.lt_of_not_le hlate))
    · intro a ha b hb
      obtain ⟨hmem, hle⟩ := List.mem_filter.1 ha
      have hle : a.1.time.nanos ≤ (time.latest q.now).nanos := of_decide_eq_true hle
      have hn := h.numbered a hmem
      rw [Ticket.order_eq_lt]
      rcases List.mem_cons.1 hb with rfl | hb
      · by_cases hlt : a.1.time.nanos < (time.latest q.now).nanos
        · exact .inl hlt
        · exact .inr ⟨Instant.ext (Nat.le_antisymm hle (Nat.le_of_not_lt hlt)), hn⟩
      · have hlate := of_decide_eq_true (List.mem_filter.1 hb).2
        exact .inl (Nat.lt_of_le_of_lt hle (Nat.lt_of_not_le hlate))
  · intro a
    rw [(h.perm_schedule time event).mem_iff, List.mem_append, List.mem_cons, List.mem_cons,
      List.mem_filter, List.mem_filter]
    by_cases hle : a.1.time ≤ time.latest q.now <;> simp [hle, or_comm]

theorem toList_split (q : EventQueue α) (t : Instant) :
    q.toList.filter (fun a => a.1.time ≤ t) ++ q.toList.filter (fun a => ¬ a.1.time ≤ t) =
      q.toList := by
  have hs := toList_pairwise q
  refine eq_of_mem_iff ?_ hs fun a => ?_
  · refine List.pairwise_append.2 ⟨hs.filter _, hs.filter _, fun a ha b hb => ?_⟩
    have hle := of_decide_eq_true (List.mem_filter.1 ha).2
    have hlate := of_decide_eq_true (List.mem_filter.1 hb).2
    exact Ticket.order_eq_lt.2 (.inl (Nat.lt_of_le_of_lt hle (Nat.lt_of_not_le hlate)))
  · rw [List.mem_append, List.mem_filter, List.mem_filter]
    by_cases hle : a.1.time ≤ t <;> simp [hle]

/-- An event that brings nothing leaves what the pending events bring as it is. -/
theorem Orderly.filterMap_schedule {β : Type} {f : α → Option β} {q : EventQueue α} (h : q.Orderly)
    (time : Instant) {event : α} (hnone : f event = none) :
    (q.schedule time event).2.toList.filterMap (f ·.2) = q.toList.filterMap (f ·.2) := by
  have hsplit := congrArg (List.filterMap (f ·.2)) (q.toList_split (time.latest q.now))
  rw [List.filterMap_append] at hsplit
  simp only [h.toList_schedule_eq, List.filterMap_append, List.filterMap_cons, hnone, hsplit]

/-- What a new event brings comes last, if nothing else comes later. -/
theorem Orderly.filterMap_schedule_last {β : Type} {f : α → Option β} {q : EventQueue α}
    (h : q.Orderly) {time : Instant} {event : α} {b : β} (hsome : f event = some b)
    (hlast : ∀ a ∈ q.toList, (f a.2).isSome → a.1.time ≤ time.latest q.now) :
    (q.schedule time event).2.toList.filterMap (f ·.2) = q.toList.filterMap (f ·.2) ++ [b] := by
  have hlater : (q.toList.filter fun a => ¬ a.1.time ≤ time.latest q.now).filterMap (f ·.2) = [] := by
    rw [List.filterMap_eq_nil_iff]
    intro a ha
    obtain ⟨hmem, hlate⟩ := List.mem_filter.1 ha
    rw [← Option.not_isSome_iff_eq_none]
    exact fun hbrings => of_decide_eq_true hlate (hlast a hmem hbrings)
  have hsplit := congrArg (List.filterMap (f ·.2)) (q.toList_split (time.latest q.now))
  rw [List.filterMap_append, hlater, List.append_nil] at hsplit
  simp only [h.toList_schedule_eq, List.filterMap_append, List.filterMap_cons, hsome, hlater, hsplit]

/-! The tickets of one event. -/

section

variable [DecidableEq α]

def ticketsOf (q : EventQueue α) (event : α) : List Ticket :=
  (q.toList.filter (·.2 = event)).map (·.1)

theorem mem_ticketsOf {q : EventQueue α} {event : α} {ticket : Ticket} :
    ticket ∈ q.ticketsOf event ↔ (ticket, event) ∈ q.toList := by
  simp [ticketsOf]

theorem Orderly.ticketsOf_schedule_of_ne {q : EventQueue α} (h : q.Orderly) (time : Instant)
    {event e : α} (hne : event ≠ e) : (q.schedule time event).2.ticketsOf e = q.ticketsOf e := by
  have hsplit := congrArg (fun l => l.filter (·.2 = e)) (q.toList_split (time.latest q.now))
  rw [List.filter_append] at hsplit
  rw [ticketsOf, h.toList_schedule_eq, List.filter_append, List.filter_cons_of_neg (by simpa using hne),
    hsplit, ticketsOf]

theorem Orderly.mem_ticketsOf_schedule {q : EventQueue α} (h : q.Orderly) {time : Instant}
    {event e : α} {ticket : Ticket} (hmem : ticket ∈ (q.schedule time event).2.ticketsOf e) :
    ticket ∈ q.ticketsOf e ∨ event = e ∧ ticket = ⟨time.latest q.now, q.nextNumber⟩ := by
  rw [mem_ticketsOf, (h.perm_schedule time event).mem_iff, List.mem_cons, ticket_schedule] at hmem
  rcases hmem with heq | hold
  · obtain ⟨rfl, rfl⟩ := Prod.mk.inj heq
    exact .inr ⟨rfl, rfl⟩
  · exact .inl (mem_ticketsOf.2 hold)

theorem Orderly.ticketsOf_schedule_self {q : EventQueue α} (h : q.Orderly) (time : Instant)
    {event : α} (hnone : q.ticketsOf event = []) :
    (q.schedule time event).2.ticketsOf event = [(q.schedule time event).1] := by
  have hperm := ((h.perm_schedule time event).filter (·.2 = event)).map (·.1)
  have hold : (q.toList.filter (·.2 = event)).map (·.1) = [] := hnone
  rw [List.filter_cons_of_pos (by simp), List.map_cons, hold] at hperm
  exact List.perm_singleton.1 hperm

theorem ticketsOf_of_pop? {q rest : EventQueue α} {time : Instant} {event : α}
    (h : q.pop? = some ((time, event), rest)) : ∃ number, ∀ e,
      q.ticketsOf e = (if event = e then [⟨time, number⟩] else []) ++ rest.ticketsOf e := by
  obtain ⟨number, hl, _⟩ := toList_of_pop? h
  refine ⟨number, fun e => ?_⟩
  rw [ticketsOf, hl, List.filter_cons]
  by_cases he : event = e <;> simp [he, ticketsOf]

theorem toList_withdraw {q : EventQueue α} {event : α} {ticket? : Option Ticket}
    (h : q.ticketsOf event = ticket?.toList) :
    (ticket?.elim q q.cancel).toList = q.toList.filter (·.2 ≠ event) := by
  have hmem : ∀ a ∈ q.toList, a.2 = event → some a.1 = ticket? := by
    intro a ha heq
    have hticket : a.1 ∈ ticket?.toList := h ▸ mem_ticketsOf.2 (heq ▸ ha)
    exact (Option.mem_toList.1 hticket).symm
  cases ticket? with
  | none =>
    have hother : ∀ a ∈ q.toList, a.2 ≠ event := fun a ha heq => by cases hmem a ha heq
    exact (List.filter_eq_self.2 (by simpa using hother)).symm
  | some ticket =>
    have hpending : (ticket, event) ∈ q.toList := mem_ticketsOf.1 (by rw [h]; exact List.mem_cons_self)
    rw [Option.elim_some, toList_cancel]
    refine List.filter_congr fun a ha => decide_eq_decide.2 (not_congr ⟨fun heq => ?_, fun heq => ?_⟩)
    · obtain ⟨hfound, _⟩ := mem_toList.1 (heq ▸ ha : (ticket, a.2) ∈ q.toList)
      rw [(mem_toList.1 hpending).1, Option.some.injEq] at hfound
      exact hfound.symm
    · exact Option.some.inj (hmem a ha heq)

theorem ticketsOf_withdraw {q rest : EventQueue α} {event e : α}
    (h : rest.toList = q.toList.filter (·.2 ≠ event)) (hne : event ≠ e) :
    rest.ticketsOf e = q.ticketsOf e := by
  rw [ticketsOf, h, List.filter_filter, ticketsOf]
  refine congrArg _ (List.filter_congr fun a _ => ?_)
  by_cases ha : a.2 = e
  · simp [ha, Ne.symm hne]
  · simp [ha]

end

end VideoLink.EventQueue
