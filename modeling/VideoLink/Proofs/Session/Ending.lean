import VideoLink.Proofs.Session.Wire

/-! Every run ends by its stop. The stop is submitted first and never again, so it leaves before all other
events of its time, and what is handled before it comes strictly earlier. -/
namespace VideoLink.Session

variable {σ γ : Type}

/-! The stop is the only one of its kind. -/

/-- Every pending stop is the one that was submitted first. -/
def StopAlone (s : Session σ γ) : Prop :=
  ∀ a ∈ s.events.toList, a.2 = .stop → a.1 = ⟨Instant.zero.after s.config.duration, 0⟩

theorem StopAlone.schedule {s : Session σ γ} (h : s.StopAlone) (horderly : s.events.Orderly)
    (time : Instant) {e : Event} (he : e ≠ .stop) : (s.schedule time e).StopAlone := by
  intro a ha hstop
  rcases List.mem_cons.1 ((horderly.perm_schedule time e).mem_iff.1 ha) with rfl | ha
  · exact absurd hstop he
  · exact h a ha hstop

theorem Begins.stopAlone {c : Config} {feeds : Duplex (Option (Feed σ γ))} {s : Session σ γ}
    (h : s.Begins c feeds) : s.StopAlone ∧ s.processed = 0 := by
  obtain ⟨monitor, segmenter, journal, _, _, rfl⟩ := h.state
  obtain ⟨journal', heq⟩ := start_eq c monitor segmenter feeds
  rw [heq]
  have hbare := untouched_bare (σ := σ) (γ := γ) c monitor segmenter
  have halone : (bare c monitor segmenter : Session σ γ).StopAlone := by
    intro a ha _
    have hperm := EventQueue.orderly_empty.perm_schedule (Instant.zero.after c.duration) Event.stop
    rw [EventQueue.toList_empty] at hperm
    have hstop := hperm.mem_iff.1 hbare.stop
    have ha' := hperm.mem_iff.1 ha
    rw [List.mem_singleton] at hstop ha'
    rw [ha', ← hstop]
  have hadd : ∀ {s : Session σ γ}, s.Untouched c monitor segmenter → s.StopAlone ∧ s.processed = 0 →
      ∀ d, ((feeds.get d).elim s (s.addGenerator d)).Untouched c monitor segmenter ∧
        ((feeds.get d).elim s (s.addGenerator d)).StopAlone ∧
        ((feeds.get d).elim s (s.addGenerator d)).processed = 0 := by
    rintro s hu ⟨hs, hprocessed⟩ d
    cases feeds.get d with
    | none => exact ⟨hu, hs, hprocessed⟩
    | some feed =>
      refine ⟨hu.addGenerator d feed, ?_⟩
      rw [Option.elim_some]
      rcases addGenerator_cases s d feed with heq | ⟨time, _, heq⟩ <;> rw [heq]
      · exact ⟨hs, hprocessed⟩
      · exact ⟨hs.schedule hu.orderly time (e := .frameTick d) (by simp), hprocessed⟩
  obtain ⟨hup, halone⟩ := hadd hbare ⟨halone, rfl⟩ .uplink
  exact (hadd hup halone .downlink).2

theorem Opening.stopAlone {now : Instant} {s t : Session σ γ} (h : s.Opening now t)
    (hs : s.StopAlone) : t.StopAlone := by
  obtain ⟨_, _, hpop, _⟩ := h.popped
  obtain ⟨_, hl, _⟩ := EventQueue.toList_of_pop? hpop
  intro a ha
  rw [h.sameSetup.config]
  exact hs a (by rw [hl]; exact List.mem_cons_of_mem _ ha)

variable [Draws σ Nat] [Draws γ Span]

theorem Move.stopAlone {now : Instant} {d : Direction} {c : Config} {s t : Session σ γ}
    (h : Move now d s t) (hstanding : s.Standing c) (hs : s.StopAlone) : t.StopAlone := by
  have hconfig := h.sameSetup.config
  have horderly := hstanding.orderly
  cases h.route hstanding with
  | kept _ _ _ hevents =>
    unfold StopAlone
    rw [hconfig]
    rcases hevents with heq | ⟨time, e, he, heq⟩ <;> rw [heq]
    · exact hs
    · exact hs.schedule horderly time (e := e) (by rcases he with rfl | rfl <;> simp)
  | entered _ _ _ _ _ _ hevents =>
    unfold StopAlone
    rw [hevents, hconfig]
    exact hs
  | taken x link _ heq =>
    have hlink : ({ s with link } : Session σ γ).StopAlone := hs
    have hfree := hlink.schedule horderly x.finish (e := .wireFree d) (by simp)
    rw [heq]
    exact hfree.schedule (horderly.schedule x.finish (.wireFree d)) x.arrival (by simp)

theorem Reaches.stopAlone {c : Config} {feeds : Duplex (Option (Feed σ γ))} {s t : Session σ γ}
    (h : s.Reaches t) (hs : s.Begins c feeds) (hrunning : t.summary? = none) : t.StopAlone :=
  h.induct_moves hs hrunning (hs.note _).stopAlone.1 (fun _ hu hopen => hopen.stopAlone hu)
    fun hstanding _ hu hmove => hmove.stopAlone hstanding hu

/-- The stop has the time at which the run is to end, and every other event an earlier one. -/
theorem Reaches.time_of_pop? {c : Config} {feeds : Duplex (Option (Feed σ γ))} {s t : Session σ γ}
    (h : s.Reaches t) (hs : s.Begins c feeds) (hrunning : t.summary? = none) {now : Instant}
    {e : Event} {events : EventQueue Event} (hpop : t.events.pop? = some ((now, e), events)) :
    e = .stop ∧ now = Instant.zero.after c.duration ∨
      e ≠ .stop ∧ now < Instant.zero.after c.duration := by
  have halone := h.stopAlone hs hrunning
  rcases h.running_or_stopped hs with ⟨_, hpending⟩ | ⟨last, _, hstop⟩
  · obtain ⟨number, hl, _⟩ := EventQueue.toList_of_pop? hpop
    have hsorted := EventQueue.toList_pairwise t.events
    unfold StopPending at hpending
    unfold StopAlone at halone
    rw [(h.standing hs).config, hl] at hpending halone
    rw [hl] at hsorted
    by_cases he : e = .stop
    · have hticket := halone _ List.mem_cons_self he
      exact .inl ⟨he, congrArg Ticket.time hticket⟩
    · refine .inr ⟨he, ?_⟩
      rcases List.mem_cons.1 hpending with heq | hrest
      · exact absurd (congrArg Prod.snd heq).symm he
      · -- No number is below that of the stop, so an event before it is one of an earlier time.
        rcases Ticket.order_eq_lt.1 (List.rel_of_pairwise_cons hsorted hrest) with hlt | ⟨_, hlt⟩
        · exact hlt
        · exact absurd hlt (Nat.not_lt_zero _)
  · obtain ⟨summary, hsummary⟩ := hstop.summary?
    rw [hsummary] at hrunning
    cases hrunning

/-! The number of events. -/

def afterEvents : Nat → Session σ γ → Option (Session σ γ)
  | 0, s => some s
  | n + 1, s => s.step?.bind (afterEvents n)

theorem Move.processed {now : Instant} {d : Direction} {s t : Session σ γ} (h : Move now d s t) :
    t.processed = s.processed := by
  cases h <;> rfl

theorem processed_of_step? {s t : Session σ γ} (h : s.step? = some t) :
    t.processed = s.processed + 1 := by
  obtain ⟨_, now, ⟨d, u, hopen, hmoves⟩ | ⟨events, _, rfl⟩⟩ := step_cases h
  · have hu : u.processed = s.processed + 1 := by cases hopen <;> rfl
    exact hmoves.induct (P := fun v => v.processed = s.processed + 1) hu
      fun hv hmove => hmove.processed.trans hv
  · obtain ⟨_, _, heq, _⟩ := onStop_eq (s.advanced events) now
    rw [heq]
    rfl

theorem Leads.exists_afterEvents {s t : Session σ γ} (h : s.Leads t) :
    ∃ n, s.afterEvents n = some t ∧ t.processed = s.processed + n := by
  induction h using Relation.ReflTransGen.head_induction_on with
  | refl => exact ⟨0, rfl, rfl⟩
  | head hstep _ ih =>
    obtain ⟨n, hafter, hcount⟩ := ih
    have hone := processed_of_step? hstep
    refine ⟨n + 1, ?_, by omega⟩
    rw [afterEvents, hstep, Option.bind_some, hafter]

theorem leads_of_afterEvents {n : Nat} {s t : Session σ γ} (h : s.afterEvents n = some t) :
    s.Leads t := by
  induction n generalizing s with
  | zero =>
    cases h
    exact .refl
  | succ n ih =>
    obtain ⟨u, hstep, hrest⟩ := Option.bind_eq_some_iff.1 h
    exact .head hstep (ih hrest)

/-! The run. -/

end VideoLink.Session
