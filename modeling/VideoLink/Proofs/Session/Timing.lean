import VideoLink.Proofs.Session.Accounts
import VideoLink.Proofs.Session.Wire

/-! When a wire is free: now, or as soon as the packet on it has passed. No packet on its way arrives later
than one delay after that, so a packet that takes the wire arrives behind all that took it before, also
where serialization takes no time or the delay is zero. -/
namespace VideoLink.Session

variable {σ γ : Type}

/-- The wire of a direction is free at a time: now if it is idle, else at the end of the packet on it. -/
def FreeAt (s : Session σ γ) (d : Direction) (time : Instant) : Prop :=
  (s.link.channel d).busy = false ∧ time = s.events.now ∨
    ∃ number, (⟨time, number⟩, Event.wireFree d) ∈ s.events.toList

/-- What holds at an instant of a run before its stop. -/
structure Steady (c : Config) (now : Instant) (s : Session σ γ) : Prop where
  standing : s.Standing c
  exclusive : s.Exclusive
  accounted : s.Accounted c
  time : s.events.now = now

theorem Exclusive.not_pending {s : Session σ γ} (h : s.Exclusive) {d : Direction}
    (hidle : (s.link.channel d).busy = false) (ticket : Ticket) :
    (ticket, Event.wireFree d) ∉ s.events.toList := by
  have hnone : s.pendingFrees d = 0 := by
    rw [h.busy d, hidle]
    rfl
  intro ha
  have hall := List.countP_eq_zero.1 hnone _ ha
  exact hall (decide_eq_true rfl)

/-! An event leaves the queue. -/

theorem Opening.mem_events {now : Instant} {s t : Session σ γ} (h : s.Opening now t)
    {a : Ticket × Event} (ha : a ∈ t.events.toList) : a ∈ s.events.toList := by
  obtain ⟨_, _, hpop, _⟩ := h.popped
  obtain ⟨_, hl, _⟩ := EventQueue.toList_of_pop? hpop
  rw [hl]
  exact List.mem_cons_of_mem _ ha

theorem Opening.channel_cases {now : Instant} {s t : Session σ γ} (h : s.Opening now t)
    (d : Direction) : t.link.channel d = s.link.channel d ∨
      s.FreeAt d now ∧ t.link.channel d = (s.link.channel d).release := by
  cases h with
  | tick | due | arrival => exact .inl rfl
  | @free e events hpop =>
    by_cases hd : d = e
    · subst hd
      obtain ⟨number, hl, _⟩ := EventQueue.toList_of_pop? hpop
      refine .inr ⟨.inr ⟨number, ?_⟩, s.link.channel_setChannel_self d _⟩
      rw [hl]
      exact List.mem_cons_self
    · exact .inl (s.link.channel_setChannel_of_ne hd _)

theorem Opening.queue {now : Instant} {s t : Session σ γ} (h : s.Opening now t) (d : Direction) :
    (t.link.channel d).queue = (s.link.channel d).queue := by
  rcases h.channel_cases d with heq | ⟨_, heq⟩ <;> rw [heq]
  rfl

theorem Opening.freeAt {now : Instant} {c : Config} {s t : Session σ γ} (h : s.Opening now t)
    (hs : s.Standing c) {d : Direction} {time : Instant} (hd : t.FreeAt d time) :
    s.FreeAt d time ∨ (s.link.channel d).busy = false ∧
      t.link.channel d = s.link.channel d ∧ time = now := by
  obtain ⟨_, _, hnow⟩ := h.standing hs
  rcases hd with ⟨hidle, htime⟩ | ⟨number, hmem⟩
  · rw [hnow] at htime
    rcases h.channel_cases d with hsame | ⟨hfree, _⟩
    · exact .inr ⟨hsame ▸ hidle, hsame, htime⟩
    · exact .inl (htime ▸ hfree)
  · exact .inl (.inr ⟨number, h.mem_events hmem⟩)

theorem Opening.steady {c : Config} {before now : Instant} {s t : Session σ γ}
    (h : s.Opening now t) (hs : s.Steady c before) : t.Steady c now := by
  obtain ⟨hstanding, _, hnow⟩ := h.standing hs.standing
  exact ⟨hstanding, h.exclusive hs.exclusive, h.accounted hs.accounted hs.standing, hnow⟩

/-! A packet takes the wire. -/

section

variable {c : Config} {now : Instant} {s : Session σ γ} {d : Direction} {x : Transmission}
  {link : Link}

theorem Steady.le_finish (hs : s.Steady c now) (hstart : s.link.start? d now = some (x, link)) :
    s.events.now ≤ x.finish ∧ x.finish ≤ x.arrival := by
  obtain ⟨_, _, _, hfinish, harrival, _⟩ := start?_eq_some hstart
  rw [hs.time, hfinish, harrival, hfinish]
  exact ⟨Instant.le_after _ _, Instant.le_after _ _⟩

theorem Steady.mem_started (hs : s.Steady c now) (hstart : s.link.start? d now = some (x, link))
    {a : Ticket × Event} : a ∈ (s.started d x link).events.toList ↔
      a = (⟨x.arrival, s.events.nextNumber + 1⟩, .arrival d x.packet) ∨
      a = (⟨x.finish, s.events.nextNumber⟩, .wireFree d) ∨ a ∈ s.events.toList := by
  have horderly := hs.standing.orderly
  obtain ⟨hfinish, harrival⟩ := hs.le_finish hstart
  have hfree := horderly.perm_schedule_of_le hfinish (.wireFree d)
  have hlate : (s.events.schedule x.finish (.wireFree d)).2.now ≤ x.arrival :=
    Nat.le_trans hfinish harrival
  have hlast := (horderly.schedule x.finish (.wireFree d)).perm_schedule_of_le hlate
    (.arrival d x.packet)
  refine hlast.mem_iff.trans ?_
  rw [List.mem_cons, hfree.mem_iff, List.mem_cons]
  rfl

theorem Steady.freeAt_started (hs : s.Steady c now) (hstart : s.link.start? d now = some (x, link))
    {e : Direction} {time : Instant} (he : (s.started d x link).FreeAt e time) :
    e = d ∧ time = x.finish ∨ e ≠ d ∧ s.FreeAt e time := by
  obtain ⟨hidle, queue, _, _, _, hlink⟩ := start?_eq_some hstart
  have hchannel : (s.started d x link).link.channel e = link.channel e := rfl
  by_cases hd : e = d
  · subst hd
    refine .inl ⟨rfl, ?_⟩
    rcases he with ⟨hfree, _⟩ | ⟨number, hmem⟩
    · rw [hchannel, hlink, Link.channel_setChannel_self] at hfree
      cases hfree
    · rcases (hs.mem_started hstart).1 hmem with heq | heq | hold
      · cases heq
      · exact congrArg (·.1.time) heq
      · exact absurd hold (hs.exclusive.not_pending hidle _)
  · refine .inr ⟨hd, ?_⟩
    rcases he with ⟨hfree, htime⟩ | ⟨number, hmem⟩
    · rw [hchannel, hlink, Link.channel_setChannel_of_ne _ hd] at hfree
      exact .inl ⟨hfree, htime⟩
    · rcases (hs.mem_started hstart).1 hmem with heq | heq | hold
      · cases heq
      · cases heq
        exact absurd rfl hd
      · exact .inr ⟨number, hold⟩

theorem Steady.freeAt_of_start? (hs : s.Steady c now)
    (hstart : s.link.start? d now = some (x, link)) : s.FreeAt d now :=
  .inl ⟨(start?_eq_some hstart).1, hs.time.symm⟩

end

/-! Moves. -/

/-- A move by which no packet takes a wire leaves the pending ends and arrivals as they are. -/
structure Quiet (s t : Session σ γ) : Prop where
  busy : ∀ d, (t.link.channel d).busy = (s.link.channel d).busy
  ends : ∀ ticket d, (ticket, Event.wireFree d) ∈ t.events.toList →
    (ticket, Event.wireFree d) ∈ s.events.toList
  arrivals : ∀ ticket d p, (ticket, Event.arrival d p) ∈ t.events.toList →
    (ticket, Event.arrival d p) ∈ s.events.toList
  time : t.events.now = s.events.now

theorem Quiet.freeAt {s t : Session σ γ} (h : s.Quiet t) {d : Direction} {time : Instant}
    (ht : t.FreeAt d time) : s.FreeAt d time := by
  rcases ht with ⟨hidle, htime⟩ | ⟨number, hmem⟩
  · exact .inl ⟨h.busy d ▸ hidle, htime.trans h.time⟩
  · exact .inr ⟨number, h.ends _ d hmem⟩

theorem Standing.quiet {c : Config} {d : Direction} {s t : Session σ γ} (hs : s.Standing c)
    (hbusy : ∀ e, (t.link.channel e).busy = (s.link.channel e).busy)
    (hevents : t.events = s.events ∨ ∃ time e, (e = .frameTick d ∨ e = .segmentDue d) ∧
      t.events = (s.events.schedule time e).2) : s.Quiet t := by
  have hmem : ∀ a ∈ t.events.toList, a ∈ s.events.toList ∨ a.2 = .frameTick d ∨
      a.2 = .segmentDue d := by
    intro a ha
    rcases hevents with heq | ⟨time, e, he, heq⟩
    · exact .inl (heq ▸ ha)
    · rw [heq, (hs.orderly.perm_schedule time e).mem_iff, List.mem_cons] at ha
      rcases ha with rfl | ha
      · exact .inr he
      · exact .inl ha
  refine ⟨hbusy, fun ticket e ha => ?_, fun ticket e p ha => ?_, ?_⟩
  · rcases hmem _ ha with hold | hnew | hnew
    · exact hold
    · cases hnew
    · cases hnew
  · rcases hmem _ ha with hold | hnew | hnew
    · exact hold
    · cases hnew
    · cases hnew
  · rcases hevents with heq | ⟨_, _, _, heq⟩
    · rw [heq]
    · rw [heq]
      rfl

variable [Draws σ Nat] [Draws γ Span]

/-- A packet takes the wire, or else the pending ends and arrivals stay. -/
theorem Move.quiet_or_started {c : Config} {now : Instant} {d : Direction} {s t : Session σ γ}
    (h : Move now d s t) (hs : s.Standing c) : s.Quiet t ∨
      ∃ x link, s.link.start? d now = some (x, link) ∧ t = s.started d x link := by
  cases h.route hs with
  | kept hbusy _ _ hevents => exact .inl (hs.quiet hbusy hevents)
  | entered p _ _ _ hlink _ hevents =>
    exact .inl (hs.quiet (d := d) (fun e => by rw [hlink, busy_push]) (.inl hevents))
  | taken x link hstart heq => exact .inr ⟨x, link, hstart, heq⟩

theorem Move.steady {c : Config} {now : Instant} {d : Direction} {s t : Session σ γ}
    (h : Move now d s t) (hs : s.Steady c now) : t.Steady c now := by
  have hclock := (h.orderly hs.standing.orderly).2
  exact ⟨h.standing hs.standing, h.exclusive hs.standing hs.exclusive,
    (h.traced hs.standing).accounted hs.accounted hs.standing hs.time hclock, hclock.trans hs.time⟩

theorem Reaches.steady {c : Config} {feeds : Duplex (Option (Feed σ γ))} {s t : Session σ γ}
    (h : s.Reaches t) (hs : s.Begins c feeds) (hrunning : t.summary? = none) :
    t.Steady c t.events.now :=
  ⟨h.standing hs, h.exclusive hs hrunning, h.accounted hs hrunning, rfl⟩

/-- What holds at the beginning and is kept by every event and every move holds until the stop. -/
theorem Reaches.induct_steady {P : Session σ γ → Prop} {c : Config}
    {feeds : Duplex (Option (Feed σ γ))} {s t : Session σ γ} (h : s.Reaches t) (hs : s.Begins c feeds)
    (hrunning : t.summary? = none) (begins : P (s.note (.started s.directions.length)))
    (opening : ∀ {u v now}, s.Reaches u → u.summary? = none → P u → u.Opening now v → P v)
    (move : ∀ {u v now d}, u.Steady c now → P u → Move now d u v → P v) : P t := by
  refine (h.induct_running (P := fun t => s.Reaches t ∧ P t) hs hrunning ⟨.refl, begins⟩ ?_).2
  rintro u v - ⟨hreach, hu⟩ hstep hv
  refine ⟨.tail hreach hstep, ?_⟩
  obtain ⟨hgoing, _⟩ := step?_eq_some hstep
  obtain ⟨now, d, w, hopen, hmoves⟩ := opening_of_step? hstep hv
  have hw := opening hreach hgoing hu hopen
  have hsteady := hopen.steady (hreach.steady hs hgoing)
  refine (hmoves.induct (P := fun v => v.Steady c now ∧ P v) ⟨hsteady, hw⟩ ?_).2
  rintro v w ⟨hv, hp⟩ hmove
  exact ⟨hmove.steady hv, move hv hp hmove⟩

/-! The spacing of the arrivals. -/

/-- No packet arrives later than one delay after its wire is free. -/
def Spaced (s : Session σ γ) : Prop :=
  ∀ d free ticket p, s.FreeAt d free → (ticket, Event.arrival d p) ∈ s.events.toList →
    ticket.time ≤ free.after s.link.settings.delay

omit [Draws σ Nat] [Draws γ Span] in
theorem Opening.spaced {now : Instant} {c : Config} {s t : Session σ γ} (h : s.Opening now t)
    (hstanding : s.Standing c) (hs : s.Spaced) : t.Spaced := by
  obtain ⟨_, hle, _⟩ := h.standing hstanding
  intro d free ticket p hfree hmem
  rw [h.sameSetup.settings]
  rcases h.freeAt hstanding hfree with hold | ⟨hidle, _, rfl⟩
  · exact hs d free ticket p hold (h.mem_events hmem)
  · -- The wire was free all the time, and now is later than before.
    have hbefore := hs d s.events.now ticket p (.inl ⟨hidle, rfl⟩) (h.mem_events hmem)
    exact Nat.le_trans hbefore (Instant.after_le_after hle _)

theorem Move.spaced {c : Config} {now : Instant} {d : Direction} {s t : Session σ γ}
    (h : Move now d s t) (hsteady : s.Steady c now) (hs : s.Spaced) : t.Spaced := by
  intro e free ticket p hfree hmem
  rw [h.sameSetup.settings]
  rcases h.quiet_or_started hsteady.standing with hquiet | ⟨x, link, hstart, rfl⟩
  · exact hs e free ticket p (hquiet.freeAt hfree) (hquiet.arrivals ticket e p hmem)
  · obtain ⟨_, _, _, hfinish, harrival, _⟩ := start?_eq_some hstart
    rcases (hsteady.mem_started hstart).1 hmem with heq | heq | hold
    · cases heq
      rcases hsteady.freeAt_started hstart hfree with ⟨_, rfl⟩ | ⟨hne, _⟩
      · exact Nat.le_of_eq (congrArg Instant.nanos harrival)
      · exact absurd rfl hne
    · cases heq
    · rcases hsteady.freeAt_started hstart hfree with ⟨rfl, rfl⟩ | ⟨_, hother⟩
      · have hbefore := hs e now ticket p (hsteady.freeAt_of_start? hstart) hold
        rw [hfinish]
        exact Nat.le_trans hbefore (Instant.after_le_after (Instant.le_after _ _) _)
      · exact hs e free ticket p hother hold

theorem Reaches.spaced {c : Config} {feeds : Duplex (Option (Feed σ γ))} {s t : Session σ γ}
    (h : s.Reaches t) (hs : s.Begins c feeds) (hrunning : t.summary? = none) : t.Spaced := by
  obtain ⟨_, _, _, _, hu, _⟩ := (hs.note (.started s.directions.length)).untouched
  refine h.induct_steady hs hrunning ?_ (fun hreach _ hp hopen => hopen.spaced (hreach.standing hs) hp)
    fun hsteady hp hmove => hmove.spaced hsteady hp
  intro d free ticket p _ hmem
  rcases hu.events _ hmem with heq | ⟨_, heq⟩ <;> cases heq

end VideoLink.Session
