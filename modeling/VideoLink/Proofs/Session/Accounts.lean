import VideoLink.Proofs.Measure.Tally
import VideoLink.Proofs.Session.Packets

/-! No packet is unaccounted for. The monitor knows exactly the packets that are under way, so every arrival
is matched, and a number that was given out is never given out again. -/
namespace VideoLink.Session

variable {σ γ : Type}

theorem Opening.traced {now : Instant} {s t : Session σ γ} (h : s.Opening now t) :
    t.uids = s.uids ∧ t.link.drops = s.link.drops ∧
    (t.underWay = s.underWay ∧ t.monitor = s.monitor ∨
      ∃ p, s.underWay = p :: t.underWay ∧
        t.monitor = (s.monitor.receive p.flow p.uid p.size now).2) := by
  cases h with
  | tick hpop | due hpop =>
    refine ⟨rfl, rfl, .inl ⟨?_, rfl⟩⟩
    rw [underWay, underWay, EventQueue.packets_of_pop? hpop]
    rfl
  | @free d events hpop =>
    refine ⟨rfl, s.link.drops_complete d, .inl ⟨?_, rfl⟩⟩
    rw [underWay, underWay, EventQueue.packets_of_pop? hpop, ← s.link.queues_complete d]
    rfl
  | @arrival d p events hpop =>
    refine ⟨rfl, rfl, .inr ⟨p, ?_, rfl⟩⟩
    rw [underWay, underWay, EventQueue.packets_of_pop? hpop]
    rfl

/-! Numbers. -/

structure Numbered (s t : Session σ γ) : Prop where
  next_le : s.uids.next ≤ t.uids.next
  fresh : ∀ p ∈ t.underWay, p ∈ s.underWay ∨ s.uids.next ≤ p.uid

theorem Numbered.refl (s : Session σ γ) : s.Numbered s := ⟨Nat.le_refl _, fun _ hp => .inl hp⟩

theorem Numbered.trans {s t u : Session σ γ} (st : s.Numbered t) (tu : t.Numbered u) :
    s.Numbered u := by
  refine ⟨Nat.le_trans st.next_le tu.next_le, fun p hp => ?_⟩
  rcases tu.fresh p hp with hp | hle
  · exact st.fresh p hp
  · exact .inr (Nat.le_trans st.next_le hle)

theorem Traced.numbered {c : Config} {now : Instant} {s t : Session σ γ} (h : Traced c now s t) :
    s.Numbered t := by
  cases h with
  | kept hperm _ huids => exact ⟨Nat.le_of_eq (by rw [huids]), fun p hp => .inl (hperm.mem_iff.1 hp)⟩
  | sent q hnumber _ hperm _ huids =>
    refine ⟨by omega, fun p hp => ?_⟩
    rcases List.mem_cons.1 (hperm.mem_iff.1 hp) with rfl | hp
    · exact .inr (Nat.le_of_eq hnumber.symm)
    · exact .inl hp
  | dropped hperm _ huids => exact ⟨by omega, fun p hp => .inl (hperm.mem_iff.1 hp)⟩

theorem Opening.numbered {now : Instant} {s t : Session σ γ} (h : s.Opening now t) :
    s.Numbered t := by
  obtain ⟨huids, _, ⟨heq, _⟩ | ⟨p, heq, _⟩⟩ := h.traced
  · exact ⟨Nat.le_of_eq (by rw [huids]), fun q hq => .inl (heq ▸ hq)⟩
  · exact ⟨Nat.le_of_eq (by rw [huids]), fun q hq => .inl (by rw [heq]; exact List.mem_cons_of_mem _ hq)⟩

theorem numbered_onStop (s : Session σ γ) (events : EventQueue Event) (now : Instant) :
    s.Numbered ((s.advanced events).onStop now) := by
  obtain ⟨journal, discarded, heq, _⟩ := onStop_eq (s.advanced events) now
  rw [heq]
  refine ⟨Nat.le_refl _, fun p hp => .inl (List.mem_append_right _ ?_)⟩
  have hnone : events.clear.packets = [] := by rw [EventQueue.packets, EventQueue.toList_clear]; rfl
  rw [underWay] at hp
  show p ∈ s.link.queues
  rw [← List.nil_append s.link.queues, ← hnone]
  exact hp

variable [Draws σ Nat] [Draws γ Span]

theorem Standing.numbered {c : Config} {s t : Session σ γ} (hs : s.Standing c)
    (h : s.step? = some t) : s.Numbered t := by
  obtain ⟨_, now, ⟨_, u, hopen, hmoves⟩ | ⟨events, _, rfl⟩⟩ := step_cases h
  · obtain ⟨hu, _, hnow⟩ := hopen.standing hs
    apply (hmoves.induct_standing (P := s.Numbered) hu hnow hopen.numbered ?_).1
    intro v w hv _ hnum hmove
    exact hnum.trans (hmove.traced hv).numbered
  · exact s.numbered_onStop events now

theorem Leads.numbered {c : Config} {s t : Session σ γ} (h : s.Leads t) (hs : s.Standing c) :
    s.Numbered t := by
  refine (h.induct (P := fun t => t.Standing c ∧ s.Numbered t) ⟨hs, .refl s⟩ ?_).2
  rintro u v ⟨hu, hnum⟩ hstep
  exact ⟨hu.of_step? hstep, hnum.trans (hu.numbered hstep)⟩

/-! The monitor. -/

/-- The monitor of a run knows the packets under way and no others, and every flow is one that the
configuration has. -/
structure Accounted (c : Config) (s : Session σ γ) : Prop where
  tally : s.monitor.Tally s.underWay s.uids.next s.events.now
  seen : ∀ k ∈ s.monitor.keys, c.Carries k
  carried : ∀ p ∈ s.underWay, c.Carries p.flow
  numbers : s.uids.next = s.monitor.total + s.link.drops

section

variable {c : Config} {feeds : Duplex (Option (Feed σ γ))} {s t : Session σ γ} {now : Instant}

omit [Draws σ Nat] [Draws γ Span]

theorem Begins.accounted (h : s.Begins c feeds) : s.Accounted c := by
  obtain ⟨monitor, _, hm, _, hu, _⟩ := h.untouched
  obtain ⟨delays, jitters, _, _, rfl⟩ := Monitor.of_new? hm
  have hpackets : s.events.packets = [] := by
    rw [EventQueue.packets, List.filterMap_eq_nil_iff]
    intro a ha
    rcases hu.events a ha with heq | ⟨d, heq⟩ <;> rw [heq] <;> rfl
  have hunder : s.underWay = [] := by
    rw [underWay, hpackets, hu.link]
    rfl
  have hempty : (∅ : Std.TreeMap Nat InFlight).toList = [] := rfl
  constructor
  · rw [hunder, hu.monitor]
    refine ⟨?_, ?_, ?_, fun k => ?_, fun k => rfl, ⟨rfl, fun k => rfl⟩, List.nodup_nil⟩
    · rw [Monitor.underWay, hempty]
      exact .refl _
    · intro p hp
      cases hp
    · rw [hempty]
      intro a ha
      cases ha
    · rw [Monitor.inFlightOf, hempty]
      rfl
  · rw [hu.monitor]
    intro k hk
    cases hk
  · rw [hunder]
    intro p hp
    cases hp
  · rw [hu.uids, hu.monitor, hu.link]
    rfl

theorem Traced.accounted (h : Traced c now s t) (hs : s.Accounted c) (hstanding : s.Standing c)
    (hnow : s.events.now = now) (hsame : t.events.now = s.events.now) : t.Accounted c := by
  subst hnow
  have htally := hs.tally
  have hnumbers := hs.numbers
  cases h with
  | kept hperm hmonitor huids hdrops =>
    constructor
    · rw [hmonitor, huids, hsame]
      exact htally.of_perm hperm
    · rw [hmonitor]
      exact hs.seen
    · exact fun p hp => hs.carried p (hperm.mem_iff.1 hp)
    · rw [huids, hmonitor, hdrops]
      exact hnumbers
  | sent p hnumber hflow hperm hmonitor huids hdrops =>
    obtain ⟨delays, jitters, hfresh⟩ := hstanding.fresh
    have htotal := Monitor.total_send (m := s.monitor) (by rw [hfresh]; rfl) p.flow p.uid p.size
      s.events.now
    constructor
    · rw [hmonitor, huids, hsame]
      exact (htally.send hnumber).of_perm hperm
    · rw [hmonitor]
      intro k hk
      rcases Monitor.mem_keys_update.1 hk with hk | rfl
      · exact hs.seen k hk
      · exact hflow
    · intro q hq
      rcases List.mem_cons.1 (hperm.mem_iff.1 hq) with rfl | hq
      · exact hflow
      · exact hs.carried q hq
    · rw [hmonitor, htotal, hdrops, huids]
      omega
  | dropped hperm hmonitor huids hdrops =>
    constructor
    · rw [hmonitor, huids, hsame]
      exact (htally.of_perm hperm).later (Nat.le_succ _) (Nat.le_refl _)
    · rw [hmonitor]
      exact hs.seen
    · exact fun p hp => hs.carried p (hperm.mem_iff.1 hp)
    · rw [huids, hmonitor, hdrops]
      omega

theorem Opening.accounted (h : s.Opening now t) (hs : s.Accounted c) (hstanding : s.Standing c) :
    t.Accounted c := by
  obtain ⟨_, hle, hnow⟩ := h.standing hstanding
  obtain ⟨huids, hdrops, ⟨hunder, hmonitor⟩ | ⟨p, hunder, hmonitor⟩⟩ := h.traced
  · have htally := hs.tally.later (Nat.le_refl _) hle
    constructor
    · rw [hunder, hmonitor, huids, hnow]
      exact htally
    · rw [hmonitor]
      exact hs.seen
    · rw [hunder]
      exact hs.carried
    · rw [huids, hmonitor, hdrops]
      exact hs.numbers
  · have htally := hs.tally.later (Nat.le_refl _) hle
    rw [hunder] at htally
    obtain ⟨delays, jitters, hfresh⟩ := hstanding.fresh
    have htotal := htally.total_receive (by rw [hfresh]; rfl)
    have hcarried := hs.carried p (by rw [hunder]; exact List.mem_cons_self)
    obtain ⟨_, _, hreceived⟩ := htally.receive
    constructor
    · rw [hmonitor, huids, hnow]
      exact hreceived
    · rw [hmonitor]
      intro k hk
      rcases htally.mem_keys_receive hk with hk | rfl
      · exact hs.seen k hk
      · exact hcarried
    · intro q hq
      exact hs.carried q (by rw [hunder]; exact List.mem_cons_of_mem _ hq)
    · rw [huids, hmonitor, hdrops, htotal]
      exact hs.numbers

end

theorem Reaches.accounted {c : Config} {feeds : Duplex (Option (Feed σ γ))} {s t : Session σ γ}
    (h : s.Reaches t) (hs : s.Begins c feeds) (hrunning : t.summary? = none) : t.Accounted c := by
  refine h.induct_moves hs hrunning (hs.note _).accounted
    (fun hstanding hu hopen => hopen.accounted hu hstanding) ?_
  intro u v now d hstanding hnow hu hmove
  exact (hmove.traced hstanding).accounted hu hstanding hnow (hmove.orderly hstanding.orderly).2

/-! The run. -/

/-- What the monitor of a running run and the packets under way have to do with each other. -/
structure Accounts (s : Session σ γ) : Prop where
  inFlight : (s.monitor.inFlight.toList.map fun a => (a.1, a.2.flow)).Perm
    (s.underWay.map fun p => (p.uid, p.flow))
  distinct : (s.underWay.map (·.uid)).Nodup
  numbered : ∀ p ∈ s.underWay, p.uid < s.uids.next
  /-- Every number was given to one packet, which was sent or found no room. -/
  given : s.uids.next = s.monitor.total + s.link.drops
  matched : ∀ now d p events, s.events.pop? = some ((now, .arrival d p), events) →
    ∃ sentAt delay, s.monitor.inFlight[p.uid]? = some ⟨p.flow, sentAt⟩ ∧
      (s.monitor.receive p.flow p.uid p.size now).1 = some delay

structure Attributed (s : Session σ γ) : Prop where
  none : s.monitor.unattributed = 0
  records : ∀ k r, (k, r) ∈ s.monitor.flows → r.unattributed = 0
  flows : ∀ k ∈ s.monitor.keys, ∃ d, s.dataFlow? d = some k ∨ s.ackFlow? d = some k

section

variable {c : Config} {feeds : Duplex (Option (Feed σ γ))} {s t : Session σ γ}

omit [Draws σ Nat] [Draws γ Span]

theorem Accounted.known_of_pop? (h : s.Accounted c) (hs : s.Standing c) {now : Instant}
    {d : Direction} {p : Packet} {events : EventQueue Event}
    (hpop : s.events.pop? = some ((now, .arrival d p), events)) :
    ∃ sentAt, s.monitor.inFlight[p.uid]? = some ⟨p.flow, sentAt⟩ ∧ sentAt ≤ now := by
  have hunder : s.underWay = p :: (events.packets ++ s.link.queues) := by
    rw [underWay, EventQueue.packets_of_pop? hpop]
    rfl
  have htally := h.tally.later (Nat.le_refl _) (hs.orderly.of_pop? hpop).1
  rw [hunder] at htally
  exact htally.known List.mem_cons_self

theorem Accounted.accounts (h : s.Accounted c) (hs : s.Standing c) : s.Accounts := by
  refine ⟨h.tally.underWay, h.tally.nodup, h.tally.numbered, h.numbers, ?_⟩
  intro now d p events hpop
  obtain ⟨sentAt, hknown, hle⟩ := h.known_of_pop? hs hpop
  have hreceive := Monitor.receive_of_known hknown hle p.size
  exact ⟨sentAt, _, hknown, congrArg Prod.fst hreceive⟩

theorem Standing.flow_of_carries (hs : s.Standing c) {k : FlowKey} (h : c.Carries k) :
    ∃ d, s.dataFlow? d = some k ∨ s.ackFlow? d = some k := by
  obtain ⟨d, hvideo, hk⟩ := h
  have hdata : s.dataFlow? d = some (videoFlow c.transport.protocol d) := by
    rw [← hs.video d, Option.isSome_iff_exists] at hvideo
    obtain ⟨g, hg⟩ := hvideo
    rw [dataFlow?, hg, hs.config]
    rfl
  refine ⟨d, ?_⟩
  rcases hk with rfl | ⟨htcp, rfl⟩
  · exact .inl hdata
  · right
    rw [ackFlow?, hs.config, htcp, hdata, htcp]
    rfl

theorem Accounted.attributed (h : s.Accounted c) (hs : s.Standing c) : s.Attributed := by
  refine ⟨h.tally.unattributed.1, fun k r hr => ?_, fun k hk => hs.flow_of_carries (h.seen k hk)⟩
  rw [← Monitor.record_of_mem h.tally.keys hr]
  exact h.tally.unattributed.2 k

end

/-- At the stop the packets that are overdue are lost and the others stay under way. -/
theorem Stops.settled {c : Config} {s t : Session σ γ} (h : s.Stops t) (hs : s.Standing c)
    (ha : s.Accounted c) : t.Attributed ∧
      (∀ k r, (k, r) ∈ t.monitor.flows →
        r.sent.packets = r.received.packets + r.lost + t.monitor.inFlightOf k) ∧
      ∃ summary, t.summary? = some summary ∧
        summary.lost = weight (fun a => a.2.lost) t.monitor.flows := by
  obtain ⟨now, events, _, rfl⟩ := h.stop
  have ht := hs.onStop events now
  obtain ⟨journal, discarded, heq, _⟩ := onStop_eq (s.advanced events) now
  rw [heq] at ht ⊢
  obtain ⟨delays, jitters, hfresh⟩ := hs.fresh
  obtain ⟨hbalance, htotal, hnone, hrecords⟩ := ha.tally.giveUp (by rw [hfresh]; rfl) now
  have hkeys := Monitor.nodup_keys_giveUp ha.tally.keys now
  refine ⟨⟨hnone, fun k r hr => ?_, fun k hk => ht.flow_of_carries ?_⟩, fun k r hr => ?_,
    _, rfl, htotal⟩
  · rw [← Monitor.record_of_mem hkeys hr]
    exact hrecords k
  · rcases ha.tally.mem_keys_giveUp hk with hk | ⟨p, hp, rfl⟩
    · exact ha.seen k hk
    · exact ha.carried p hp
  · rw [← Monitor.record_of_mem hkeys hr]
    exact hbalance k

theorem Reaches.attributed {c : Config} {feeds : Duplex (Option (Feed σ γ))} {s t : Session σ γ}
    (h : s.Reaches t) (hs : s.Begins c feeds) : t.Attributed := by
  rcases h.running_or_stopped hs with ⟨hrunning, _⟩ | ⟨last, hlast, hstop⟩
  · exact (h.accounted hs hrunning).attributed (h.standing hs)
  · exact (hstop.settled (hlast.standing hs) (hlast.accounted hs hstop.running)).1

/-- No packet of a run is unaccounted for, whatever is drawn. -/
theorem run_accounts_for_every_packet {c : Config} {feeds : Duplex (Option (Feed σ γ))}
    {s : Session σ γ} (hs : s.Begins c feeds) :
    (∀ t, s.Reaches t → t.summary? = none → t.Accounts) ∧
    (∀ t u, s.Reaches t → t.Leads u → t.uids.next ≤ u.uids.next ∧
      ∀ p ∈ u.underWay, p.uid < t.uids.next → p ∈ t.underWay) ∧
    (∀ t, s.Reaches t → t.Attributed) ∧
    (∀ k r, (k, r) ∈ s.run.2.monitor.flows →
      r.sent.packets = r.received.packets + r.lost + s.run.2.monitor.inFlightOf k) ∧
    s.run.1.lost = weight (fun a => a.2.lost) s.run.2.monitor.flows := by
  have haccounted : ∀ t, s.Reaches t → t.summary? = none → t.Accounted c :=
    fun t hreach hrunning => hreach.accounted hs hrunning
  refine ⟨fun t hreach hrunning => ?_, fun t u hreach hleads => ?_, fun t hreach => ?_, ?_⟩
  · exact (haccounted t hreach hrunning).accounts (hreach.standing hs)
  · have hnumbered := hleads.numbered (hreach.standing hs)
    refine ⟨hnumbered.next_le, fun p hp hlt => ?_⟩
    rcases hnumbered.fresh p hp with hmem | hle
    · exact hmem
    · omega
  · exact hreach.attributed hs
  · obtain ⟨last, hlast, hstop, hsummary⟩ := hs.run_stops
    obtain ⟨_, hbalance, summary, heq, hlost⟩ :=
      hstop.settled (hlast.standing hs) (haccounted last hlast hstop.running)
    rw [hsummary, Option.some.injEq] at heq
    exact ⟨hbalance, heq ▸ hlost⟩

theorem brief_run_accounts : ∃ s : Session (Constant Nat) (Constant Span),
    s.Begins (.brief .tcp) .brief ∧ (∀ t, s.Reaches t → t.summary? = none → t.Accounts) ∧
    (∀ k r, (k, r) ∈ s.run.2.monitor.flows →
      r.sent.packets = r.received.packets + r.lost + s.run.2.monitor.inFlightOf k) := by
  obtain ⟨s, hs⟩ := exists_brief .tcp
  obtain ⟨haccounts, _, _, hbalance, _⟩ := run_accounts_for_every_packet hs
  exact ⟨s, hs, haccounts, hbalance⟩

end VideoLink.Session
