import VideoLink.Proofs.Measure.History

/-! Giving up packets. Every packet under way was sent in a flow that has a record, so a packet that is
given up is entered in that record and makes no new one. The order in which packets are given up is
therefore of no account, and what is given up early need not be given up again. -/
namespace VideoLink.Monitor

/-- Each flow has one record, and every packet under way has a flow with a record. -/
structure Seen (m : Monitor) : Prop where
  keys : m.keys.Nodup
  inFlight : ∀ (uid : Nat) (packet : InFlight), m.inFlight[uid]? = some packet → packet.flow ∈ m.keys

/-- Two monitors in the same state. What is under way is the same if it has the same entries, in whatever tree. -/
structure SameState (m m' : Monitor) : Prop where
  maxDelay : m.maxDelay = m'.maxDelay
  fresh : m.fresh = m'.fresh
  flows : m.flows = m'.flows
  inFlight : m.inFlight.Equiv m'.inFlight
  unattributed : m.unattributed = m'.unattributed

def lose (m : Monitor) (uid : Nat) : Monitor :=
  match m.inFlight[uid]? with
  | some packet => { m with inFlight := m.inFlight.erase uid }.update packet.flow (·.addLost)
  | none => m

/-- Looks through the packets under way in some order, notes the numbers of those that are overdue, and then
loses them one by one. -/
def giveUpAlong (m : Monitor) (order : List (Nat × InFlight)) (now : Instant) : Nat × Monitor :=
  let overdue := (order.filter fun a => m.isOverdue now a.2).map (·.1)
  (overdue.length, overdue.foldl lose m)

/-! Every flow with a packet under way has been seen. -/

namespace Seen

variable {m : Monitor}

theorem update (h : m.Seen) (key : FlowKey) (f : FlowRecord → FlowRecord) : (m.update key f).Seen where
  keys := nodup_keys_update h.keys key f
  inFlight uid packet hp := mem_keys_update.2 (.inl (h.inFlight uid packet hp))

theorem countUnattributed (h : m.Seen) (key : FlowKey) : (m.countUnattributed key).Seen :=
  update (m := { m with unattributed := m.unattributed + 1 }) ⟨h.keys, h.inFlight⟩ key _

theorem forget (h : m.Seen) (uid : Nat) : { m with inFlight := m.inFlight.erase uid }.Seen where
  keys := h.keys
  inFlight other packet hp := by
    rw [inFlight_erase] at hp
    split at hp
    · cases hp
    · exact h.inFlight other packet hp

theorem send (h : m.Seen) (key : FlowKey) (uid bytes : Nat) (now : Instant) :
    (m.send key uid bytes now).Seen where
  keys := nodup_keys_update h.keys key _
  inFlight other packet hp := by
    change (m.inFlight.insert uid _)[other]? = some packet at hp
    rw [inFlight_insert] at hp
    apply mem_keys_update.2
    split at hp
    · cases hp
      exact .inr rfl
    · exact .inl (h.inFlight other packet hp)

theorem receive (h : m.Seen) (key : FlowKey) (uid bytes : Nat) (now : Instant) :
    (m.receive key uid bytes now).2.Seen := by
  rcases m.receive_cases key uid bytes now with ⟨_, heq⟩ |
    ⟨packet, _, ⟨_, _, heq⟩ | ⟨_, _, heq⟩ | ⟨_, heq⟩⟩ <;> rw [heq]
  · exact h.countUnattributed key
  · exact (h.forget uid).update key _
  · exact (h.forget uid).countUnattributed key
  · exact ((h.forget uid).update packet.flow _).countUnattributed key

theorem giveUp (h : m.Seen) (now : Instant) : (m.giveUp now).2.Seen where
  keys := nodup_keys_giveUp h.keys now
  inFlight uid packet hp := by
    have hsub : ∀ (l : List (Nat × InFlight)) (m : Monitor), m.keys ⊆ (l.foldl addLost m).keys := by
      intro l
      induction l with
      | nil => exact fun m => List.Subset.refl _
      | cons a l ih => exact fun m => fun k hk => ih _ (mem_keys_update.2 (.inl hk))
    rw [inFlight_giveUp, Option.filter_eq_some_iff] at hp
    exact hsub _ _ (h.inFlight uid packet hp.1)

theorem call (h : m.Seen) (c : Call) : (m.call c).2.Seen := by
  cases c with
  | countSent key bytes now => exact h.update key _
  | countReceived key bytes sentAt now =>
    simp only [Monitor.call, countReceived]
    split
    · exact h.update key _
    · exact h.countUnattributed key
  | send key uid bytes now => exact h.send key uid bytes now
  | receive key uid bytes now => exact h.receive key uid bytes now
  | giveUp now => exact h.giveUp now

end Seen

theorem seen_after {s : MonitorSettings} {m : Monitor} (h : new? s = .ok m) (calls : List Call) :
    (after call m calls).Seen := by
  induction calls using List.reverseRecOn with
  | nil =>
    obtain ⟨delays, jitters, _, _, rfl⟩ := of_new? h
    exact ⟨List.nodup_nil, fun uid packet hp => by cases (Std.TreeMap.getElem?_emptyc.symm.trans hp)⟩
  | append_singleton calls c ih =>
    rw [after_concat]
    exact ih.call c

/-! The records when packets are lost. -/

def lostTo (l : List (Nat × InFlight)) (flows : List (FlowKey × FlowRecord)) :
    List (FlowKey × FlowRecord) :=
  flows.map fun a => (a.1, { a.2 with lost := a.2.lost + l.countP (·.2.flow = a.1) })

theorem lostTo_perm {l l' : List (Nat × InFlight)} (h : l.Perm l')
    (flows : List (FlowKey × FlowRecord)) : lostTo l flows = lostTo l' flows := by
  simp only [lostTo, h.countP_eq]

theorem updateRecords_of_mem {fresh : FlowRecord} {key : FlowKey} (f : FlowRecord → FlowRecord)
    {l : List (FlowKey × FlowRecord)} (hnodup : (l.map (·.1)).Nodup) (hmem : key ∈ l.map (·.1)) :
    updateRecords fresh key f l = l.map fun a => (a.1, if a.1 = key then f a.2 else a.2) := by
  induction l with
  | nil => cases hmem
  | cons a l ih =>
    obtain ⟨k, r⟩ := a
    rw [List.map_cons, List.nodup_cons] at hnodup
    rw [updateRecords, List.map_cons]
    by_cases h : k = key
    · subst h
      have hother : l.map (fun a => (a.1, if a.1 = k then f a.2 else a.2)) = l := by
        conv_rhs => rw [← List.map_id l]
        apply List.map_congr_left
        intro a ha
        have hin : a.1 ∈ l.map (·.1) := List.mem_map_of_mem ha
        have hne : a.1 ≠ k := fun heq => hnodup.1 (heq ▸ hin)
        rw [if_neg hne]
        rfl
      rw [if_pos rfl, hother]
      simp
    · have hrest : key ∈ l.map (·.1) := by simpa [Ne.symm h] using hmem
      rw [if_neg h, ih hnodup.2 hrest, if_neg h]

theorem flows_foldl_addLost {l : List (Nat × InFlight)} {m : Monitor} (hkeys : m.keys.Nodup)
    (hl : ∀ a ∈ l, a.2.flow ∈ m.keys) : (l.foldl addLost m).flows = lostTo l m.flows := by
  induction l generalizing m with
  | nil => simp [lostTo]
  | cons a l ih =>
    have hfirst : (m.addLost a).flows =
        m.flows.map fun b => (b.1, if b.1 = a.2.flow then b.2.addLost else b.2) :=
      updateRecords_of_mem _ hkeys (hl a List.mem_cons_self)
    have hrest := ih (m := m.addLost a) (nodup_keys_update hkeys _ _) fun b hb =>
      mem_keys_update.2 (.inl (hl b (List.mem_cons_of_mem _ hb)))
    rw [List.foldl_cons, hrest, hfirst, lostTo, lostTo, List.map_map]
    apply List.map_congr_left
    intro b _
    rw [Function.comp_apply, List.countP_cons]
    by_cases h : b.1 = a.2.flow
    · simp [h, FlowRecord.addLost, Nat.add_assoc, Nat.add_comm]
    · simp [h, Ne.symm h]

theorem mem_overdue {m : Monitor} {now : Instant} {a : Nat × InFlight} :
    a ∈ m.overdue now ↔ m.inFlight[a.1]? = some a.2 ∧ m.isOverdue now a.2 := by
  rw [overdue, List.mem_filter, Std.TreeMap.mem_toList_iff_getElem?_eq_some]

/-- Only the records and what is under way change when packets are given up, and the records change in
their places. -/
theorem Seen.giveUp_eq {m : Monitor} (h : m.Seen) (now : Instant) :
    (m.giveUp now).2 = { m with
      inFlight := m.inFlight.filter fun _ packet => !m.isOverdue now packet
      flows := lostTo (m.overdue now) m.flows } := by
  obtain ⟨flows, heq⟩ := foldl_addLost_eq (m.overdue now)
    { m with inFlight := m.inFlight.filter fun _ packet => !m.isOverdue now packet }
  have hflows := flows_foldl_addLost (l := m.overdue now)
    (m := { m with inFlight := m.inFlight.filter fun _ packet => !m.isOverdue now packet }) h.keys
    fun a ha => h.inFlight a.1 a.2 (mem_overdue.1 ha).1
  rw [heq] at hflows
  rw [Monitor.giveUp_eq, heq]
  exact congrArg (fun flows => { m with
    inFlight := m.inFlight.filter fun _ packet => !m.isOverdue now packet
    flows }) hflows

/-! The order in which packets are given up. -/

theorem foldl_lose {l : List (Nat × InFlight)} {m : Monitor} (hnodup : (l.map (·.1)).Nodup)
    (hl : ∀ a ∈ l, m.inFlight[a.1]? = some a.2) : (l.map (·.1)).foldl lose m =
      l.foldl addLost { m with inFlight := (l.map (·.1)).foldl (·.erase ·) m.inFlight } := by
  induction l generalizing m with
  | nil => rfl
  | cons a l ih =>
    rw [List.map_cons, List.nodup_cons] at hnodup
    have hlost : m.lose a.1 = { m with inFlight := m.inFlight.erase a.1 }.addLost a := by
      rw [lose, hl a List.mem_cons_self]
      rfl
    -- No number occurs twice, so the packets of the rest are still there.
    have hleft : ∀ b ∈ l, (m.inFlight.erase a.1)[b.1]? = some b.2 := by
      intro b hb
      have hne : a.1 ≠ b.1 := fun heq => hnodup.1 (heq ▸ List.mem_map_of_mem hb)
      rw [inFlight_erase, if_neg hne]
      exact hl b (List.mem_cons_of_mem _ hb)
    rw [List.map_cons, List.foldl_cons, hlost, ih hnodup.2 hleft]
    rfl

theorem getElem?_foldl_erase (uids : List Nat) (t : Std.TreeMap Nat InFlight) (uid : Nat) :
    (uids.foldl (·.erase ·) t)[uid]? = if uid ∈ uids then none else t[uid]? := by
  induction uids generalizing t with
  | nil => simp
  | cons u uids ih =>
    rw [List.foldl_cons, ih, inFlight_erase]
    by_cases h : u = uid
    · simp [h]
    · simp [h, Ne.symm h]

theorem equiv_of_getElem? {t t' : Std.TreeMap Nat InFlight} (h : ∀ uid : Nat, t[uid]? = t'[uid]?) :
    t.Equiv t' := by
  apply Std.TreeMap.Equiv.of_toList_perm
  rw [List.perm_ext_iff_of_nodup (nodup_toList t) (nodup_toList t')]
  intro a
  rw [Std.TreeMap.mem_toList_iff_getElem?_eq_some, Std.TreeMap.mem_toList_iff_getElem?_eq_some, h]

theorem equiv_filter_of_perm_overdue {m : Monitor} {now : Instant} {found : List (Nat × InFlight)}
    (hperm : found.Perm (m.overdue now)) : ((found.map (·.1)).foldl (·.erase ·) m.inFlight).Equiv
      (m.inFlight.filter fun _ packet => !m.isOverdue now packet) := by
  apply equiv_of_getElem?
  intro uid
  have hmem : uid ∈ found.map (·.1) ↔ ∃ packet, m.inFlight[uid]? = some packet ∧ m.isOverdue now packet := by
    rw [(hperm.map (·.1)).mem_iff, List.mem_map]
    constructor
    · rintro ⟨a, ha, rfl⟩
      exact ⟨a.2, mem_overdue.1 ha⟩
    · rintro ⟨packet, hpacket⟩
      exact ⟨(uid, packet), mem_overdue.2 hpacket, rfl⟩
  rw [getElem?_foldl_erase, Std.TreeMap.getElem?_filter']
  simp only [hmem]
  cases hp : m.inFlight[uid]? with
  | none => simp
  | some packet => cases hlate : m.isOverdue now packet <;> simp [Option.filter, hlate]

/-- Whatever order the packets under way are looked through in, as many are given up and the same state is
left. -/
theorem Seen.giveUpAlong_eq {m : Monitor} (h : m.Seen) {order : List (Nat × InFlight)}
    (horder : order.Perm m.inFlight.toList) (now : Instant) :
    (m.giveUpAlong order now).1 = (m.giveUp now).1 ∧
      (m.giveUpAlong order now).2.SameState (m.giveUp now).2 := by
  obtain ⟨found, hfound⟩ : ∃ found, found = order.filter fun a => m.isOverdue now a.2 := ⟨_, rfl⟩
  have hperm : found.Perm (m.overdue now) := hfound ▸ horder.filter _
  have hnodup : (found.map (·.1)).Nodup := by
    have hall : (order.map (·.1)).Nodup := (horder.map (·.1)).nodup_iff.2 (nodup_uids m.inFlight)
    rw [hfound]
    exact hall.sublist (List.filter_sublist.map _)
  have hknown : ∀ a ∈ found, m.inFlight[a.1]? = some a.2 := fun a ha =>
    (mem_overdue.1 (hperm.mem_iff.1 ha)).1
  have hkept := equiv_filter_of_perm_overdue hperm
  have hlost := foldl_lose hnodup hknown
  generalize (found.map (·.1)).foldl (·.erase ·) m.inFlight = kept at hkept hlost
  obtain ⟨flows, heq⟩ := foldl_addLost_eq found { m with inFlight := kept }
  have hflows := flows_foldl_addLost (l := found) (m := { m with inFlight := kept }) h.keys
    fun a ha => h.inFlight a.1 a.2 (hknown a ha)
  rw [heq] at hflows hlost
  rw [giveUpAlong, ← hfound, hlost]
  constructor
  · rw [Monitor.giveUp_eq, List.length_map]
    exact hperm.length_eq
  · rw [h.giveUp_eq]
    exact ⟨rfl, rfl, hflows.trans (lostTo_perm hperm m.flows), hkept, rfl⟩

/-! Giving up twice. -/

theorem isOverdue_later {m : Monitor} {now₁ now₂ : Instant} (h : now₁ ≤ now₂) {packet : InFlight}
    (hlate : m.isOverdue now₁ packet = true) : m.isOverdue now₂ packet = true := by
  simp only [isOverdue, Instant.elapsed, decide_eq_true_eq, Span.lt_iff] at hlate ⊢
  rw [Instant.le_iff] at h
  omega

theorem isOverdue_giveUp (m : Monitor) (now : Instant) : (m.giveUp now).2.isOverdue = m.isOverdue := by
  unfold isOverdue
  rw [(m.giveUp_settings now).2]

theorem overdue_giveUp (m : Monitor) {now₁ now₂ : Instant} (h : now₁ ≤ now₂) :
    (m.overdue now₁ ++ (m.giveUp now₁).2.overdue now₂).Perm (m.overdue now₂) := by
  have hearly : m.overdue now₁ = (m.overdue now₂).filter fun a => m.isOverdue now₁ a.2 := by
    rw [overdue, overdue, List.filter_filter]
    apply List.filter_congr
    intro a _
    cases hlate : m.isOverdue now₁ a.2 with
    | false => rfl
    | true => rw [isOverdue_later h hlate]; rfl
  have hlate : (m.giveUp now₁).2.overdue now₂ =
      (m.overdue now₂).filter fun a => !m.isOverdue now₁ a.2 := by
    rw [overdue, isOverdue_giveUp, toList_giveUp, overdue, List.filter_filter, List.filter_filter]
    simp only [Bool.and_comm]
  rw [hlate, hearly]
  exact List.filter_append_perm ..

theorem lostTo_lostTo (l l' : List (Nat × InFlight)) (flows : List (FlowKey × FlowRecord)) :
    lostTo l' (lostTo l flows) = lostTo (l ++ l') flows := by
  simp only [lostTo, List.map_map, List.countP_append, Function.comp_def, Nat.add_assoc]

theorem equiv_giveUp_giveUp (m : Monitor) {now₁ now₂ : Instant} (h : now₁ ≤ now₂) :
    ((m.giveUp now₁).2.giveUp now₂).2.inFlight.Equiv (m.giveUp now₂).2.inFlight := by
  apply Std.TreeMap.Equiv.of_toList_perm
  rw [toList_giveUp, toList_giveUp, toList_giveUp, isOverdue_giveUp, List.filter_filter]
  apply List.Perm.of_eq
  apply List.filter_congr
  intro a _
  cases hlate : m.isOverdue now₁ a.2 with
  | false => simp
  | true => simp [isOverdue_later h hlate]

theorem Seen.giveUp_giveUp {m : Monitor} (h : m.Seen) {now₁ now₂ : Instant} (hle : now₁ ≤ now₂) :
    ((m.giveUp now₁).2.giveUp now₂).2.SameState (m.giveUp now₂).2 ∧
      (m.giveUp now₁).1 + ((m.giveUp now₁).2.giveUp now₂).1 = (m.giveUp now₂).1 := by
  have hperm := m.overdue_giveUp hle
  have hfirst := h.giveUp_eq now₁
  have htwice := (h.giveUp now₁).giveUp_eq now₂
  have honce := h.giveUp_eq now₂
  constructor
  · refine ⟨?_, ?_, ?_, m.equiv_giveUp_giveUp hle, ?_⟩
    · rw [htwice, hfirst, honce]
    · rw [htwice, hfirst, honce]
    · have hflows₁ := congrArg flows hfirst
      have hflows₂ := congrArg flows htwice
      dsimp only at hflows₁ hflows₂
      rw [hflows₂, hflows₁, lostTo_lostTo, lostTo_perm hperm, honce]
    · rw [htwice, hfirst, honce]
  · have hlength := hperm.length_eq
    rw [List.length_append] at hlength
    exact hlength

/-- Whatever was called on a new monitor, giving up packets takes out those that have been under way for too long
and no others, tells their number, and enters each as lost in the record of its flow, which is there. No
other record and nothing else changes, and the order in which the packets are looked through has no part in it.
Packets may be given up at two times or only at the later one: the state is the same and so is the total, and
at one time there is nothing to give up twice. -/
theorem losses_are_exact_in_any_order {s : MonitorSettings} {m₀ : Monitor} (h : new? s = .ok m₀)
    (calls : List Call) :
    let m := after call m₀ calls
    let late (now : Instant) (packet : InFlight) : Bool := s.maxDelay < now.elapsed packet.sentAt
    (∀ now,
      (m.giveUp now).1 = m.inFlight.toList.countP (fun a => late now a.2) ∧
      (∀ uid : Nat, (m.giveUp now).2.inFlight[uid]? = m.inFlight[uid]?.filter fun packet => !late now packet) ∧
      (m.giveUp now).2 = { m with
        inFlight := (m.giveUp now).2.inFlight
        flows := m.flows.map fun a => (a.1, { a.2 with
          lost := a.2.lost + m.inFlight.toList.countP fun b => late now b.2 && b.2.flow = a.1 }) } ∧
      ∀ order : List (Nat × InFlight), order.Perm m.inFlight.toList →
        (m.giveUpAlong order now).1 = (m.giveUp now).1 ∧
          (m.giveUpAlong order now).2.SameState (m.giveUp now).2) ∧
    (∀ now₁ now₂, now₁ ≤ now₂ →
      ((m.giveUp now₁).2.giveUp now₂).2.SameState (m.giveUp now₂).2 ∧
        (m.giveUp now₁).1 + ((m.giveUp now₁).2.giveUp now₂).1 = (m.giveUp now₂).1) ∧
    ∀ now, ((m.giveUp now).2.giveUp now).1 = 0 := by
  intro m late
  have hseen : m.Seen := seen_after h calls
  have hmax : m.maxDelay = s.maxDelay := by
    obtain ⟨_, _, _, _, rfl⟩ := of_new? h
    exact (settings_after _ calls).2
  have hlate : m.isOverdue = late := by
    unfold isOverdue
    rw [hmax]
  refine ⟨fun now => ⟨?_, fun uid => ?_, ?_, fun order horder => hseen.giveUpAlong_eq horder now⟩,
    fun now₁ now₂ hle => hseen.giveUp_giveUp hle, fun now => ?_⟩
  · rw [← hlate, List.countP_eq_length_filter]
    rfl
  · rw [hseen.giveUp_eq, Std.TreeMap.getElem?_filter', hlate]
  · rw [hseen.giveUp_eq, lostTo]
    simp only [overdue, List.countP_filter, hlate, Bool.and_comm]
  · have htotal := (hseen.giveUp_giveUp (Nat.le_refl now.nanos : now ≤ now)).2
    omega

/-- Packets of two flows, one of which arrives in the wrong flow. -/
def lateness (key : FlowKey) : List Call :=
  [.send key 1 100 (.ofNanos 0), .send key.reversed 2 100 (.ofNanos 5_000_000_000),
    .send key 3 100 (.ofNanos 6_000_000_000), .receive key.reversed 3 100 (.ofNanos 7_000_000_000),
    .send key 4 100 (.ofNanos 8_000_000_000)]

theorem losses_at_two_times_add_up : ∃ m₀, new? .standard = .ok m₀ ∧
    let m := after call m₀ (lateness ⟨⟨10, 0, 0, 1⟩, ⟨10, 0, 0, 2⟩, 5000, 5001, .udp⟩)
    let early : Instant := .ofNanos 10_000_000_001
    let late : Instant := .ofNanos 16_000_000_000
    (m.giveUp early).1 = 1 ∧ ((m.giveUp early).2.giveUp late).1 = 1 ∧ (m.giveUp late).1 = 2 ∧
      ((m.giveUp early).2.giveUp late).2.SameState (m.giveUp late).2 ∧
      (m.giveUpAlong m.inFlight.toList.reverse late).1 = 2 := by
  refine ⟨_, rfl, ?_⟩
  intro m early late
  obtain ⟨hexact, htwice, _⟩ := losses_are_exact_in_any_order (s := .standard) rfl
    (lateness ⟨⟨10, 0, 0, 1⟩, ⟨10, 0, 0, 2⟩, 5000, 5001, .udp⟩)
  have hfirst : (m.giveUp early).1 = 1 := by decide +kernel
  have hall : (m.giveUp late).1 = 2 := by decide +kernel
  obtain ⟨hsame, htotal⟩ := htwice early late (by decide)
  have hsum : (m.giveUp early).1 + ((m.giveUp early).2.giveUp late).1 = (m.giveUp late).1 := htotal
  have horder := ((hexact late).2.2.2 _ (List.reverse_perm _)).1
  rw [hfirst, hall] at hsum
  exact ⟨hfirst, by omega, hall, hsame, horder.trans hall⟩

end VideoLink.Monitor
