import VideoLink.Packet
import VideoLink.Proofs.Measure.Records

/-! A monitor whose packets under way are those of a list. Each packet of the list is known under its
number, so its arrival is matched, and every flow has as many packets sent as received and under way. -/
namespace VideoLink.Monitor

/-- The numbers and the flows of the packets that a monitor knows to be under way. -/
def underWay (m : Monitor) : List (Nat × FlowKey) := m.inFlight.toList.map fun a => (a.1, a.2.flow)

/-- The packets of `l` and no others are under way, all with numbers below `next`, and nothing was lost or
arrived unmatched up to `now`. -/
structure Tally (l : List Packet) (next : Nat) (now : Instant) (m : Monitor) : Prop where
  underWay : m.underWay.Perm (l.map fun p => (p.uid, p.flow))
  numbered : ∀ p ∈ l, p.uid < next
  past : ∀ a ∈ m.inFlight.toList, a.2.sentAt ≤ now
  balance : ∀ k, (m.record k).sent.packets = (m.record k).received.packets + m.inFlightOf k
  lost : ∀ k, (m.record k).lost = 0
  unattributed : m.unattributed = 0 ∧ ∀ k, (m.record k).unattributed = 0
  keys : m.keys.Nodup

def total (m : Monitor) : Nat := weight (fun a => a.2.sent.packets) m.flows

theorem total_send {m : Monitor} (hfresh : m.fresh.sent.packets = 0) (key : FlowKey)
    (uid bytes : Nat) (now : Instant) : (m.send key uid bytes now).total = m.total + 1 :=
  weight_updateRecords (g := fun r => r.sent.packets) (n := 1) hfresh (fun _ => rfl) key m.flows

namespace Tally

variable {m : Monitor} {l : List Packet} {next : Nat} {now : Instant}

theorem of_perm (h : m.Tally l next now) {l' : List Packet} (hl : l'.Perm l) : m.Tally l' next now :=
  ⟨h.underWay.trans (hl.symm.map _), fun p hp => h.numbered p (hl.mem_iff.1 hp), h.past, h.balance,
    h.lost, h.unattributed, h.keys⟩

theorem later (h : m.Tally l next now) {next' : Nat} {now' : Instant} (hnext : next ≤ next')
    (hnow : now ≤ now') : m.Tally l next' now' :=
  ⟨h.underWay, fun p hp => Nat.lt_of_lt_of_le (h.numbered p hp) hnext,
    fun a ha => Nat.le_trans (h.past a ha) hnow, h.balance, h.lost, h.unattributed, h.keys⟩

theorem nodup (h : m.Tally l next now) : (l.map (·.uid)).Nodup := by
  have hkeys : (m.underWay.map (·.1)).Nodup := by
    have hmap : m.underWay.map (·.1) = m.inFlight.toList.map (·.1) := by
      rw [Monitor.underWay, List.map_map]
      rfl
    rw [hmap]
    exact nodup_uids m.inFlight
  have hperm := h.underWay.map (·.1)
  rw [List.map_map] at hperm
  exact hperm.nodup_iff.1 hkeys

theorem known (h : m.Tally l next now) {p : Packet} (hp : p ∈ l) :
    ∃ sentAt, m.inFlight[p.uid]? = some ⟨p.flow, sentAt⟩ ∧ sentAt ≤ now := by
  have hmem : (p.uid, p.flow) ∈ m.underWay := by
    rw [h.underWay.mem_iff]
    exact List.mem_map_of_mem hp
  obtain ⟨⟨uid, flow, sentAt⟩, ha, heq⟩ := List.mem_map.1 hmem
  cases heq
  exact ⟨sentAt, Std.TreeMap.mem_toList_iff_getElem?_eq_some.1 ha, h.past _ ha⟩

theorem countP (h : m.Tally l next now) (f : InFlight → Bool) :
    m.inFlight.toList.countP (fun a => f a.2) = l.countP fun p => (m.inFlight[p.uid]?).any f := by
  have hknown : m.inFlight.toList.countP (fun a => f a.2) =
      m.underWay.countP fun a => (m.inFlight[a.1]?).any f := by
    rw [Monitor.underWay, List.countP_map]
    apply List.countP_congr
    intro a ha
    have hvalue : m.inFlight[a.1]? = some a.2 :=
      Std.TreeMap.mem_toList_iff_getElem?_eq_some.1 ha
    rw [Function.comp_apply, hvalue, Option.any_some]
  rw [hknown, h.underWay.countP_eq, List.countP_map]
  rfl

theorem send (h : m.Tally l next now) {p : Packet} (hp : p.uid = next) :
    (m.send p.flow p.uid p.size now).Tally (p :: l) (next + 1) now := by
  have hfresh : ∀ a ∈ m.inFlight.toList, a.1 ≠ p.uid := by
    intro a ha heq
    have hmem : (a.1, a.2.flow) ∈ l.map fun p => (p.uid, p.flow) :=
      h.underWay.mem_iff.1 (List.mem_map_of_mem (f := fun a : Nat × InFlight => (a.1, a.2.flow)) ha)
    obtain ⟨q, hq, hqa⟩ := List.mem_map.1 hmem
    have hlt := h.numbered q hq
    rw [show q.uid = a.1 from congrArg Prod.fst hqa, heq, hp] at hlt
    exact Nat.lt_irrefl _ hlt
  have hinsert : (m.send p.flow p.uid p.size now).inFlight.toList.Perm
      ((p.uid, ⟨p.flow, now⟩) :: m.inFlight.toList) := toList_insert ⟨p.flow, now⟩ hfresh
  have hrecord := m.record_send p.flow p.uid p.size now
  constructor
  · exact (hinsert.map fun a : Nat × InFlight => (a.1, a.2.flow)).trans (h.underWay.cons _)
  · intro q hq
    rcases List.mem_cons.1 hq with rfl | hq
    · omega
    · have hlt := h.numbered q hq
      omega
  · intro a ha
    rcases List.mem_cons.1 (hinsert.mem_iff.1 ha) with rfl | ha
    · exact Nat.le_refl _
    · exact h.past a ha
  · intro k
    have hcount := inFlightOf_send hfresh p.flow p.size now k
    have hk := h.balance k
    rw [hrecord, hcount]
    by_cases heq : k = p.flow
    · subst heq
      rw [if_pos rfl, if_pos rfl]
      simp only [FlowRecord.addSent, Traffic.add]
      omega
    · rw [if_neg heq, if_neg (Ne.symm heq)]
      exact hk
  · intro k
    rw [hrecord]
    split
    · exact h.lost p.flow
    · exact h.lost k
  · refine ⟨h.unattributed.1, fun k => ?_⟩
    rw [hrecord]
    split
    · exact h.unattributed.2 p.flow
    · exact h.unattributed.2 k
  · exact nodup_keys_update h.keys _ _

theorem receive {p : Packet} (h : m.Tally (p :: l) next now) :
    ∃ delay, (m.receive p.flow p.uid p.size now).1 = some delay ∧
      (m.receive p.flow p.uid p.size now).2.Tally l next now := by
  obtain ⟨sentAt, hknown, hle⟩ := h.known List.mem_cons_self
  rw [receive_of_known hknown hle p.size]
  have herase := toList_erase hknown
  refine ⟨_, rfl, ?_⟩
  -- The packet is forgotten first, then one record changes.
  obtain ⟨m', hm'⟩ : ∃ m', m' = { m with inFlight := m.inFlight.erase p.uid } := ⟨_, rfl⟩
  have hrecord : ∀ k, m'.record k = m.record k := fun k => by rw [hm']; rfl
  rw [← hm']
  constructor
  · have hperm := (herase.map fun a : Nat × InFlight => (a.1, a.2.flow)).symm.trans h.underWay
    show (m'.inFlight.toList.map _).Perm _
    rw [hm']
    exact List.Perm.cons_inv hperm
  · intro q hq
    exact h.numbered q (List.mem_cons_of_mem _ hq)
  · intro a ha
    refine h.past a (herase.mem_iff.2 (List.mem_cons_of_mem _ ?_))
    rw [hm'] at ha
    exact ha
  · intro k
    have hcount := inFlightOf_erase hknown k
    have hk := h.balance k
    rw [← hm'] at hcount
    show _ = _ + m'.inFlightOf k
    by_cases heq : k = p.flow
    · subst heq
      rw [if_pos rfl] at hcount
      rw [record_update_self, hrecord]
      simp only [FlowRecord.addReceived, Traffic.add]
      omega
    · rw [if_neg (Ne.symm heq)] at hcount
      rw [record_update_of_ne _ heq, hrecord]
      omega
  · intro k
    by_cases heq : k = p.flow
    · rw [heq, record_update_self, hrecord]
      exact h.lost p.flow
    · rw [record_update_of_ne _ heq, hrecord]
      exact h.lost k
  · refine ⟨by rw [hm']; exact h.unattributed.1, fun k => ?_⟩
    by_cases heq : k = p.flow
    · rw [heq, record_update_self, hrecord]
      exact h.unattributed.2 p.flow
    · rw [record_update_of_ne _ heq, hrecord]
      exact h.unattributed.2 k
  · have hkeys : m'.keys.Nodup := by rw [hm']; exact h.keys
    exact nodup_keys_update hkeys _ _

theorem mem_keys_receive {p : Packet} (h : m.Tally (p :: l) next now) {k : FlowKey}
    (hk : k ∈ (m.receive p.flow p.uid p.size now).2.keys) : k ∈ m.keys ∨ k = p.flow := by
  obtain ⟨sentAt, hknown, hle⟩ := h.known List.mem_cons_self
  rw [receive_of_known hknown hle p.size] at hk
  exact mem_keys_update.1 hk

theorem total_receive {p : Packet} (h : m.Tally (p :: l) next now)
    (hfresh : m.fresh.sent.packets = 0) :
    (m.receive p.flow p.uid p.size now).2.total = m.total := by
  obtain ⟨sentAt, hknown, hle⟩ := h.known List.mem_cons_self
  rw [receive_of_known hknown hle p.size]
  exact weight_updateRecords (g := fun r => r.sent.packets)
    (f := (·.addReceived p.size now (now.elapsed sentAt))) (n := 0) hfresh (fun _ => rfl) p.flow
    m.flows

theorem giveUp (h : m.Tally l next now) (hfresh : m.fresh.lost = 0) (time : Instant) :
    (∀ k, ((m.giveUp time).2.record k).sent.packets = ((m.giveUp time).2.record k).received.packets +
      ((m.giveUp time).2.record k).lost + (m.giveUp time).2.inFlightOf k) ∧
    (m.giveUp time).1 = weight (fun a => a.2.lost) (m.giveUp time).2.flows ∧
    (m.giveUp time).2.unattributed = 0 ∧ ∀ k, ((m.giveUp time).2.record k).unattributed = 0 := by
  obtain ⟨flows, heq⟩ := foldl_addLost_eq (m.overdue time)
    { m with inFlight := m.inFlight.filter fun _ packet => !m.isOverdue time packet }
  refine ⟨fun k => ?_, ?_, ?_, fun k => ?_⟩
  · have hsplit := m.inFlightOf_giveUp time k
    have hk := h.balance k
    have hlost := h.lost k
    rw [record_giveUp]
    dsimp only
    omega
  · have hnone : weight (fun a => a.2.lost) m.flows = 0 := by
      have hzero : ∀ l : List (FlowKey × FlowRecord), (∀ a ∈ l, a.2.lost = 0) →
          weight (fun a => a.2.lost) l = 0 := by
        intro l hl
        induction l with
        | nil => rfl
        | cons a l ih =>
          rw [weight_cons, hl a List.mem_cons_self, ih fun b hb => hl b (List.mem_cons_of_mem _ hb)]
      apply hzero
      intro a ha
      rw [← record_of_mem h.keys ha]
      exact h.lost a.1
    have htotal := weight_foldl_addLost (g := FlowRecord.lost) (n := 1) (m.overdue time)
      (m := { m with inFlight := m.inFlight.filter fun _ packet => !m.isOverdue time packet }) hfresh
      fun _ => rfl
    rw [giveUp_eq, htotal]
    show _ = weight _ m.flows + _
    rw [hnone, Nat.zero_add, Nat.one_mul]
  · rw [giveUp_eq, heq]
    exact h.unattributed.1
  · rw [record_giveUp]
    exact h.unattributed.2 k

theorem mem_keys_giveUp (h : m.Tally l next now) {time : Instant} {k : FlowKey}
    (hk : k ∈ (m.giveUp time).2.keys) : k ∈ m.keys ∨ ∃ p ∈ l, p.flow = k := by
  rw [giveUp_eq] at hk
  rcases mem_keys_foldl_addLost hk with hk | ⟨a, ha, heq⟩
  · exact .inl hk
  · have hmem : (a.1, a.2.flow) ∈ m.underWay :=
      List.mem_map_of_mem (f := fun a : Nat × InFlight => (a.1, a.2.flow)) (List.mem_filter.1 ha).1
    rw [h.underWay.mem_iff] at hmem
    obtain ⟨p, hp, hpa⟩ := List.mem_map.1 hmem
    exact .inr ⟨p, hp, (congrArg Prod.snd hpa).trans heq⟩

end Tally

end VideoLink.Monitor
