import Mathlib.Logic.Function.Iterate
import VideoLink.Measure.Monitor
import VideoLink.Weight

/-! The records of a monitor as a function of the flow. A flow that was never seen has the fresh record, so
an update changes the record of one flow, seen before or not, and no other. -/
namespace VideoLink

theorem ok_of_bind {ε α β : Type} {x : Except ε α} {f : α → Except ε β} {b : β}
    (h : x >>= f = .ok b) : ∃ a, x = .ok a ∧ f a = .ok b := by
  cases x with
  | error e => cases h
  | ok a => exact ⟨a, rfl, h⟩

namespace Monitor

theorem of_new? {settings : MonitorSettings} {m : Monitor} (h : new? settings = .ok m) :
    ∃ delays jitters, Histogram.new? settings.delayBinWidth settings.bins = .ok delays ∧
      Histogram.new? settings.jitterBinWidth settings.bins = .ok jitters ∧
      m = { maxDelay := settings.maxDelay, fresh := .empty delays jitters } := by
  obtain ⟨delays, hdelays, h⟩ := ok_of_bind h
  obtain ⟨jitters, hjitters, h⟩ := ok_of_bind h
  cases h
  exact ⟨delays, jitters, hdelays, hjitters, rfl⟩

/-- The record of a flow, fresh if the flow was never seen. -/
def record (m : Monitor) (key : FlowKey) : FlowRecord := (m.flow? key).getD m.fresh

theorem lookup_updateRecords_self (fresh : FlowRecord) (key : FlowKey)
    (f : FlowRecord → FlowRecord) (l : List (FlowKey × FlowRecord)) :
    (updateRecords fresh key f l).lookup key = some (f ((l.lookup key).getD fresh)) := by
  induction l with
  | nil => simp [updateRecords]
  | cons a l ih =>
    obtain ⟨k, r⟩ := a
    rw [updateRecords]
    by_cases h : k = key
    · simp [h]
    · rw [if_neg h, List.lookup_cons, List.lookup_cons, beq_eq_false_iff_ne.2 (Ne.symm h)]
      exact ih

theorem lookup_updateRecords_of_ne (fresh : FlowRecord) {key k : FlowKey} (h : k ≠ key)
    (f : FlowRecord → FlowRecord) (l : List (FlowKey × FlowRecord)) :
    (updateRecords fresh key f l).lookup k = l.lookup k := by
  induction l with
  | nil => simp [updateRecords, List.lookup_cons, beq_eq_false_iff_ne.2 h]
  | cons a l ih =>
    obtain ⟨k', r⟩ := a
    rw [updateRecords]
    by_cases h' : k' = key
    · rw [if_pos h', h', List.lookup_cons, List.lookup_cons, beq_eq_false_iff_ne.2 h]
    · rw [if_neg h', List.lookup_cons, List.lookup_cons, ih]

theorem record_update_self (m : Monitor) (key : FlowKey) (f : FlowRecord → FlowRecord) :
    (m.update key f).record key = f (m.record key) := by
  rw [record, flow?, update, lookup_updateRecords_self]
  rfl

theorem record_update_of_ne (m : Monitor) {key k : FlowKey} (h : k ≠ key)
    (f : FlowRecord → FlowRecord) : (m.update key f).record k = m.record k := by
  rw [record, flow?, update, lookup_updateRecords_of_ne _ h]
  rfl

theorem record_update (m : Monitor) (key : FlowKey) (f : FlowRecord → FlowRecord) (k : FlowKey) :
    (m.update key f).record k = if k = key then f (m.record k) else m.record k := by
  by_cases h : k = key
  · rw [if_pos h, h, record_update_self]
  · rw [if_neg h, record_update_of_ne _ h]

theorem record_countUnattributed (m : Monitor) (key k : FlowKey) : (m.countUnattributed key).record k =
    if k = key then (m.record k).addUnattributed else m.record k :=
  record_update { m with unattributed := m.unattributed + 1 } key _ k

theorem flow?_update (m : Monitor) (key k : FlowKey) (f : FlowRecord → FlowRecord) :
    (m.update key f).flow? k =
      if key = k then some (f ((m.flow? k).getD m.fresh)) else m.flow? k := by
  by_cases h : key = k
  · rw [if_pos h, ← h]
    exact lookup_updateRecords_self m.fresh key f m.flows
  · rw [if_neg h]
    exact lookup_updateRecords_of_ne m.fresh (Ne.symm h) f m.flows

def keys (m : Monitor) : List FlowKey := m.flows.map (·.1)

theorem keys_update (m : Monitor) (key : FlowKey) (f : FlowRecord → FlowRecord) :
    (m.update key f).keys = if key ∈ m.keys then m.keys else m.keys ++ [key] := by
  suffices h : ∀ l : List (FlowKey × FlowRecord), (updateRecords m.fresh key f l).map (·.1) =
      if key ∈ l.map (·.1) then l.map (·.1) else l.map (·.1) ++ [key] from h m.flows
  intro l
  induction l with
  | nil => rfl
  | cons a l ih =>
    obtain ⟨k, r⟩ := a
    rw [updateRecords]
    by_cases h : k = key
    · simp [h]
    · rw [if_neg h, List.map_cons, ih, List.map_cons]
      by_cases hmem : key ∈ l.map (·.1)
      · simp [hmem]
      · simp [hmem, Ne.symm h]

theorem mem_keys_update {m : Monitor} {key k : FlowKey} {f : FlowRecord → FlowRecord} :
    k ∈ (m.update key f).keys ↔ k ∈ m.keys ∨ k = key := by
  rw [keys_update]
  by_cases h : key ∈ m.keys
  · rw [if_pos h]
    exact ⟨.inl, fun hk => hk.elim id fun heq => heq ▸ h⟩
  · rw [if_neg h, List.mem_append, List.mem_singleton]

theorem nodup_keys_update {m : Monitor} (h : m.keys.Nodup) (key : FlowKey)
    (f : FlowRecord → FlowRecord) : (m.update key f).keys.Nodup := by
  rw [keys_update]
  by_cases hmem : key ∈ m.keys
  · rwa [if_pos hmem]
  · rw [if_neg hmem, List.nodup_append]
    refine ⟨h, List.pairwise_singleton _ key, ?_⟩
    intro a ha b hb eq
    rw [eq, List.mem_singleton.1 hb] at ha
    exact hmem ha

theorem mem_flows {m : Monitor} (h : m.keys.Nodup) {key : FlowKey} {r : FlowRecord} :
    (key, r) ∈ m.flows ↔ m.flow? key = some r := by
  suffices hl : ∀ l : List (FlowKey × FlowRecord), (l.map (·.1)).Nodup →
      ((key, r) ∈ l ↔ l.lookup key = some r) from hl m.flows h
  intro l hn
  induction l with
  | nil => simp
  | cons a l ih =>
    rw [List.map_cons, List.nodup_cons] at hn
    rw [List.mem_cons, List.lookup_cons]
    by_cases hkey : key = a.1
    · have hrest : (key, r) ∉ l := fun hm => hn.1 (hkey ▸ List.mem_map_of_mem hm)
      rw [beq_iff_eq.2 hkey, Option.some.injEq, or_iff_left hrest]
      exact ⟨fun heq => heq ▸ rfl, fun hr => Prod.ext hkey hr.symm⟩
    · have hfirst : (key, r) ≠ a := fun heq => hkey (heq ▸ rfl)
      rw [beq_eq_false_iff_ne.2 hkey, or_iff_right hfirst]
      exact ih hn.2

theorem record_of_mem {m : Monitor} (h : m.keys.Nodup) {key : FlowKey} {r : FlowRecord}
    (hm : (key, r) ∈ m.flows) : m.record key = r := by
  rw [record, (mem_flows h).1 hm, Option.getD_some]

theorem record_send (m : Monitor) (key : FlowKey) (uid bytes : Nat) (now : Instant) (k : FlowKey) :
    (m.send key uid bytes now).record k =
      if k = key then (m.record key).addSent bytes now else m.record k := by
  change (m.update key (·.addSent bytes now)).record k = _
  by_cases h : k = key
  · rw [if_pos h, h, record_update_self]
  · rw [if_neg h, record_update_of_ne _ h]

theorem receive_settings (m : Monitor) (key : FlowKey) (uid bytes : Nat) (now : Instant) :
    (m.receive key uid bytes now).2.fresh = m.fresh ∧
      (m.receive key uid bytes now).2.maxDelay = m.maxDelay := by
  unfold receive countReceived
  split
  · dsimp only
    split
    · split <;> exact ⟨rfl, rfl⟩
    · exact ⟨rfl, rfl⟩
  · exact ⟨rfl, rfl⟩

theorem receive_of_known {m : Monitor} {key : FlowKey} {uid : Nat} {sentAt now : Instant}
    (h : m.inFlight[uid]? = some ⟨key, sentAt⟩) (hle : sentAt ≤ now) (bytes : Nat) :
    m.receive key uid bytes now = (some (now.elapsed sentAt),
      { m with inFlight := m.inFlight.erase uid }.update key
        (·.addReceived bytes now (now.elapsed sentAt))) := by
  have hs : now.since? sentAt = some (now.elapsed sentAt) := if_pos hle
  simp only [receive, h, if_true, countReceived, hs]

theorem record_receive_of_known {m : Monitor} {key : FlowKey} {uid : Nat} {sentAt now : Instant}
    (h : m.inFlight[uid]? = some ⟨key, sentAt⟩) (hle : sentAt ≤ now) (bytes : Nat) (k : FlowKey) :
    (m.receive key uid bytes now).2.record k =
      if k = key then (m.record k).addReceived bytes now (now.elapsed sentAt) else m.record k := by
  rw [receive_of_known h hle]
  exact record_update { m with inFlight := m.inFlight.erase uid } key _ k

theorem received_send (m : Monitor) (key : FlowKey) (uid bytes : Nat) (now : Instant) (k : FlowKey) :
    ((m.send key uid bytes now).record k).received = (m.record k).received := by
  rw [record_send]
  split
  · rename_i h
    rw [h]
    rfl
  · rfl

theorem sent_receive (m : Monitor) (key : FlowKey) (uid bytes : Nat) (now : Instant) (k : FlowKey) :
    ((m.receive key uid bytes now).2.record k).sent = (m.record k).sent := by
  have hupdate : ∀ (m : Monitor) (key : FlowKey) (f : FlowRecord → FlowRecord),
      (∀ r, (f r).sent = r.sent) → ((m.update key f).record k).sent = (m.record k).sent := by
    intro m key f hf
    by_cases h : k = key
    · rw [h, record_update_self, hf]
    · rw [record_update_of_ne _ h]
  have hunattributed : ∀ m : Monitor,
      ((m.countUnattributed key).record k).sent = (m.record k).sent := by
    intro m
    exact hupdate { m with unattributed := m.unattributed + 1 } key _ fun _ => rfl
  unfold receive
  split
  · rename_i packet _
    dsimp only
    split
    · unfold countReceived
      split
      · exact hupdate _ key _ fun _ => rfl
      · exact hunattributed _
    · rw [hunattributed]
      exact hupdate { m with inFlight := m.inFlight.erase uid } packet.flow _ fun _ => rfl
  · exact hunattributed m

/-! The packets under way, by their flow. -/

theorem inFlight_insert (t : Std.TreeMap Nat InFlight) (uid : Nat) (packet : InFlight) (other : Nat) :
    (t.insert uid packet)[other]? = if uid = other then some packet else t[other]? := by
  rw [Std.TreeMap.getElem?_insert]
  simp only [Std.LawfulEqCmp.compare_eq_iff_eq]

theorem inFlight_erase (t : Std.TreeMap Nat InFlight) (uid other : Nat) :
    (t.erase uid)[other]? = if uid = other then none else t[other]? := by
  rw [Std.TreeMap.getElem?_erase]
  simp only [Std.LawfulEqCmp.compare_eq_iff_eq]

theorem nodup_uids (t : Std.TreeMap Nat InFlight) : (t.toList.map (·.1)).Nodup :=
  List.pairwise_map.2 (Std.TreeMap.distinct_keys_toList.imp fun {a b} hne heq =>
    hne (by rw [heq]; exact Std.ReflCmp.compare_self))

theorem nodup_toList (t : Std.TreeMap Nat InFlight) : t.toList.Nodup :=
  (List.pairwise_map.1 (nodup_uids t)).imp fun hne heq => hne (congrArg _ heq)

theorem toList_insert {t : Std.TreeMap Nat InFlight} {uid : Nat} (x : InFlight)
    (h : ∀ a ∈ t.toList, a.1 ≠ uid) : (t.insert uid x).toList.Perm ((uid, x) :: t.toList) := by
  have hall : t.toList.filter (fun a => ¬ (uid == a.1)) = t.toList := by
    rw [List.filter_eq_self]
    intro a ha
    have hne := (h a ha).symm
    simpa using hne
  have hperm := Std.TreeMap.toList_insert_perm (t := t) (k := uid) (v := x)
  rwa [hall] at hperm

theorem toList_erase {t : Std.TreeMap Nat InFlight} {uid : Nat} {x : InFlight}
    (h : t[uid]? = some x) : t.toList.Perm ((uid, x) :: (t.erase uid).toList) := by
  have hmem : ∀ {t : Std.TreeMap Nat InFlight} {a : Nat × InFlight},
      a ∈ t.toList ↔ t[a.1]? = some a.2 := Std.TreeMap.mem_toList_iff_getElem?_eq_some
  have hfresh : (uid, x) ∉ (t.erase uid).toList := by
    rw [hmem, inFlight_erase, if_pos rfl]
    simp
  apply (List.perm_ext_iff_of_nodup (nodup_toList t)
    (List.nodup_cons.2 ⟨hfresh, nodup_toList _⟩)).2
  intro a
  rw [List.mem_cons, hmem, hmem, inFlight_erase]
  by_cases ha : uid = a.1
  · rw [if_pos ha, ← ha, h, Option.some.injEq]
    constructor
    · intro hx
      exact .inl (Prod.ext ha.symm hx.symm)
    · rintro (rfl | hnone)
      · rfl
      · cases hnone
  · rw [if_neg ha]
    constructor
    · exact .inr
    · rintro (rfl | hk)
      · exact absurd rfl ha
      · exact hk

def inFlightOf (m : Monitor) (key : FlowKey) : Nat := m.inFlight.toList.countP (·.2.flow = key)

theorem inFlightOf_send {m : Monitor} {uid : Nat} (h : ∀ a ∈ m.inFlight.toList, a.1 ≠ uid)
    (key : FlowKey) (bytes : Nat) (now : Instant) (k : FlowKey) :
    (m.send key uid bytes now).inFlightOf k = m.inFlightOf k + if key = k then 1 else 0 := by
  have hcount := (toList_insert ⟨key, now⟩ h).countP_eq (fun a => decide (a.2.flow = k))
  rw [List.countP_cons] at hcount
  simp only [decide_eq_true_eq] at hcount
  exact hcount

theorem inFlightOf_erase {m : Monitor} {uid : Nat} {packet : InFlight}
    (h : m.inFlight[uid]? = some packet) (k : FlowKey) : m.inFlightOf k =
      { m with inFlight := m.inFlight.erase uid }.inFlightOf k + if packet.flow = k then 1 else 0 := by
  have hcount := (toList_erase h).countP_eq (fun a => decide (a.2.flow = k))
  rw [List.countP_cons] at hcount
  simp only [decide_eq_true_eq] at hcount
  exact hcount

/-- The packets that a monitor gives up at a time. -/
def overdue (m : Monitor) (now : Instant) : List (Nat × InFlight) :=
  m.inFlight.toList.filter fun a => m.isOverdue now a.2

def addLost (m : Monitor) (a : Nat × InFlight) : Monitor := m.update a.2.flow (·.addLost)

theorem giveUp_eq (m : Monitor) (now : Instant) : m.giveUp now = ((m.overdue now).length,
    (m.overdue now).foldl addLost
      { m with inFlight := m.inFlight.filter fun _ packet => !m.isOverdue now packet }) := rfl

theorem foldl_addLost_eq (l : List (Nat × InFlight)) (m : Monitor) :
    ∃ flows, l.foldl addLost m = { m with flows } := by
  induction l generalizing m with
  | nil => exact ⟨m.flows, rfl⟩
  | cons a l ih =>
    obtain ⟨flows, heq⟩ := ih (m.addLost a)
    exact ⟨flows, by rw [List.foldl_cons, heq]; rfl⟩

theorem giveUp_settings (m : Monitor) (now : Instant) :
    (m.giveUp now).2.fresh = m.fresh ∧ (m.giveUp now).2.maxDelay = m.maxDelay := by
  obtain ⟨flows, heq⟩ := foldl_addLost_eq (m.overdue now)
    { m with inFlight := m.inFlight.filter fun _ packet => !m.isOverdue now packet }
  rw [giveUp_eq, heq]
  exact ⟨rfl, rfl⟩

theorem record_foldl_addLost (l : List (Nat × InFlight)) (m : Monitor) (k : FlowKey) :
    (l.foldl addLost m).record k =
      { m.record k with lost := (m.record k).lost + l.countP (·.2.flow = k) } := by
  induction l generalizing m with
  | nil => rfl
  | cons a l ih =>
    rw [List.foldl_cons, ih, List.countP_cons, addLost]
    by_cases h : k = a.2.flow
    · subst h
      rw [record_update_self, FlowRecord.addLost, if_pos (decide_eq_true rfl)]
      simp only [FlowRecord.mk.injEq, and_true, true_and]
      omega
    · rw [record_update_of_ne _ h, if_neg (by simpa using Ne.symm h)]
      rfl

theorem flow?_foldl_addLost (l : List (Nat × InFlight)) (m : Monitor) (k : FlowKey) :
    (l.foldl addLost m).flow? k =
      (fun r? => some (r?.getD m.fresh).addLost)^[l.countP (·.2.flow = k)] (m.flow? k) := by
  induction l generalizing m with
  | nil => rfl
  | cons a l ih =>
    rw [List.foldl_cons, ih, List.countP_cons, addLost, flow?_update]
    by_cases h : a.2.flow = k
    · rw [if_pos h, if_pos (decide_eq_true h), Function.iterate_succ_apply]
      rfl
    · rw [if_neg h, if_neg (by simpa using h)]
      rfl

theorem mem_keys_foldl_addLost {l : List (Nat × InFlight)} {m : Monitor} {k : FlowKey}
    (h : k ∈ (l.foldl addLost m).keys) : k ∈ m.keys ∨ ∃ a ∈ l, a.2.flow = k := by
  induction l generalizing m with
  | nil => exact .inl h
  | cons a l ih =>
    rcases ih h with hk | ⟨b, hb, heq⟩
    · rcases mem_keys_update.1 hk with hk | rfl
      · exact .inl hk
      · exact .inr ⟨a, List.mem_cons_self, rfl⟩
    · exact .inr ⟨b, List.mem_cons_of_mem _ hb, heq⟩

theorem nodup_keys_giveUp {m : Monitor} (h : m.keys.Nodup) (now : Instant) :
    (m.giveUp now).2.keys.Nodup := by
  suffices hl : ∀ (l : List (Nat × InFlight)) (m : Monitor), m.keys.Nodup →
      (l.foldl addLost m).keys.Nodup by
    rw [giveUp_eq]
    exact hl _ _ h
  intro l
  induction l with
  | nil => exact fun _ hm => hm
  | cons a l ih => exact fun m hm => ih _ (nodup_keys_update hm _ _)

/-- An update adds to a total what it adds to the one record. -/
theorem weight_updateRecords {fresh : FlowRecord} {g : FlowRecord → Nat}
    {f : FlowRecord → FlowRecord} {n : Nat} (hfresh : g fresh = 0) (hf : ∀ r, g (f r) = g r + n)
    (key : FlowKey) (l : List (FlowKey × FlowRecord)) :
    weight (fun a => g a.2) (updateRecords fresh key f l) = weight (fun a => g a.2) l + n := by
  induction l with
  | nil =>
    rw [updateRecords, weight_cons, weight_nil, hf, hfresh]
    omega
  | cons a l ih =>
    obtain ⟨k, r⟩ := a
    rw [updateRecords]
    split
    · simp only [weight_cons, hf]
      omega
    · simp only [weight_cons, ih]
      omega

theorem weight_foldl_addLost {g : FlowRecord → Nat} {n : Nat} (l : List (Nat × InFlight)) {m : Monitor}
    (hfresh : g m.fresh = 0) (hlost : ∀ r, g r.addLost = g r + n) :
    weight (fun a => g a.2) (l.foldl addLost m).flows =
      weight (fun a => g a.2) m.flows + n * l.length := by
  induction l generalizing m with
  | nil => rfl
  | cons a l ih =>
    have hone := weight_updateRecords hfresh hlost a.2.flow m.flows
    have hrest := ih (m := m.addLost a) hfresh
    rw [List.foldl_cons, hrest, List.length_cons, Nat.mul_succ]
    show weight _ (updateRecords m.fresh a.2.flow (·.addLost) m.flows) + _ = _
    rw [hone]
    omega

theorem record_giveUp (m : Monitor) (now : Instant) (k : FlowKey) :
    (m.giveUp now).2.record k = { m.record k with
      lost := (m.record k).lost + (m.overdue now).countP (·.2.flow = k) } := by
  rw [giveUp_eq]
  exact record_foldl_addLost (m.overdue now) _ k

theorem toList_giveUp (m : Monitor) (now : Instant) : (m.giveUp now).2.inFlight.toList =
    m.inFlight.toList.filter fun a => !m.isOverdue now a.2 := by
  obtain ⟨flows, heq⟩ := foldl_addLost_eq (m.overdue now)
    { m with inFlight := m.inFlight.filter fun _ packet => !m.isOverdue now packet }
  rw [giveUp_eq, heq]
  exact Std.TreeMap.toList_filter

theorem inFlightOf_giveUp (m : Monitor) (now : Instant) (k : FlowKey) :
    m.inFlightOf k = (m.overdue now).countP (·.2.flow = k) + (m.giveUp now).2.inFlightOf k := by
  rw [inFlightOf, inFlightOf, toList_giveUp]
  exact List.countP_eq_countP_filter_add m.inFlight.toList (fun a => decide (a.2.flow = k))
    (fun a => m.isOverdue now a.2)

/-! The arrivals that match no packet. -/

/-- As many arrivals match no packet as are entered in the records. -/
structure Attributed (m : Monitor) : Prop where
  total : m.unattributed = weight (fun a => a.2.unattributed) m.flows
  fresh : m.fresh.unattributed = 0

namespace Attributed

variable {m : Monitor}

theorem update (h : m.Attributed) (key : FlowKey) {f : FlowRecord → FlowRecord}
    (hf : ∀ r, (f r).unattributed = r.unattributed) : (m.update key f).Attributed where
  total := h.total.trans (weight_updateRecords (n := 0) h.fresh hf key m.flows).symm
  fresh := h.fresh

theorem countUnattributed (h : m.Attributed) (key : FlowKey) : (m.countUnattributed key).Attributed where
  total := (congrArg (· + 1) h.total).trans
    (weight_updateRecords (n := 1) h.fresh (fun _ => rfl) key m.flows).symm
  fresh := h.fresh

theorem giveUp (h : m.Attributed) (now : Instant) : (m.giveUp now).2.Attributed := by
  have hlost := weight_foldl_addLost (g := FlowRecord.unattributed) (n := 0) (m.overdue now)
    (m := { m with inFlight := m.inFlight.filter fun _ packet => !m.isOverdue now packet }) h.fresh
    fun _ => rfl
  obtain ⟨flows, heq⟩ := foldl_addLost_eq (m.overdue now)
    { m with inFlight := m.inFlight.filter fun _ packet => !m.isOverdue now packet }
  rw [giveUp_eq, heq]
  rw [heq, Nat.zero_mul] at hlost
  exact ⟨h.total.trans hlost.symm, h.fresh⟩

end Attributed

end Monitor

end VideoLink
