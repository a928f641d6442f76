import Std.Data.HashMap.Lemmas
import VideoLink.Proofs.Measure.Interleaving

/-! The directory of the flows. Their records stand in the order of first sight, and an index leads from
each flow to the place of its record. Whatever is called on a monitor, the two stay in step, so a flow keeps
its number. -/
namespace VideoLink

deriving instance Hashable for Address, Protocol, FlowKey

/-- Records with an index. -/
structure Directory where
  fresh : FlowRecord
  flows : List (FlowKey × FlowRecord) := []
  index : Std.HashMap FlowKey Nat := ∅

namespace Directory

def keys (d : Directory) : List FlowKey := d.flows.map (·.1)

/-- The place of the record of a flow, which is entered last if the index does not know the flow. -/
def place (d : Directory) (key : FlowKey) : Nat × Directory :=
  match d.index[key]? with
  | some i => (i, d)
  | none => (d.flows.length, { d with
      flows := d.flows ++ [(key, d.fresh)]
      index := d.index.insert key d.flows.length })

def update (d : Directory) (key : FlowKey) (f : FlowRecord → FlowRecord) : Directory :=
  let (i, d) := d.place key
  { d with flows := d.flows.modify i fun a => (a.1, f a.2) }

def flow? (d : Directory) (key : FlowKey) : Option FlowRecord :=
  d.index[key]?.bind fun i => d.flows[i]?.map (·.2)

/-- All records in order. A number has 32 bits. -/
def entries (d : Directory) : List FlowEntry :=
  d.flows.mapIdx fun i (key, record) => ⟨(UInt32.ofNat i + 1).toNat, key, record⟩

end Directory

namespace Monitor

def reception (bytes : Nat) (sentAt now : Instant) : FlowRecord → FlowRecord :=
  match now.since? sentAt with
  | some delay => (·.addReceived bytes now delay)
  | none => (·.addUnattributed)

def changes (m : Monitor) : Call → List (FlowKey × (FlowRecord → FlowRecord))
  | .countSent key bytes now | .send key _ bytes now => [(key, (·.addSent bytes now))]
  | .countReceived key bytes sentAt now => [(key, reception bytes sentAt now)]
  | .receive key uid bytes now =>
    match m.inFlight[uid]? with
    | some packet =>
      if packet.flow = key then [(key, reception bytes packet.sentAt now)]
      else [(packet.flow, (·.addLost)), (key, (·.addUnattributed))]
    | none => [(key, (·.addUnattributed))]
  | .giveUp now => (m.overdue now).map fun a => (a.2.flow, (·.addLost))

end Monitor

namespace Directory

def call (d : Directory) (m : Monitor) (c : Monitor.Call) : Directory :=
  (m.changes c).foldl (fun d change => d.update change.1 change.2) d

def ofCalls (m : Monitor) (calls : List Monitor.Call) : Directory :=
  (history (fun m c => (m.call c).2) m calls).foldl (fun d e => d.call e.1 e.2) { fresh := m.fresh }

end Directory

def FlowSnapshot.numbers (s : FlowSnapshot) : List (Nat × FlowKey) := s.flows.map fun e => (e.id, e.key)

namespace Monitor

/-- The flows that calls are on, each where it comes first. -/
def observed (calls : List Call) : List FlowKey := (calls.filterMap (·.flow?)).eraseDups

/-! An update as a change in one place. -/

section

variable {fresh : FlowRecord} {key : FlowKey} {l : List (FlowKey × FlowRecord)}

theorem updateRecords_of_not_mem (f : FlowRecord → FlowRecord) (h : key ∉ l.map (·.1)) :
    updateRecords fresh key f l = l ++ [(key, f fresh)] := by
  induction l with
  | nil => rfl
  | cons a l ih =>
    rw [List.map_cons, List.mem_cons, not_or] at h
    rw [updateRecords, if_neg (Ne.symm h.1), List.cons_append, ih h.2]

theorem updateRecords_of_getElem? (f : FlowRecord → FlowRecord) (hnodup : (l.map (·.1)).Nodup) {i : Nat}
    (h : l[i]?.map (·.1) = some key) :
    updateRecords fresh key f l = l.modify i fun a => (a.1, f a.2) := by
  induction l generalizing i with
  | nil => cases h
  | cons a l ih =>
    rw [List.map_cons, List.nodup_cons] at hnodup
    cases i with
    | zero =>
      have hkey : a.1 = key := Option.some_inj.1 h
      simp [updateRecords, hkey]
    | succ i =>
      rw [List.getElem?_cons_succ] at h
      have hmem : key ∈ l.map (·.1) := by
        rw [← List.getElem?_map] at h
        exact List.mem_of_getElem? h
      have hne : a.1 ≠ key := fun heq => hnodup.1 (heq ▸ hmem)
      simp [updateRecords, hne, ih hnodup.2 h]

end

/-! What a call changes. -/

variable {m : Monitor}

theorem fresh_foldl_update (m : Monitor) (changes : List (FlowKey × (FlowRecord → FlowRecord))) :
    (changes.foldl (fun m change => m.update change.1 change.2) m).fresh = m.fresh := by
  induction changes generalizing m with
  | nil => rfl
  | cons change changes ih => exact ih (m.update change.1 change.2)

theorem flows_foldl_congr {m m' : Monitor} (hfresh : m.fresh = m'.fresh) (hflows : m.flows = m'.flows)
    (l : List (Nat × InFlight)) : (l.foldl addLost m).flows = (l.foldl addLost m').flows := by
  induction l generalizing m m' with
  | nil => exact hflows
  | cons a l ih =>
    apply ih
    · exact hfresh
    · simp [addLost, update, hfresh, hflows]

theorem flows_countReceived (m : Monitor) (key : FlowKey) (bytes : Nat) (sentAt now : Instant) :
    (m.countReceived key bytes sentAt now).2.flows = (m.update key (reception bytes sentAt now)).flows := by
  unfold countReceived reception
  cases now.since? sentAt <;> rfl

/-- A call reaches the records through its changes only. -/
theorem flows_call (m : Monitor) (c : Call) : (m.call c).2.flows =
    ((m.changes c).foldl (fun m change => m.update change.1 change.2) m).flows := by
  cases c with
  | countSent key bytes now => rfl
  | countReceived key bytes sentAt now => exact m.flows_countReceived key bytes sentAt now
  | send key uid bytes now => rfl
  | receive key uid bytes now =>
    simp only [call, receive, changes]
    cases m.inFlight[uid]? with
    | none => rfl
    | some packet =>
      by_cases hflow : packet.flow = key
      · simp only [if_pos hflow]
        exact flows_countReceived { m with inFlight := m.inFlight.erase uid } key bytes packet.sentAt now
      · simp only [if_neg hflow]
        rfl
  | giveUp now =>
    simp only [call, changes, giveUp_eq, List.foldl_map]
    apply flows_foldl_congr <;> rfl

theorem keys_foldl_update {changes : List (FlowKey × (FlowRecord → FlowRecord))}
    (h : ∀ change ∈ changes, change.1 ∈ m.keys) :
    (changes.foldl (fun m change => m.update change.1 change.2) m).keys = m.keys := by
  induction changes generalizing m with
  | nil => rfl
  | cons change changes ih =>
    have hfirst : (m.update change.1 change.2).keys = m.keys := by
      rw [keys_update, if_pos (h change List.mem_cons_self)]
    rw [List.foldl_cons, ih, hfirst]
    intro later hlater
    rw [hfirst]
    exact h later (List.mem_cons_of_mem _ hlater)

theorem Seen.changes_eq (h : m.Seen) {c : Call} {key : FlowKey} (hflow : c.flow? = some key) :
    ∃ known f, m.changes c = known ++ [(key, f)] ∧ ∀ change ∈ known, change.1 ∈ m.keys := by
  cases c with
  | countSent k bytes now =>
    cases hflow
    exact ⟨[], _, rfl, by simp⟩
  | countReceived k bytes sentAt now =>
    cases hflow
    exact ⟨[], _, rfl, by simp⟩
  | send k uid bytes now =>
    cases hflow
    exact ⟨[], _, rfl, by simp⟩
  | receive k uid bytes now =>
    cases hflow
    cases hp : m.inFlight[uid]? with
    | none => exact ⟨[], (·.addUnattributed), by simp [changes, hp], by simp⟩
    | some packet =>
      by_cases hsame : packet.flow = key
      · exact ⟨[], reception bytes packet.sentAt now, by simp [changes, hp, hsame], by simp⟩
      · refine ⟨[(packet.flow, (·.addLost))], (·.addUnattributed), by simp [changes, hp, hsame], ?_⟩
        simpa using h.inFlight uid packet hp
  | giveUp now => cases hflow

theorem Seen.mem_keys_of_changes (h : m.Seen) {c : Call} (hflow : c.flow? = none) :
    ∀ change ∈ m.changes c, change.1 ∈ m.keys := by
  cases c with
  | giveUp now =>
    intro change hchange
    obtain ⟨a, ha, rfl⟩ := List.mem_map.1 hchange
    exact h.inFlight a.1 a.2 (mem_overdue.1 ha).1
  | countSent => cases hflow
  | countReceived => cases hflow
  | send => cases hflow
  | receive => cases hflow

theorem keys_call (m : Monitor) (c : Call) : (m.call c).2.keys =
    ((m.changes c).foldl (fun m change => m.update change.1 change.2) m).keys := by
  rw [keys, flows_call]
  rfl

/-! The order of first sight. -/

theorem observed_concat_of_none {c : Call} (hflow : c.flow? = none) (calls : List Call) :
    observed (calls ++ [c]) = observed calls := by
  simp [observed, hflow]

theorem observed_concat_of_some {c : Call} {key : FlowKey} (hflow : c.flow? = some key)
    (calls : List Call) : observed (calls ++ [c]) =
      if key ∈ observed calls then observed calls else observed calls ++ [key] := by
  have hrest : [key].removeAll (calls.filterMap (·.flow?)) =
      if key ∈ calls.filterMap (·.flow?) then [] else [key] := by
    split <;> simp_all [List.removeAll]
  simp only [observed, List.filterMap_append, List.filterMap_cons, hflow, List.filterMap_nil,
    List.eraseDups_append, hrest, List.mem_eraseDups]
  split <;> simp [List.eraseDups_cons]

theorem observed_prefix {calls calls' : List Call} (h : calls <+: calls') :
    observed calls <+: observed calls' := by
  obtain ⟨rest, rfl⟩ := h
  simp [observed, List.eraseDups_append]

theorem keys_after {s : MonitorSettings} (hnew : new? s = .ok m) (calls : List Call) :
    (after call m calls).keys = observed calls := by
  induction calls using List.reverseRecOn with
  | nil =>
    obtain ⟨delays, jitters, _, _, rfl⟩ := of_new? hnew
    rfl
  | append_singleton calls c ih =>
    have hseen := seen_after hnew calls
    rw [after_concat, keys_call]
    cases hflow : c.flow? with
    | none =>
      rw [keys_foldl_update (hseen.mem_keys_of_changes hflow), observed_concat_of_none hflow, ih]
    | some key =>
      obtain ⟨known, f, hchanges, hknown⟩ := hseen.changes_eq hflow
      rw [hchanges, List.foldl_append, List.foldl_cons, List.foldl_nil, keys_update,
        keys_foldl_update hknown, observed_concat_of_some hflow, ih]

theorem numbers_snapshot (m : Monitor) :
    m.snapshot.numbers = m.keys.mapIdx fun i key => (i + 1, key) := by
  apply List.ext_getElem?
  intro i
  simp [FlowSnapshot.numbers, snapshot, keys, Function.comp_def]

end Monitor

namespace Directory

/-! The records and their index. -/

section

variable {d : Directory} {key : FlowKey}

theorem getElem?_concat_eq_some_iff {α : Type} {l : List α} {a : α} (ha : a ∉ l) (i : ℕ) :
    (l ++ [a])[i]? = some a ↔ l.length = i := by
  rcases Nat.lt_trichotomy i l.length with hlt | rfl | hgt
  · rw [List.getElem?_append_left hlt]
    exact ⟨fun h => absurd (List.mem_of_getElem? h) ha, fun h => by omega⟩
  · rw [List.getElem?_concat_length]
    exact ⟨fun _ => rfl, fun _ => rfl⟩
  · rw [List.getElem?_eq_none (by rw [List.length_append, List.length_singleton]; omega)]
    exact ⟨nofun, fun h => by omega⟩

theorem map_fst_modify (f : FlowRecord → FlowRecord) (l : List (FlowKey × FlowRecord)) (i : Nat) :
    (l.modify i fun a => (a.1, f a.2)).map (·.1) = l.map (·.1) := by
  apply List.ext_getElem?
  intro j
  by_cases h : i = j <;> simp [h, Function.comp_def]

theorem update_of_known {i : Nat} (h : d.index[key]? = some i) (f : FlowRecord → FlowRecord) :
    d.update key f = { d with flows := d.flows.modify i fun a => (a.1, f a.2) } := by
  simp [update, place, h]

theorem update_of_new (h : d.index[key]? = none) (f : FlowRecord → FlowRecord) :
    d.update key f = { d with
      flows := d.flows ++ [(key, f d.fresh)]
      index := d.index.insert key d.flows.length } := by
  have hmodify : ∀ l : List (FlowKey × FlowRecord),
      ((l ++ [(key, d.fresh)]).modify l.length fun a => (a.1, f a.2)) = l ++ [(key, f d.fresh)] := by
    intro l
    induction l with
    | nil => rfl
    | cons a l ih => simp [ih]
  simp [update, place, h, hmodify]

end

/-- A directory that holds the records of a monitor, each with its place in the index. -/
structure InStep (d : Directory) (m : Monitor) : Prop where
  fresh : d.fresh = m.fresh
  flows : d.flows = m.flows
  index : ∀ (key : FlowKey) (i : Nat), d.index[key]? = some i ↔ d.keys[i]? = some key

namespace InStep

variable {d : Directory} {m : Monitor}

theorem nodup (h : d.InStep m) : d.keys.Nodup := by
  rw [List.nodup_iff_getElem?_ne_getElem?]
  intro i j hij hj heq
  rw [List.getElem?_eq_getElem hj] at heq
  have hi := (h.index d.keys[j] i).2 heq
  have hj := (h.index d.keys[j] j).2 (List.getElem?_eq_getElem hj)
  rw [hi, Option.some.injEq] at hj
  omega

theorem index_eq_none (h : d.InStep m) (key : FlowKey) : d.index[key]? = none ↔ key ∉ d.keys := by
  simp [Option.eq_none_iff_forall_ne_some, h.index, List.mem_iff_getElem?]

theorem update (h : d.InStep m) (key : FlowKey) (f : FlowRecord → FlowRecord) :
    (d.update key f).InStep (m.update key f) := by
  cases hplace : d.index[key]? with
  | some i =>
    have hrecord : d.flows[i]?.map (·.1) = some key := by
      rw [← List.getElem?_map]
      exact (h.index key i).1 hplace
    rw [update_of_known hplace]
    constructor
    · exact h.fresh
    · simp [Monitor.update, ← h.flows, Monitor.updateRecords_of_getElem? f h.nodup hrecord]
    · simpa [keys, map_fst_modify] using h.index
  | none =>
    have hnew := (h.index_eq_none key).1 hplace
    rw [update_of_new hplace]
    constructor
    · exact h.fresh
    · simp [Monitor.update, ← h.flows, ← h.fresh, Monitor.updateRecords_of_not_mem f hnew]
    · intro k i
      have hlength : d.flows.length = d.keys.length := by simp [keys]
      have hkeys : ({ d with
          flows := d.flows ++ [(key, f d.fresh)]
          index := d.index.insert key d.flows.length } : Directory).keys = d.keys ++ [key] := by
        simp [keys]
      rw [hkeys, Std.HashMap.getElem?_insert, hlength]
      by_cases hkey : key = k
      · subst hkey
        rw [if_pos BEq.rfl, Option.some.injEq, getElem?_concat_eq_some_iff hnew i]
      · rw [if_neg (by simpa using hkey), h.index, List.getElem?_append]
        by_cases hi : i < d.keys.length
        · rw [if_pos hi]
        · simp [hi, hkey, List.getElem?_singleton]

theorem of_eq (h : d.InStep m) {m' : Monitor} (hfresh : m'.fresh = m.fresh) (hflows : m'.flows = m.flows) :
    d.InStep m' := by
  constructor
  · rw [hfresh, h.fresh]
  · rw [hflows, h.flows]
  · exact h.index

theorem foldl_update (h : d.InStep m) (changes : List (FlowKey × (FlowRecord → FlowRecord))) :
    (changes.foldl (fun d change => d.update change.1 change.2) d).InStep
      (changes.foldl (fun m change => m.update change.1 change.2) m) := by
  induction changes generalizing d m with
  | nil => exact h
  | cons change changes ih =>
    apply ih
    exact h.update change.1 change.2

theorem flow?_eq_some (h : d.InStep m) {key : FlowKey} {r : FlowRecord} :
    d.flow? key = some r ↔ (key, r) ∈ d.flows := by
  simp only [flow?, Option.bind_eq_some_iff, Option.map_eq_some_iff, List.mem_iff_getElem?, h.index,
    keys, List.getElem?_map]
  constructor
  · rintro ⟨i, ⟨a, ha, rfl⟩, b, hb, rfl⟩
    rw [ha] at hb
    cases hb
    exact ⟨i, ha⟩
  · rintro ⟨i, hi⟩
    exact ⟨i, ⟨_, hi, rfl⟩, _, hi, rfl⟩

theorem flow?_eq_none (h : d.InStep m) (key : FlowKey) : d.flow? key = none ↔ key ∉ d.keys := by
  simp [Option.eq_none_iff_forall_ne_some, h.flow?_eq_some, keys]

end InStep

variable {d : Directory} {m : Monitor}

theorem InStep.call (h : d.InStep m) (c : Monitor.Call) : (d.call m c).InStep (m.call c).2 := by
  have hchanged := h.foldl_update (m.changes c)
  apply hchanged.of_eq
  · rw [Monitor.fresh_foldl_update]
    exact (m.call_settings c).1
  · exact m.flows_call c

theorem inStep_ofCalls {s : MonitorSettings} (hnew : Monitor.new? s = .ok m) (calls : List Monitor.Call) :
    (ofCalls m calls).InStep (after Monitor.call m calls) := by
  induction calls using List.reverseRecOn with
  | nil =>
    obtain ⟨delays, jitters, _, _, rfl⟩ := Monitor.of_new? hnew
    constructor
    · rfl
    · rfl
    · simp [ofCalls, history, keys]
  | append_singleton calls c ih =>
    rw [ofCalls, history_concat, List.foldl_append, after_concat]
    exact ih.call c

theorem InStep.entries_eq (h : d.InStep m)
    (hfew : d.flows.length < UInt32.size) : d.entries = m.snapshot.flows := by
  rw [Monitor.snapshot, ← h.flows, entries, List.mapIdx_eq_mapIdx_iff]
  intro i hi
  have hsize : UInt32.size = 0x1_0000_0000 := rfl
  have hnumber : (UInt32.ofNat i + 1).toNat = i + 1 := by
    rw [UInt32.toNat_add, UInt32.toNat_ofNat_of_lt' (by omega)]
    show (i + 1) % UInt32.size = i + 1
    exact Nat.mod_eq_of_lt (by omega)
  rw [hnumber]

end Directory

namespace Monitor

/-- Whatever was called on a new monitor, as long as it has seen less than `2 ^ 32` flows: the index knows the
place of each record and no other, so a flow has one record and is found with it exactly if it was seen. The
flows are numbered from one on in the order in which calls were first on them, and no call changes the
number of a flow that was seen before. -/
theorem flows_keep_their_numbers {s : MonitorSettings} (hnew : new? s = .ok m) {calls : List Call}
    (hfew : (observed calls).length < UInt32.size) :
    let d := Directory.ofCalls m calls
    let snapshot := (after call m calls).snapshot
    (∀ (key : FlowKey) (i : Nat), d.index[key]? = some i ↔ d.flows[i]?.map (·.1) = some key) ∧
    (d.flows.map (·.1)).Nodup ∧ d.flows = (after call m calls).flows ∧
    (∀ key, d.flow? key = (after call m calls).flow? key) ∧
    (∀ key record, d.flow? key = some record ↔ (key, record) ∈ d.flows) ∧
    (∀ key, d.flow? key = none ↔ ∀ c ∈ calls, c.flow? ≠ some key) ∧
    d.entries = snapshot.flows ∧
    snapshot.numbers = (observed calls).mapIdx (fun i key => (i + 1, key)) ∧
    ∀ earlier, earlier <+: calls → (after call m earlier).snapshot.numbers <+: snapshot.numbers := by
  intro d snapshot
  have hstep : d.InStep (after call m calls) := Directory.inStep_ofCalls hnew calls
  have hkeys : d.keys = observed calls := by
    rw [← keys_after hnew, Directory.keys, hstep.flows, keys]
  have hindex : ∀ (key : FlowKey) (i : Nat), d.index[key]? = some i ↔ d.flows[i]?.map (·.1) = some key := by
    intro key i
    rw [hstep.index, Directory.keys, List.getElem?_map]
  have hfound : ∀ key, d.flow? key = (after call m calls).flow? key := by
    intro key
    apply Option.ext
    intro record
    rw [hstep.flow?_eq_some, hstep.flows, mem_flows (seen_after hnew calls).keys]
  have hnone : ∀ key, d.flow? key = none ↔ ∀ c ∈ calls, c.flow? ≠ some key := by
    intro key
    rw [hstep.flow?_eq_none, hkeys]
    simp [observed]
  refine ⟨hindex, hstep.nodup, hstep.flows, hfound, fun key record => hstep.flow?_eq_some, hnone, ?_, ?_, ?_⟩
  · apply hstep.entries_eq
    rw [← hkeys] at hfew
    simpa [Directory.keys] using hfew
  · rw [numbers_snapshot, keys_after hnew]
  · intro earlier hearlier
    rw [numbers_snapshot, numbers_snapshot, keys_after hnew, keys_after hnew]
    obtain ⟨rest, hrest⟩ := observed_prefix hearlier
    rw [← hrest, List.mapIdx_append]
    exact List.prefix_append _ _

def strangers (key third : FlowKey) : List Call :=
  [.receive key.reversed 9 100 (.ofNanos 5), .send key 1 100 (.ofNanos 10), .giveUp (.ofNanos 15),
    .receive third 1 100 (.ofNanos 20), .send key.reversed 2 100 (.ofNanos 30)]

theorem strangers_keep_their_numbers : ∃ m, new? .standard = .ok m ∧
    let key : FlowKey := ⟨⟨10, 0, 0, 1⟩, ⟨10, 0, 0, 2⟩, 5000, 5001, .udp⟩
    let third : FlowKey := ⟨⟨10, 0, 0, 3⟩, ⟨10, 0, 0, 2⟩, 5000, 5001, .tcp⟩
    let calls := strangers key third
    (Directory.ofCalls m calls).index[third]? = some 2 ∧
    (Directory.ofCalls m calls).flow? third.reversed = none ∧
    (after call m calls).snapshot.numbers = [(1, key.reversed), (2, key), (3, third)] ∧
    (after call m (calls.take 2)).snapshot.numbers <+: (after call m calls).snapshot.numbers := by
  obtain ⟨m, hm⟩ : ∃ m, new? .standard = .ok m := ⟨_, rfl⟩
  refine ⟨m, hm, ?_⟩
  intro key third calls
  obtain ⟨hindex, -, hflows, -, -, hnone, -, hnumbers, hearlier⟩ :=
    flows_keep_their_numbers hm (show (observed calls).length < UInt32.size by decide +kernel)
  have hplace : (Directory.ofCalls m calls).flows[2]?.map (·.1) = some third := by
    rw [hflows, ← List.getElem?_map]
    change (after call m calls).keys[2]? = some third
    rw [keys_after hm]
    decide +kernel
  refine ⟨(hindex third 2).2 hplace, (hnone third.reversed).2 ?_, ?_, ?_⟩
  · simp [calls, strangers, Call.flow?, key, third, FlowKey.reversed]
  · rw [hnumbers]
    decide +kernel
  · exact hearlier _ (List.take_prefix 2 calls)

end Monitor

end VideoLink
