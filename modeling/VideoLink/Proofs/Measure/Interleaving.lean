import Mathlib.Data.List.Nodup
import VideoLink.Proofs.Measure.Losses

/-! Flows side by side. What a monitor knows of one flow changes with the calls on that flow as if there
were no others, as long as no two flows use one number for their packets. So it is of no account how the
calls on different flows are interleaved. -/
namespace VideoLink.Monitor

/-- The flow that a call is on. Giving packets up is on all flows. -/
def Call.flow? : Call → Option FlowKey
  | .countSent key .. | .countReceived key .. | .send key .. | .receive key .. => some key
  | .giveUp _ => none

def Call.uid? : Call → Option Nat
  | .send _ uid .. | .receive _ uid .. => some uid
  | .countSent .. | .countReceived .. | .giveUp _ => none

/-- What a monitor knows of one flow, and the record that the flow gets when it is first seen. -/
structure Share where
  fresh : FlowRecord
  record? : Option FlowRecord
  inFlight : Nat → Option InFlight

namespace Share

def update (s : Share) (f : FlowRecord → FlowRecord) : Share :=
  { s with record? := some (f (s.record?.getD s.fresh)) }

def forget (s : Share) (uid : Nat) : Share := { s with inFlight := Function.update s.inFlight uid none }

def countReceived (s : Share) (bytes : Nat) (sentAt now : Instant) : Share :=
  match now.since? sentAt with
  | some delay => s.update (·.addReceived bytes now delay)
  | none => s.update (·.addUnattributed)

def call (key : FlowKey) (s : Share) : Call → Share
  | .countSent _ bytes now => s.update (·.addSent bytes now)
  | .countReceived _ bytes sentAt now => s.countReceived bytes sentAt now
  | .send _ uid bytes now =>
    { s.update (·.addSent bytes now) with inFlight := Function.update s.inFlight uid (some ⟨key, now⟩) }
  | .receive _ uid bytes now =>
    match s.inFlight uid with
    | some packet => (s.forget uid).countReceived bytes packet.sentAt now
    | none => s.update (·.addUnattributed)
  | .giveUp _ => s

theorem forget_of_none {s : Share} {uid : Nat} (h : s.inFlight uid = none) : s.forget uid = s := by
  rw [forget, ← h, Function.update_eq_self]

end Share

def share (m : Monitor) (key : FlowKey) : Share where
  fresh := m.fresh
  record? := m.flow? key
  inFlight uid := m.inFlight[uid]?.filter (·.flow = key)

/-- Two monitors in the same state but for the order in which the flows were first seen. -/
structure SameButOrder (m m' : Monitor) : Prop where
  maxDelay : m.maxDelay = m'.maxDelay
  fresh : m.fresh = m'.fresh
  flows : m.flows.Perm m'.flows
  inFlight : m.inFlight.Equiv m'.inFlight
  unattributed : m.unattributed = m'.unattributed

/-! What one change does to a share. -/

section

variable (m : Monitor) (key : FlowKey)

theorem share_update (f : FlowRecord → FlowRecord) :
    (m.update key f).share key = (m.share key).update f := by
  rw [share, flow?_update, if_pos rfl]
  rfl

theorem share_update_of_ne {key other : FlowKey} (h : other ≠ key) (f : FlowRecord → FlowRecord) :
    (m.update other f).share key = m.share key := by
  rw [share, flow?_update, if_neg h]
  rfl

theorem share_countUnattributed :
    (m.countUnattributed key).share key = (m.share key).update (·.addUnattributed) :=
  share_update { m with unattributed := m.unattributed + 1 } key _

theorem share_countUnattributed_of_ne {key other : FlowKey} (h : other ≠ key) :
    (m.countUnattributed other).share key = m.share key :=
  share_update_of_ne { m with unattributed := m.unattributed + 1 } h _

theorem share_countReceived (bytes : Nat) (sentAt now : Instant) :
    (m.countReceived key bytes sentAt now).2.share key =
      (m.share key).countReceived bytes sentAt now := by
  unfold countReceived Share.countReceived
  cases now.since? sentAt with
  | some delay => exact m.share_update key _
  | none => exact m.share_countUnattributed key

theorem share_countReceived_of_ne {key other : FlowKey} (h : other ≠ key) (bytes : Nat)
    (sentAt now : Instant) : (m.countReceived other bytes sentAt now).2.share key = m.share key := by
  unfold countReceived
  split
  · exact m.share_update_of_ne h _
  · exact m.share_countUnattributed_of_ne h

theorem share_insert (uid : Nat) (packet : InFlight) :
    { m with inFlight := m.inFlight.insert uid packet }.share key = { m.share key with
      inFlight := Function.update (m.share key).inFlight uid ((some packet).filter (·.flow = key)) } := by
  simp only [share, Share.mk.injEq, true_and]
  refine ⟨rfl, funext fun u => ?_⟩
  rw [inFlight_insert, Function.update_apply]
  simp only [eq_comm (a := u)]
  split <;> rfl

theorem share_erase (uid : Nat) :
    { m with inFlight := m.inFlight.erase uid }.share key = (m.share key).forget uid := by
  simp only [share, Share.forget, Share.mk.injEq, true_and]
  refine ⟨rfl, funext fun u => ?_⟩
  rw [inFlight_erase, Function.update_apply]
  simp only [eq_comm (a := u)]
  split <;> rfl

theorem share_send (uid bytes : Nat) (now : Instant) :
    (m.send key uid bytes now).share key = (m.share key).call key (.send key uid bytes now) := by
  have hinsert := (m.countSent key bytes now).share_insert key uid ⟨key, now⟩
  rw [Option.filter_some, if_pos (decide_eq_true rfl), countSent, share_update] at hinsert
  exact hinsert

theorem share_send_of_ne {key other : FlowKey} (h : other ≠ key) {uid : Nat}
    (hfree : (m.share key).inFlight uid = none) (bytes : Nat) (now : Instant) :
    (m.send other uid bytes now).share key = m.share key := by
  have hinsert := (m.countSent other bytes now).share_insert key uid ⟨other, now⟩
  rw [Option.filter_some, if_neg (by simpa using h), countSent, share_update_of_ne _ h] at hinsert
  exact hinsert.trans (Share.forget_of_none hfree)

/-- An arrival in a flow finds the packet of the flow that has its number. A packet of another flow is lost to
that one. -/
theorem share_receive (uid bytes : Nat) (now : Instant) :
    (m.receive key uid bytes now).2.share key = (m.share key).call key (.receive key uid bytes now) := by
  simp only [receive, Share.call]
  cases hp : m.inFlight[uid]? with
  | none =>
    have hnone : (m.share key).inFlight uid = none := by
      show m.inFlight[uid]?.filter _ = none
      rw [hp]
      rfl
    rw [hnone]
    exact m.share_countUnattributed key
  | some packet =>
    have hsome : (m.share key).inFlight uid = (some packet).filter (·.flow = key) := by rw [← hp]; rfl
    have herase := m.share_erase key uid
    by_cases hflow : packet.flow = key
    · rw [Option.filter_some, if_pos (decide_eq_true hflow)] at hsome
      simp only [hsome, if_pos hflow, share_countReceived, herase]
    · rw [Option.filter_some, if_neg (by simpa using hflow)] at hsome
      simp only [hsome, if_neg hflow, share_countUnattributed, share_update_of_ne _ hflow, herase,
        Share.forget_of_none hsome]

theorem share_receive_of_ne {key other : FlowKey} (h : other ≠ key) {uid : Nat}
    (hfree : (m.share key).inFlight uid = none) (bytes : Nat) (now : Instant) :
    (m.receive other uid bytes now).2.share key = m.share key := by
  have hkept : { m with inFlight := m.inFlight.erase uid }.share key = m.share key :=
    (m.share_erase key uid).trans (Share.forget_of_none hfree)
  rcases m.receive_cases other uid bytes now with ⟨_, heq⟩ |
    ⟨packet, hp, ⟨_, _, heq⟩ | ⟨_, _, heq⟩ | ⟨_, heq⟩⟩ <;> rw [heq]
  · exact m.share_countUnattributed_of_ne h
  · rw [share_update_of_ne _ h, hkept]
  · rw [share_countUnattributed_of_ne _ h, hkept]
  · have hpacket : packet.flow ≠ key := by
      intro hsame
      have hfound : (m.share key).inFlight uid = (some packet).filter (·.flow = key) := by rw [← hp]; rfl
      rw [hfound, Option.filter_some, if_pos (decide_eq_true hsame)] at hfree
      cases hfree
    rw [share_countUnattributed_of_ne _ h, share_update_of_ne _ hpacket, hkept]

end

variable {m : Monitor} {key : FlowKey}

theorem share_call (m : Monitor) {c : Call} (hflow : c.flow? = some key) :
    (m.call c).2.share key = (m.share key).call key c := by
  cases c with
  | countSent k bytes now =>
    cases hflow
    exact m.share_update key _
  | countReceived k bytes sentAt now =>
    cases hflow
    exact m.share_countReceived key bytes sentAt now
  | send k uid bytes now =>
    cases hflow
    exact m.share_send key uid bytes now
  | receive k uid bytes now =>
    cases hflow
    exact m.share_receive key uid bytes now
  | giveUp now => cases hflow

/-- A call on another flow does nothing to what is known of a flow that has no packet under way with the same
number. -/
theorem share_call_of_ne {other : FlowKey} {c : Call} (hflow : c.flow? = some other) (hne : other ≠ key)
    (hfree : ∀ uid, c.uid? = some uid → (m.share key).inFlight uid = none) :
    (m.call c).2.share key = m.share key := by
  cases c with
  | countSent k bytes now =>
    cases hflow
    exact m.share_update_of_ne hne _
  | countReceived k bytes sentAt now =>
    cases hflow
    exact m.share_countReceived_of_ne hne bytes sentAt now
  | send k uid bytes now =>
    cases hflow
    exact m.share_send_of_ne hne (hfree uid rfl) bytes now
  | receive k uid bytes now =>
    cases hflow
    exact m.share_receive_of_ne hne (hfree uid rfl) bytes now
  | giveUp now => cases hflow

/-! What calls do to a share. -/

theorem Known.mem_of_after {maxDelay : Span} {calls : List Call} {uid : Nat} {packet : InFlight}
    (h : after maxDelay calls uid = some packet) :
    ∃ bytes, .send packet.flow uid bytes packet.sentAt ∈ calls := by
  induction calls using List.reverseRecOn with
  | nil => cases h
  | append_singleton calls c ih =>
    have hbefore : after maxDelay calls uid = some packet →
        ∃ bytes, .send packet.flow uid bytes packet.sentAt ∈ calls ++ [c] := by
      intro hp
      obtain ⟨bytes, hmem⟩ := ih hp
      exact ⟨bytes, List.mem_append_left _ hmem⟩
    rw [after_concat] at h
    cases c with
    | countSent => exact hbefore h
    | countReceived => exact hbefore h
    | send key sent bytes now =>
      change Function.update _ sent _ uid = _ at h
      rw [Function.update_apply] at h
      split at h
      · rename_i heq
        cases h
        exact ⟨bytes, List.mem_append_right _ (heq ▸ List.mem_singleton_self _)⟩
      · exact hbefore h
    | receive key arrived bytes now =>
      change Function.update _ arrived _ uid = _ at h
      rw [Function.update_apply] at h
      split at h
      · cases h
      · exact hbefore h
    | giveUp now => exact hbefore (Option.filter_eq_some_iff.1 h).1

/-- If every number is used by one flow only, then what is known of a flow after calls is what the calls on the
flow tell, one after another. -/
theorem share_after (hnew : ∀ uid : Nat, m.inFlight[uid]? = none) {calls : List Call}
    (hflow : ∀ c ∈ calls, c.flow?.isSome)
    (howner : ∀ c ∈ calls, ∀ c' ∈ calls, ∀ uid, c.uid? = some uid → c'.uid? = some uid → c.flow? = c'.flow?)
    (key : FlowKey) : (after call m calls).share key =
      (calls.filter (·.flow? = some key)).foldl (Share.call key) (m.share key) := by
  induction calls using List.reverseRecOn with
  | nil => rfl
  | append_singleton calls c ih =>
    have hc : c ∈ calls ++ [c] := List.mem_append_right _ (List.mem_singleton_self c)
    have hsub : ∀ d ∈ calls, d ∈ calls ++ [c] := fun d hd => List.mem_append_left _ hd
    have hrest := ih (fun d hd => hflow d (hsub d hd))
      fun d hd d' hd' => howner d (hsub d hd) d' (hsub d' hd')
    obtain ⟨other, hother⟩ := Option.isSome_iff_exists.1 (hflow c hc)
    rw [after_concat, List.filter_append, List.filter_singleton]
    by_cases hkey : other = key
    · subst hkey
      rw [share_call _ hother, hrest, hother, decide_eq_true rfl, List.foldl_append]
      rfl
    · have hfree : ∀ uid, c.uid? = some uid → ((after call m calls).share key).inFlight uid = none := by
        intro uid huid
        rw [Option.eq_none_iff_forall_ne_some]
        intro packet hp
        -- The packet was sent under this number in its own flow, so the number would have two owners.
        obtain ⟨hp, hpacket⟩ := Option.filter_eq_some_iff.1 hp
        rw [inFlight_after hnew] at hp
        obtain ⟨bytes, hsent⟩ := Known.mem_of_after hp
        have hsame := howner c hc _ (hsub _ hsent) uid huid rfl
        rw [hother, Call.flow?, Option.some.injEq] at hsame
        exact hkey (hsame.trans (of_decide_eq_true hpacket))
      have hapart : ¬ c.flow? = some key := by simpa [hother] using hkey
      rw [share_call_of_ne hother hkey hfree, hrest, decide_eq_false hapart]
      simp

/-! What the flows have in common. -/

namespace Attributed

theorem call (h : m.Attributed) (c : Call) : (m.call c).2.Attributed := by
  cases c with
  | countSent key bytes now => exact h.update key fun _ => rfl
  | countReceived key bytes sentAt now =>
    simp only [Monitor.call, countReceived]
    split
    · exact h.update key fun _ => rfl
    · exact h.countUnattributed key
  | send key uid bytes now =>
    have hsent := h.update key (f := (·.addSent bytes now)) fun _ => rfl
    exact ⟨hsent.total, hsent.fresh⟩
  | receive key uid bytes now =>
    have hforget : { m with inFlight := m.inFlight.erase uid }.Attributed := ⟨h.total, h.fresh⟩
    simp only [Monitor.call]
    rcases m.receive_cases key uid bytes now with ⟨_, heq⟩ |
      ⟨packet, _, ⟨_, _, heq⟩ | ⟨_, _, heq⟩ | ⟨_, heq⟩⟩ <;> rw [heq]
    · exact h.countUnattributed key
    · exact hforget.update key fun _ => rfl
    · exact hforget.countUnattributed key
    · have hlost := hforget.update packet.flow (f := (·.addLost)) fun _ => rfl
      exact hlost.countUnattributed key
  | giveUp now => exact h.giveUp now

end Attributed

theorem attributed_after {s : MonitorSettings} (h : new? s = .ok m) (calls : List Call) :
    (after call m calls).Attributed := by
  induction calls using List.reverseRecOn with
  | nil =>
    obtain ⟨delays, jitters, _, _, rfl⟩ := of_new? h
    exact ⟨rfl, rfl⟩
  | append_singleton calls c ih =>
    rw [after_concat]
    exact ih.call c

theorem flows_perm {m m' : Monitor} (h : m.keys.Nodup) (h' : m'.keys.Nodup)
    (heq : ∀ key, m.flow? key = m'.flow? key) : m.flows.Perm m'.flows := by
  rw [List.perm_ext_iff_of_nodup (List.Nodup.of_map _ h) (List.Nodup.of_map _ h')]
  intro a
  rw [mem_flows h, mem_flows h', heq]

/-- On a new monitor, the same calls in two orders that are the same for each flow leave the same record of every
flow, the same packets under way and the same number of arrivals that match no packet. Only the order in which
the flows were first seen may differ, and with it their numbers. No two flows may use one number for
their packets. -/
theorem flows_do_not_interfere {s : MonitorSettings} (h : new? s = .ok m) {calls calls' : List Call}
    (hperm : calls.Perm calls') (hflow : ∀ c ∈ calls, c.flow?.isSome)
    (horder : ∀ key, calls.filter (·.flow? = some key) = calls'.filter (·.flow? = some key))
    (howner : ∀ c ∈ calls, ∀ c' ∈ calls, ∀ uid,
      c.uid? = some uid → c'.uid? = some uid → c.flow? = c'.flow?) :
    (∀ key, (after call m calls).flow? key = (after call m calls').flow? key) ∧
      (after call m calls).SameButOrder (after call m calls') := by
  obtain ⟨hfresh, hmax⟩ := settings_after m calls
  obtain ⟨hfresh', hmax'⟩ := settings_after m calls'
  have hnew : ∀ uid : Nat, m.inFlight[uid]? = none := fun uid => inFlight_of_new? h [] uid
  have hshare : ∀ key, (after call m calls).share key = (after call m calls').share key := by
    intro key
    rw [share_after hnew hflow howner, horder, share_after hnew]
    · exact fun c hc => hflow c (hperm.mem_iff.2 hc)
    · exact fun c hc c' hc' => howner c (hperm.mem_iff.2 hc) c' (hperm.mem_iff.2 hc')
  have hrecord : ∀ key, (after call m calls).flow? key = (after call m calls').flow? key := fun key =>
    congrArg Share.record? (hshare key)
  have hpacket : ∀ (uid : Nat) (packet : InFlight), (after call m calls).inFlight[uid]? = some packet ↔
      (after call m calls').inFlight[uid]? = some packet := by
    intro uid packet
    have hlook := congrFun (congrArg Share.inFlight (hshare packet.flow)) uid
    have hmine : ∀ m : Monitor, (m.share packet.flow).inFlight uid = some packet ↔
        m.inFlight[uid]? = some packet := fun m => by
      simp [share, Option.filter_eq_some_iff]
    rw [← hmine, hlook, hmine]
  have hflows := flows_perm (seen_after h calls).keys (seen_after h calls').keys hrecord
  refine ⟨hrecord, hmax.trans hmax'.symm, hfresh.trans hfresh'.symm, hflows, ?_, ?_⟩
  · exact equiv_of_getElem? fun uid => Option.ext (hpacket uid)
  · rw [(attributed_after h calls).total, (attributed_after h calls').total]
    exact weight_perm _ hflows

def woven (key : FlowKey) : List Call :=
  [.send key 1 100 (.ofNanos 0), .send key.reversed 2 100 (.ofNanos 10),
    .receive key 1 100 (.ofNanos 20_000_000), .receive key.reversed 3 100 (.ofNanos 30_000_000)]

def rewoven (key : FlowKey) : List Call :=
  [.send key.reversed 2 100 (.ofNanos 10), .receive key.reversed 3 100 (.ofNanos 30_000_000),
    .send key 1 100 (.ofNanos 0), .receive key 1 100 (.ofNanos 20_000_000)]

theorem woven_flows_do_not_interfere : ∃ m key, new? .standard = .ok m ∧
    (after call m (woven key)).keys = [key, key.reversed] ∧
    (after call m (rewoven key)).keys = [key.reversed, key] ∧
    (∀ k, (after call m (woven key)).flow? k = (after call m (rewoven key)).flow? k) ∧
    (after call m (woven key)).SameButOrder (after call m (rewoven key)) := by
  obtain ⟨key, hkey⟩ : ∃ key : FlowKey, key = ⟨⟨10, 0, 0, 1⟩, ⟨10, 0, 0, 2⟩, 5000, 5001, .udp⟩ := ⟨_, rfl⟩
  have hperm : (woven key).Perm (rewoven key) :=
    (List.Perm.swap ..).trans ((List.perm_append_singleton _ [_, _]).cons _)
  have hflow : ∀ c ∈ woven key, c.flow?.isSome := by simp [woven, Call.flow?]
  have horder : ∀ k, (woven key).filter (·.flow? = some k) = (rewoven key).filter (·.flow? = some k) := by
    intro k
    have hne : key ≠ key.reversed := by rw [hkey]; decide
    by_cases hfirst : key = k
    · simp [woven, rewoven, Call.flow?, ← hfirst, hne.symm]
    · by_cases hsecond : key.reversed = k <;> simp [woven, rewoven, Call.flow?, hfirst, hsecond]
  have howner : ∀ c ∈ woven key, ∀ c' ∈ woven key, ∀ uid,
      c.uid? = some uid → c'.uid? = some uid → c.flow? = c'.flow? := by
    simp [woven, Call.uid?, Call.flow?]
  refine ⟨_, key, rfl, ?_, ?_, flows_do_not_interfere (s := .standard) rfl hperm hflow horder howner⟩
  · rw [hkey]
    decide +kernel
  · rw [hkey]
    decide +kernel

end VideoLink.Monitor
