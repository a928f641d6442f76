import VideoLink.Proofs.Measure.History

/-! The balance of tracked packets. A packet that was sent is received, lost, under way, or arrived before
it was sent, and each arrival that is not received is entered once, in the flow in which it came. -/
namespace VideoLink.Monitor

/-- Whether a call tracks a packet by its number, and sends none under a number that is under way. -/
def Call.tracks (known : Known) : Call → Bool
  | .send _ uid _ _ => (known uid).isNone
  | .receive .. | .giveUp _ => true
  | .countSent .. | .countReceived .. => false

/-- Whether a call tells the arrival of a packet of a flow before it was sent. -/
def Call.isEarly (key : FlowKey) (known : Known) : Call → Bool
  | .receive k uid _ now => (known uid).any fun packet =>
      packet.flow = key ∧ k = key ∧ now < packet.sentAt
  | _ => false

/-- Whether a call tells an arrival in a flow that is answered with no delay. -/
def Call.isUnmatched (key : FlowKey) : Call → Answer → Bool
  | .receive k _ _ _, answer => k = key ∧ answer = .received none
  | _, _ => false

def earlyCount (maxDelay : Span) (key : FlowKey) (calls : List Call) : Nat :=
  (told maxDelay calls).countP fun e => e.2.isEarly key e.1

def unmatchedCount (m : Monitor) (key : FlowKey) (calls : List Call) : Nat :=
  (calls.zip (answers call m calls)).countP fun e => e.1.isUnmatched key e.2

theorem earlyCount_concat (maxDelay : Span) (key : FlowKey) (calls : List Call) (c : Call) :
    earlyCount maxDelay key (calls ++ [c]) = earlyCount maxDelay key calls +
      if c.isEarly key (Known.after maxDelay calls) then 1 else 0 := by
  rw [earlyCount, told_concat, List.countP_append, List.countP_singleton]
  rfl

theorem unmatchedCount_concat (m : Monitor) (key : FlowKey) (calls : List Call) (c : Call) :
    m.unmatchedCount key (calls ++ [c]) = m.unmatchedCount key calls +
      if c.isUnmatched key ((after call m calls).call c).1 then 1 else 0 := by
  have hlength : calls.length = (answers call m calls).length := (length_answers call m calls).symm
  rw [unmatchedCount, answers_concat, List.zip_append hlength, List.countP_append]
  exact congrArg _ (List.countP_singleton ..)

/-- Every packet sent in a flow has one fate, and every arrival that matches none is entered in its flow and
in the total. -/
structure Balanced (m : Monitor) (early unmatched : FlowKey → Nat) : Prop where
  packets : ∀ k, (m.record k).sent.packets =
    (m.record k).received.packets + (m.record k).lost + m.inFlightOf k + early k
  unattributed : ∀ k, (m.record k).unattributed = unmatched k
  total : m.unattributed = weight (fun a => a.2.unattributed) m.flows
  fresh : m.fresh.unattributed = 0

namespace Balanced

variable {m : Monitor} {early unmatched : FlowKey → Nat} {key : FlowKey} {uid : Nat} {packet : InFlight}

theorem attributed (h : m.Balanced early unmatched) : m.Attributed := ⟨h.total, h.fresh⟩

theorem send (h : m.Balanced early unmatched) (hfree : m.inFlight[uid]? = none) (bytes : Nat)
    (now : Instant) : (m.send key uid bytes now).Balanced early unmatched := by
  have hother : ∀ a ∈ m.inFlight.toList, a.1 ≠ uid := by
    intro a ha heq
    have hsome := Std.TreeMap.mem_toList_iff_getElem?_eq_some.1 ha
    rw [heq, hfree] at hsome
    cases hsome
  have hrecord := m.record_send key uid bytes now
  constructor
  · intro k
    have hk := h.packets k
    have hunder := inFlightOf_send hother key bytes now k
    rw [hrecord, hunder]
    by_cases heq : k = key
    · subst heq
      simp only [if_true, FlowRecord.addSent, Traffic.add]
      omega
    · rw [if_neg heq, if_neg (Ne.symm heq)]
      exact hk
  · intro k
    rw [hrecord]
    split
    · rename_i heq
      rw [heq]
      exact h.unattributed key
    · exact h.unattributed k
  · exact (h.attributed.update key (f := (·.addSent bytes now)) fun _ => rfl).total
  · exact h.fresh

theorem countUnattributed (h : m.Balanced early unmatched) (key : FlowKey) :
    (m.countUnattributed key).Balanced early fun k => unmatched k + if key = k then 1 else 0 := by
  constructor
  · intro k
    have hk := h.packets k
    rw [record_countUnattributed]
    split <;> exact hk
  · intro k
    have hk := h.unattributed k
    rw [record_countUnattributed]
    by_cases heq : k = key
    · rw [if_pos heq, if_pos heq.symm, ← hk]
      rfl
    · rw [if_neg heq, if_neg (Ne.symm heq), hk]
      rfl
  · exact (h.attributed.countUnattributed key).total
  · exact h.fresh

theorem forget (h : m.Balanced early unmatched) (hknown : m.inFlight[uid]? = some packet) :
    { m with inFlight := m.inFlight.erase uid }.Balanced
      (fun k => early k + if packet.flow = k then 1 else 0) unmatched := by
  constructor
  · intro k
    have hk := h.packets k
    rw [inFlightOf_erase hknown k] at hk
    show (m.record k).sent.packets = (m.record k).received.packets + (m.record k).lost + _ + _
    omega
  · exact h.unattributed
  · exact h.total
  · exact h.fresh

theorem settle (h : m.Balanced (fun k => early k + if key = k then 1 else 0) unmatched)
    {f : FlowRecord → FlowRecord} (hsent : ∀ r, (f r).sent = r.sent)
    (hone : ∀ r, (f r).received.packets + (f r).lost = r.received.packets + r.lost + 1)
    (hunattributed : ∀ r, (f r).unattributed = r.unattributed) :
    (m.update key f).Balanced early unmatched := by
  constructor
  · intro k
    have hk := h.packets k
    show ((m.update key f).record k).sent.packets = _ + _ + m.inFlightOf k + _
    rw [record_update]
    by_cases heq : k = key
    · have hadded := hone (m.record k)
      rw [if_pos heq, hsent]
      rw [if_pos heq.symm] at hk
      omega
    · rw [if_neg heq]
      rw [if_neg (Ne.symm heq)] at hk
      omega
  · intro k
    rw [record_update]
    split
    · rw [hunattributed, h.unattributed]
    · exact h.unattributed k
  · exact (h.attributed.update key hunattributed).total
  · exact h.fresh

theorem giveUp (h : m.Balanced early unmatched) (now : Instant) :
    (m.giveUp now).2.Balanced early unmatched := by
  constructor
  · intro k
    have hk := h.packets k
    rw [m.inFlightOf_giveUp now k] at hk
    rw [record_giveUp]
    dsimp only
    omega
  · intro k
    rw [record_giveUp]
    exact h.unattributed k
  · exact (h.attributed.giveUp now).total
  · exact (h.attributed.giveUp now).fresh

/-- An arrival moves its packet, if there is one under way with its number, and is entered as unmatched
unless it has a delay. -/
theorem receive (h : m.Balanced early unmatched) {known : Known}
    (hknown : ∀ uid, m.inFlight[uid]? = known uid) (key : FlowKey) (uid bytes : Nat) (now : Instant) :
    (m.receive key uid bytes now).2.Balanced
      (fun k => early k + if (Call.receive key uid bytes now).isEarly k known then 1 else 0)
      (fun k => unmatched k + if (Call.receive key uid bytes now).isUnmatched k
        (.received (m.receive key uid bytes now).1) then 1 else 0) := by
  rcases m.receive_cases key uid bytes now with ⟨hnone, heq⟩ |
    ⟨packet, hpacket, ⟨hflow, hle, heq⟩ | ⟨hflow, hlt, heq⟩ | ⟨hflow, heq⟩⟩ <;> rw [heq]
  · rw [hknown] at hnone
    simpa [Call.isEarly, Call.isUnmatched, hnone] using h.countUnattributed key
  · have hforget := h.forget hpacket
    have hnot : ¬ now < packet.sentAt := Nat.not_lt_of_le hle
    rw [hflow] at hforget
    rw [hknown] at hpacket
    have hsettled := hforget.settle (f := (·.addReceived bytes now (now.elapsed packet.sentAt)))
      (fun _ => rfl) (fun r => by simp only [FlowRecord.addReceived, Traffic.add]; omega) (fun _ => rfl)
    simpa [Call.isEarly, Call.isUnmatched, hpacket, hnot] using hsettled
  · have hforget := h.forget hpacket
    rw [hflow] at hforget
    rw [hknown] at hpacket
    simpa [Call.isEarly, Call.isUnmatched, hpacket, hflow, hlt] using hforget.countUnattributed key
  · have hforget := h.forget hpacket
    have hsettled := hforget.settle (f := (·.addLost)) (fun _ => rfl) (fun r => by rfl) (fun _ => rfl)
    have hearly : ∀ k, ¬ (packet.flow = k ∧ key = k ∧ now < packet.sentAt) := by
      rintro k ⟨rfl, heq, _⟩
      exact hflow heq.symm
    rw [hknown] at hpacket
    simpa [Call.isEarly, Call.isUnmatched, hpacket, hearly] using hsettled.countUnattributed key

end Balanced

variable {s : MonitorSettings} {m : Monitor}

theorem balanced_after (h : new? s = .ok m) {calls : List Call}
    (htracks : (told s.maxDelay calls).all fun e => e.2.tracks e.1) :
    (after call m calls).Balanced (fun k => earlyCount s.maxDelay k calls)
      (fun k => m.unmatchedCount k calls) := by
  induction calls using List.reverseRecOn with
  | nil =>
    obtain ⟨delays, jitters, _, _, rfl⟩ := of_new? h
    exact ⟨fun _ => rfl, fun _ => rfl, rfl, rfl⟩
  | append_singleton calls c ih =>
    rw [told_concat, List.all_append, Bool.and_eq_true] at htracks
    obtain ⟨hcalls, hlast⟩ := htracks
    have hbalanced := ih hcalls
    have hknown := inFlight_of_new? h calls
    simp only [after_concat, earlyCount_concat, unmatchedCount_concat]
    cases c with
    | countSent => simp [Call.tracks] at hlast
    | countReceived => simp [Call.tracks] at hlast
    | send key uid bytes now =>
      have hfree : (after call m calls).inFlight[uid]? = none := by
        rw [hknown]
        simpa [Call.tracks] using hlast
      simpa [call, Call.isEarly, Call.isUnmatched] using hbalanced.send hfree bytes now
    | receive key uid bytes now => exact hbalanced.receive hknown key uid bytes now
    | giveUp now => simpa [call, Call.isEarly, Call.isUnmatched] using hbalanced.giveUp now

/-- On a new monitor, a packet that is tracked in a flow is received, lost, under way, or arrived before it was
sent. Every arrival that is answered with no delay is entered in its flow, and the total is that of all
flows. What is under way is what the calls tell. -/
theorem tracked_packets_balance (h : new? s = .ok m) {calls : List Call}
    (htracks : (told s.maxDelay calls).all fun e => e.2.tracks e.1) (key : FlowKey) :
    ((after call m calls).record key).sent.packets =
      ((after call m calls).record key).received.packets + ((after call m calls).record key).lost +
        (after call m calls).inFlightOf key + earlyCount s.maxDelay key calls ∧
    ((after call m calls).record key).unattributed = m.unmatchedCount key calls ∧
    (after call m calls).unattributed =
      weight (fun a => a.2.unattributed) (after call m calls).flows ∧
    ∀ uid, (after call m calls).inFlight[uid]? = Known.after s.maxDelay calls uid := by
  have hbalanced := balanced_after h htracks
  exact ⟨hbalanced.packets key, hbalanced.unattributed key, hbalanced.total, inFlight_of_new? h calls⟩

/-- Packets that come before they were sent, in another flow, or after they were given up, and a number that is
used twice. -/
def strayed (key : FlowKey) : List Call :=
  [.send key 1 100 (.ofNanos 0), .send key 2 100 (.ofNanos 20), .receive key 2 100 (.ofNanos 10),
    .send key 2 100 (.ofNanos 30), .receive key.reversed 2 100 (.ofNanos 40),
    .giveUp (.ofNanos 20_000_000_000), .receive key 1 100 (.ofNanos 20_000_000_001),
    .send key 3 100 (.ofNanos 20_000_000_002), .send key 4 100 (.ofNanos 20_000_000_002),
    .receive key 3 100 (.ofNanos 20_000_000_003)]

theorem strayed_packets_balance : ∃ m key, new? .standard = .ok m ∧
    (told MonitorSettings.standard.maxDelay (strayed key)).all (fun e => e.2.tracks e.1) ∧
    ((after call m (strayed key)).record key).sent.packets =
      ((after call m (strayed key)).record key).received.packets +
        ((after call m (strayed key)).record key).lost + (after call m (strayed key)).inFlightOf key + 1 ∧
    (after call m (strayed key)).inFlight[4]? = some ⟨key, .ofNanos 20_000_000_002⟩ := by
  obtain ⟨m, hm⟩ : ∃ m, new? .standard = .ok m := ⟨_, rfl⟩
  obtain ⟨key, hkey⟩ : ∃ key : FlowKey, key = ⟨⟨10, 0, 0, 1⟩, ⟨10, 0, 0, 2⟩, 5000, 5001, .udp⟩ := ⟨_, rfl⟩
  have htracks : (told MonitorSettings.standard.maxDelay (strayed key)).all
      (fun e => e.2.tracks e.1) := by
    rw [hkey]
    decide +kernel
  have hearly : earlyCount MonitorSettings.standard.maxDelay key (strayed key) = 1 := by
    rw [hkey]
    decide +kernel
  have hunder : Known.after MonitorSettings.standard.maxDelay (strayed key) 4 =
      some ⟨key, .ofNanos 20_000_000_002⟩ := by
    rw [hkey]
    decide +kernel
  obtain ⟨hpackets, _, _, hknown⟩ := tracked_packets_balance hm htracks key
  rw [hearly] at hpackets
  exact ⟨m, key, hm, htracks, hpackets, (hknown 4).trans hunder⟩

end VideoLink.Monitor
