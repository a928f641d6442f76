import Mathlib.Data.List.Induction
import Mathlib.Logic.Function.Basic
import VideoLink.Proofs.Calls
import VideoLink.Proofs.Measure.Records

/-! What the calls on a monitor tell of its flows. The packets under way follow from the calls alone, and so
does which arrivals count: those of a packet that was sent before in the same flow. -/
namespace VideoLink

structure Passage where
  flow : FlowKey
  bytes : Nat
  time : Instant

structure Arrival extends Passage where
  delay : Span

structure FlowRecord.SameArrivals (r r' : FlowRecord) : Prop where
  received : r'.received = r.received
  delays : r'.delays = r.delays
  jitters : r'.jitters = r.jitters
  lastDelay? : r'.lastDelay? = r.lastDelay?

namespace Monitor

/-- A call on a monitor. The first two count a packet that is not remembered by a number. -/
inductive Call
  | countSent (key : FlowKey) (bytes : Nat) (now : Instant)
  | countReceived (key : FlowKey) (bytes : Nat) (sentAt now : Instant)
  | send (key : FlowKey) (uid bytes : Nat) (now : Instant)
  | receive (key : FlowKey) (uid bytes : Nat) (now : Instant)
  | giveUp (now : Instant)

inductive Answer
  | counted
  | received (delay? : Option Span)
  | givenUp (count : Nat)
deriving DecidableEq

def Answer.delay? : Answer → Option Span
  | .received delay? => delay?
  | _ => none

def call (m : Monitor) : Call → Answer × Monitor
  | .countSent key bytes now => (.counted, m.countSent key bytes now)
  | .countReceived key bytes sentAt now =>
    let (delay?, m) := m.countReceived key bytes sentAt now
    (.received delay?, m)
  | .send key uid bytes now => (.counted, m.send key uid bytes now)
  | .receive key uid bytes now =>
    let (delay?, m) := m.receive key uid bytes now
    (.received delay?, m)
  | .giveUp now =>
    let (count, m) := m.giveUp now
    (.givenUp count, m)

/-! What the calls tell. -/

abbrev Known := Nat → Option InFlight

/-- A packet is known from its sending until a packet with its number arrives or it has been under way for
too long. -/
def Known.call (maxDelay : Span) (known : Known) : Call → Known
  | .send key uid _ now => Function.update known uid (some ⟨key, now⟩)
  | .receive _ uid _ _ => Function.update known uid none
  | .giveUp now => fun uid => (known uid).filter fun packet => ¬ maxDelay < now.elapsed packet.sentAt
  | .countSent .. | .countReceived .. => known

def Known.after (maxDelay : Span) (calls : List Call) : Known :=
  calls.foldl (Known.call maxDelay) fun _ => none

/-- Calls on a new monitor, each with what was known before it. -/
def told (maxDelay : Span) (calls : List Call) : List (Known × Call) :=
  history (Known.call maxDelay) (fun _ => none) calls

/-- The packet that a call counts at its sender. -/
def Call.sent? : Call → Option Passage
  | .countSent key bytes now | .send key _ bytes now => some ⟨key, bytes, now⟩
  | _ => none

/-- The packet that a call counts at its receiver, if it was sent before in the flow in which it arrives. -/
def Call.arrival? (known : Known) : Call → Option Arrival
  | .countReceived key bytes sentAt now =>
    if sentAt ≤ now then some ⟨⟨key, bytes, now⟩, now.elapsed sentAt⟩ else none
  | .receive key uid bytes now =>
    match known uid with
    | some packet =>
      if packet.flow = key ∧ packet.sentAt ≤ now then
        some ⟨⟨key, bytes, now⟩, now.elapsed packet.sentAt⟩
      else none
    | none => none
  | _ => none

def sends (key : FlowKey) (calls : List Call) : List Passage :=
  (calls.filterMap (·.sent?)).filter (·.flow = key)

def arrivals (maxDelay : Span) (key : FlowKey) (calls : List Call) : List Arrival :=
  ((told maxDelay calls).filterMap fun e => e.2.arrival? e.1).filter (·.flow = key)

theorem Known.after_concat (maxDelay : Span) (calls : List Call) (c : Call) :
    after maxDelay (calls ++ [c]) = (after maxDelay calls).call maxDelay c := by
  rw [after, List.foldl_append]
  rfl

theorem told_concat (maxDelay : Span) (calls : List Call) (c : Call) :
    told maxDelay (calls ++ [c]) = told maxDelay calls ++ [(Known.after maxDelay calls, c)] :=
  history_concat (Known.call maxDelay) (fun _ => none) calls c

theorem sends_concat (key : FlowKey) (calls : List Call) (c : Call) :
    sends key (calls ++ [c]) = sends key calls ++ c.sent?.toList.filter (·.flow = key) := by
  cases h : c.sent? <;> simp [sends, h]

theorem arrivals_concat (maxDelay : Span) (key : FlowKey) (calls : List Call) (c : Call) :
    arrivals maxDelay key (calls ++ [c]) = arrivals maxDelay key calls ++
      (c.arrival? (Known.after maxDelay calls)).toList.filter (·.flow = key) := by
  rw [arrivals, told_concat, List.filterMap_append, List.filter_append]
  cases h : c.arrival? (Known.after maxDelay calls) <;> simp [arrivals, h]

/-! What a call does. -/

section

variable (m : Monitor) (key : FlowKey) (uid bytes : Nat) (now : Instant)

/-- An arrival is of a packet that is not under way, or of one under way in its flow for some time, or of one
that was sent later, or of one that is under way in another flow. -/
theorem receive_cases :
    (m.inFlight[uid]? = none ∧ m.receive key uid bytes now = (none, m.countUnattributed key)) ∨
    ∃ packet, m.inFlight[uid]? = some packet ∧
      ((packet.flow = key ∧ packet.sentAt ≤ now ∧
        m.receive key uid bytes now = (some (now.elapsed packet.sentAt),
          { m with inFlight := m.inFlight.erase uid }.update key
            (·.addReceived bytes now (now.elapsed packet.sentAt)))) ∨
      (packet.flow = key ∧ now < packet.sentAt ∧ m.receive key uid bytes now =
        (none, { m with inFlight := m.inFlight.erase uid }.countUnattributed key)) ∨
      (packet.flow ≠ key ∧ m.receive key uid bytes now = (none,
        ({ m with inFlight := m.inFlight.erase uid }.update packet.flow (·.addLost)).countUnattributed
          key))) := by
  cases h : m.inFlight[uid]? with
  | none => exact .inl ⟨rfl, by simp only [receive, h]⟩
  | some packet =>
    refine .inr ⟨packet, rfl, ?_⟩
    by_cases hflow : packet.flow = key
    · by_cases hle : packet.sentAt ≤ now
      · have hpacket : packet = ⟨key, packet.sentAt⟩ := by rw [← hflow]
        rw [hpacket] at h
        exact .inl ⟨hflow, hle, receive_of_known h hle bytes⟩
      · have hsince : now.since? packet.sentAt = none := if_neg hle
        refine .inr (.inl ⟨hflow, Nat.lt_of_not_le hle, ?_⟩)
        simp only [receive, h, hflow, if_true, countReceived, hsince]
    · refine .inr (.inr ⟨hflow, ?_⟩)
      simp only [receive, h, hflow, if_false]

theorem inFlight_receive :
    (m.receive key uid bytes now).2.inFlight[uid]? = none ∧
      ∀ u, u ≠ uid → (m.receive key uid bytes now).2.inFlight[u]? = m.inFlight[u]? := by
  have hother : ∀ u, u ≠ uid → (m.inFlight.erase uid)[u]? = m.inFlight[u]? := by
    intro u hne
    rw [inFlight_erase, if_neg (Ne.symm hne)]
  have hself : (m.inFlight.erase uid)[uid]? = none := by rw [inFlight_erase, if_pos rfl]
  rcases m.receive_cases key uid bytes now with ⟨hnone, heq⟩ |
    ⟨packet, _, ⟨_, _, heq⟩ | ⟨_, _, heq⟩ | ⟨_, heq⟩⟩ <;> rw [heq]
  · exact ⟨hnone, fun _ _ => rfl⟩
  · exact ⟨hself, hother⟩
  · exact ⟨hself, hother⟩
  · exact ⟨hself, hother⟩

end

variable {m : Monitor} {known : Known}

theorem call_settings (m : Monitor) (c : Call) :
    (m.call c).2.fresh = m.fresh ∧ (m.call c).2.maxDelay = m.maxDelay := by
  cases c with
  | countSent key bytes now => exact ⟨rfl, rfl⟩
  | countReceived key bytes sentAt now =>
    simp only [call, countReceived]
    split <;> exact ⟨rfl, rfl⟩
  | send key uid bytes now => exact ⟨rfl, rfl⟩
  | receive key uid bytes now => exact m.receive_settings key uid bytes now
  | giveUp now => exact m.giveUp_settings now

theorem inFlight_giveUp (m : Monitor) (now : Instant) (uid : Nat) :
    (m.giveUp now).2.inFlight[uid]? =
      m.inFlight[uid]?.filter fun packet => ¬ m.maxDelay < now.elapsed packet.sentAt := by
  obtain ⟨flows, heq⟩ := foldl_addLost_eq (m.overdue now)
    { m with inFlight := m.inFlight.filter fun _ packet => !m.isOverdue now packet }
  rw [giveUp_eq, heq]
  show (m.inFlight.filter _)[uid]? = _
  rw [Std.TreeMap.getElem?_filter']
  congr 1
  funext packet
  simp [isOverdue]

theorem inFlight_call (h : ∀ uid, m.inFlight[uid]? = known uid) (c : Call) (uid : Nat) :
    (m.call c).2.inFlight[uid]? = known.call m.maxDelay c uid := by
  cases c with
  | countSent key bytes now => exact h uid
  | countReceived key bytes sentAt now =>
    simp only [call, countReceived]
    split <;> exact h uid
  | send key sent bytes now =>
    show (m.inFlight.insert sent _)[uid]? = Function.update known sent _ uid
    rw [inFlight_insert, Function.update_apply, h]
    simp only [eq_comm (a := uid)]
  | receive key arrived bytes now =>
    obtain ⟨hself, hother⟩ := m.inFlight_receive key arrived bytes now
    show (m.receive key arrived bytes now).2.inFlight[uid]? = Function.update known arrived none uid
    by_cases heq : uid = arrived
    · rw [heq, hself, Function.update_self]
    · rw [hother uid heq, Function.update_of_ne heq, h]
  | giveUp now =>
    show (m.giveUp now).2.inFlight[uid]? = _
    rw [inFlight_giveUp, h]
    rfl

theorem settings_after (m : Monitor) (calls : List Call) :
    (after call m calls).fresh = m.fresh ∧ (after call m calls).maxDelay = m.maxDelay := by
  induction calls using List.reverseRecOn with
  | nil => exact ⟨rfl, rfl⟩
  | append_singleton calls c ih =>
    obtain ⟨hfresh, hmax⟩ := call_settings (after call m calls) c
    rw [after_concat]
    exact ⟨hfresh.trans ih.1, hmax.trans ih.2⟩

theorem inFlight_after (h : ∀ uid : Nat, m.inFlight[uid]? = none) (calls : List Call) (uid : Nat) :
    (after call m calls).inFlight[uid]? = Known.after m.maxDelay calls uid := by
  induction calls using List.reverseRecOn generalizing uid with
  | nil => exact h uid
  | append_singleton calls c ih =>
    rw [VideoLink.after_concat, Known.after_concat, inFlight_call ih, (m.settings_after calls).2]

theorem inFlight_of_new? {s : MonitorSettings} (h : new? s = .ok m) (calls : List Call) (uid : Nat) :
    (after call m calls).inFlight[uid]? = Known.after s.maxDelay calls uid := by
  obtain ⟨delays, jitters, _, _, rfl⟩ := of_new? h
  exact inFlight_after (fun _ => Std.TreeMap.getElem?_emptyc) calls uid

/-! What a call changes in the records. -/

theorem record_of_sent {c : Call} {p : Passage} (hp : c.sent? = some p) (k : FlowKey) :
    (m.call c).2.record k =
      if k = p.flow then (m.record k).addSent p.bytes p.time else m.record k := by
  cases c with
  | countSent key bytes now =>
    cases hp
    exact m.record_update key _ k
  | send key uid bytes now =>
    cases hp
    exact m.record_update key _ k
  | countReceived => cases hp
  | receive => cases hp
  | giveUp => cases hp

theorem record_of_arrival (h : ∀ uid, m.inFlight[uid]? = known uid) {c : Call} {a : Arrival}
    (ha : c.arrival? known = some a) : (m.call c).1 = .received (some a.delay) ∧
      ∀ k, (m.call c).2.record k =
        if k = a.flow then (m.record k).addReceived a.bytes a.time a.delay else m.record k := by
  cases c with
  | countReceived key bytes sentAt now =>
    simp only [Call.arrival?] at ha
    split at ha
    · rename_i hle
      cases ha
      have hsince : now.since? sentAt = some (now.elapsed sentAt) := if_pos hle
      simp only [call, countReceived, hsince]
      exact ⟨trivial, m.record_update key _⟩
    · cases ha
  | receive key uid bytes now =>
    simp only [Call.arrival?, ← h uid] at ha
    split at ha
    · rename_i packet hpacket
      split at ha
      · rename_i hmatch
        obtain ⟨rfl, hle⟩ := hmatch
        cases ha
        simp only [call, receive_of_known hpacket hle bytes]
        exact ⟨trivial, record_update { m with inFlight := m.inFlight.erase uid } _ _⟩
      · cases ha
    · cases ha
  | countSent => cases ha
  | send => cases ha
  | giveUp => cases ha

theorem record_of_no_arrival (h : ∀ uid, m.inFlight[uid]? = known uid) {c : Call}
    (hnone : c.arrival? known = none) : (m.call c).1.delay? = none ∧
      ∀ k, (m.record k).SameArrivals ((m.call c).2.record k) := by
  have hsent : ∀ {p : Passage}, c.sent? = some p →
      ∀ k, (m.record k).SameArrivals ((m.call c).2.record k) := by
    intro p hp k
    rw [record_of_sent hp]
    split <;> constructor <;> rfl
  have hunattributed : ∀ (m : Monitor) (key k : FlowKey),
      (m.record k).SameArrivals ((m.countUnattributed key).record k) := by
    intro m key k
    rw [record_countUnattributed]
    split <;> constructor <;> rfl
  cases c with
  | countSent key bytes now => exact ⟨rfl, hsent rfl⟩
  | countReceived key bytes sentAt now =>
    have hsince : now.since? sentAt = none := by
      simp only [Call.arrival?] at hnone
      split at hnone
      · cases hnone
      · exact if_neg ‹_›
    simp only [call, countReceived, hsince]
    exact ⟨rfl, hunattributed m key⟩
  | send key uid bytes now => exact ⟨rfl, hsent rfl⟩
  | receive key uid bytes now =>
    simp only [Call.arrival?, ← h uid] at hnone
    simp only [call]
    rcases m.receive_cases key uid bytes now with ⟨_, heq⟩ |
      ⟨packet, hpacket, ⟨hflow, hle, _⟩ | ⟨_, _, heq⟩ | ⟨_, heq⟩⟩
    · rw [heq]
      exact ⟨rfl, hunattributed m key⟩
    · simp [hpacket, hflow, hle] at hnone
    · rw [heq]
      exact ⟨rfl, hunattributed { m with inFlight := m.inFlight.erase uid } key⟩
    · rw [heq]
      refine ⟨rfl, fun k => ?_⟩
      have hsame : { m with inFlight := m.inFlight.erase uid }.record k = m.record k := rfl
      rw [record_countUnattributed, record_update, hsame]
      split <;> split <;> constructor <;> rfl
  | giveUp now =>
    refine ⟨rfl, fun k => ?_⟩
    simp only [call]
    rw [record_giveUp]
    constructor <;> rfl

theorem arrival?_of_sent {c : Call} {p : Passage} (hp : c.sent? = some p) : c.arrival? known = none := by
  cases c with
  | countSent => rfl
  | send => rfl
  | countReceived => cases hp
  | receive => cases hp
  | giveUp => cases hp

theorem sent_of_not_sent {c : Call} (hnone : c.sent? = none) (k : FlowKey) :
    ((m.call c).2.record k).sent = (m.record k).sent := by
  cases c with
  | countSent => cases hnone
  | send => cases hnone
  | countReceived key bytes sentAt now =>
    simp only [call, countReceived]
    split
    · rw [record_update]
      split <;> rfl
    · rw [record_countUnattributed]
      split <;> rfl
  | receive key uid bytes now => exact m.sent_receive key uid bytes now k
  | giveUp now =>
    simp only [call]
    rw [record_giveUp]

end Monitor

end VideoLink
