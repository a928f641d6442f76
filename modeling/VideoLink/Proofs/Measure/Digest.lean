import VideoLink.Proofs.Measure.DelayBins
import VideoLink.Proofs.Measure.History

/-! A record as the digest of its flow: the counts, sums, bins and times of its packets, as if they were all
at hand. The jitters are the differences between the delays of successive arrivals. -/
namespace VideoLink

namespace Histogram

theorem binCount_add (h : Histogram) (value : Span) : (h.add value).binCount = h.binCount :=
  Array.size_modify

theorem count_add (h : Histogram) (value : Span) (i : Nat) :
    (h.add value).count i = h.count i + if h.indexOf value = i then 1 else 0 := by
  show ((h.counts.modify (h.indexOf value) (· + 1))[i]?).getD 0 = _
  rw [Array.getElem?_modify]
  by_cases heq : h.indexOf value = i
  · have hbound : i < h.counts.size := heq ▸ h.indexOf_lt value
    rw [if_pos heq, if_pos heq, count, Array.getElem?_eq_getElem hbound]
    rfl
  · rw [if_neg heq, if_neg heq]
    rfl

theorem total_eq (h : Histogram) : h.total = weight id h.counts.toList := by
  rw [total, ← Array.foldl_toList, foldl_add, Nat.zero_add]

theorem total_add (h : Histogram) (value : Span) : (h.add value).total = h.total + 1 := by
  have hbound : h.indexOf value < h.counts.toList.length := h.indexOf_lt value
  rw [total_eq, total_eq, ← weight_modify hbound, ← Array.toList_modify]
  rfl

theorem layout_of_new? {width : Span} {bins : Nat} {h : Histogram} (hnew : new? width bins = .ok h) :
    h.width = width ∧ h.binCount = bins ∧ h.total = 0 := by
  obtain ⟨hwidth, hcounts, _⟩ := of_new? hnew
  refine ⟨hwidth, ?_, ?_⟩
  · rw [binCount, hcounts, Array.size_replicate]
  · rw [total_eq, hcounts, Array.toList_replicate]
    exact weight_eq_zero id fun _ hzero => List.eq_of_mem_replicate hzero

end Histogram

namespace Traffic

/-- Traffic that is made of some packets. -/
structure Digests (t : Traffic) (l : List Passage) : Prop where
  packets : t.packets = l.length
  bytes : t.bytes = weight (·.bytes) l
  first? : t.first? = l.head?.map (·.time)
  last? : t.last? = l.getLast?.map (·.time)

theorem Digests.add {t : Traffic} {l : List Passage} (h : t.Digests l) (p : Passage) :
    (t.add p.bytes p.time).Digests (l ++ [p]) := by
  constructor
  · simp [Traffic.add, h.packets]
  · simp [Traffic.add, h.bytes]
  · cases l <;> simp [Traffic.add, h.first?]
  · simp [Traffic.add]

end Traffic

def gaps (l : List Span) : List Span :=
  l.zipWith (fun a b => ⟨(b.nanos - a.nanos : Int).natAbs⟩) l.tail

theorem gaps_concat (l : List Span) (d : Span) :
    gaps (l ++ [d]) = gaps l ++ (l.getLast?.map d.distance).toList := by
  induction l with
  | nil => rfl
  | cons a l ih =>
    cases l with
    | nil =>
      have hdistance : (d.nanos - a.nanos : Int).natAbs = (d.nanos - a.nanos) + (a.nanos - d.nanos) := by
        omega
      simp [gaps, Span.distance, hdistance]
    | cons b l =>
      have hcons : ∀ l, gaps (a :: b :: l) = ⟨(b.nanos - a.nanos : Int).natAbs⟩ :: gaps (b :: l) :=
        fun _ => rfl
      rw [List.cons_append, List.cons_append, hcons, hcons, ← List.cons_append, ih,
        List.getLast?_cons_cons]
      rfl

theorem length_gaps (l : List Span) : (gaps l).length = l.length - 1 := by
  simp [gaps]

namespace Samples

/-- Samples that are made of some values, in bins of a layout. -/
structure Digests (x : Samples) (width : Span) (bins : Nat) (values : List Span) : Prop where
  sum : x.sum.nanos = weight Span.nanos values
  width : x.histogram.width = width
  binCount : x.histogram.binCount = bins
  count : ∀ i, x.histogram.count i = values.countP (x.histogram.indexOf · = i)
  total : x.histogram.total = values.length

namespace Digests

variable {x : Samples} {width : Span} {bins : Nat} {values : List Span}

theorem empty {h : Histogram} (hnew : Histogram.new? width bins = .ok h) :
    (Samples.empty h).Digests width bins [] := by
  obtain ⟨hwidth, hbins, htotal⟩ := Histogram.layout_of_new? hnew
  exact ⟨rfl, hwidth, hbins, Histogram.count_of_new? hnew, htotal⟩

theorem add (h : x.Digests width bins values) (value : Span) :
    (x.add value).Digests width bins (values ++ [value]) := by
  constructor
  · simp [Samples.add, h.sum]
  · exact h.width
  · exact (x.histogram.binCount_add value).trans h.binCount
  · intro i
    simp [Samples.add, Histogram.indexOf_add, Histogram.count_add, h.count, List.countP_cons]
  · simp [Samples.add, Histogram.total_add, h.total]

end Digests

end Samples

namespace FlowRecord

/-- A record that is made of the packets counted at the two ends of a flow. -/
structure Digests (r : FlowRecord) (s : MonitorSettings) (sent : List Passage) (arrived : List Arrival) :
    Prop where
  sent : r.sent.Digests sent
  received : r.received.Digests (arrived.map (·.toPassage))
  delays : r.delays.Digests s.delayBinWidth s.bins (arrived.map (·.delay))
  jitters : r.jitters.Digests s.jitterBinWidth s.bins (gaps (arrived.map (·.delay)))
  lastDelay? : r.lastDelay? = (arrived.map (·.delay)).getLast?

namespace Digests

variable {r : FlowRecord} {s : MonitorSettings} {sent : List Passage} {arrived : List Arrival}

theorem empty {delays jitters : Histogram} (hdelays : Histogram.new? s.delayBinWidth s.bins = .ok delays)
    (hjitters : Histogram.new? s.jitterBinWidth s.bins = .ok jitters) :
    (FlowRecord.empty delays jitters).Digests s [] [] :=
  ⟨⟨rfl, rfl, rfl, rfl⟩, ⟨rfl, rfl, rfl, rfl⟩, .empty hdelays, .empty hjitters, rfl⟩

theorem addSent (h : r.Digests s sent arrived) (p : Passage) :
    (r.addSent p.bytes p.time).Digests s (sent ++ [p]) arrived :=
  ⟨h.sent.add p, h.received, h.delays, h.jitters, h.lastDelay?⟩

/-- The jitter of an arrival is taken from the last delay, which the record has if anything arrived. -/
theorem addReceived (h : r.Digests s sent arrived) (a : Arrival) :
    (r.addReceived a.bytes a.time a.delay).Digests s sent (arrived ++ [a]) := by
  have hjitters : (r.addReceived a.bytes a.time a.delay).jitters.Digests s.jitterBinWidth s.bins
      (gaps (arrived.map (·.delay) ++ [a.delay])) := by
    rw [gaps_concat, ← h.lastDelay?]
    unfold FlowRecord.addReceived
    cases hlast : r.lastDelay? with
    | none => simpa using h.jitters
    | some last =>
      have hpositive : 0 < r.received.packets := by
        have hnonempty := h.lastDelay?
        rw [hlast] at hnonempty
        rw [h.received.packets]
        cases arrived with
        | nil => cases hnonempty
        | cons => simp
      simpa [hpositive] using h.jitters.add (a.delay.distance last)
  constructor
  · exact h.sent
  · rw [List.map_append]
    exact h.received.add a.toPassage
  · rw [List.map_append]
    exact h.delays.add a.delay
  · rw [List.map_append]
    exact hjitters
  · simp [FlowRecord.addReceived]

theorem of_same {r' : FlowRecord} (h : r.Digests s sent arrived) (hsent : r'.sent = r.sent)
    (hsame : r.SameArrivals r') : r'.Digests s sent arrived := by
  constructor
  · rw [hsent]
    exact h.sent
  · rw [hsame.received]
    exact h.received
  · rw [hsame.delays]
    exact h.delays
  · rw [hsame.jitters]
    exact h.jitters
  · rw [hsame.lastDelay?]
    exact h.lastDelay?

end Digests

end FlowRecord

namespace Monitor

variable {s : MonitorSettings} {m : Monitor}

theorem digests_after (h : new? s = .ok m) (calls : List Call) (key : FlowKey) :
    ((after call m calls).record key).Digests s (sends key calls) (arrivals s.maxDelay key calls) := by
  induction calls using List.reverseRecOn with
  | nil =>
    obtain ⟨delays, jitters, hdelays, hjitters, rfl⟩ := of_new? h
    exact .empty hdelays hjitters
  | append_singleton calls c ih =>
    have hknown := inFlight_of_new? h calls
    rw [after_concat, sends_concat, arrivals_concat]
    cases hsent : c.sent? with
    | some p =>
      rw [arrival?_of_sent hsent, record_of_sent hsent]
      by_cases hkey : p.flow = key
      · simpa [hkey] using ih.addSent p
      · simpa [hkey, Ne.symm hkey] using ih
    | none =>
      cases harrival : c.arrival? (Known.after s.maxDelay calls) with
      | some a =>
        rw [(record_of_arrival hknown harrival).2]
        by_cases hkey : a.flow = key
        · simpa [hkey] using ih.addReceived a
        · simpa [hkey, Ne.symm hkey] using ih
      | none =>
        have hsame := (record_of_no_arrival hknown harrival).2 key
        simpa using ih.of_same (sent_of_not_sent hsent key) hsame

/-- After any calls on a new monitor, the record of every flow is the digest of the packets that the calls
counted in it, and has one jitter less than delays. An arrival is told its delay exactly if it counts; no
other call of the flow, and no call of another one, changes what was measured at the receiver. -/
theorem record_digests_its_flow (h : new? s = .ok m) (calls : List Call) (key : FlowKey) :
    ((after call m calls).record key).Digests s (sends key calls) (arrivals s.maxDelay key calls) ∧
    ((after call m calls).record key).jitters.histogram.total =
      (arrivals s.maxDelay key calls).length - 1 ∧
    ∀ c : Call,
      ((after call m calls).call c).1.delay? =
        (c.arrival? (Known.after s.maxDelay calls)).map (·.delay) ∧
      ((∀ a, c.arrival? (Known.after s.maxDelay calls) = some a → a.flow ≠ key) →
        ((after call m calls).record key).SameArrivals
          (((after call m calls).call c).2.record key)) := by
  have hdigests := digests_after h calls key
  have hknown := inFlight_of_new? h calls
  refine ⟨hdigests, ?_, fun c => ?_⟩
  · rw [hdigests.jitters.total, length_gaps, List.length_map]
  cases harrival : c.arrival? (Known.after s.maxDelay calls) with
  | some a =>
    obtain ⟨hanswer, hrecord⟩ := record_of_arrival hknown harrival
    refine ⟨by rw [hanswer]; rfl, fun hother => ?_⟩
    rw [hrecord, if_neg (Ne.symm (hother a rfl))]
    exact ⟨rfl, rfl, rfl, rfl⟩
  | none =>
    obtain ⟨hanswer, hsame⟩ := record_of_no_arrival hknown harrival
    exact ⟨hanswer, fun _ => hsame key⟩

/-- Two packets arrive in the other order, one of them before it was sent by its own clock, and one comes in
a flow in which it was not sent. -/
def reordered (key : FlowKey) : List Call :=
  [.send key 1 100 (.ofNanos 10), .send key 2 200 (.ofNanos 20), .send key 3 300 (.ofNanos 30),
    .send key 4 400 (.ofNanos 40), .receive key 2 200 (.ofNanos 50),
    .receive key.reversed 4 400 (.ofNanos 55), .receive key 3 300 (.ofNanos 25),
    .receive key 1 100 (.ofNanos 2_000_060), .countReceived key 500 (.ofNanos 60) (.ofNanos 90),
    .giveUp (.ofNanos 99)]

theorem record_digests_reordered_packets : ∃ m key, new? .standard = .ok m ∧
    ((after call m (reordered key)).record key).delays.sum.nanos = 2_000_110 ∧
    ((after call m (reordered key)).record key).jitters.sum.nanos = 4_000_040 ∧
    ((after call m (reordered key)).record key).delays.histogram.count 0 = 2 ∧
    ((after call m (reordered key)).record key).jitters.histogram.count 2 = 2 ∧
    ((after call m (reordered key)).record key).jitters.histogram.total = 2 := by
  obtain ⟨m, hm⟩ : ∃ m, new? .standard = .ok m := ⟨_, rfl⟩
  obtain ⟨key, hkey⟩ : ∃ key : FlowKey, key = ⟨⟨10, 0, 0, 1⟩, ⟨10, 0, 0, 2⟩, 5000, 5001, .udp⟩ := ⟨_, rfl⟩
  have hdelays : (arrivals MonitorSettings.standard.maxDelay key (reordered key)).map (·.delay) =
      [⟨30⟩, ⟨2_000_050⟩, ⟨30⟩] := by
    rw [hkey]
    decide +kernel
  obtain ⟨⟨_, _, hd, hj, _⟩, _⟩ := record_digests_its_flow hm (reordered key) key
  rw [hdelays] at hd hj
  refine ⟨m, key, hm, hd.sum, hj.sum, ?_, ?_, hj.total⟩
  · rw [hd.count]
    simp only [Histogram.indexOf, hd.width, hd.binCount]
    decide
  · rw [hj.count]
    simp only [Histogram.indexOf, hj.width, hj.binCount]
    decide

end Monitor

end VideoLink
