import Mathlib
import VideoLink.Proofs.Measure.Digest

/-! The mean delay and the mean jitter of a flow are the means of what was measured, rounded down, as long
as the count of the values fits in 32 bits. Of more values no mean is told. -/
namespace VideoLink

theorem weight_eq_sum {α : Type} (weigh : α → Nat) (l : List α) : weight weigh l = (l.map weigh).sum := by
  induction l with
  | nil => rfl
  | cons a l ih => rw [weight_cons, ih, List.map_cons, List.sum_cons]

/-- A mean that is told exactly if there are values and their count fits in 32 bits. It is their sum shared by
all, rounded down, and so between two of them. -/
structure IsMeanOf (mean? : Option Span) (values : List Span) : Prop where
  isSome_iff : mean?.isSome ↔ 0 < values.length ∧ values.length < 2 ^ 32
  nanos_eq : ∀ mean ∈ mean?, mean.nanos = weight Span.nanos values / values.length
  between : ∀ mean ∈ mean?, ∃ low ∈ values, ∃ high ∈ values, low ≤ mean ∧ mean ≤ high

theorem exists_le_mean_le {values : List Span} (h : values ≠ []) :
    ∃ low ∈ values, ∃ high ∈ values,
      low.nanos ≤ weight Span.nanos values / values.length ∧
      weight Span.nanos values / values.length ≤ high.nanos := by
  have hlength : 0 < values.length := List.length_pos_iff.2 h
  rw [weight_eq_sum]
  generalize hsum : (values.map Span.nanos).sum = sum
  obtain ⟨low, hlow, hle⟩ : ∃ low ∈ values, low.nanos < sum / values.length + 1 := by
    apply List.exists_lt_of_sum_lt
    rw [hsum, List.map_const', List.sum_replicate, smul_eq_mul]
    exact Nat.lt_mul_div_succ sum hlength
  obtain ⟨high, hhigh, hge⟩ : ∃ high ∈ values, sum / values.length ≤ high.nanos := by
    apply List.exists_le_of_sum_le h
    rw [hsum, List.map_const', List.sum_replicate, smul_eq_mul]
    exact Nat.mul_div_le sum values.length
  exact ⟨low, hlow, high, hhigh, Nat.le_of_lt_succ hle, hge⟩

theorem Samples.Digests.isMeanOf {x : Samples} {width : Span} {bins : Nat} {values : List Span}
    (h : x.Digests width bins values) : IsMeanOf (x.mean? values.length) values := by
  rw [Samples.mean?]
  by_cases hfits : 0 < values.length ∧ values.length < UInt32.size
  · have hmean : (x.sum.divided values.length).nanos = weight Span.nanos values / values.length := by
      rw [Span.divided, h.sum]
    rw [if_pos hfits]
    refine ⟨iff_of_true rfl hfits, ?_, ?_⟩
    · rintro mean ⟨⟩
      exact hmean
    · rintro mean ⟨⟩
      obtain ⟨low, hlow, high, hhigh, hle, hge⟩ := exists_le_mean_le (List.length_pos_iff.1 hfits.1)
      rw [← hmean] at hle hge
      exact ⟨low, hlow, high, hhigh, hle, hge⟩
  · rw [if_neg hfits]
    exact ⟨iff_of_false nofun hfits, nofun, nofun⟩

namespace FlowRecord.Digests

variable {r : FlowRecord} {s : MonitorSettings} {sent : List Passage} {arrived : List Arrival}

theorem meanDelay? (h : r.Digests s sent arrived) : IsMeanOf r.meanDelay? (arrived.map (·.delay)) := by
  have hcount : r.received.packets = (arrived.map (·.delay)).length := by
    rw [h.received.packets, List.length_map, List.length_map]
  rw [FlowRecord.meanDelay?, hcount]
  exact h.delays.isMeanOf

theorem meanJitter? (h : r.Digests s sent arrived) :
    IsMeanOf r.meanJitter? (gaps (arrived.map (·.delay))) := by
  have hcount : r.received.packets - 1 = (gaps (arrived.map (·.delay))).length := by
    rw [h.received.packets, length_gaps, List.length_map, List.length_map]
  rw [FlowRecord.meanJitter?, hcount]
  exact h.jitters.isMeanOf

end FlowRecord.Digests

namespace Monitor

variable {s : MonitorSettings} {m : Monitor}

/-- After any calls on a new monitor, the mean delay of a flow is the mean of the delays of its arrivals, and the
mean jitter that of the differences between successive delays, of which there is one less. A mean is told
exactly if there is something to take it of and the count of that fits in 32 bits. -/
theorem means_of_arrivals (h : new? s = .ok m) (calls : List Call) (key : FlowKey) :
    IsMeanOf ((after call m calls).record key).meanDelay?
      ((arrivals s.maxDelay key calls).map (·.delay)) ∧
    IsMeanOf ((after call m calls).record key).meanJitter?
      (gaps ((arrivals s.maxDelay key calls).map (·.delay))) ∧
    (gaps ((arrivals s.maxDelay key calls).map (·.delay))).length =
      (arrivals s.maxDelay key calls).length - 1 := by
  have hdigests := digests_after h calls key
  exact ⟨hdigests.meanDelay?, hdigests.meanJitter?, by rw [length_gaps, List.length_map]⟩

def uneven (key : FlowKey) : List Call :=
  [.countReceived key 100 .zero (.ofNanos 5), .countReceived key 100 .zero (.ofNanos 9),
    .countReceived key 100 .zero (.ofNanos 6)]

theorem means_of_three_arrivals : ∃ m key, new? .standard = .ok m ∧
    ((after call m (uneven key)).record key).meanDelay? = some ⟨6⟩ ∧
    ((after call m (uneven key)).record key).meanJitter? = some ⟨3⟩ := by
  obtain ⟨m, hm⟩ : ∃ m, new? .standard = .ok m := ⟨_, rfl⟩
  obtain ⟨key, hkey⟩ : ∃ key : FlowKey, key = ⟨⟨10, 0, 0, 1⟩, ⟨10, 0, 0, 2⟩, 5000, 5001, .udp⟩ := ⟨_, rfl⟩
  have hdelays : (arrivals MonitorSettings.standard.maxDelay key (uneven key)).map (·.delay) =
      [⟨5⟩, ⟨9⟩, ⟨6⟩] := by
    rw [hkey]
    decide +kernel
  obtain ⟨hdelay, hjitter, -⟩ := means_of_arrivals hm (uneven key) key
  rw [hdelays] at hdelay hjitter
  obtain ⟨delay, hdelay'⟩ := Option.isSome_iff_exists.1 (hdelay.isSome_iff.2 (by decide))
  obtain ⟨jitter, hjitter'⟩ := Option.isSome_iff_exists.1 (hjitter.isSome_iff.2 (by decide))
  have hdelayNanos : delay.nanos = 6 := hdelay.nanos_eq delay hdelay'
  have hjitterNanos : jitter.nanos = 3 := hjitter.nanos_eq jitter hjitter'
  exact ⟨m, key, hm, by rw [hdelay', ← hdelayNanos], by rw [hjitter', ← hjitterNanos]⟩

def countFive (key : FlowKey) : Call := .countReceived key 100 .zero (.ofNanos 5)

def arrivalAfterFive (key : FlowKey) : Arrival := ⟨⟨key, 100, .ofNanos 5⟩, ⟨5⟩⟩

theorem arrivals_replicate (maxDelay : Span) (key : FlowKey) (n : Nat) :
    arrivals maxDelay key (.replicate n (countFive key)) = .replicate n (arrivalAfterFive key) := by
  induction n with
  | zero => rfl
  | succ n ih =>
    have harrival (known : Known) : (countFive key).arrival? known = some (arrivalAfterFive key) := by
      rw [countFive, Call.arrival?, if_pos (by decide)]
      rfl
    rw [List.replicate_succ', arrivals_concat, ih, harrival, List.replicate_succ']
    simp [arrivalAfterFive]

/-- With one arrival more than 32 bits count, no mean is told, although every delay is five nanoseconds and their
sum is far from the longest span. -/
theorem no_mean_of_many_arrivals : ∃ m key calls, new? .standard = .ok m ∧
    (arrivals MonitorSettings.standard.maxDelay key calls).length = 2 ^ 32 + 1 ∧
    (∀ a ∈ arrivals MonitorSettings.standard.maxDelay key calls, a.delay = ⟨5⟩) ∧
    ((after call m calls).record key).delays.sum ≤ .longest ∧
    ((after call m calls).record key).meanDelay? = none ∧
    ((after call m calls).record key).meanJitter? = none := by
  obtain ⟨m, hm⟩ : ∃ m, new? .standard = .ok m := ⟨_, rfl⟩
  obtain ⟨key, -⟩ : ∃ key : FlowKey, key = ⟨⟨10, 0, 0, 1⟩, ⟨10, 0, 0, 2⟩, 5000, 5001, .udp⟩ := ⟨_, rfl⟩
  obtain ⟨n, hn⟩ : ∃ n, n = 2 ^ 32 + 1 := ⟨_, rfl⟩
  refine ⟨m, key, .replicate n (countFive key), hm, ?_⟩
  have hdigests := digests_after hm (.replicate n (countFive key)) key
  rw [arrivals_replicate] at hdigests ⊢
  have hpackets := hdigests.received.packets
  rw [List.length_map, List.length_replicate] at hpackets
  refine ⟨by rw [List.length_replicate, hn], ?_, ?_, ?_, ?_⟩
  · intro a ha
    rw [List.eq_of_mem_replicate ha]
    rfl
  · have hsum := hdigests.delays.sum
    rw [weight_eq_sum, List.map_replicate, List.map_replicate, List.sum_replicate, smul_eq_mul] at hsum
    rw [Span.le_iff, hsum, hn]
    show (2 ^ 32 + 1) * 5 ≤ Span.longest.nanos
    decide
  · rw [FlowRecord.meanDelay?, hpackets, hn]
    exact if_neg (by decide)
  · rw [FlowRecord.meanJitter?, hpackets, hn]
    exact if_neg (by decide)

end Monitor

end VideoLink
