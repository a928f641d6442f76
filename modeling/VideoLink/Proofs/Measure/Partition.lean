import VideoLink.Proofs.Measure.Digest

/-! The bins of a histogram divide the time line. A value is binned by a division of nanoseconds, and the
edges are multiples of the width that stop at the longest span; both say the same of every shorter value. -/
namespace VideoLink

def Bin.Contains (b : Bin) (value : Span) : Prop := b.start ≤ value ∧ ∀ stop ∈ b.stop?, value < stop

namespace Histogram

variable (h : Histogram)

/-- An edge is a multiple of the width, or the longest span where that is shorter. -/
theorem nanos_edge {index : Nat} (hi : index < UInt32.size) :
    (h.edge index).nanos = min (h.width.nanos * index) Span.longest.nanos := by
  rw [edge, if_pos hi, Span.times?]
  split
  · simp; omega
  · simp; omega

theorem edge_le_longest (index : Nat) : h.edge index ≤ Span.longest := by
  by_cases hi : index < UInt32.size
  · rw [Span.le_iff, nanos_edge h hi]
    exact Nat.min_le_right ..
  · rw [edge, if_neg hi]
    exact Nat.le_refl _

theorem edge_le_edge {i j : Nat} (hij : i ≤ j) : h.edge i ≤ h.edge j := by
  by_cases hj : j < UInt32.size
  · have hmul : h.width.nanos * i ≤ h.width.nanos * j := Nat.mul_le_mul_left _ hij
    rw [Span.le_iff, nanos_edge h hj, nanos_edge h (by omega)]
    omega
  · have hlast : h.edge j = Span.longest := if_neg hj
    rw [hlast]
    exact h.edge_le_longest i

theorem binStart_zero : h.binStart 0 = .zero := by
  simp [binStart, edge, Span.times?, Span.zero]

theorem edge_le_iff {index : Nat} (hi : index < UInt32.size) {value : Span} (hv : value < Span.longest) :
    h.edge index ≤ value ↔ index ≤ value.nanos / h.width.nanos := by
  rw [Span.lt_iff] at hv
  rw [Span.le_iff, nanos_edge h hi, Nat.le_div_iff_mul_le h.width_pos, Nat.mul_comm index]
  omega

theorem lt_edge_iff {index : Nat} (hi : index < UInt32.size) {value : Span} (hv : value < Span.longest) :
    value < h.edge index ↔ value.nanos / h.width.nanos < index := by
  have hle := h.edge_le_iff hi hv
  rw [Span.le_iff] at hle
  rw [Span.lt_iff]
  omega

theorem contains_bin_iff (hcount : h.binCount ≤ UInt32.size) {value : Span} (hv : value < Span.longest)
    {i : Nat} (hi : i < h.binCount) : (h.bin i).Contains value ↔ i = h.indexOf value := by
  have hstart := h.edge_le_iff (by omega : i < UInt32.size) hv
  simp only [bin, Bin.Contains, binStart, binEnd?, indexOf, hstart]
  by_cases hlast : i + 1 < h.binCount
  · have hstop := h.lt_edge_iff (by omega : i + 1 < UInt32.size) hv
    simp only [hlast, if_true, Option.mem_def, Option.some.injEq, forall_eq', hstop]
    omega
  · simp only [hlast, if_false, Option.mem_def, reduceCtorEq, IsEmpty.forall_iff, implies_true, and_true]
    omega

theorem exists_new? {width : Span} (hwidth : 0 < width.nanos) {bins : Nat} (hbins : 0 < bins)
    (hmost : bins ≤ mostBins) : ∃ fresh, new? width bins = .ok fresh := by
  rw [new?, dif_pos hwidth, dif_pos hbins, if_pos hmost]
  exact ⟨_, rfl⟩

theorem exists_digest {width : Span} {bins : Nat} {fresh : Histogram}
    (hnew : new? width bins = .ok fresh) (values : List Span) :
    ∃ x : Samples, x.Digests width bins values ∧ values.foldl add fresh = x.histogram := by
  induction values using List.reverseRecOn with
  | nil => exact ⟨.empty fresh, .empty hnew, rfl⟩
  | append_singleton values value ih =>
    obtain ⟨x, hx, heq⟩ := ih
    refine ⟨x.add value, hx.add value, ?_⟩
    simp [heq, Samples.add]

/-- The bins of a histogram divide the time line, whatever their width and up to 2^32 of them. A value below the
longest span is between the edges of the bin of its index and of no other, also where edges are cut off at the
longest span. The first bin starts at zero, each bin ends where the next one starts, and only the last has no end.
Each bin counts the values of its index, and together they count all. -/
theorem bins_partition_the_time_line {width : Span} (hwidth : 0 < width.nanos) {bins : Nat} (hbins : 0 < bins)
    (hlimit : bins ≤ UInt32.size) (values : List Span) :
    ∃ fresh, new? width bins = .ok fresh ∧
      let h := values.foldl add fresh
      h.binCount = bins ∧
      (∀ value, h.indexOf value < bins) ∧
      (∀ value < Span.longest, ∀ i < bins, (h.bin i).Contains value ↔ i = h.indexOf value) ∧
      h.binStart 0 = .zero ∧
      (∀ i, h.binEnd? i = if i + 1 < bins then some (h.binStart (i + 1)) else none) ∧
      (∀ i j, i ≤ j → h.binStart i ≤ h.binStart j) ∧
      (∀ i, h.count i = values.countP (h.indexOf · = i)) ∧
      h.total = values.length := by
  obtain ⟨fresh, hnew⟩ := exists_new? hwidth hbins (Nat.le_trans hlimit (by decide))
  obtain ⟨x, hx, heq⟩ := exists_digest hnew values
  have hcount := hx.binCount
  refine ⟨fresh, hnew, ?_⟩
  simp only [heq]
  refine ⟨hcount, fun value => ?_, fun value hv i hi => ?_, binStart_zero _, fun i => ?_, ?_, hx.count, hx.total⟩
  · rw [← hcount]
    exact x.histogram.indexOf_lt value
  · apply contains_bin_iff
    · omega
    · exact hv
    · omega
  · rw [binEnd?, hcount]
    rfl
  · intro i j hij
    exact x.histogram.edge_le_edge hij

/-- Four bins of 2^63 seconds: the third would start just past the longest span, and is left without a value. -/
theorem bins_of_half_the_longest_span :
    ∃ fresh, new? (.ofSeconds 0x8000_0000_0000_0000) 4 = .ok fresh ∧
      (fresh.add ⟨Span.longest.nanos - 1⟩).binStart 2 = Span.longest ∧
      ((fresh.add ⟨Span.longest.nanos - 1⟩).bin 1).Contains ⟨Span.longest.nanos - 1⟩ ∧
      (fresh.add ⟨Span.longest.nanos - 1⟩).count 1 = 1 ∧
      (fresh.add ⟨Span.longest.nanos - 1⟩).total = 1 := by
  obtain ⟨fresh, hnew, _, _, hcontains, _, _, _, hcount, htotal⟩ :=
    @bins_partition_the_time_line (.ofSeconds 0x8000_0000_0000_0000) (by decide) 4 (by decide) (by decide)
      [⟨Span.longest.nanos - 1⟩]
  have hfresh : new? (.ofSeconds 0x8000_0000_0000_0000) 4 =
    .ok ⟨.ofSeconds 0x8000_0000_0000_0000, .replicate 4 0, by decide, by decide⟩ := rfl
  obtain rfl := Except.ok.inj (hnew.symm.trans hfresh)
  refine ⟨_, hnew, by decide +kernel, (hcontains _ (by decide) 1 (by decide)).2 (by decide +kernel), ?_, htotal⟩
  exact (hcount 1).trans (by decide +kernel)

end Histogram

end VideoLink
