import VideoLink.Proofs.Report.Edges

/-! The table of a histogram, read back. Its rows give the bins up to the last one that is not empty, and
all other bins are empty, so the table of a known layout determines the histogram. -/
namespace VideoLink

open Numeric

theorem toList_leftAligned (width : Nat) (text : String) :
    (leftAligned width text).toList = text.toList ++ List.replicate (width - text.length) ' ' :=
  toList_pushn text ' ' _

theorem splitOn_unlines {lines : List String} (h : ∀ line ∈ lines, '\n' ∉ line.toList) :
    (unlines lines).toList.splitOn '\n' = lines.map String.toList ++ [[]] := by
  induction lines with
  | nil => rfl
  | cons line lines ih =>
    have hcons : (unlines (line :: lines)).toList = line.toList ++ '\n' :: (unlines lines).toList := by
      simp [unlines, String.join_cons]
    rw [hcons, List.splitOn_append_cons_self_of_not_mem (h line (List.mem_cons_self ..)),
      ih fun l hl => h l (List.mem_cons_of_mem _ hl)]
    rfl

theorem length_rdropWhile_le_iff (l : List Nat) (n : Nat) :
    (l.rdropWhile (· = 0)).length ≤ n ↔ ∀ c ∈ l.drop n, c = 0 := by
  induction l using List.reverseRecOn with
  | nil => simp
  | append_singleton l c ih =>
    by_cases hc : c = 0
    · have hlast : ∀ a ∈ [c].drop (n - l.length), a = 0 := fun a ha => by
        simpa [hc] using List.mem_of_mem_drop ha
      rw [List.rdropWhile_concat_pos (· = 0) l c (decide_eq_true hc), ih, List.drop_append]
      simp only [List.mem_append, or_imp, forall_and]
      exact ⟨fun hzero => ⟨hzero, hlast⟩, And.left⟩
    · rw [List.rdropWhile_concat_neg (· = 0) l c (by simpa using hc), List.length_append, List.length_singleton]
      constructor
      · intro hle
        rw [List.drop_eq_nil_of_le (by simpa using hle)]
        simp
      · intro hzero
        by_contra hlt
        refine hc (hzero c ?_)
        rw [List.drop_append_of_le_length (by omega)]
        simp

/-! Columns. -/

def isBlank (c : Char) : Bool := c = ' ' || c = '\t'

def columns (row : List Char) : List String :=
  (row.splitOn '|').map fun column => String.ofList (column.filter (!isBlank ·))

def FitsColumn (text : String) : Prop := ∀ c ∈ [' ', '\t', '|', '\n'], c ∉ text.toList

theorem FitsColumn.filter_eq {text : String} (h : FitsColumn text) :
    text.toList.filter (!isBlank ·) = text.toList := by
  rw [List.filter_eq_self]
  intro c hc
  by_contra hblank
  simp only [isBlank, Bool.not_eq_true', Bool.not_eq_false, Bool.or_eq_true, decide_eq_true_eq] at hblank
  rcases hblank with rfl | rfl
  · exact h ' ' (by decide) hc
  · exact h '\t' (by decide) hc

theorem fitsColumn_of_digits {text : String} (h : ∀ c ∈ text.toList, c.isDigit ∨ c = '.') :
    FitsColumn text := by
  have hother : ∀ c ∈ [' ', '\t', '|', '\n'], ¬ (c.isDigit ∨ c = '.') := by simp [Char.isDigit]
  exact fun c hc hmem => hother c hc (h c hmem)

theorem fitsColumn_exactText (d : Span) : FitsColumn d.exactText := by
  apply fitsColumn_of_digits
  rw [← d.text_exactNumeral, Numeral.toList_text]
  exact fun c hc => d.exactNumeral.mem_chars hc

theorem fitsColumn_nat (n : Nat) : FitsColumn (toString n) := by
  apply fitsColumn_of_digits
  rw [Nat.toString_eq_ofList_toDigits, String.toList_ofList]
  exact fun c hc => .inl (Nat.isDigit_of_mem_toDigits (by decide) (by decide) hc)

theorem fitsColumn_edge (stop? : Option Span) : FitsColumn (stop?.elim "inf" Span.exactText) := by
  cases stop? with
  | none => unfold FitsColumn; simp
  | some d => exact fitsColumn_exactText d

namespace Histogram

theorem toList_tableRow (start stop count : String) : (tableRow start stop count).toList =
    ((leftAligned 15 start).toList ++ [' ']) ++ '|' ::
      (('\t' :: (leftAligned 15 stop).toList ++ [' ']) ++ '|' :: '\t' :: (leftAligned 15 count).toList) := by
  change (leftAligned 15 start ++ " |\t" ++ leftAligned 15 stop ++ " |\t" ++ leftAligned 15 count).toList = _
  simp

theorem columns_tableRow {start stop count : String} (hstart : FitsColumn start) (hstop : FitsColumn stop)
    (hcount : FitsColumn count) : columns (tableRow start stop count).toList = [start, stop, count] := by
  have hspace : isBlank ' ' = true := rfl
  have htab : isBlank '\t' = true := rfl
  have hbar {text : String} (h : FitsColumn text) : '|' ∉ (leftAligned 15 text).toList := by
    simp [toList_leftAligned, h '|']
  have hfilter {text : String} (h : FitsColumn text) :
      (leftAligned 15 text).toList.filter (!isBlank ·) = text.toList := by
    simp [toList_leftAligned, h.filter_eq, hspace]
  rw [columns, toList_tableRow, List.splitOn_append_cons_self_of_not_mem (by simp [hbar hstart]),
    List.splitOn_append_cons_self_of_not_mem (by simp [hbar hstop]),
    List.splitOn_eq_singleton (by simp [hbar hcount])]
  simp [hfilter hstart, hfilter hstop, hfilter hcount, hspace, htab]

theorem newline_not_mem_tableRow {start stop count : String} (hstart : '\n' ∉ start.toList)
    (hstop : '\n' ∉ stop.toList) (hcount : '\n' ∉ count.toList) :
    '\n' ∉ (tableRow start stop count).toList := by
  simp [toList_tableRow, toList_leftAligned, hstart, hstop, hcount]

/-! Rows. -/

def readRow? (row : List Char) : Option Bin :=
  match columns row with
  | [start, stop, count] => do
    let start ← Span.ofText? start
    let stop? ← if stop = "inf" then some none else (Span.ofText? stop).map some
    let count ← count.toNat?
    return ⟨start, stop?, count⟩
  | _ => none

theorem readRow?_binRow (b : Bin) : readRow? (binRow b).toList = some b := by
  have hinf (d : Span) : d.exactText ≠ "inf" := by
    intro h
    have hletter : 'i' ∈ d.exactNumeral.chars := by
      rw [← Numeral.toList_text, d.text_exactNumeral, h]
      simp
    exact absurd (d.exactNumeral.mem_chars hletter) (by decide)
  rw [readRow?, binRow, columns_tableRow (fitsColumn_exactText _) (fitsColumn_edge _) (fitsColumn_nat _)]
  obtain ⟨start, stop?, count⟩ := b
  cases stop? <;> simp [Span.ofText?_exactText, hinf]

def rule : List Char := List.replicate 17 '-'

/-- The bins that the rows of a table are about: those between the heading and the rule. -/
def readTable? (text : String) : Option (List Bin) :=
  (((text.toList.splitOn '\n').drop 1).takeWhile (· ≠ rule)).mapM readRow?

theorem binRow_ne_rule (b : Bin) : (binRow b).toList ≠ rule := by
  intro h
  have hbar : '|' ∈ (binRow b).toList := by simp [binRow, toList_tableRow]
  rw [h] at hbar
  exact absurd hbar (by decide)

theorem newline_not_mem_tableLines (h : Histogram) : ∀ line ∈ h.tableLines, '\n' ∉ line.toList := by
  have hrow (b : Bin) : '\n' ∉ (binRow b).toList :=
    newline_not_mem_tableRow (fitsColumn_exactText _ _ (by simp)) (fitsColumn_edge _ _ (by simp))
      (fitsColumn_nat _ _ (by simp))
  have hheading : '\n' ∉ (tableRow "Bin Start (s)" "Bin End (s)" "Packet Count").toList :=
    newline_not_mem_tableRow (by simp) (by simp) (by simp)
  intro line hline
  simp only [tableLines, List.mem_append, List.mem_cons, List.mem_map, List.not_mem_nil, or_false] at hline
  rcases hline with (rfl | ⟨b, -, rfl⟩) | rfl | rfl
  · exact hheading
  · exact hrow b
  · simp
  · simp

theorem readTable?_tableLines (h : Histogram) : readTable? (unlines h.tableLines) = some h.shownBins := by
  have hread (bins : List Bin) : (bins.map (String.toList ∘ binRow)).mapM readRow? = some bins := by
    induction bins with
    | nil => rfl
    | cons b bins ih => simp [readRow?_binRow, ih]
  have hrows (rest : List (List Char)) : (h.shownBins.map (String.toList ∘ binRow) ++ rule :: rest).takeWhile
      (· ≠ rule) = h.shownBins.map (String.toList ∘ binRow) := by
    rw [List.takeWhile_append_of_pos]
    · simp
    · simp [binRow_ne_rule]
  have hrule : "-----------------".toList = rule := rfl
  rw [readTable?, splitOn_unlines h.newline_not_mem_tableLines, tableLines]
  simp only [List.map_cons, List.map_append, List.map_map, List.cons_append, List.append_assoc, hrule,
    List.drop_succ_cons, List.drop_zero, hrows, hread]

/-! What is shown. -/

variable (h : Histogram)

theorem usedBins_eq : h.usedBins = (h.counts.toList.rdropWhile (· = 0)).length := by
  rw [usedBins, List.rdropWhile, List.length_reverse]

/-- The bins in use are the least number of bins beyond which all are empty. -/
theorem usedBins_le_iff {n : Nat} : h.usedBins ≤ n ↔ ∀ i, n ≤ i → h.count i = 0 := by
  rw [usedBins_eq, length_rdropWhile_le_iff]
  constructor
  · intro hzero i hi
    rw [count, ← Array.getElem?_toList]
    cases hget : h.counts.toList[i]? with
    | none => rfl
    | some c =>
      rw [← Nat.add_sub_cancel' hi, ← List.getElem?_drop] at hget
      exact hzero c (List.mem_of_getElem? hget)
  · intro hzero c hc
    obtain ⟨k, hget⟩ := List.mem_iff_getElem?.1 hc
    rw [List.getElem?_drop, Array.getElem?_toList] at hget
    have hcount := hzero (n + k) (Nat.le_add_right n k)
    rwa [count, hget] at hcount

theorem usedBins_le : h.usedBins ≤ h.binCount := by
  rw [usedBins_le_iff]
  intro i hi
  rw [count, Array.getElem?_eq_none hi]
  rfl

theorem length_shownBins : h.shownBins.length = max h.usedBins 1 := by
  rw [shownBins, List.length_map, List.length_range]

theorem shownBins_eq : h.shownBins = h.bins.take (max h.usedBins 1) := by
  have hused := h.usedBins_le
  have hpos : 0 < h.binCount := h.counts_pos
  rw [shownBins, bins, ← List.map_take, List.take_range, Nat.min_eq_left (by omega)]

theorem getElem?_shownBins (i : Nat) : (h.shownBins[i]?.map Bin.count).getD 0 = h.count i := by
  by_cases hi : i < max h.usedBins 1
  · simp [shownBins, hi, bin]
  · have hempty := h.usedBins_le_iff.1 (Nat.le_refl _) i (by omega)
    rw [hempty, List.getElem?_eq_none (by rw [length_shownBins]; omega)]
    rfl

theorem map_count_bins : h.bins.map Bin.count = h.counts.toList := by
  apply List.ext_getElem
  · simp [bins, binCount]
  · intro i _ hi
    simp [bins, bin, count, Array.getElem?_eq_getElem (show i < h.counts.size from hi)]

theorem weight_shownBins : weight Bin.count h.shownBins = h.total := by
  have hshown : h.shownBins.map Bin.count = h.counts.toList.take (max h.usedBins 1) := by
    rw [shownBins_eq, List.map_take, map_count_bins]
  have hrest : weight id (h.counts.toList.drop (max h.usedBins 1)) = 0 := by
    have hused : h.usedBins ≤ max h.usedBins 1 := Nat.le_max_left _ _
    rw [usedBins_eq, length_rdropWhile_le_iff, ← usedBins_eq] at hused
    exact weight_eq_zero id hused
  calc weight Bin.count h.shownBins
      = weight id (h.counts.toList.take (max h.usedBins 1)) := by rw [← hshown, weight_map]; rfl
    _ = weight id (h.counts.toList.take (max h.usedBins 1) ++ h.counts.toList.drop (max h.usedBins 1)) := by
      rw [weight_append, hrest, Nat.add_zero]
    _ = h.total := by rw [List.take_append_drop, total_eq]

theorem ext {h k : Histogram} (hwidth : h.width = k.width) (hbins : h.binCount = k.binCount)
    (hcount : ∀ i, h.count i = k.count i) : h = k := by
  have hcounts : h.counts = k.counts := by
    apply Array.ext hbins
    intro i hi hi'
    have heq := hcount i
    rwa [count, count, Array.getElem?_eq_getElem hi, Array.getElem?_eq_getElem hi'] at heq
  cases h
  cases k
  simp_all

/-- A table has a row for each bin up to the last one that is not empty, but at least one, and its rows are read
back as these bins. The other bins are empty, so the rows count all values, and of two histograms with bins of one
width and number only the same one has the same table. -/
theorem tables_lose_nothing :
    readTable? (unlines h.tableLines) = some (h.bins.take (max h.usedBins 1)) ∧
    (h.bins.take (max h.usedBins 1)).length = max h.usedBins 1 ∧
    (∀ n, h.usedBins ≤ n ↔ ∀ i, n ≤ i → h.count i = 0) ∧
    weight Bin.count (h.bins.take (max h.usedBins 1)) = h.total ∧
    ∀ k : Histogram, (k.width = h.width ∧ k.binCount = h.binCount ∧
      unlines k.tableLines = unlines h.tableLines) ↔ k = h := by
  rw [← shownBins_eq]
  refine ⟨h.readTable?_tableLines, h.length_shownBins, fun n => h.usedBins_le_iff, h.weight_shownBins, fun k => ?_⟩
  constructor
  · rintro ⟨hwidth, hbins, htext⟩
    have hread := k.readTable?_tableLines
    rw [htext, readTable?_tableLines, Option.some_inj] at hread
    apply ext hwidth hbins
    intro i
    rw [← getElem?_shownBins, ← getElem?_shownBins, hread]
  · rintro rfl
    exact ⟨rfl, rfl, rfl⟩

end Histogram

end VideoLink
