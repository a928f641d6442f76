import VideoLink.Proofs.Measure.Partition
import VideoLink.Proofs.Numeric.Numerals
import VideoLink.Report.Text

/-! The edges of the bins as a report prints them, in seconds. A span is printed as a numeral of its exact
value and is read back from it, so a table shows no gap between two bins and no two edges look alike. -/
namespace VideoLink

open Numeric

namespace Span

/-- The numeral of a number of seconds: nine decimals, without the zeros at their end. -/
def exactNumeral (d : Span) : Numeral where
  whole := Nat.toDigits 10 d.seconds
  fraction := (padded 9 d.subsecond).toList.rdropWhile (· = '0')
  whole_ne_nil := Nat.toDigits_ne_nil
  isDigit c hc := (List.mem_append.1 hc).elim (Nat.isDigit_of_mem_toDigits (by decide) (by decide))
    fun hfraction => isDigit_of_mem_padded ((List.rdropWhile_prefix _ _).subset hfraction)

/-- The span of so many seconds. It has whole nanoseconds, so there are at most nine decimals. -/
def ofNumeral? (n : Numeral) : Option Span :=
  if n.fraction.length ≤ 9 then some ⟨n.digits * 10 ^ (9 - n.fraction.length)⟩ else none

def ofText? (text : String) : Option Span := (Numeral.ofText? text).bind ofNumeral?

variable (d : Span)

theorem nanos_eq : d.seconds * 10 ^ 9 + d.subsecond = d.nanos := Nat.div_add_mod' _ _

theorem fraction_exactNumeral :
    d.exactNumeral.fraction = (padded 9 d.subsecond).toList.rdropWhile (· = '0') := by
  rw [exactNumeral]

theorem subsecond_lt : d.subsecond < 10 ^ 9 := Nat.mod_lt _ (by decide)

theorem exists_zeros : ∃ zeros, zeros + d.exactNumeral.fraction.length = 9 ∧
    (padded 9 d.subsecond).toList = d.exactNumeral.fraction ++ List.replicate zeros '0' := by
  generalize hpadded : (padded 9 d.subsecond).toList = digits
  have hlength : digits.length = 9 := by
    rw [← hpadded]
    exact length_padded (by decide) d.subsecond_lt
  have hzeros : digits.rtakeWhile (· = '0') =
      List.replicate (digits.rtakeWhile (· = '0')).length '0' :=
    List.eq_replicate_length.2 fun c hc => by simpa using List.mem_rtakeWhile_imp hc
  have happend : digits.rdropWhile (· = '0') ++ digits.rtakeWhile (· = '0') = digits :=
    List.rdropWhile_append_rtakeWhile
  have hfraction := d.fraction_exactNumeral
  rw [hpadded] at hfraction
  refine ⟨(digits.rtakeWhile (· = '0')).length, ?_, ?_⟩
  · rw [hfraction, ← hlength, Nat.add_comm, ← List.length_append, happend]
  · rw [hfraction, ← hzeros, happend]

theorem digits_exactNumeral :
    d.exactNumeral.digits * 10 ^ (9 - d.exactNumeral.fraction.length) = d.nanos := by
  obtain ⟨zeros, hlength, hpadded⟩ := d.exists_zeros
  have hsubsecond := ofDigitChars_padded 9 d.subsecond
  rw [hpadded, Nat.ofDigitChars_append, Nat.ofDigitChars_replicate_zero] at hsubsecond
  have hwhole : Nat.ofDigitChars 10 d.exactNumeral.whole 0 = d.seconds := Nat.ofDigitChars_ten_toDigits
  have hpower : 10 ^ d.exactNumeral.fraction.length * 10 ^ zeros = 10 ^ 9 := by
    rw [← Nat.pow_add, Nat.add_comm, hlength]
  rw [show 9 - d.exactNumeral.fraction.length = zeros by omega, Numeral.digits_eq, hwhole, Nat.add_mul,
    Nat.mul_assoc, hpower, Nat.mul_comm _ (10 ^ zeros), hsubsecond, d.nanos_eq]

theorem fraction_exactNumeral_eq_nil_iff : d.exactNumeral.fraction = [] ↔ d.subsecond = 0 := by
  obtain ⟨zeros, hlength, hpadded⟩ := d.exists_zeros
  have hsubsecond := ofDigitChars_padded 9 d.subsecond
  rw [hpadded, Nat.ofDigitChars_append, Nat.ofDigitChars_replicate_zero] at hsubsecond
  constructor
  · intro hnil
    rw [← hsubsecond, hnil, Nat.ofDigitChars_nil, Nat.mul_zero]
  · intro hzero
    rw [fraction_exactNumeral, hzero, toList_padded]
    decide

theorem text_exactNumeral : d.exactNumeral.text = d.exactText := by
  have hnil := d.fraction_exactNumeral_eq_nil_iff
  rw [← String.toList_inj, Numeral.toList_text, Numeral.chars, exactText]
  by_cases hzero : d.subsecond = 0
  · rw [if_pos hzero, if_pos (hnil.2 hzero)]
    simp [exactNumeral]
  · rw [if_neg hzero, if_neg (mt hnil.1 hzero)]
    change _ = (toString d.seconds ++ "." ++ String.ofList _).toList
    simp [exactNumeral, List.rdropWhile]

theorem value_exactNumeral : d.exactNumeral.value = d.seconds + d.subsecond / 10 ^ 9 := by
  obtain ⟨zeros, hlength, -⟩ := d.exists_zeros
  have hdigits := d.digits_exactNumeral
  rw [show 9 - d.exactNumeral.fraction.length = zeros by omega, ← d.nanos_eq] at hdigits
  have hcast : (d.exactNumeral.digits : ℚ) * 10 ^ zeros = d.seconds * 10 ^ 9 + d.subsecond := by
    exact_mod_cast hdigits
  rw [Numeral.value, div_eq_iff (by positivity), ← mul_right_inj' (by positivity : (10 : ℚ) ^ zeros ≠ 0)]
  calc (10 : ℚ) ^ zeros * d.exactNumeral.digits
      = (d.seconds + d.subsecond / 10 ^ 9) * 10 ^ 9 := by rw [mul_comm, hcast]; ring
    _ = 10 ^ zeros * ((d.seconds + d.subsecond / 10 ^ 9) * 10 ^ d.exactNumeral.fraction.length) := by
      rw [← hlength, pow_add]; ring

theorem ofText?_exactText : ofText? d.exactText = some d := by
  obtain ⟨zeros, hlength, -⟩ := d.exists_zeros
  rw [← text_exactNumeral, ofText?, Numeral.ofText?_text, Option.bind_some, ofNumeral?, if_pos (by omega),
    digits_exactNumeral]

theorem exactText_inj {d e : Span} : d.exactText = e.exactText ↔ d = e := by
  refine ⟨fun h => ?_, fun h => by rw [h]⟩
  have hread := d.ofText?_exactText
  rw [h, ofText?_exactText] at hread
  exact (Option.some.inj hread).symm

theorem last_fraction_exactNumeral : d.exactNumeral.fraction.getLast? ≠ some '0' := by
  rw [fraction_exactNumeral]
  generalize (padded 9 d.subsecond).toList = digits
  intro hlast
  have hne : digits.rdropWhile (· = '0') ≠ [] := by
    intro hnil
    rw [hnil] at hlast
    cases hlast
  rw [List.getLast?_eq_some_getLast hne, Option.some_inj] at hlast
  exact List.rdropWhile_last_not _ _ hne (decide_eq_true hlast)

end Span

namespace Histogram

theorem bin_stop? (h : Histogram) {i : Nat} (hi : i + 1 < h.binCount) :
    (h.bin i).stop? = some (h.bin (i + 1)).start :=
  if_pos hi

/-- The text of a span is a numeral of its exact number of seconds: digits, with a point only before more digits,
the last of them not zero. Reading it gives the span again, so no two spans have the same text. In a table the row
of a bin ends with the edge that the row of the next bin starts with. -/
theorem edges_print_exactly (d : Span) :
    (∃ n : Numeral, d.exactText = n.text ∧ n.value = d.seconds + d.subsecond / 10 ^ 9 ∧
      n.fraction.getLast? ≠ some '0') ∧
    Span.ofText? d.exactText = some d ∧
    (∀ e : Span, e.exactText = d.exactText ↔ e = d) ∧
    ∀ (h : Histogram) (i : Nat), i + 1 < h.binCount → ∃ (edge : Span) (stop : String),
      binRow (h.bin i) = tableRow (h.binStart i).exactText edge.exactText (toString (h.count i)) ∧
      binRow (h.bin (i + 1)) = tableRow edge.exactText stop (toString (h.count (i + 1))) := by
  refine ⟨⟨d.exactNumeral, d.text_exactNumeral.symm, d.value_exactNumeral, d.last_fraction_exactNumeral⟩,
    d.ofText?_exactText, fun e => Span.exactText_inj, fun h i hi => ?_⟩
  refine ⟨(h.bin (i + 1)).start, (h.bin (i + 1)).stop?.elim "inf" Span.exactText, ?_, rfl⟩
  rw [binRow, h.bin_stop? hi]
  rfl

/-- Two bins of one nanosecond. -/
theorem edges_of_a_nanosecond : ∃ h : Histogram, new? ⟨1⟩ 2 = .ok h ∧ 0 + 1 < h.binCount ∧
    ∃ (edge : Span) (stop : String), binRow (h.bin 0) = tableRow "0" edge.exactText "0" ∧
      binRow (h.bin 1) = tableRow edge.exactText stop "0" := by
  obtain ⟨h, hnew⟩ : ∃ h, new? ⟨1⟩ 2 = .ok h := ⟨_, rfl⟩
  obtain ⟨_, hbins, _⟩ := layout_of_new? hnew
  have hcount : 0 + 1 < h.binCount := by rw [hbins]; decide
  obtain ⟨-, -, -, hedges⟩ := edges_print_exactly ⟨1⟩
  obtain ⟨edge, stop, hfirst, hsecond⟩ := hedges h 0 hcount
  cases hnew
  exact ⟨_, rfl, hcount, edge, stop, hfirst, hsecond⟩

end Histogram

end VideoLink
