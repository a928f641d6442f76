import VideoLink.Proofs.Numeric.Numerals
import VideoLink.Proofs.Numeric.Stored
import VideoLink.Report.Text

/-! Bit rates as a report prints them. The unit is chosen so that its number is below a thousand, unless it
is the last unit, and at least one, unless it is the first. The rounding to three decimals comes afterwards
and can reach a thousand. -/
namespace VideoLink

open Numeric

namespace Numeric

theorem fixedText_of_finite {places : Nat} (pos : 0 < places) {x : Float} {negative : Bool} {m : Magnitude}
    (h : Binary64.ofFloat x = .finite negative m) : fixedText places x =
      (if negative then "-" else "") ++ (Numeral.ofPlaces places (m.roundTimes .even (10 ^ places))).text := by
  rw [fixedText, h, Numeral.text_ofPlaces pos]
  cases negative with
  | false => exact String.empty_append.symm
  | true => rfl

theorem abs_value_ofPlaces_sub_le {places : Nat} (pos : 0 < places) (tie : Tie) (m : Magnitude) :
    |(Numeral.ofPlaces places (m.roundTimes tie (10 ^ places))).value - m.value| ≤ 1 / 2 / 10 ^ places := by
  have hround := m.abs_roundTimes_sub_le tie (10 ^ places)
  have hscale : (0 : ℚ) < 10 ^ places := by positivity
  push_cast at hround
  rw [Numeral.value_ofPlaces pos]
  generalize m.roundTimes tie (10 ^ places) = r at *
  calc |(r : ℚ) / 10 ^ places - m.value| = |(r - 10 ^ places * m.value) / 10 ^ places| := by
        rw [sub_div, mul_div_cancel_left₀ _ hscale.ne']
    _ = |r - 10 ^ places * m.value| / 10 ^ places := by rw [abs_div, abs_of_pos hscale]
    _ ≤ 1 / 2 / 10 ^ places := div_le_div_of_nonneg_right hround hscale.le

/-- A number from zero on is printed as the nearest numeral. Only a zero can have a sign in front. -/
theorem exists_fixedText {places : Nat} (pos : 0 < places) {x : Float} {v : ℚ} (hx : exactValue? x = some v)
    (hv : 0 ≤ v) : ∃ (sign : String) (n : Numeral), fixedText places x = sign ++ n.text ∧
      (sign = "" ∨ sign = "-" ∧ v = 0) ∧ n.fraction.length = places ∧ |n.value - v| ≤ 1 / 2 / 10 ^ places := by
  obtain ⟨negative, m, hfloat, rfl⟩ := exists_of_exactValue? hx
  have htext := fixedText_of_finite pos hfloat
  have hlength := Numeral.length_fraction_ofPlaces pos (m.roundTimes .even (10 ^ places))
  have hnearest := abs_value_ofPlaces_sub_le pos .even m
  cases negative with
  | false => exact ⟨"", _, htext, .inl rfl, hlength, hnearest⟩
  | true =>
    have hzero : m.value = 0 := le_antisymm (neg_nonneg.1 hv) m.value_nonneg
    refine ⟨"-", _, htext, .inr ⟨rfl, neg_eq_zero.2 hzero⟩, hlength, ?_⟩
    rw [hzero] at hnearest
    rwa [if_pos rfl, hzero, neg_zero]

/-! A numeral with three decimals that is nearest to a value. -/

namespace Numeral

variable {n : Numeral} {v : ℚ} (hplaces : n.fraction.length = 3) (hnearest : |n.value - v| ≤ 1 / 2000)
include hplaces hnearest

theorem exists_thousandths : ∃ k : ℕ, n.value = k / 1000 ∧ (k : ℚ) ≤ 1000 * v + 1 / 2 ∧ 1000 * v ≤ k + 1 / 2 := by
  have hvalue : n.value = n.digits / 1000 := by
    rw [value, hplaces]
    norm_num
  obtain ⟨hlow, hhigh⟩ := abs_le.1 hnearest
  exact ⟨n.digits, hvalue, by linarith, by linarith⟩

theorem lt_or_eq_thousand (hv : v < 1000) :
    n.value < 1000 ∧ v ≤ 1999999 / 2000 ∨ n.value = 1000 ∧ 1999999 / 2000 ≤ v := by
  obtain ⟨k, hvalue, hupper, hlower⟩ := exists_thousandths hplaces hnearest
  have hk : k < 1000001 := by
    have hlt : (k : ℚ) < (1000001 : ℕ) := by
      push_cast
      linarith
    exact_mod_cast hlt
  rcases Nat.lt_or_eq_of_le (Nat.le_of_lt_succ hk) with hlt | rfl
  · have hle : (k : ℚ) ≤ (999999 : ℕ) := Nat.cast_le.2 (Nat.le_of_lt_succ hlt)
    push_cast at hle
    exact .inl ⟨by linarith, by linarith⟩
  · push_cast at hvalue hupper
    exact .inr ⟨by linarith, by linarith⟩

theorem one_le (hv : 1 ≤ v) : 1 ≤ n.value := by
  obtain ⟨k, hvalue, -, hlower⟩ := exists_thousandths hplaces hnearest
  have hk : 999 < k := by
    have hlt : ((999 : ℕ) : ℚ) < k := by
      push_cast
      linarith
    exact_mod_cast hlt
  have hle : ((1000 : ℕ) : ℚ) ≤ k := Nat.cast_le.2 hk
  push_cast at hle
  linarith

end Numeral

end Numeric

/-- The value `v` of a rate in the unit `k`, counted from zero: the rate is divided by a thousand as often. -/
structure IsScaled (rate : Float) (last k : Nat) (v : ℚ) : Prop where
  exact : exactValue? ((· / 1000.0)^[k] rate) = some v
  nonneg : 0 ≤ v
  lt_thousand : k < last → v < 1000
  one_le : 0 < k → 1 ≤ v

theorem IsScaled.succ {rate : Float} {last k : Nat} {v w : ℚ} (hw : exactValue? (rate / 1000.0) = some w)
    (hone : 1 ≤ w) (h : IsScaled (rate / 1000.0) last k v) : IsScaled rate (last + 1) (k + 1) v := by
  refine ⟨h.exact, h.nonneg, fun hlast => h.lt_thousand (Nat.lt_of_succ_lt_succ hlast), fun _ => ?_⟩
  rcases k.eq_zero_or_pos with rfl | hpos
  · have hsame : some w = some v := hw.symm.trans h.exact
    cases hsame
    exact hone
  · exact h.one_le hpos

/-- The search for the unit ends at one in which the value is in its range. -/
theorem exists_bitRateIn {rate : Float} {v : ℚ} (hv : exactValue? rate = some v) (hnonneg : 0 ≤ v)
    (unit : String) (units : List String) : ∃ k u w, (unit :: units)[k]? = some u ∧
      IsScaled rate units.length k w ∧
      bitRateIn rate unit units = fixedText 3 ((· / 1000.0)^[k] rate) ++ " " ++ u := by
  induction units generalizing rate v unit with
  | nil => exact ⟨0, unit, v, rfl, ⟨hv, hnonneg, nofun, nofun⟩, rfl⟩
  | cons next units ih =>
    have hle : 1000.0 ≤ rate ↔ 1000 ≤ v := le_iff_of_exactValue? exactValue?_thousand hv
    rw [bitRateIn]
    by_cases hthousand : 1000.0 ≤ rate
    · obtain ⟨w, hw, hone⟩ := one_le_div_thousand hv (hle.1 hthousand)
      obtain ⟨k, u, z, hunit, hscaled, htext⟩ := ih hw (zero_le_one.trans hone) next
      rw [if_pos hthousand]
      exact ⟨k + 1, u, z, hunit, hscaled.succ hw hone, htext⟩
    · have hlt : v < 1000 := lt_of_not_ge (mt hle.2 hthousand)
      rw [if_neg hthousand]
      exact ⟨0, unit, v, rfl, ⟨hv, hnonneg, fun _ => hlt, nofun⟩, rfl⟩

def bitRateUnits : List String := ["bps", "kbps", "Mbps", "Gbps", "Tbps"]

/-- A finite rate from zero on is printed with three decimals, as the numeral nearest to its value in one of the
five units. The value is below a thousand unless the unit is the last, and so is the numeral unless it is the
thousand that a value of at least 999.9995 is rounded to. The numeral is at least one unless the unit is the
first. -/
theorem bit_rates_round_in_their_unit (rate : Float) (hfinite : rate.isFinite) (hle : 0.0 ≤ rate) :
    ∃ (k : Nat) (unit sign : String) (n : Numeral) (v : ℚ),
      bitRateUnits[k]? = some unit ∧ IsScaled rate 4 k v ∧
      bitRateText rate = sign ++ n.text ++ " " ++ unit ∧ (sign = "" ∨ sign = "-" ∧ v = 0) ∧
      n.fraction.length = 3 ∧ |n.value - v| ≤ 1 / 2000 ∧
      (unit ≠ "Tbps" → n.value < 1000 ∧ v ≤ 1999999 / 2000 ∨ n.value = 1000 ∧ 1999999 / 2000 ≤ v) ∧
      (unit ≠ "bps" → 1 ≤ n.value) := by
  have hzero : exactValue? 0.0 = some 0 := by
    rw [exactValue?_eq]
    exact congrArg some (by norm_num [Magnitude.value])
  obtain ⟨start, hstart⟩ := exists_exactValue? hfinite
  have hnonneg := (le_iff_of_exactValue? hzero hstart).1 hle
  obtain ⟨k, unit, v, hunit, hscaled, htext⟩ :=
    exists_bitRateIn hstart hnonneg "bps" ["kbps", "Mbps", "Gbps", "Tbps"]
  obtain ⟨sign, n, hfixed, hsign, hplaces, hround⟩ :=
    exists_fixedText (show 0 < 3 by decide) hscaled.exact hscaled.nonneg
  have hnearest : |n.value - v| ≤ 1 / 2000 := hround.trans_eq (by norm_num)
  have hbound : k < 5 := (List.getElem?_eq_some_iff.1 hunit).1
  rw [hfixed] at htext
  refine ⟨k, unit, sign, n, v, hunit, hscaled, htext, hsign, hplaces, hnearest, fun hunits => ?_, fun hunits => ?_⟩
  · have hlast : k ≠ 4 := by
      rintro rfl
      exact hunits (Option.some.inj hunit).symm
    exact Numeral.lt_or_eq_thousand hplaces hnearest (hscaled.lt_thousand (show k < 4 by omega))
  · have hfirst : k ≠ 0 := by
      rintro rfl
      exact hunits (Option.some.inj hunit).symm
    exact Numeral.one_le hplaces hnearest (hscaled.one_le (Nat.pos_of_ne_zero hfirst))

/-- A rate that is divided twice. -/
theorem bit_rate_of_some_megabits : (1852000.0 : Float).isFinite ∧ (0.0 : Float) ≤ 1852000.0 ∧
    bitRateText 1852000.0 = "1.852 Mbps" ∧
    ∃ (unit sign : String) (n : Numeral) (v : ℚ), bitRateText 1852000.0 = sign ++ n.text ++ " " ++ unit ∧
      n.fraction.length = 3 ∧ |n.value - v| ≤ 1 / 2000 ∧
      (unit ≠ "Tbps" → n.value < 1000 ∧ v ≤ 1999999 / 2000 ∨ n.value = 1000 ∧ 1999999 / 2000 ≤ v) ∧
      (unit ≠ "bps" → 1 ≤ n.value) := by
  have hfinite : (1852000.0 : Float).isFinite := by decide +kernel
  have hle : (0.0 : Float) ≤ 1852000.0 := by decide +kernel
  have htext : bitRateText 1852000.0 = "1.852 Mbps" := by decide +kernel
  obtain ⟨-, unit, sign, n, v, -, -, hparts, -, hplaces, hnearest, hbelow, hone⟩ :=
    bit_rates_round_in_their_unit 1852000.0 hfinite hle
  exact ⟨hfinite, hle, htext, unit, sign, n, v, hparts, hplaces, hnearest, hbelow, hone⟩

/-- Three decimals and a unit, with a number below a thousand unless the unit is the last and at least one unless
it is the first. -/
def IsNormalForm (text : String) : Prop :=
  ∃ (n : Numeral) (unit : String), text = n.text ++ " " ++ unit ∧
    unit ∈ bitRateUnits ∧ n.fraction.length = 3 ∧
    (unit ≠ "Tbps" → n.value < 1000) ∧ (unit ≠ "bps" → 1 ≤ n.value)

/-- A text is a numeral and a unit in one way only, since a numeral has no blank. -/
theorem numeral_unit_inj {n n' : Numeral} {unit unit' : String}
    (h : n.text ++ " " ++ unit = n'.text ++ " " ++ unit') : n = n' ∧ unit = unit' := by
  have hblank (n : Numeral) : ' ' ∉ n.chars := fun hmem => absurd (n.mem_chars hmem) (by decide)
  have hchars : n.chars ++ ' ' :: unit.toList = n'.chars ++ ' ' :: unit'.toList := by
    simpa using congrArg String.toList h
  have hsplit := congrArg (List.splitOn ' ') hchars
  rw [List.splitOn_append_cons_self_of_not_mem (hblank n),
    List.splitOn_append_cons_self_of_not_mem (hblank n')] at hsplit
  have hnumeral : n.chars = n'.chars := (List.cons.inj hsplit).1
  rw [hnumeral] at hchars
  have hunit : unit.toList = unit'.toList := (List.cons.inj (List.append_cancel_left hchars)).2
  have hread := n.ofText?_text
  rw [Numeral.text, hnumeral, ← Numeral.text, n'.ofText?_text] at hread
  exact ⟨(Option.some.inj hread).symm, String.toList_inj.1 hunit⟩

/-- A rate just below a thousand is printed as a thousand of the same unit. -/
theorem rate_below_a_thousand_prints_as_a_thousand :
    (999.9996 : Float).isFinite ∧ (0.0 : Float) ≤ 999.9996 ∧ bitRateText 999.9996 = "1000.000 bps" ∧
      ¬ IsNormalForm (bitRateText 999.9996) := by
  have htext : bitRateText 999.9996 = "1000.000 bps" := by decide +kernel
  refine ⟨by decide +kernel, by decide +kernel, htext, ?_⟩
  rintro ⟨n, unit, hnormal, -, -, hbelow, -⟩
  rw [htext] at hnormal
  have hthousand : (Numeral.ofPlaces 3 1000000).text ++ " " ++ "bps" = n.text ++ " " ++ unit := by
    rw [← hnormal, Numeral.text_ofPlaces (by decide)]
    decide +kernel
  obtain ⟨rfl, rfl⟩ := numeral_unit_inj hthousand
  have hlt := hbelow (by decide)
  rw [Numeral.value_ofPlaces (by decide)] at hlt
  norm_num at hlt

end VideoLink
