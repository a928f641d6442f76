import VideoLink.Numeric.Places
import VideoLink.Proofs.Numeric.Normal

/-! The exact values of stored numbers from zero on. They are in the order of the numbers, and a number that
is at least a thousand is at least one after a division by a thousand, since the quotient is rounded in that
order. -/
namespace VideoLink.Numeric

open Float.Model (UnpackedFloat Format)
open Float.Model.UnpackedFloat (Sign unpackExponent unpackMantissa unpackSign)

namespace Magnitude

def value (v : Magnitude) : ℚ := v.mantissa * 2 ^ v.exponent

theorem value_eq_div (v : Magnitude) : v.value = v.numerator / v.denominator := by
  obtain ⟨mantissa, exponent⟩ := v
  obtain ⟨n, rfl | rfl⟩ := exponent.eq_nat_or_neg
  · simp [value, numerator, denominator, Nat.shiftLeft_eq]
  · simp [value, numerator, denominator, Nat.shiftLeft_eq, div_eq_mul_inv]

theorem value_nonneg (v : Magnitude) : 0 ≤ v.value := by
  unfold value
  positivity

/-- A multiple is rounded by at most a half. -/
theorem abs_roundTimes_sub_le (tie : Tie) (v : Magnitude) (factor : Nat) :
    |(v.roundTimes tie factor : ℚ) - factor * v.value| ≤ 1 / 2 := by
  have hden : (0 : ℚ) < v.denominator := by exact_mod_cast v.denominator_pos
  have hupper : 2 * ((v.roundTimes tie factor : ℚ) * v.denominator) ≤
      2 * (v.numerator * factor) + v.denominator := by
    exact_mod_cast roundDiv_mul_le tie (v.numerator * factor) v.denominator
  have hlower : 2 * ((v.numerator : ℚ) * factor) ≤
      2 * (v.roundTimes tie factor * v.denominator) + v.denominator := by
    have hround : 2 * (v.numerator * factor) ≤ _ := mul_le_roundDiv tie v.denominator_pos
    exact_mod_cast hround
  have hexact : (factor : ℚ) * v.value * v.denominator = v.numerator * factor := by
    rw [value_eq_div]
    field_simp
  rw [abs_le]
  constructor <;> nlinarith

/-- The forms in which numbers are stored: the leading one of 53 bits is set, or the exponent is the least. -/
structure Canonical (v : Magnitude) : Prop where
  mantissa_lt : v.mantissa < 2 ^ 53
  leading : 2 ^ 52 ≤ v.mantissa ∨ v.exponent = Binary64.minExponent
  le_exponent : Binary64.minExponent ≤ v.exponent
  exponent_le : v.exponent ≤ 971

theorem Canonical.value_lt {v w : Magnitude} (hv : v.Canonical) (hw : w.Canonical)
    (h : v.exponent < w.exponent) : v.value < w.value := by
  have hleading : (2 : ℚ) ^ 52 ≤ w.mantissa := by
    exact_mod_cast hw.leading.resolve_right (ne_of_gt (lt_of_le_of_lt hv.le_exponent h))
  have hmantissa : (v.mantissa : ℚ) < 2 ^ 53 := by exact_mod_cast hv.mantissa_lt
  calc v.value < 2 ^ 53 * 2 ^ v.exponent := mul_lt_mul_of_pos_right hmantissa (by positivity)
    _ = 2 ^ 52 * 2 ^ (v.exponent + 1) := by rw [zpow_add₀ (by norm_num)]; ring
    _ ≤ 2 ^ 52 * 2 ^ w.exponent :=
      mul_le_mul_of_nonneg_left (zpow_le_zpow_right₀ (by norm_num) h) (by positivity)
    _ ≤ w.value := mul_le_mul_of_nonneg_right hleading (by positivity)

theorem Canonical.value_le_iff {v w : Magnitude} (hv : v.Canonical) (hw : w.Canonical) :
    v.value ≤ w.value ↔ v.exponent < w.exponent ∨ v.exponent = w.exponent ∧ v.mantissa ≤ w.mantissa := by
  rcases lt_trichotomy v.exponent w.exponent with hlt | heq | hgt
  · exact iff_of_true (hv.value_lt hw hlt).le (.inl hlt)
  · have hscale : (0 : ℚ) < 2 ^ w.exponent := by positivity
    rw [value, value, heq, mul_le_mul_iff_left₀ hscale]
    simp
  · exact iff_of_false (not_le_of_gt (hw.value_lt hv hgt)) (by omega)

theorem Canonical.isLE_compare_iff {v w : Magnitude} (hv : v.Canonical) (hw : w.Canonical) :
    ((compare v.exponent w.exponent).then (compare v.mantissa w.mantissa)).isLE = true ↔
      v.value ≤ w.value := by
  rw [Ordering.isLE_then_iff_or, Int.compare_eq_lt, Int.compare_eq_eq, Nat.isLE_compare,
    hv.value_le_iff hw]

end Magnitude

/-! Bits. -/

section

variable (bits : BitVec 64)

theorem toNat_unpackMantissa :
    (@unpackMantissa .binary64 bits).toNat = bits.toNat % (1 <<< Binary64.fractionBits) := by
  rw [unpackMantissa, BitVec.toNat_cast, BitVec.extractLsb_toNat, Nat.shiftRight_zero]
  rfl

theorem toNat_unpackExponent :
    (@unpackExponent .binary64 bits).toNat = (bits.toNat >>> Binary64.fractionBits) % 2048 := by
  rw [unpackExponent, BitVec.toNat_cast, BitVec.extractLsb_toNat]
  rfl

theorem unpackMantissa_eq_zero_iff :
    @unpackMantissa .binary64 bits = 0#52 ↔ bits.toNat % (1 <<< Binary64.fractionBits) = 0 := by
  rw [← BitVec.toNat_inj, toNat_unpackMantissa]
  rfl

theorem unpackExponent_eq_zero_iff :
    @unpackExponent .binary64 bits = 0#11 ↔ (bits.toNat >>> Binary64.fractionBits) % 2048 = 0 := by
  rw [← BitVec.toNat_inj, toNat_unpackExponent]
  rfl

theorem unpackExponent_eq_ones_iff :
    @unpackExponent .binary64 bits = -1#11 ↔ (bits.toNat >>> Binary64.fractionBits) % 2048 = 2047 := by
  rw [← BitVec.toNat_inj, toNat_unpackExponent]
  rfl

theorem toNat_leading_unpackMantissa : (1#1 ++ @unpackMantissa .binary64 bits).toNat =
    1 <<< Binary64.fractionBits + bits.toNat % (1 <<< Binary64.fractionBits) := by
  rw [← toNat_unpackMantissa, BitVec.toNat_append]
  exact (Nat.shiftLeft_add_eq_or_of_lt (@unpackMantissa .binary64 bits).isLt 1).symm

theorem ofBitVec_unpackSign :
    (Sign.ofBitVec (@unpackSign .binary64 bits) == .negative) = decide (1 <<< 63 ≤ bits.toNat) := by
  have hsign : (@unpackSign .binary64 bits).toNat = (bits.toNat >>> 63) % 2 := by
    rw [unpackSign, BitVec.toNat_cast, BitVec.extractLsb_toNat]
    rfl
  have hlt := bits.isLt
  rw [Nat.shiftRight_eq_div_pow] at hsign
  rw [Sign.ofBitVec]
  by_cases hbit : @unpackSign .binary64 bits = 0#1
  · rw [hbit] at hsign
    have hle : ¬ 1 <<< 63 ≤ bits.toNat := by
      change 0 = _ at hsign
      omega
    rw [if_pos hbit, decide_eq_false hle]
    rfl
  · have hle : 1 <<< 63 ≤ bits.toNat := by
      rw [← BitVec.toNat_inj, hsign] at hbit
      change ¬ _ = 0 at hbit
      omega
    rw [if_neg hbit, decide_eq_true hle]
    rfl

end

namespace Binary64

def ofUnpacked : UnpackedFloat → Binary64
  | .notANumber => .nan
  | .infinity sign => .infinite (sign == .negative)
  | .zero sign => .finite (sign == .negative) ⟨0, minExponent⟩
  | .finite sign mantissa exponent _ => .finite (sign == .negative) ⟨mantissa, exponent⟩

theorem ofWord_eq (bits : BitVec 64) : ofWord bits.toNat = ofUnpacked (.unpack .binary64 bits) := by
  have hbias : (Format.binary64.exponentBias : Int) = 1023 := rfl
  unfold ofWord UnpackedFloat.unpack
  simp only [← ofBitVec_unpackSign]
  by_cases hspecial : (bits.toNat >>> fractionBits) % 2048 = 2047
  · rw [if_pos hspecial, if_pos ((unpackExponent_eq_ones_iff bits).2 hspecial)]
    by_cases hnone : bits.toNat % (1 <<< fractionBits) = 0
    · rw [if_pos hnone, if_pos ((unpackMantissa_eq_zero_iff bits).2 hnone)]
      rfl
    · rw [if_neg hnone, if_neg (mt (unpackMantissa_eq_zero_iff bits).1 hnone)]
      rfl
  rw [if_neg hspecial, if_neg (mt (unpackExponent_eq_ones_iff bits).1 hspecial)]
  by_cases hleast : (bits.toNat >>> fractionBits) % 2048 = 0
  · rw [if_pos hleast, if_pos ((unpackExponent_eq_zero_iff bits).2 hleast)]
    by_cases hnone : bits.toNat % (1 <<< fractionBits) = 0
    · rw [dif_pos ((unpackMantissa_eq_zero_iff bits).2 hnone), hnone]
      rfl
    · rw [dif_neg (mt (unpackMantissa_eq_zero_iff bits).1 hnone)]
      simp only [ofUnpacked, toNat_unpackMantissa, toNat_unpackExponent, hleast, hbias]
      rfl
  · rw [if_neg hleast, if_neg (mt (unpackExponent_eq_zero_iff bits).1 hleast)]
    simp only [ofUnpacked, toNat_unpackExponent, hbias]
    rw [toNat_leading_unpackMantissa]
    rfl

theorem ofFloat_eq (x : Float) : ofFloat x = ofUnpacked x.toModel.unpack :=
  ofWord_eq x.toModel.toBits.toBitVec

theorem canonical_of_ofFloat {x : Float} {negative : Bool} {v : Magnitude}
    (h : ofFloat x = .finite negative v) : v.Canonical := by
  rw [ofFloat] at h
  generalize x.toBits.toNat = word at h
  have hfraction : word % (1 <<< fractionBits) < 2 ^ 52 := Nat.mod_lt _ (by decide)
  have hone : 1 <<< fractionBits = 2 ^ 52 := rfl
  unfold ofWord at h
  by_cases hspecial : (word >>> fractionBits) % 2048 = 2047
  · rw [if_pos hspecial] at h
    split at h <;> cases h
  rw [if_neg hspecial] at h
  by_cases hleast : (word >>> fractionBits) % 2048 = 0
  · rw [if_pos hleast] at h
    cases h
    exact ⟨by dsimp only; omega, .inr rfl, le_refl _, by dsimp only [minExponent]; decide⟩
  · rw [if_neg hleast] at h
    cases h
    exact ⟨by dsimp only; omega, .inl (by dsimp only; omega), by dsimp only [minExponent]; omega,
      by dsimp only; omega⟩

def value? : Binary64 → Option ℚ
  | .finite negative v => some (if negative then -v.value else v.value)
  | _ => none

/-- A finite number is a zero or has a sign and a positive magnitude. -/
theorem value?_ofUnpacked_cases {a : UnpackedFloat} {v : ℚ} (h : (ofUnpacked a).value? = some v) :
    (∃ sign, a = .zero sign ∧ v = 0) ∨
    (∃ m e pos, a = .finite .positive m e pos ∧ v = (⟨m, e⟩ : Magnitude).value ∧ 0 < v) ∨
    ∃ m e pos, a = .finite .negative m e pos ∧ v = -(⟨m, e⟩ : Magnitude).value ∧ v < 0 := by
  cases a with
  | notANumber | infinity => cases h
  | zero sign =>
    have hzero : (⟨0, minExponent⟩ : Magnitude).value = 0 := by
      rw [Magnitude.value, Nat.cast_zero, zero_mul]
    cases sign with
    | positive =>
      cases h
      exact .inl ⟨_, rfl, hzero⟩
    | negative =>
      cases h
      exact .inl ⟨_, rfl, neg_eq_zero.2 hzero⟩
  | finite sign m e pos =>
    have hpos : 0 < (⟨m, e⟩ : Magnitude).value := mul_pos (by exact_mod_cast pos) (by positivity)
    cases sign with
    | positive =>
      cases h
      exact .inr (.inl ⟨m, e, pos, rfl, rfl, hpos⟩)
    | negative =>
      cases h
      exact .inr (.inr ⟨m, e, pos, rfl, rfl, neg_neg_of_pos hpos⟩)

end Binary64

/-- The exact value of a finite floating-point number. -/
def exactValue? (x : Float) : Option ℚ := (Binary64.ofFloat x).value?

theorem exactValue?_eq (x : Float) : exactValue? x = (Binary64.ofUnpacked x.toModel.unpack).value? := by
  rw [exactValue?, Binary64.ofFloat_eq]

theorem exists_exactValue? {x : Float} (h : x.isFinite) : ∃ v, exactValue? x = some v := by
  change x.toModel.unpack.isFinite = true at h
  rw [exactValue?_eq]
  generalize x.toModel.unpack = a at h ⊢
  cases a with
  | notANumber | infinity => cases h
  | zero | finite => exact ⟨_, rfl⟩

theorem exists_of_exactValue? {x : Float} {v : ℚ} (h : exactValue? x = some v) :
    ∃ negative m, Binary64.ofFloat x = .finite negative m ∧ v = if negative then -m.value else m.value := by
  rw [exactValue?] at h
  generalize Binary64.ofFloat x = b at h ⊢
  cases b with
  | nan | infinite => cases h
  | finite negative m => exact ⟨negative, m, rfl, (Option.some.inj h).symm⟩

theorem le_iff_of_exactValue? {x y : Float} {v w : ℚ} (hx : exactValue? x = some v)
    (hy : exactValue? y = some w) : x ≤ y ↔ v ≤ w := by
  have hcanonical := @Binary64.canonical_of_ofFloat x
  have hcanonical' := @Binary64.canonical_of_ofFloat y
  rw [Binary64.ofFloat_eq] at hcanonical hcanonical'
  rw [exactValue?_eq] at hx hy
  change decide (x.toModel.unpack.le y.toModel.unpack = true) = true ↔ _
  rw [decide_eq_true_iff]
  generalize x.toModel.unpack = a at *
  generalize y.toModel.unpack = b at *
  rcases Binary64.value?_ofUnpacked_cases hx with
      ⟨s, rfl, hv⟩ | ⟨m, e, pos, rfl, hv, hsign⟩ | ⟨m, e, pos, rfl, hv, hsign⟩ <;>
    rcases Binary64.value?_ofUnpacked_cases hy with
      ⟨t, rfl, hw⟩ | ⟨n, f, pos', rfl, hw, hsign'⟩ | ⟨n, f, pos', rfl, hw, hsign'⟩
  · exact iff_of_true rfl (by rw [hv, hw])
  · exact iff_of_true rfl (by rw [hv]; exact hsign'.le)
  · exact iff_of_false nofun (by rw [hv]; exact not_le_of_gt hsign')
  · exact iff_of_false nofun (by rw [hw]; exact not_le_of_gt hsign)
  · rw [hv, hw]
    exact (hcanonical rfl).isLE_compare_iff (hcanonical' rfl)
  · exact iff_of_false nofun (by linarith)
  · exact iff_of_true rfl (by rw [hw]; exact hsign.le)
  · exact iff_of_true rfl (by linarith)
  · rw [hv, hw, neg_le_neg_iff, ← (hcanonical' rfl).isLE_compare_iff (hcanonical rfl),
      ← Int.compare_swap, ← Nat.compare_swap, ← Ordering.swap_then]
    rfl

theorem IsNormal.exists_exactValue? {lo hi : Int} {x : Float} (h : IsNormal lo hi x) :
    ∃ v, exactValue? x = some v ∧ 2 ^ 52 * 2 ^ lo ≤ v := by
  obtain ⟨m, e, pos, hx, hm, hlo, -⟩ := h
  have hleading : (2 : ℚ) ^ 52 ≤ m := by exact_mod_cast ((Nat.log2_eq_iff pos.ne').1 hm).1
  refine ⟨(⟨m, e⟩ : Magnitude).value, by rw [exactValue?_eq, hx]; rfl, ?_⟩
  calc (2 : ℚ) ^ 52 * 2 ^ lo ≤ 2 ^ 52 * 2 ^ e :=
      mul_le_mul_of_nonneg_left (zpow_le_zpow_right₀ (by norm_num) hlo) (by positivity)
    _ ≤ m * 2 ^ e := mul_le_mul_of_nonneg_right hleading (by positivity)

/-! A thousand. -/

namespace Magnitude

def thousand : Magnitude := ⟨1000 * 2 ^ 43, -43⟩

theorem value_thousand : thousand.value = 1000 := by
  norm_num [value, thousand, zpow_neg]

theorem canonical_thousand : thousand.Canonical :=
  ⟨by decide, .inl (by decide), by decide, by decide⟩

end Magnitude

theorem exactValue?_thousand : exactValue? 1000.0 = some 1000 := by
  rw [exactValue?_eq, ← Magnitude.value_thousand]
  rfl

theorem one_le_div_thousand {x : Float} {v : ℚ} (hx : exactValue? x = some v) (h : 1000 ≤ v) :
    ∃ w, exactValue? (x / 1000.0) = some w ∧ 1 ≤ w := by
  have hcanonical := @Binary64.canonical_of_ofFloat x
  rw [Binary64.ofFloat_eq] at hcanonical
  rw [exactValue?_eq] at hx
  suffices hnormal : IsNormal (-52) 963 (x / 1000.0) by
    obtain ⟨w, hw, hle⟩ := hnormal.exists_exactValue?
    exact ⟨w, hw, by norm_num [zpow_neg] at hle; exact hle⟩
  refine HasNormal.isNormal (x := UnpackedFloat.div Format.binary64 x.toModel.unpack
    (1000.0 : Float).toModel.unpack) ?_ (by decide) (by decide)
  generalize x.toModel.unpack = a at *
  rcases Binary64.value?_ofUnpacked_cases hx with
    ⟨s, rfl, hv⟩ | ⟨m, e, pos, rfl, hv, -⟩ | ⟨m, e, pos, rfl, hv, hneg⟩
  · linarith
  · have hm := hcanonical rfl
    rw [hv, ← Magnitude.value_thousand, Magnitude.canonical_thousand.value_le_iff hm] at h
    obtain ⟨hlt, hleading, hlo, hhi⟩ := hm
    simp only [Magnitude.thousand, Binary64.minExponent] at h hlt hleading hlo hhi
    have hlog : m.log2 = 52 := (Nat.log2_eq_iff pos.ne').2 ⟨by omega, hlt⟩
    have hdivisor : (1000.0 : Float).toModel.unpack =
      .finite .positive (1000 * 2 ^ 43) (-43) (by decide) := rfl
    rw [hdivisor]
    have hlog' : (1000 * 2 ^ 43).log2 = 52 := by decide +kernel
    -- Only a mantissa below that of a thousand can leave the quotient 52 bits, and then the exponent is larger.
    rcases h with hgreater | ⟨rfl, hle⟩
    · have hq : 2 ^ 52 ≤ m <<< 53 / (1000 * 2 ^ 43) := by
        rw [Nat.le_div_iff_mul_le (by decide), Nat.shiftLeft_eq]
        omega
      exact (hasNormal_div hlog hlog' (by omega) le_rfl hq).mono (by omega) (by omega)
    · have hq : 2 ^ 53 ≤ m <<< 53 / (1000 * 2 ^ 43) := by
        rw [Nat.le_div_iff_mul_le (by decide), Nat.shiftLeft_eq]
        omega
      exact (hasNormal_div hlog hlog' (by decide) (by decide) hq).mono (by decide) (by decide)
  · linarith

end VideoLink.Numeric
