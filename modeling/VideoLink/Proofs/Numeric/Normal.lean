import Mathlib
import VideoLink.Config.Error
import VideoLink.Time.Seconds

/-! Positive floating-point numbers. Counts, their quotients and their sums have mantissas of 53 bits, with
exponents far from both ends of the range, so none of them is rounded to zero or to infinity. -/
namespace VideoLink.Numeric

open Float.Model (Format UnpackedFloat totalExponent)
open Float.Model.UnpackedFloat (Accuracy ExtendedMantissa Sign decreaseExponent divCore
  roundWithAccuracy shiftToExponent shiftToTargetExponent)

/-- A positive number with a mantissa of 53 bits and an exponent between the bounds. -/
def HasNormal (lo hi : Int) (x : UnpackedFloat) : Prop :=
  ∃ mantissa exponent pos, x = .finite .positive mantissa exponent pos ∧ mantissa.log2 = 52 ∧
    lo ≤ exponent ∧ exponent ≤ hi

theorem HasNormal.mono {lo hi lo' hi' : Int} {x : UnpackedFloat} (h : HasNormal lo hi x)
    (hlo : lo' ≤ lo) (hhi : hi ≤ hi') : HasNormal lo' hi' x := by
  obtain ⟨m, e, pos, hx, hm, hle, hge⟩ := h
  exact ⟨m, e, pos, hx, hm, by omega, by omega⟩

theorem log2_shiftLeft {m : Nat} (pos : 0 < m) (n : Nat) : (m <<< n).log2 = m.log2 + n := by
  obtain ⟨hlow, hhigh⟩ := (Nat.log2_eq_iff pos.ne').1 rfl
  rw [Nat.log2_eq_iff (Nat.shiftLeft_pos_iff.2 pos).ne', Nat.shiftLeft_eq, Nat.add_right_comm,
    Nat.pow_add, Nat.pow_add]
  exact ⟨Nat.mul_le_mul_right _ hlow, Nat.mul_lt_mul_of_pos_right hhigh (by positivity)⟩

theorem leading_bounds {m : Nat} (hm : 52 ≤ m.log2) :
    2 ^ 52 ≤ m / 2 ^ (m.log2 - 52) ∧ m / 2 ^ (m.log2 - 52) < 2 ^ 53 := by
  have hlog : (m / 2 ^ (m.log2 - 52)).log2 = 52 := by
    rw [Nat.log2_eq_log_two, Nat.log_div_base_pow, ← Nat.log2_eq_log_two]
    omega
  have hne : m / 2 ^ (m.log2 - 52) ≠ 0 := by
    intro hzero
    rw [hzero, Nat.log2_zero] at hlog
    cases hlog
  exact (Nat.log2_eq_iff hne).1 hlog

/-! Rounding -/

theorem mantissa_shiftRight (em : ExtendedMantissa) (n : Nat) :
    (em >>> n).mantissa = em.mantissa / 2 ^ n := by
  induction n with
  | zero => exact (Nat.div_one _).symm
  | succ n ih =>
    change (em >>> n).mantissa / 2 = _
    rw [ih, Nat.div_div_eq_div_mul, Nat.pow_succ]

theorem roundedMantissa_bounds (em : ExtendedMantissa) :
    em.mantissa ≤ em.roundedMantissa ∧ em.roundedMantissa ≤ em.mantissa + 1 := by
  obtain ⟨mantissa, roundBit, stickyBit⟩ := em
  cases roundBit <;> cases stickyBit <;>
    simp only [ExtendedMantissa.roundedMantissa, ExtendedMantissa.accuracy,
      Accuracy.roundToNearestEven] <;> omega

theorem mantissa_ofMantissaAndAccuracy (m : Nat) (a : Accuracy) :
    (ExtendedMantissa.ofMantissaAndAccuracy m a).mantissa = m := by
  cases a with
  | exact => rfl
  | inexact o => cases o <;> rfl

theorem targetExponent_of_le {m : Nat} {e : Int} (h : -1074 ≤ m.log2 - 52 + e) :
    Format.binary64.targetExponent (totalExponent m e) = m.log2 - 52 + e := by
  simp only [Format.targetExponent, totalExponent, Format.mantissaBits, Format.minExponent]
  omega

/-- A shift to the target exponent leaves the 53 leading bits, if there are as many. -/
theorem shiftToTargetExponent_of_le {m : Nat} {e : Int} (a : Accuracy) (hm : 52 ≤ m.log2)
    (h : -1074 ≤ m.log2 - 52 + e) :
    (shiftToTargetExponent Format.binary64 m e a).1.mantissa = m / 2 ^ (m.log2 - 52) ∧
      (shiftToTargetExponent Format.binary64 m e a).2 = m.log2 - 52 + e := by
  have hshift : ((m.log2 : Int) - 52 + e - e).toNat = m.log2 - 52 := by omega
  simp only [shiftToTargetExponent, targetExponent_of_le h, shiftToExponent, hshift,
    mantissa_shiftRight, mantissa_ofMantissaAndAccuracy, true_and]
  omega

theorem hasNormal_roundWithAccuracy {m : Nat} {e : Int} (a : Accuracy) (hm : 52 ≤ m.log2)
    (h : -1074 ≤ m.log2 - 52 + e) :
    HasNormal (m.log2 - 52 + e) (m.log2 - 51 + e)
      (roundWithAccuracy Format.binary64 .positive m e a) := by
  obtain ⟨hmantissa, hexponent⟩ := shiftToTargetExponent_of_le a hm h
  obtain ⟨hlow, hhigh⟩ := leading_bounds hm
  rw [← hmantissa] at hlow hhigh
  unfold roundWithAccuracy
  generalize shiftToTargetExponent Format.binary64 m e a = first at *
  obtain ⟨em, e₁⟩ := first
  obtain ⟨hrlow, hrhigh⟩ := roundedMantissa_bounds em
  dsimp only at *
  generalize em.roundedMantissa = r at *
  -- Rounding up may carry into a 54th bit, which the second shift takes away.
  have hbits : 52 ≤ r.log2 ∧ r.log2 ≤ 53 := by
    rcases Nat.lt_or_ge r (2 ^ 53) with hr | hr
    · rw [(Nat.log2_eq_iff (by omega)).2 ⟨Nat.le_trans hlow hrlow, hr⟩]
      omega
    · rw [show r = 2 ^ 53 by omega, Nat.log2_two_pow]
      omega
  obtain ⟨hfinal, hfinalExponent⟩ := shiftToTargetExponent_of_le (e := e₁) .exact hbits.1 (by omega)
  have hleading := leading_bounds hbits.1
  rw [← hfinal] at hleading
  have hne : (shiftToTargetExponent Format.binary64 r e₁ .exact).1.mantissa ≠ 0 := by omega
  rw [dif_neg hne]
  refine ⟨_, _, Nat.pos_of_ne_zero hne, rfl, (Nat.log2_eq_iff hne).2 hleading, ?_, ?_⟩ <;> omega

theorem hasNormal_normalize {m : Nat} {e : Int} (pos : 0 < m) (h : -1074 ≤ m.log2 - 52 + e) :
    HasNormal (m.log2 - 52 + e) (m.log2 - 51 + e)
      (UnpackedFloat.normalize Format.binary64 m e .positive) := by
  unfold UnpackedFloat.normalize
  rw [Int.compare_eq_gt.2 (by omega)]
  simp only [Int.toNat_natCast, UnpackedFloat.round, targetExponent_of_le h, decreaseExponent]
  generalize hn : (e - (m.log2 - 52 + e)).toNat = n
  have hlog := log2_shiftLeft pos n
  exact (hasNormal_roundWithAccuracy .exact (by omega) (by omega)).mono (by omega) (by omega)

/-! Quotients and sums -/

/-- A quotient of mantissas has at least `bits` bits below its leading one. -/
theorem hasNormal_div {m n bits : Nat} {e f : Int} {mpos : 0 < m} {npos : 0 < n} (hm : m.log2 = 52)
    (hn : n.log2 = 52) (h : -1021 ≤ e - f) (hbits : 52 ≤ bits) (hq : 2 ^ bits ≤ m <<< 53 / n) :
    HasNormal (e - f - 105 + bits) (e - f - 51)
      (UnpackedFloat.div Format.binary64 (.finite .positive m e mpos) (.finite .positive n f npos)) := by
  have htarget : Format.binary64.targetExponent (totalExponent m e - totalExponent n f) =
      e - f - 53 := by
    simp only [Format.targetExponent, totalExponent, Format.mantissaBits, Format.minExponent, hm, hn]
    omega
  have hleast : min (e - f) (e - f - 53) = e - f - 53 := by omega
  have hshift : (e - f - (e - f - 53)).toNat = 53 := by omega
  simp only [UnpackedFloat.div, divCore, htarget, hleast, hshift]
  obtain ⟨hmlow, hmhigh⟩ := (Nat.log2_eq_iff mpos.ne').1 hm
  obtain ⟨hnlow, hnhigh⟩ := (Nat.log2_eq_iff npos.ne').1 hn
  have hqhigh : m <<< 53 / n < 2 ^ 54 := by
    rw [Nat.div_lt_iff_lt_mul npos, Nat.shiftLeft_eq]
    omega
  generalize m <<< 53 / n = q at *
  have hqpos : q ≠ 0 := (Nat.lt_of_lt_of_le (Nat.two_pow_pos bits) hq).ne'
  have hlow : bits ≤ q.log2 := (Nat.le_log2 hqpos).2 hq
  have hhigh : q.log2 < 54 := (Nat.log2_lt hqpos).2 hqhigh
  exact (hasNormal_roundWithAccuracy _ (by omega) (by omega)).mono (by omega) (by omega)

theorem HasNormal.div {lo hi lo' hi' : Int} {x y : UnpackedFloat} (hx : HasNormal lo hi x)
    (hy : HasNormal lo' hi' y) (h : -1021 ≤ lo - hi') :
    HasNormal (lo - hi' - 53) (hi - lo' - 51) (UnpackedFloat.div Format.binary64 x y) := by
  obtain ⟨m, e, mpos, rfl, hm, hlo, hhi⟩ := hx
  obtain ⟨n, f, npos, rfl, hn, hlo', hhi'⟩ := hy
  obtain ⟨hmlow, hmhigh⟩ := (Nat.log2_eq_iff mpos.ne').1 hm
  obtain ⟨hnlow, hnhigh⟩ := (Nat.log2_eq_iff npos.ne').1 hn
  have hq : 2 ^ 52 ≤ m <<< 53 / n := by
    rw [Nat.le_div_iff_mul_le npos, Nat.shiftLeft_eq]
    omega
  exact (hasNormal_div hm hn (by omega) le_rfl hq).mono (by omega) (by omega)

theorem HasNormal.add {lo hi lo' hi' : Int} {x y : UnpackedFloat} (hx : HasNormal lo hi x)
    (hy : HasNormal lo' hi' y) (hlo : -1074 ≤ lo) :
    HasNormal lo (max hi hi' + 2) (UnpackedFloat.add Format.binary64 x y) := by
  obtain ⟨m, e, mpos, rfl, hm, hle, hge⟩ := hx
  obtain ⟨n, f, npos, rfl, hn, hle', hge'⟩ := hy
  simp only [UnpackedFloat.add, decreaseExponent, Sign.apply]
  generalize hk : (e - min e f).toNat = k
  generalize hl : (f - min e f).toNat = l
  have hmk := log2_shiftLeft mpos k
  have hnl := log2_shiftLeft npos l
  obtain ⟨hmlow, hmhigh⟩ := (Nat.log2_eq_iff (Nat.shiftLeft_pos_iff.2 mpos).ne').1 hmk
  obtain ⟨hnlow, hnhigh⟩ := (Nat.log2_eq_iff (Nat.shiftLeft_pos_iff.2 npos).ne').1 hnl
  rw [← Int.natCast_add]
  generalize hsum : m <<< k + n <<< l = sum
  have hlow : m.log2 + k ≤ sum.log2 := by
    rw [Nat.le_log2 (by omega)]
    omega
  have hhigh : sum.log2 < 54 + max k l := by
    have hm' : 2 ^ (m.log2 + k + 1) ≤ 2 ^ (53 + max k l) :=
      Nat.pow_le_pow_right (by decide) (by omega)
    have hn' : 2 ^ (n.log2 + l + 1) ≤ 2 ^ (53 + max k l) :=
      Nat.pow_le_pow_right (by decide) (by omega)
    rw [Nat.log2_lt (by omega), show 54 + max k l = (53 + max k l) + 1 by omega, Nat.pow_succ]
    omega
  exact (hasNormal_normalize (by omega) (by omega)).mono (by omega) (by omega)

/-! Stored numbers -/

/-- The leading bit is not stored. -/
theorem toNat_implicit_append {m : Nat} (pos : 0 < m) (hm : m.log2 = 52) :
    (1#1 ++ BitVec.ofNat 52 m).toNat = m := by
  obtain ⟨hlow, hhigh⟩ := (Nat.log2_eq_iff pos.ne').1 hm
  simp only [BitVec.toNat_append, BitVec.toNat_ofNat, Nat.shiftLeft_eq]
  change 1 * 2 ^ 52 ||| m % 2 ^ 52 = m
  rw [Nat.one_mul, Nat.or_comm, Nat.or_two_pow_eq_add_of_lt (Nat.mod_lt m (by positivity))]
  omega

theorem unpack_pack {m : Nat} {e : Int} (pos : 0 < m) (hm : m.log2 = 52) (hlo : -1074 ≤ e)
    (hhi : e ≤ 971) :
    (Float.Model.pack (.finite .positive m e pos)).unpack = .finite .positive m e pos := by
  obtain ⟨biased, rfl⟩ : ∃ n : Nat, e = (n : Int) - 1075 := ⟨(e + 1075).toNat, by omega⟩
  have hbiased : ((biased : Int) - 1075 + Format.binary64.exponentBias +
      Format.binary64.mantissaBitsWithoutImplicit).toNat = biased := by
    change ((biased : Int) - 1075 + 1023 + 52).toNat = biased
    omega
  have htoNat : (BitVec.ofNat 11 biased).toNat = biased := by
    rw [BitVec.toNat_ofNat]
    omega
  have hones : BitVec.ofNat 11 biased ≠ -1#11 := by
    rw [Ne, ← BitVec.toNat_inj, htoNat]
    change biased ≠ 2047
    omega
  have hzero : BitVec.ofNat 11 biased ≠ 0#11 := by
    rw [Ne, ← BitVec.toNat_inj, htoNat]
    change biased ≠ 0
    omega
  have hfits : ¬ 2 ^ 11 ≤ biased + 1 := by omega
  change UnpackedFloat.unpack Format.binary64 (UnpackedFloat.pack Format.binary64 _) = _
  simp only [UnpackedFloat.pack, hbiased, hm, if_neg hfits]
  rw [if_pos (by rfl)]
  simp only [UnpackedFloat.unpack, UnpackedFloat.unpackMantissa_packComponents,
    UnpackedFloat.unpackExponent_packComponents, UnpackedFloat.unpackSign_packComponents,
    UnpackedFloat.Sign.ofBitVec_toBitVec]
  rw [if_neg hones, if_neg hzero]
  simp only [htoNat, toNat_implicit_append pos hm]
  rfl

def IsNormal (lo hi : Int) (x : Float) : Prop := HasNormal lo hi x.toModel.unpack

/-- The stored zero without a sign. -/
def IsZero (x : Float) : Prop := x.toModel.unpack = .zero .positive

theorem HasNormal.isNormal {lo hi : Int} {x : UnpackedFloat} (h : HasNormal lo hi x)
    (hlo : -1074 ≤ lo) (hhi : hi ≤ 971) : IsNormal lo hi (.ofModel (.pack x)) := by
  obtain ⟨m, e, pos, rfl, hm, hle, hge⟩ := h
  exact ⟨m, e, pos, unpack_pack pos hm (by omega) (by omega), hm, hle, hge⟩

theorem IsNormal.isPositive {lo hi : Int} {x : Float} (h : IsNormal lo hi x) :
    isPositive x = true := by
  obtain ⟨m, e, pos, hx, -⟩ := h
  have hfinite : x.isFinite = true := by
    change x.toModel.unpack.isFinite = true
    rw [hx]
    rfl
  have hzero : (0.0 : Float).toModel.unpack = .zero .positive := rfl
  have hlt : (0.0 : Float) < x := by
    change decide ((0.0 : Float).toModel.unpack.lt x.toModel.unpack = true) = true
    rw [hx, hzero]
    rfl
  rw [VideoLink.isPositive, hfinite, decide_eq_true hlt]
  rfl

theorem IsNormal.div {lo hi lo' hi' : Int} {x y : Float} (hx : IsNormal lo hi x)
    (hy : IsNormal lo' hi' y) (hlo : -1021 ≤ lo - hi') (hhi : hi - lo' ≤ 1022) :
    IsNormal (lo - hi' - 53) (hi - lo' - 51) (x / y) :=
  (HasNormal.div hx hy hlo).isNormal (by omega) (by omega)

theorem IsNormal.add {lo hi lo' hi' : Int} {x y : Float} (hx : IsNormal lo hi x)
    (hy : IsNormal lo' hi' y) (hlo : -1074 ≤ lo) (hhi : max hi hi' ≤ 969) :
    IsNormal lo (max hi hi' + 2) (x + y) :=
  (HasNormal.add hx hy hlo).isNormal hlo (by omega)

theorem IsZero.div {lo hi : Int} {x y : Float} (hx : IsZero x) (hy : IsNormal lo hi y) :
    IsZero (x / y) := by
  obtain ⟨m, e, pos, hy, -⟩ := hy
  change (Float.Model.pack (UnpackedFloat.div Format.binary64 x.toModel.unpack
    y.toModel.unpack)).unpack = _
  rw [hx, hy]
  simp only [UnpackedFloat.div]
  rfl

theorem IsZero.add {lo hi : Int} {x y : Float} (hx : IsZero x) (hy : IsNormal lo hi y)
    (hlo : -1074 ≤ lo) (hhi : hi ≤ 971) : IsNormal lo hi (x + y) := by
  apply HasNormal.isNormal _ hlo hhi
  obtain ⟨m, e, pos, hy, hm⟩ := hy
  rw [hx, hy]
  exact ⟨m, e, pos, rfl, hm⟩

theorem IsNormal.add_zero {lo hi : Int} {x y : Float} (hx : IsNormal lo hi x) (hy : IsZero y)
    (hlo : -1074 ≤ lo) (hhi : hi ≤ 971) : IsNormal lo hi (x + y) := by
  apply HasNormal.isNormal _ hlo hhi
  obtain ⟨m, e, pos, hx, hm⟩ := hx
  rw [hx, hy]
  exact ⟨m, e, pos, rfl, hm⟩

theorem isZero_countAsFloat : IsZero (countAsFloat 0) := rfl

theorem isNormal_countAsFloat {n : Nat} (pos : 0 < n) (h : n < UInt64.size) :
    IsNormal (-52) 12 (countAsFloat n) := by
  have hlog : n.log2 < 64 := (Nat.log2_lt pos.ne').2 h
  have hn : HasNormal (-52) 12 (UnpackedFloat.normalize Format.binary64 n 0 .positive) :=
    (hasNormal_normalize pos (by omega)).mono (by omega) (by omega)
  change IsNormal (-52) 12
    (.ofModel (.pack (UnpackedFloat.normalize Format.binary64 n.toUInt64.toNat 0 .positive)))
  rw [show n.toUInt64.toNat = n from Nat.mod_eq_of_lt h]
  exact hn.isNormal (by decide) (by decide)

theorem isNormal_billion : IsNormal (-23) (-23) 1e9 :=
  ⟨8388608000000000, -23, by decide, rfl, by decide +kernel, by decide, by decide⟩

end VideoLink.Numeric

namespace VideoLink.Span

open VideoLink.Numeric

theorem isPositive_inSeconds {d : Span} (pos : 0 < d.nanos) (h : d.nanos ≤ longest.nanos) :
    isPositive d.inSeconds = true := by
  have hlt : d.nanos < nanosPerSecond * UInt64.size := Nat.lt_of_le_of_lt h (by decide)
  have hseconds : d.seconds < UInt64.size := Nat.div_lt_of_lt_mul hlt
  have hsubsecond : d.subsecond < UInt64.size := Nat.lt_trans (Nat.mod_lt _ (by decide)) (by decide)
  have hnanos : nanosPerSecond * d.seconds + d.subsecond = d.nanos := Nat.div_add_mod ..
  have hfraction (hpos : 0 < d.subsecond) :=
    (isNormal_countAsFloat hpos hsubsecond).div isNormal_billion (by decide) (by decide)
  unfold inSeconds
  rcases Nat.eq_zero_or_pos d.seconds with hs | hs <;>
    rcases Nat.eq_zero_or_pos d.subsecond with hf | hf
  · rw [hs, hf] at hnanos
    omega
  · rw [hs]
    exact (isZero_countAsFloat.add (hfraction hf) (by decide) (by decide)).isPositive
  · rw [hf]
    exact ((isNormal_countAsFloat hs hseconds).add_zero (isZero_countAsFloat.div isNormal_billion)
      (by decide) (by decide)).isPositive
  · exact ((isNormal_countAsFloat hs hseconds).add (hfraction hf) (by decide) (by decide)).isPositive

end VideoLink.Span
