import VideoLink.Numeric.Rounding

/-! The exact value of a binary floating-point number, and its roundings to whole multiples. -/
namespace VideoLink.Numeric

/-- The value `mantissa * 2 ^ exponent`. -/
structure Magnitude where
  mantissa : Nat
  exponent : Int
deriving DecidableEq, Repr

namespace Magnitude

/-- The value is `numerator / denominator`. -/
def numerator (v : Magnitude) : Nat := v.mantissa <<< v.exponent.toNat

def denominator (v : Magnitude) : Nat := 1 <<< (-v.exponent).toNat

/-- The integer nearest to `factor` times the value. -/
def roundTimes (tie : Tie) (v : Magnitude) (factor : Nat) : Nat :=
  roundDiv tie (v.numerator * factor) v.denominator

def floor (v : Magnitude) : Nat := v.numerator / v.denominator

theorem denominator_pos (v : Magnitude) : 0 < v.denominator := by
  rw [denominator, Nat.one_shiftLeft]
  exact Nat.two_pow_pos _

end Magnitude

inductive Binary64
  | nan
  | infinite (negative : Bool)
  | finite (negative : Bool) (magnitude : Magnitude)
deriving DecidableEq, Repr

namespace Binary64

def minExponent : Int := -1074

/-- The mantissa bits below the leading one. -/
def fractionBits : Nat := 52

def ofWord (word : Nat) : Binary64 :=
  let negative := decide (1 <<< 63 ≤ word)
  let field : Nat := (word >>> fractionBits) % 2048
  let fraction := word % (1 <<< fractionBits)
  if field = 2047 then
    if fraction = 0 then .infinite negative else .nan
  else if field = 0 then .finite negative ⟨fraction, minExponent⟩
  else .finite negative ⟨(1 <<< fractionBits) + fraction, (field : Int) - 1075⟩

def ofFloat (x : Float) : Binary64 := ofWord x.toBits.toNat

end Binary64

end VideoLink.Numeric
