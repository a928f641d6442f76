/-! Natural numbers and decimal fractions as text. -/
namespace VideoLink.Numeric

/-- The value `coefficient * 10 ^ exponent`. -/
structure Decimal where
  coefficient : Nat
  exponent : Int
deriving DecidableEq, Repr

/-- `n` in decimal, with zeros in front up to `width` digits. -/
def padded (width n : Nat) : String :=
  let digits := toString n
  "".pushn '0' (width - digits.length) ++ digits

/-- `n / 10 ^ places` with exactly `places` digits after the point. -/
def withPlaces (places n : Nat) : String :=
  if places = 0 then toString n
  else s!"{n / Nat.pow 10 places}.{padded places (n % Nat.pow 10 places)}"

namespace Decimal

/-- At most `n` zeros at the end of the coefficient moved into the exponent. -/
def dropZeros : Nat → Decimal → Decimal
  | 0, d => d
  | n + 1, d =>
    if d.coefficient % 10 = 0 then dropZeros n ⟨d.coefficient / 10, d.exponent + 1⟩ else d

/-- The same value with no zero at the end of a positive coefficient. -/
def stripped (d : Decimal) : Decimal := dropZeros d.coefficient.log2 d

/-- Digits and a point where one is needed, and no exponent. -/
def positional (d : Decimal) : String :=
  withPlaces (-d.exponent).toNat (d.coefficient * Nat.pow 10 d.exponent.toNat)

end Decimal

end VideoLink.Numeric
