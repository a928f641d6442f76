import VideoLink.Numeric.Binary64
import VideoLink.Numeric.Decimal

/-! The shortest decimal that reads back as a given floating-point number, and of those the nearest one.

A decimal reads back as the number when it lies in the number's rounding interval, whose ends halve the gaps
to the neighbouring numbers. On a decimal grid only the value's two neighbours need a test. -/
namespace VideoLink.Numeric

/-- A value with its rounding interval, in quarters of `unit / scale`. -/
structure RoundingInterval where
  low : Nat
  value : Nat
  high : Nat
  unit : Nat
  scale : Nat
  /-- Whether the ends round to the value too. -/
  closed : Bool
deriving Repr

namespace RoundingInterval

/-- The gap below the least mantissa of a binade is half as wide as the one above. -/
def ofMagnitude (v : Magnitude) : RoundingInterval where
  low := 4 * v.mantissa -
    if v.mantissa = 1 <<< Binary64.fractionBits ∧ Binary64.minExponent < v.exponent then 1 else 2
  value := 4 * v.mantissa
  high := 4 * v.mantissa + 2
  unit := 1 <<< v.exponent.toNat
  scale := 4 * v.denominator
  closed := v.mantissa % 2 = 0

/-- Whether `point * 10 ^ exponent` reads back as the value. -/
def contains (r : RoundingInterval) (point : Nat) (exponent : Int) : Bool :=
  let inner := point * Nat.pow 10 exponent.toNat * r.scale
  let low := r.low * r.unit * Nat.pow 10 (-exponent).toNat
  let high := r.high * r.unit * Nat.pow 10 (-exponent).toNat
  if r.closed then low ≤ inner && inner ≤ high else low < inner && inner < high

/-- The nearest grid point of `10 ^ exponent` that reads back as the value. Of two points at the same
distance the upper one is taken. -/
def nearest? (r : RoundingInterval) (exponent : Int) : Option Decimal :=
  let step := Nat.pow 10 exponent.toNat * r.scale
  let value := r.value * r.unit * Nat.pow 10 (-exponent).toNat
  let below := value / step
  let belowFirst := 2 * (value % step) < step
  let near := if belowFirst then below else below + 1
  let far := if belowFirst then below + 1 else below
  if r.contains near exponent then some ⟨near, exponent⟩
  else if r.contains far exponent then some ⟨far, exponent⟩
  else none

/-- The first hit on grids of more and more digits, from `10 ^ exponent` on. -/
def search (r : RoundingInterval) (exponent : Int) : Nat → Option Decimal
  | 0 => none
  | grids + 1 => r.nearest? exponent <|> r.search (exponent - 1) grids

end RoundingInterval

/-- A power of ten that makes every positive finite number at least one. -/
private def lift : Nat := 350

def Magnitude.leadingExponent (v : Magnitude) : Int :=
  ((toString (v.numerator * Nat.pow 10 lift / v.denominator)).length : Int) - 1 - lift

/-- Seventeen digits always suffice. -/
def Magnitude.shortest (v : Magnitude) : Decimal :=
  ((RoundingInterval.ofMagnitude v).search v.leadingExponent 17).elim ⟨0, 0⟩ Decimal.stripped

def shortestText (x : Float) : String :=
  match Binary64.ofFloat x with
  | .nan => "NaN"
  | .infinite negative => if negative then "-inf" else "inf"
  | .finite negative v =>
    (if negative then "-" else "") ++ if v.mantissa = 0 then "0" else v.shortest.positional

end VideoLink.Numeric
