import VideoLink.Numeric.Shortest

/-! Floating-point numbers with a fixed count of decimals. A tie goes to the even last digit. -/
namespace VideoLink.Numeric

private def signed (negative : Bool) (text : String) : String :=
  if negative then "-" ++ text else text

/-- The exact value rounded to `places` decimals. -/
def fixedText (places : Nat) (x : Float) : String :=
  match Binary64.ofFloat x with
  | .nan => "NaN"
  | .infinite negative => signed negative "inf"
  | .finite negative v => signed negative (withPlaces places (v.roundTimes .even (Nat.pow 10 places)))

/-- The value rounded to `places + 1` digits, the first of them that of `10 ^ exponent`. -/
private def significant (v : Magnitude) (places : Nat) (exponent : Int) : Nat :=
  let shift := (places : Int) - exponent
  roundDiv .even (v.numerator * Nat.pow 10 shift.toNat)
    (v.denominator * Nat.pow 10 (-shift).toNat)

/-- One digit, a point, `places` decimals and the exponent of ten. -/
def scientificText (places : Nat) (x : Float) : String :=
  match Binary64.ofFloat x with
  | .nan => "NaN"
  | .infinite negative => signed negative "inf"
  | .finite negative v =>
    if v.mantissa = 0 then signed negative s!"{withPlaces places 0}e0"
    else
      let exponent := v.leadingExponent
      let digits := significant v places exponent
      if digits < Nat.pow 10 (places + 1) then
        signed negative s!"{withPlaces places digits}e{exponent}"
      else signed negative s!"{withPlaces places (Nat.pow 10 places)}e{exponent + 1}"

end VideoLink.Numeric
