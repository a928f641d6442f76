import VideoLink.Numeric.Decimal

/-! Decimal text read as the nearest floating-point number. -/
namespace VideoLink.Numeric

/-- The floating-point number nearest to the value: infinite above the greatest finite number, and
zero below half the least positive one. -/
def Decimal.toFloat (d : Decimal) : Float :=
  let lead := (d.coefficient.log2 : Int) * 3 / 10 + d.exponent
  if d.coefficient = 0 ∨ lead < -400 then 0.0
  else if 400 < lead then 1.0 / 0.0
  else if 0 ≤ d.exponent then Float.ofScientific d.coefficient false d.exponent.toNat
  else Float.ofScientific d.coefficient true (-d.exponent).toNat

private def digitsValue (digits : List Char) : Nat :=
  digits.foldl (fun value digit => 10 * value + (digit.toNat - '0'.toNat)) 0

def readDigits? (digits : List Char) : Option Nat :=
  if digits.isEmpty ∨ !digits.all Char.isDigit then none else some (digitsValue digits)

private def splitSign : List Char → Bool × List Char
  | '-' :: rest => (true, rest)
  | '+' :: rest => (false, rest)
  | rest => (false, rest)

private def readSigned? (text : List Char) : Option Int :=
  let (negative, digits) := splitSign text
  (readDigits? digits).map fun n => if negative then -(n : Int) else n

/-- An optional sign and digits, with a value from zero on and below `limit`. Only a zero may have a
minus sign. -/
def readInteger? (limit : Nat) (text : String) : Option Nat :=
  ((readSigned? text.toList).bind Int.toNat?).filter (· < limit)

/-- An optional plus sign and digits, with a value below `limit`. -/
def readNatural? (limit : Nat) (text : String) : Option Nat :=
  let digits := match text.toList with
    | '+' :: rest => rest
    | digits => digits
  (readDigits? digits).filter (· < limit)

private def readExponent? : List Char → Option Int
  | [] => some 0
  | mark :: rest =>
    if mark = 'e' ∨ mark = 'E' then readSigned? rest else none

/-- Digits with an optional point, at least one digit, and an optional exponent. -/
private def readDecimal? (text : List Char) : Option Decimal :=
  let whole := text.takeWhile Char.isDigit
  let rest := text.dropWhile Char.isDigit
  let (fraction, rest) := match rest with
    | '.' :: rest => (rest.takeWhile Char.isDigit, rest.dropWhile Char.isDigit)
    | rest => ([], rest)
  if whole.isEmpty ∧ fraction.isEmpty then none
  else (readExponent? rest).map fun exponent =>
    ⟨digitsValue (whole ++ fraction), exponent - fraction.length⟩

/-- An optional sign, then a decimal number or the name of infinity or of the undefined number. -/
def readFloat? (text : String) : Option Float :=
  let (negative, body) := splitSign text.toList
  let magnitude? :=
    match (String.ofList body).toLower with
    | "inf" | "infinity" => some (1.0 / 0.0)
    | "nan" => some (0.0 / 0.0)
    | _ => (readDecimal? body).map Decimal.toFloat
  magnitude?.map fun magnitude => if negative then -magnitude else magnitude

end VideoLink.Numeric
