import VideoLink.Numeric.Shortest

/-! JSON documents and their indented text. The fields of an object keep their order. -/
namespace VideoLink

inductive Json
  | null
  | bool (value : Bool)
  | nat (value : Nat)
  | float (value : Float)
  | text (value : String)
  | list (items : List Json)
  | object (fields : List (String × Json))

namespace Json

open Numeric

def ofOption {α : Type} (encode : α → Json) : Option α → Json
  | some a => encode a
  | none => null

def hexDigit (n : Nat) : Char := "0123456789abcdef".toList.getD n '0'

def escape (c : Char) : String :=
  match c with
  | '"' => "\\\""
  | '\\' => "\\\\"
  | '\n' => "\\n"
  | '\r' => "\\r"
  | '\t' => "\\t"
  | '\x08' => "\\b"
  | '\x0c' => "\\f"
  | c =>
    if c.toNat < 0x20 then
      "\\u00" ++ String.ofList [hexDigit (c.toNat / 16), hexDigit (c.toNat % 16)]
    else c.toString

def quoted (text : String) : String := "\"" ++ String.join (text.toList.map escape) ++ "\""

/-- The shortest digits that read back: with a point from a hundred-thousandth up to ten to the
sixteenth, else with one digit before the point and an exponent. -/
def magnitudeText (v : Magnitude) : String :=
  if v.mantissa = 0 then "0.0"
  else
    let d := v.shortest
    let digits := toString d.coefficient
    let lead := d.exponent + digits.length
    if -5 < lead ∧ lead ≤ 16 then
      if 0 ≤ d.exponent then d.positional ++ ".0" else d.positional
    else
      let exponent := s!"e{lead - 1}"
      if digits.length = 1 then digits ++ exponent
      else withPlaces (digits.length - 1) d.coefficient ++ exponent

/-- Only finite numbers have a JSON text. -/
def floatText (x : Float) : String :=
  match Binary64.ofFloat x with
  | .finite negative v => (if negative then "-" else "") ++ magnitudeText v
  | _ => "null"

def indentation (depth : Nat) : String := "".pushn ' ' (2 * depth)

/-- Items on lines of their own between two brackets. -/
def block (start stop : String) (depth : Nat) (items : List String) : String :=
  if items.isEmpty then start ++ stop
  else
    let lines := items.map fun item => indentation (depth + 1) ++ item
    start ++ "\n" ++ ",\n".intercalate lines ++ "\n" ++ indentation depth ++ stop

mutual

/-- The text with two spaces of indentation for each level below `depth`. -/
def prettyAt (depth : Nat) : Json → String
  | null => "null"
  | bool value => toString value
  | nat value => toString value
  | float value => floatText value
  | text value => quoted value
  | list items => block "[" "]" depth (prettyItems (depth + 1) items)
  | object fields => block "\x7b" "\x7d" depth (prettyFields (depth + 1) fields)

def prettyItems (depth : Nat) : List Json → List String
  | [] => []
  | item :: items => prettyAt depth item :: prettyItems depth items

def prettyFields (depth : Nat) : List (String × Json) → List String
  | [] => []
  | (name, value) :: fields =>
    (quoted name ++ ": " ++ prettyAt depth value) :: prettyFields depth fields

end

def pretty (j : Json) : String := j.prettyAt 0

end Json

end VideoLink
