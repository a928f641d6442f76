import VideoLink.Numeric.Places
import VideoLink.Time.Basic

/-! Times as floating-point seconds, and their text. -/
namespace VideoLink

open Numeric

def countAsFloat (n : Nat) : Float := n.toUInt64.toFloat

namespace Span

/-- Whole seconds and the part below a second are rounded one by one, then added. -/
def inSeconds (d : Span) : Float := countAsFloat d.seconds + countAsFloat d.subsecond / 1e9

def inMillis (d : Span) : Float := d.inSeconds * 1000.0

/-- The exact value in whole nanoseconds, a tie going to the even one. A span has no sign and at most
a 64-bit count of seconds. -/
def ofFloatSeconds? (seconds : Float) : Option Span :=
  match Binary64.ofFloat seconds with
  | .finite negative v =>
    let nanos := v.roundTimes .even nanosPerSecond
    if (negative ∧ v.mantissa ≠ 0) ∨ longest.nanos < nanos then none else some ⟨nanos⟩
  | _ => none

/-- The exact number of seconds, with no zero at the end of the fraction. -/
def exactText (d : Span) : String :=
  if d.subsecond = 0 then toString d.seconds
  else
    let digits := (padded 9 d.subsecond).toList.reverse.dropWhile (· = '0')
    s!"{d.seconds}.{String.ofList digits.reverse}"

end Span

namespace Instant

def inSeconds (t : Instant) : Float := countAsFloat t.nanos / 1e9

/-- The product with the nanoseconds in a second is rounded to a float first, then to a whole number,
a tie going up. What is not a positive finite number of seconds is the start. -/
def ofFloatSeconds (seconds : Float) : Instant :=
  if seconds.isFinite ∧ 0.0 < seconds then
    match Binary64.ofFloat (seconds * 1e9) with
    | .finite _ v => ofNanos (v.roundTimes .away 1)
    | _ => ofNanos UInt64.size
  else zero

/-- The reading in seconds with nine decimals. -/
def text (t : Instant) : String := s!"+{fixedText 9 t.inSeconds}s"

end Instant

end VideoLink
