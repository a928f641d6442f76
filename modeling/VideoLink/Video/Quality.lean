import VideoLink.Config.Error

/-! The six levels of video quality, each with the distribution of its frame sizes. -/
namespace VideoLink

inductive Quality
  | bv1
  | bv2
  | bv3
  | bv4
  | bv5
  | bv6
deriving DecidableEq, Repr, Inhabited

namespace Quality

def number : Quality → Nat
  | bv1 => 1
  | bv2 => 2
  | bv3 => 3
  | bv4 => 4
  | bv5 => 5
  | bv6 => 6

def ofNumber? : Nat → Except ConfigError Quality
  | 1 => .ok bv1
  | 2 => .ok bv2
  | 3 => .ok bv3
  | 4 => .ok bv4
  | 5 => .ok bv5
  | 6 => .ok bv6
  | number => .error (.invalidQuality number)

def text (q : Quality) : String := s!"bv{q.number}"

/-- The Weibull scale of the frame sizes, in bytes. -/
def scale : Quality → Float
  | bv1 => 6950.0
  | bv2 => 13900.0
  | bv3 => 20850.0
  | bv4 => 27800.0
  | bv5 => 34750.0
  | bv6 => 54210.0

def shape (_ : Quality) : Float := 0.8099

end Quality

end VideoLink
