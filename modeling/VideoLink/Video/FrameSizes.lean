import VideoLink.Config.Error
import VideoLink.Numeric.Binary64
import VideoLink.Random.Draws
import VideoLink.Random.Weibull
import VideoLink.Video.Quality

/-! Random frame sizes: Weibull numbers rounded down, drawn again when they are too great. -/
namespace VideoLink

open VideoLink.Random Numeric

/-- Draws after which a value in range is no longer waited for. -/
def maxRedraws : Nat := 1000

/-- The limit of the frame sizes, where nothing else is said. -/
def standardMaxFrame : Nat := 1_500_000

structure FrameSizes where
  law : Weibull
  /-- Every size is below the limit. -/
  limit : Nat
  limit_pos : 0 < limit
  generator : ChaCha

namespace FrameSizes

/-- The sizes for a seed. The parameters of the distribution are checked before the limit. -/
def new? (scale shape : Float) (limit : Nat) (seed : UInt64) : Except ConfigError FrameSizes :=
  if isPositive scale && isPositive shape then
    if h : 0 < limit then .ok ⟨⟨scale, shape⟩, limit, h, ChaCha.ofSeed seed 0⟩
    else .error (.zero .maxFrame)
  else .error (.invalidWeibull scale shape)

def ofQuality? (quality : Quality) (seed : UInt64) : Except ConfigError FrameSizes :=
  new? quality.scale quality.shape standardMaxFrame seed

/-- A number rounded down, if it is below the limit. What is negative counts as zero. -/
def wholeBelow? (limit : Nat) (x : Float) : Option Nat :=
  match Binary64.ofFloat x with
  | .nan => none
  | .infinite negative => if negative then some 0 else none
  | .finite negative v =>
    if negative then some 0 else if v.floor < limit then some v.floor else none

def draw (s : FrameSizes) : Nat × FrameSizes :=
  let (size?, generator) := Draws.retry s.law.draw (wholeBelow? s.limit) maxRedraws s.generator
  (size?.getD (s.limit - 1), { s with generator })

instance : Draws FrameSizes Nat := ⟨draw⟩

/-- The mean of the distribution, before any size is drawn again. -/
def mean (s : FrameSizes) : Float := s.law.mean

theorem lt_of_wholeBelow? {limit size : Nat} {x : Float} (pos : 0 < limit)
    (h : wholeBelow? limit x = some size) : size < limit := by
  unfold wholeBelow? at h
  grind

theorem draw_lt (s : FrameSizes) : s.draw.1 < s.limit := by
  have pos := s.limit_pos
  unfold draw
  generalize h : Draws.retry s.law.draw (wholeBelow? s.limit) maxRedraws s.generator = r
  obtain ⟨size?, generator⟩ := r
  cases size? with
  | none => simp only [Option.getD_none]; omega
  | some size =>
    obtain ⟨x, hx⟩ := Draws.exists_of_retry (congrArg Prod.fst h)
    exact lt_of_wholeBelow? pos hx

end FrameSizes

end VideoLink
