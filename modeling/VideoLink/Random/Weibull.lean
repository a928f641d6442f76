import VideoLink.Random.ChaCha

/-! The Weibull distribution: its draws, and its mean by the gamma function. -/
namespace VideoLink.Random

structure Weibull where
  scale : Float
  shape : Float

namespace Weibull

/-- The distribution function inverted at a uniform number. -/
def draw (w : Weibull) (g : ChaCha) : Float × ChaCha :=
  let (word, g) := g.next
  (w.scale * Float.pow (-Float.log (openClosed word)) (1.0 / w.shape), g)

/-- Coefficients of the partial fractions in the approximation of the gamma function. -/
private def fractions : List Float := [
  1.05142378581721974210, -3.45687097222016235469, 4.51227709466894823700,
  -2.98285225323576655721, 1.05639711577126713077, -1.95428773191645869583e-1,
  1.70970543404441224307e-2, -5.71926117404305781283e-4, 4.63399473359905636708e-6,
  -2.71994908488607703910e-9]

def gammaFunction (z : Float) : Float :=
  let sum := (fractions.foldl
    (fun (sum, k) coefficient => (sum + coefficient / (z + k - 1.0), k + 1.0))
    (2.48574089138753565546e-5, 1.0)).1
  sum * 1.8603827342052657173362492472666631120594218414085755 *
    Float.pow ((z - 0.5 + 10.900511) / 2.718281828459045) (z - 0.5)

def mean (w : Weibull) : Float := w.scale * gammaFunction (1.0 + 1.0 / w.shape)

end Weibull

end VideoLink.Random
