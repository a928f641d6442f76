import VideoLink.Random.Ziggurat

/-! The gamma distribution, drawn by squeezing a normal number's cube. -/
namespace VideoLink.Random

structure Gamma where
  shape : Float
  scale : Float

namespace Gamma

/-- Draws for a shape of `d + 1 / 3` above one. -/
private def drawCube (d c scale : Float) : Nat → ChaCha → Float × ChaCha
  | 0, g => (0.0, g)
  | rounds + 1, g =>
    let (x, g) := standardNormal g
    let root := 1.0 + c * x
    if root ≤ 0.0 then drawCube d c scale rounds g
    else
      let v := root * root * root
      let (word, g) := g.next
      let u := openOpen word
      let square := x * x
      if u < 1.0 - 0.0331 * square * square ∨
          Float.log u < 0.5 * square + d * (1.0 - v + Float.log v) then (d * v * scale, g)
      else drawCube d c scale rounds g

private def drawLarge (shape scale : Float) (g : ChaCha) : Float × ChaCha :=
  let d := shape - 1.0 / 3.0
  drawCube d (1.0 / Float.sqrt (9.0 * d)) scale rejectionLimit g

/-- A shape of one is the exponential distribution, and a smaller one is raised by one and made up for
by the power of a uniform number. -/
def draw (p : Gamma) (g : ChaCha) : Float × ChaCha :=
  if p.shape == 1.0 then
    let (x, g) := standardExponential g
    (x * (1.0 / (1.0 / p.scale)), g)
  else if p.shape < 1.0 then
    let (word, g) := g.next
    let (large, g) := drawLarge (p.shape + 1.0) p.scale g
    (large * Float.pow (openOpen word) (1.0 / p.shape), g)
  else drawLarge p.shape p.scale g

end Gamma

end VideoLink.Random
