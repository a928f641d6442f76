import VideoLink.Random.ChaCha
import VideoLink.Random.ZigguratLayers

/-! Standard normal and exponential numbers by the ziggurat method: a point in a random layer is taken if it
lies under the density, and the layer at the bottom stands for the tail too. -/
namespace VideoLink.Random

/-- Rounds after which a rejection method gives up. It rejects a few in a hundred, so this many in a
row do not come up. -/
def rejectionLimit : Nat := 10_000

/-- What the ziggurat method has to know of a distribution. -/
structure Ziggurat where
  edges : Array Float
  densities : Array Float
  /-- The place in a layer that a word gives, as a fraction of its edge. -/
  place : UInt64 → Float
  density : Float → Float
  /-- A number beyond the bottom layer's edge, on the side of a place. -/
  tail : Float → ChaCha → Float × ChaCha

namespace Ziggurat

def draw (z : Ziggurat) : Nat → ChaCha → Float × ChaCha
  | 0, g => (0.0, g)
  | rounds + 1, g =>
    let (word, g) := g.next
    let layer := (word &&& 0xff).toNat
    let place := z.place word
    let x := place * z.edges.getD layer 0.0
    if x.abs < z.edges.getD (layer + 1) 0.0 then (x, g)
    else if layer = 0 then z.tail place g
    else
      let (height, g) := g.next
      let lower := z.densities.getD layer 0.0
      let upper := z.densities.getD (layer + 1) 0.0
      if upper + (lower - upper) * closedOpen height < z.density x then (x, g)
      else draw z rounds g

end Ziggurat

/-- The edge of the normal distribution's bottom layer. -/
private def normalTail : Float := 3.654152885361008796

/-- A normal number beyond the edge, on the side of `place`. -/
private def drawNormalTail (place : Float) : Nat → ChaCha → Float × ChaCha
  | 0, g => (normalTail, g)
  | rounds + 1, g =>
    let (first, g) := g.next
    let (second, g) := g.next
    let x := Float.log (openOpen first) / normalTail
    let y := Float.log (openOpen second)
    if -2.0 * y < x * x then drawNormalTail place rounds g
    else (if place < 0.0 then x - normalTail else normalTail - x, g)

def standardNormal (g : ChaCha) : Float × ChaCha :=
  Ziggurat.draw
    { edges := normalEdges
      densities := normalDensities
      place := symmetric
      density := fun x => Float.exp (-x * x / 2.0)
      tail := fun place => drawNormalTail place rejectionLimit }
    rejectionLimit g

/-- The edge of the exponential distribution's bottom layer. -/
private def exponentialTail : Float := 7.697117470131050077

def standardExponential (g : ChaCha) : Float × ChaCha :=
  Ziggurat.draw
    { edges := exponentialEdges
      densities := exponentialDensities
      place := openOpen
      density := fun x => Float.exp (-x)
      tail := fun _ g =>
        let (word, g) := g.next
        (exponentialTail - Float.log (closedOpen word), g) }
    rejectionLimit g

end VideoLink.Random
