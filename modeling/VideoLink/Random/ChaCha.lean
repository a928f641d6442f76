import VideoLink.Random.Draws

/-! The stream of the ChaCha cipher with eight rounds, as a supply of 64-bit words. A seed gives the key;
streams of one key with different numbers have nothing in common. -/
namespace VideoLink.Random

/-- The sixteen words of a cipher state. -/
abbrev Block := Vector UInt32 16

private def rotateLeft (x : UInt32) (n : UInt32) : UInt32 := (x <<< n) ||| (x >>> (32 - n))

private def rotateRight (x : UInt32) (n : UInt32) : UInt32 := (x >>> n) ||| (x <<< (32 - n))

private def mix (s : Block) (i j k l : Fin 16) : Block :=
  let a := s[i] + s[j]
  let d := rotateLeft (s[l] ^^^ a) 16
  let c := s[k] + d
  let b := rotateLeft (s[j] ^^^ c) 12
  let a := a + b
  let d := rotateLeft (d ^^^ a) 8
  let c := c + d
  let b := rotateLeft (b ^^^ c) 7
  (((s.set i a).set j b).set k c).set l d

/-- One round on the columns and one on the diagonals. -/
private def doubleRound (s : Block) : Block :=
  let s := mix s 0 4 8 12
  let s := mix s 1 5 9 13
  let s := mix s 2 6 10 14
  let s := mix s 3 7 11 15
  let s := mix s 0 5 10 15
  let s := mix s 1 6 11 12
  let s := mix s 2 7 8 13
  mix s 3 4 9 14

/-- The words of the key for a seed, and the seed advanced past each of them. -/
def keyWords : Nat → UInt64 → List UInt32
  | 0, _ => []
  | n + 1, seed =>
    let seed := seed * 6364136223846793005 + 11634580027462260723
    let folded := (((seed >>> 18) ^^^ seed) >>> 27).toUInt32
    rotateRight folded (seed >>> 59).toUInt32 :: keyWords n seed

structure ChaCha where
  key : List UInt32
  stream : UInt64
  /-- The number of the next block. -/
  block : UInt64 := 0
  /-- Words of the present block that have not been drawn. -/
  ready : List UInt64 := []

namespace ChaCha

def ofSeed (seed stream : UInt64) : ChaCha := { key := keyWords 8 seed, stream }

private def low (x : UInt64) : UInt32 := x.toUInt32

private def high (x : UInt64) : UInt32 := (x >>> 32).toUInt32

/-- The state before the rounds: four constants, the key, the block's number and the stream's. -/
private def initial (g : ChaCha) : Block :=
  let words := [0x61707865, 0x3320646e, 0x79622d32, 0x6b206574] ++ g.key ++
    [low g.block, high g.block, low g.stream, high g.stream]
  Vector.ofFn fun i => words.getD i 0

private def joinPairs : List UInt32 → List UInt64
  | low :: high :: rest => (low.toUInt64 ||| (high.toUInt64 <<< 32)) :: joinPairs rest
  | _ => []

def blockWords (g : ChaCha) : List UInt64 :=
  let start := g.initial
  let stop := doubleRound (doubleRound (doubleRound (doubleRound start)))
  joinPairs (Vector.zipWith (· + ·) stop start).toList

def next (g : ChaCha) : UInt64 × ChaCha :=
  match g.ready with
  | word :: ready => (word, { g with ready })
  | [] =>
    match g.blockWords with
    | word :: ready => (word, { g with block := g.block + 1, ready })
    | [] => (0, g)

instance : Draws ChaCha UInt64 := ⟨next⟩

end ChaCha

/-! Words turned into uniform floating-point numbers. -/

private def grain : Float := Float.ofBits 0x3ca0000000000000

/-- In the unit interval with its upper end and without its lower one. -/
def openClosed (word : UInt64) : Float := ((word >>> 11) + 1).toFloat * grain

/-- In the unit interval with its lower end and without its upper one. -/
def closedOpen (word : UInt64) : Float := (word >>> 11).toFloat * grain

/-- The upper 52 bits as the fraction of a number from one up to two. -/
private def fraction (word : UInt64) : Float := Float.ofBits ((word >>> 12) ||| 0x3ff0000000000000)

/-- In the unit interval without its ends. -/
def openOpen (word : UInt64) : Float := fraction word - (1.0 - grain)

/-- Between minus one and one. -/
def symmetric (word : UInt64) : Float :=
  Float.ofBits ((word >>> 12) ||| 0x4000000000000000) - 3.0

end VideoLink.Random
