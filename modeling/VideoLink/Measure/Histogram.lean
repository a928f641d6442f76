import VideoLink.Time.Basic

/-! Histograms of spans. The bins have one width and lie side by side from zero on; the last one takes
everything beyond. A value on an edge belongs to the bin that starts there. -/
namespace VideoLink

inductive HistogramError
  | zeroBinWidth
  | noBins
  /-- No array holds so many counts. Nothing checks for this, and the program panics. -/
  | capacityOverflow
deriving DecidableEq, Repr

namespace HistogramError

def message : HistogramError → String
  | zeroBinWidth => "histogram bin width must be non-zero"
  | noBins => "histogram needs at least one bin"
  | capacityOverflow => "capacity overflow"

end HistogramError

structure Histogram where
  width : Span
  counts : Array Nat
  width_pos : 0 < width.nanos
  counts_pos : 0 < counts.size

/-- One bin of a histogram. The last bin has no end. -/
structure Bin where
  start : Span
  stop? : Option Span
  count : Nat
deriving DecidableEq, Repr

namespace Histogram

/-- The counts that fit an array: eight bytes each, in less than 2^63 bytes. -/
def mostBins : Nat := 0x0FFF_FFFF_FFFF_FFFF

/-- A histogram without values. The width is checked before the number of bins. -/
def new? (width : Span) (bins : Nat) : Except HistogramError Histogram :=
  if hw : 0 < width.nanos then
    if hb : 0 < bins then
      if bins ≤ mostBins then .ok ⟨width, Array.replicate bins 0, hw, by simpa using hb⟩
      else .error .capacityOverflow
    else .error .noBins
  else .error .zeroBinWidth

theorem of_new? {width : Span} {bins : Nat} {h : Histogram} (hnew : new? width bins = .ok h) :
    h.width = width ∧ h.counts = Array.replicate bins 0 ∧ bins ≤ mostBins := by
  unfold new? at hnew
  split at hnew
  · split at hnew
    · split at hnew
      · rename_i hmost
        cases hnew
        exact ⟨rfl, rfl, hmost⟩
      · cases hnew
    · cases hnew
  · cases hnew

def binCount (h : Histogram) : Nat := h.counts.size

def indexOf (h : Histogram) (value : Span) : Nat :=
  min (value.nanos / h.width.nanos) (h.binCount - 1)

theorem indexOf_lt (h : Histogram) (value : Span) : h.indexOf value < h.counts.size := by
  have := h.counts_pos
  unfold indexOf binCount
  omega

def add (h : Histogram) (value : Span) : Histogram :=
  let index := h.indexOf value
  have bound : index < h.counts.size := h.indexOf_lt value
  ⟨h.width, h.counts.modify index (· + 1), h.width_pos, by simpa using h.counts_pos⟩

/-- The start of the bin at a 32-bit index, or the longest span where that is shorter than the exact
start or the index is greater. -/
def edge (h : Histogram) (index : Nat) : Span :=
  if index < UInt32.size then (h.width.times? index).getD Span.longest else Span.longest

def binStart (h : Histogram) (index : Nat) : Span := h.edge index

def binEnd? (h : Histogram) (index : Nat) : Option Span :=
  if index + 1 < h.binCount then some (h.edge (index + 1)) else none

/-- The count of a bin, zero beyond the last one. -/
def count (h : Histogram) (index : Nat) : Nat := h.counts[index]?.getD 0

def total (h : Histogram) : Nat := h.counts.foldl (· + ·) 0

/-- The number of bins up to the last one that is not empty. -/
def usedBins (h : Histogram) : Nat :=
  (h.counts.toList.reverse.dropWhile (· = 0)).length

def bin (h : Histogram) (index : Nat) : Bin :=
  ⟨h.binStart index, h.binEnd? index, h.count index⟩

def bins (h : Histogram) : List Bin := (List.range h.binCount).map h.bin

def nonEmptyBins (h : Histogram) : List (Nat × Nat) :=
  (h.counts.toList.mapIdx fun index count => (index, count)).filter (0 < ·.2)

end Histogram

end VideoLink
