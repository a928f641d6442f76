import VideoLink.Measure.Histogram

/-! What is known of one flow: its traffic at both ends, and the delays and jitters of its packets. -/
namespace VideoLink

structure Traffic where
  packets : Nat := 0
  bytes : Nat := 0
  first? : Option Instant := none
  last? : Option Instant := none
deriving DecidableEq, Repr

namespace Traffic

def add (t : Traffic) (bytes : Nat) (now : Instant) : Traffic where
  packets := t.packets + 1
  bytes := t.bytes + bytes
  first? := t.first? <|> some now
  last? := some now

end Traffic

structure Samples where
  sum : Span
  histogram : Histogram

namespace Samples

def empty (histogram : Histogram) : Samples := ⟨.zero, histogram⟩

def add (s : Samples) (value : Span) : Samples := ⟨s.sum + value, s.histogram.add value⟩

/-- The sum shared by `n` samples, rounded down. The divisor has 32 bits. -/
def mean? (s : Samples) (n : Nat) : Option Span :=
  if 0 < n ∧ n < UInt32.size then some (s.sum.divided n) else none

end Samples

structure FlowRecord where
  sent : Traffic := {}
  received : Traffic := {}
  lost : Nat := 0
  /-- Arrivals that match no packet sent before. -/
  unattributed : Nat := 0
  delays : Samples
  /-- The differences between the delays of successive arrivals. -/
  jitters : Samples
  lastDelay? : Option Span := none

namespace FlowRecord

def empty (delays jitters : Histogram) : FlowRecord :=
  { delays := .empty delays, jitters := .empty jitters }

def addSent (r : FlowRecord) (bytes : Nat) (now : Instant) : FlowRecord :=
  { r with sent := r.sent.add bytes now }

/-- Counts an arrival at `now` after `delay`. All but the first one have a jitter. -/
def addReceived (r : FlowRecord) (bytes : Nat) (now : Instant) (delay : Span) : FlowRecord :=
  { r with
    received := r.received.add bytes now
    delays := r.delays.add delay
    jitters := match r.lastDelay? with
      | some last => if 0 < r.received.packets then r.jitters.add (delay.distance last) else r.jitters
      | none => r.jitters
    lastDelay? := some delay }

def addLost (r : FlowRecord) : FlowRecord := { r with lost := r.lost + 1 }

def addUnattributed (r : FlowRecord) : FlowRecord := { r with unattributed := r.unattributed + 1 }

def meanDelay? (r : FlowRecord) : Option Span := r.delays.mean? r.received.packets

def meanJitter? (r : FlowRecord) : Option Span := r.jitters.mean? (r.received.packets - 1)

end FlowRecord

end VideoLink
