import Std.Data.TreeMap.Lemmas
import VideoLink.Flow
import VideoLink.Measure.FlowRecord

/-! The monitor of all flows. It remembers when each packet was sent until the packet arrives or is given up
for lost. An arrival that matches no packet sent before is kept out of the counters and samples. -/
namespace VideoLink

structure MonitorSettings where
  delayBinWidth : Span
  jitterBinWidth : Span
  bins : Nat
  /-- The longest time that a packet may be under way without being given up. -/
  maxDelay : Span
deriving DecidableEq, Repr

namespace MonitorSettings

def standard : MonitorSettings := ⟨.ofMillis 1, .ofMillis 1, 1000, .ofSeconds 10⟩

end MonitorSettings

structure InFlight where
  flow : FlowKey
  sentAt : Instant
deriving DecidableEq, Repr

structure Monitor where
  maxDelay : Span
  /-- The record of a flow that has just been seen for the first time. -/
  fresh : FlowRecord
  /-- The flows in the order in which they were first seen. -/
  flows : List (FlowKey × FlowRecord) := []
  inFlight : Std.TreeMap Nat InFlight := ∅
  unattributed : Nat := 0

/-- A flow with its number in the order of first sight, from one on. -/
structure FlowEntry where
  id : Nat
  key : FlowKey
  record : FlowRecord

structure FlowSnapshot where
  flows : List FlowEntry
  unattributed : Nat
  inFlight : Nat

namespace FlowSnapshot

def find? (s : FlowSnapshot) (key : FlowKey) : Option FlowEntry :=
  s.flows.find? (·.key = key)

end FlowSnapshot

namespace Monitor

/-- A monitor that has seen nothing. The layout of the delay histogram is checked first. -/
def new? (s : MonitorSettings) : Except HistogramError Monitor := do
  let delays ← Histogram.new? s.delayBinWidth s.bins
  let jitters ← Histogram.new? s.jitterBinWidth s.bins
  return { maxDelay := s.maxDelay, fresh := .empty delays jitters }

/-- Applies `f` to the record of a flow, which is entered last if it is new. -/
def updateRecords (fresh : FlowRecord) (key : FlowKey) (f : FlowRecord → FlowRecord) :
    List (FlowKey × FlowRecord) → List (FlowKey × FlowRecord)
  | [] => [(key, f fresh)]
  | (k, r) :: rest => if k = key then (k, f r) :: rest else (k, r) :: updateRecords fresh key f rest

def update (m : Monitor) (key : FlowKey) (f : FlowRecord → FlowRecord) : Monitor :=
  { m with flows := updateRecords m.fresh key f m.flows }

def countSent (m : Monitor) (key : FlowKey) (bytes : Nat) (now : Instant) : Monitor :=
  m.update key (·.addSent bytes now)

def countUnattributed (m : Monitor) (key : FlowKey) : Monitor :=
  { m with unattributed := m.unattributed + 1 }.update key (·.addUnattributed)

/-- Counts a packet at its receiver and tells its delay, which a packet that arrives before it was sent
does not have. -/
def countReceived (m : Monitor) (key : FlowKey) (bytes : Nat) (sentAt now : Instant) :
    Option Span × Monitor :=
  match now.since? sentAt with
  | some delay => (some delay, m.update key (·.addReceived bytes now delay))
  | none => (none, m.countUnattributed key)

/-- Counts a packet at its sender and remembers it under its number. -/
def send (m : Monitor) (key : FlowKey) (uid bytes : Nat) (now : Instant) : Monitor :=
  let m := m.countSent key bytes now
  { m with inFlight := m.inFlight.insert uid ⟨key, now⟩ }

/-- Counts the arrival of a packet and forgets it. A packet that was sent in another flow is lost to
that flow. -/
def receive (m : Monitor) (key : FlowKey) (uid bytes : Nat) (now : Instant) :
    Option Span × Monitor :=
  match m.inFlight[uid]? with
  | some packet =>
    let m := { m with inFlight := m.inFlight.erase uid }
    if packet.flow = key then m.countReceived key bytes packet.sentAt now
    else (none, (m.update packet.flow (·.addLost)).countUnattributed key)
  | none => (none, m.countUnattributed key)

def isOverdue (m : Monitor) (now : Instant) (packet : InFlight) : Bool :=
  m.maxDelay < now.elapsed packet.sentAt

/-- Gives up the overdue packets and tells their number. -/
def giveUp (m : Monitor) (now : Instant) : Nat × Monitor :=
  let overdue := m.inFlight.toList.filter fun (_, packet) => m.isOverdue now packet
  let kept := m.inFlight.filter fun _ packet => !m.isOverdue now packet
  (overdue.length,
    overdue.foldl (fun m (_, packet) => m.update packet.flow (·.addLost))
      { m with inFlight := kept })

def flow? (m : Monitor) (key : FlowKey) : Option FlowRecord := m.flows.lookup key

def inFlightCount (m : Monitor) : Nat := m.inFlight.size

def snapshot (m : Monitor) : FlowSnapshot where
  flows := m.flows.mapIdx fun i (key, record) => ⟨i + 1, key, record⟩
  unattributed := m.unattributed
  inFlight := m.inFlightCount

end Monitor

end VideoLink
