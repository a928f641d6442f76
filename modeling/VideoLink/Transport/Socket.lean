import VideoLink.Fifo
import VideoLink.Packet
import VideoLink.Transport.Pieces

/-! The two ends of a byte stream. At the sending end a send goes into the buffer and is cut into segments
there; one that does not fit waits in a backlog and enters the buffer when it has drained far enough. No
send overtakes another. The backlog is bounded, and a send that would pass its bound is refused. -/
namespace VideoLink

structure TransportSettings where
  protocol : Protocol
  /-- The greatest payload of a packet. -/
  mss : Nat
  bufferBytes : Nat
  backlogBytes : Nat
  /-- Data packets for each acknowledgment. -/
  ackEvery : Nat
deriving DecidableEq, Repr

namespace TransportSettings

def standard : TransportSettings := ⟨.tcp, 1500, 131_072, 2_097_152, 2⟩

end TransportSettings

inductive TransportError
  | segmentTooLarge (size capacity : Nat)
  | backlogFull (size backlog : Nat)
  | connectionClosed
deriving DecidableEq, Repr

namespace TransportError

def message : TransportError → String
  | segmentTooLarge size capacity =>
    s!"segment of {size} bytes exceeds send buffer capacity {capacity}"
  | backlogFull size backlog =>
    s!"send backlog full: {backlog} bytes waiting, segment of {size} bytes refused"
  | connectionClosed => "connection closed"

end TransportError

/-- Where an accepted send went. -/
inductive SendStatus
  /-- Into the buffer. -/
  | queued
  /-- Into the backlog. -/
  | deferred
deriving DecidableEq, Repr

structure SocketStats where
  /-- Sends that entered the buffer. -/
  accepted : Nat := 0
  /-- Sends that entered the backlog. -/
  deferred : Nat := 0
  /-- Sends that the full backlog refused. -/
  refused : Nat := 0
  bytes : Nat := 0
  packets : Nat := 0
deriving DecidableEq, Repr

structure Socket where
  flow : FlowKey
  mss : Nat
  capacity : Nat
  maxBacklog : Nat
  /-- Payloads of the packets to come. -/
  pending : Fifo Nat := .empty
  /-- The sum of the pending payloads. -/
  buffered : Nat := 0
  /-- Sends that wait for room in the buffer. -/
  backlog : Fifo Nat := .empty
  /-- The sum of the waiting sends. -/
  backlogged : Nat := 0
  closed : Bool := false
  stats : SocketStats := {}

namespace Socket

def idle (flow : FlowKey) (settings : TransportSettings) : Socket :=
  { flow, mss := settings.mss, capacity := settings.bufferBytes, maxBacklog := settings.backlogBytes }

/-- Accepted bytes that have not been handed out. -/
def unsent (s : Socket) : Nat := s.buffered + s.backlogged

def fits (s : Socket) (bytes : Nat) : Bool := s.buffered + bytes ≤ s.capacity

def accept (s : Socket) (bytes : Nat) : Socket :=
  { s with
    pending := s.pending.pushAll (pieces s.mss bytes)
    buffered := s.buffered + bytes
    stats := { s.stats with accepted := s.stats.accepted + 1, bytes := s.stats.bytes + bytes } }

def defer (s : Socket) (bytes : Nat) : Socket :=
  { s with
    backlog := s.backlog.push bytes
    backlogged := s.backlogged + bytes
    stats := { s.stats with deferred := s.stats.deferred + 1 } }

def send (s : Socket) (bytes : Nat) : Except TransportError SendStatus × Socket :=
  if s.closed then (.error .connectionClosed, s)
  else if s.capacity < bytes then (.error (.segmentTooLarge bytes s.capacity), s)
  else if s.backlog.isEmpty ∧ s.fits bytes then (.ok .queued, s.accept bytes)
  else if s.maxBacklog < s.backlogged + bytes then
    (.error (.backlogFull bytes s.backlogged),
      { s with stats := { s.stats with refused := s.stats.refused + 1 } })
  else (.ok .deferred, s.defer bytes)

/-- Waiting sends enter the buffer, from the first one on and as long as they fit. -/
def acceptBacklog (s : Socket) : Socket :=
  match _ : s.backlog.pop? with
  | none => s
  | some (bytes, backlog) =>
    if s.fits bytes then
      acceptBacklog (({ s with backlog, backlogged := s.backlogged - bytes }).accept bytes)
    else s
termination_by s.backlog.size
decreasing_by
  have := Fifo.size_of_pop? ‹_›
  simp only [accept]
  omega

/-- The next packet, with a number from the counter. The room that it leaves is filled from the
backlog. -/
def next? (s : Socket) (uids : UidCounter) : Option (Packet × Socket × UidCounter) :=
  s.pending.pop?.map fun (payload, pending) =>
    let s := acceptBacklog { s with pending, buffered := s.buffered - payload }
    let (uid, uids) := uids.take
    (⟨uid, s.flow, payload, .data⟩,
      { s with stats := { s.stats with packets := s.stats.packets + 1 } }, uids)

def close (s : Socket) : Socket := { s with closed := true }

end Socket

structure AckCounter where
  /-- The flow of the answers. -/
  flow : FlowKey
  every : Nat
  /-- Data packets since the last answer. -/
  unanswered : Nat := 0
deriving DecidableEq, Repr

namespace AckCounter

/-- Answers the packets of `data`. A count of zero is taken as one. -/
def answering (data : FlowKey) (every : Nat) : AckCounter :=
  { flow := data.reversed, every := max every 1 }

/-- Counts one data packet. If an answer is due, it takes a number from the counter. -/
def onData (c : AckCounter) (uids : UidCounter) : Option Packet × AckCounter × UidCounter :=
  if c.unanswered + 1 < c.every then (none, { c with unanswered := c.unanswered + 1 }, uids)
  else
    let (uid, uids) := uids.take
    (some ⟨uid, c.flow, 0, .ack⟩, { c with unanswered := 0 }, uids)

end AckCounter

end VideoLink
