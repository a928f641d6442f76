import VideoLink.Link.Direction
import VideoLink.Numeric.Places
import VideoLink.Packet
import VideoLink.Time.Seconds
import VideoLink.Transport.Socket
import VideoLink.Video.Quality

/-! The journal of a run: notices of what happened, each with a severity and named fields. -/
namespace VideoLink

inductive Severity
  | error
  | warn
  | info
  | debug
  | trace
deriving DecidableEq, Repr, Ord

namespace Severity

def all : List Severity := [error, warn, info, debug, trace]

def name : Severity → String
  | error => "ERROR"
  | warn => "WARN"
  | info => "INFO"
  | debug => "DEBUG"
  | trace => "TRACE"

def isWithin (s level : Severity) : Bool := (compare s level).isLE

end Severity

inductive CapturePoint
  | transmit
  | receive
deriving DecidableEq, Repr

namespace CapturePoint

def text : CapturePoint → String
  | transmit => "Transmit"
  | receive => "Receive"

end CapturePoint

inductive Notice
  | generatorConfigured (direction : Direction) (quality : Quality) (meanFrame : Float) (paced : Bool)
  | noVideo
  | topologyBuilt (stop : Instant) (rate : Nat) (delay : Span) (protocol : Protocol)
  | started (generators : Nat)
  | frameGenerated (index size : Nat) (now : Instant)
  | sendFailed (direction : Direction) (segments bytes : Nat) (error : TransportError)
  | ackDropped (direction : Direction) (uid : Nat)
  | unmatchedArrival (flow : FlowKey)
  | captured (point : CapturePoint) (direction : Direction) (now : Instant) (packet : Packet)
  | generatorStopped (direction : Direction) (unpacedBytes unsentBytes queuedPackets : Nat)
  | stopped (stop : Instant) (processed discarded lost inFlight : Nat)

inductive FieldValue
  | text (value : String)
  | nat (value : Nat)
  | bool (value : Bool)
deriving DecidableEq, Repr

namespace Notice

open Numeric

def severity : Notice → Severity
  | generatorConfigured .. | topologyBuilt .. | started .. | stopped .. => .info
  | noVideo | sendFailed .. | ackDropped .. | unmatchedArrival .. => .warn
  | frameGenerated .. | generatorStopped .. => .debug
  | captured .. => .trace

/-- What the notice says. A captured packet has fields alone. -/
def message? : Notice → Option String
  | generatorConfigured .. => some "video generator configured"
  | noVideo => some "no video direction enabled, the run will carry no traffic"
  | topologyBuilt .. => some "topology built"
  | started .. => some "simulation started"
  | frameGenerated .. => some "frame generated"
  | sendFailed .. => some "segment send failed"
  | ackDropped .. => some "device queue full, ACK dropped"
  | unmatchedArrival .. => some "receive without a matching send, sample excluded"
  | captured .. => none
  | generatorStopped .. => some "generator stopped"
  | stopped .. => some "simulation stopped"

/-- A floating-point field has ten significant digits. -/
private def float (x : Float) : FieldValue := .text (scientificText 9 x)

def fields : Notice → List (String × FieldValue)
  | generatorConfigured direction quality meanFrame paced => [
    ("direction", .text direction.text),
    ("quality", .text quality.text),
    ("mean_frame_bytes", float meanFrame),
    ("paced", .bool paced)]
  | noVideo => []
  | topologyBuilt stop rate delay protocol => [
    ("duration", .text stop.text),
    ("rate_bps", .nat rate),
    ("delay_ms", float delay.inMillis),
    ("protocol", .text protocol.text)]
  | started generators => [("generators", .nat generators)]
  | frameGenerated index size now => [
    ("index", .nat index),
    ("size_bytes", .nat size),
    ("now", .text now.text)]
  | sendFailed direction segments bytes error => [
    ("direction", .text direction.text),
    ("failed_segments", .nat segments),
    ("failed_bytes", .nat bytes),
    ("error", .text error.message)]
  | ackDropped direction uid => [("direction", .text direction.text), ("uid", .nat uid)]
  | unmatchedArrival flow => [("flow", .text flow.text)]
  | captured point direction now packet => [
    ("point", .text point.text),
    ("direction", .text direction.text),
    ("now", .text now.text),
    ("uid", .nat packet.uid),
    ("src", .text packet.flow.source.text),
    ("dst", .text packet.flow.destination.text),
    ("sport", .nat packet.flow.sourcePort.toNat),
    ("dport", .nat packet.flow.destinationPort.toNat),
    ("size", .nat packet.size),
    ("kind", .text packet.kind.text)]
  | generatorStopped direction unpacedBytes unsentBytes queuedPackets => [
    ("direction", .text direction.text),
    ("unpaced_bytes", .nat unpacedBytes),
    ("unsent_bytes", .nat unsentBytes),
    ("queued_packets", .nat queuedPackets)]
  | stopped stop processed discarded lost inFlight => [
    ("end", .text stop.text),
    ("events_processed", .nat processed),
    ("discarded_events", .nat discarded),
    ("lost_packets", .nat lost),
    ("in_flight", .nat inFlight)]

end Notice

/-- Sees the packets that enter and leave the wire, if it is on. -/
structure Capture where
  enabled : Bool
  count : Nat := 0
deriving DecidableEq, Repr

namespace Capture

def see (c : Capture) (point : CapturePoint) (d : Direction) (now : Instant) (p : Packet) :
    Option Notice × Capture :=
  if c.enabled then (some (.captured point d now p), { c with count := c.count + 1 })
  else (none, c)

end Capture

end VideoLink
