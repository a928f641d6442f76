import VideoLink.Config.Text
import VideoLink.Report.Basic
import VideoLink.Time.Seconds

/-! The report of a run as text: its settings, a table for each flow, and the counters. -/
namespace VideoLink

open Numeric

/-- Divides by a thousand and goes on to the next unit, as long as the value is at least a thousand and
a unit is left. -/
def bitRateIn (value : Float) (unit : String) : List String → String
  | [] => s!"{fixedText 3 value} {unit}"
  | next :: units =>
    if 1000.0 ≤ value then bitRateIn (value / 1000.0) next units
    else s!"{fixedText 3 value} {unit}"

/-- A rate in bits per second with three decimals. The unit is chosen before the rounding. -/
def bitRateText (rate : Float) : String := bitRateIn rate "bps" ["kbps", "Mbps", "Gbps", "Tbps"]

/-- The mean rate of some bytes over a number of seconds, zero if that is not positive. -/
def bitsPerSecond (bytes : Nat) (seconds : Float) : Float :=
  if 0.0 < seconds then countAsFloat bytes * 8.0 / seconds else 0.0

def millisText : Option Span → String
  | some span => s!"{fixedText 3 span.inMillis} ms"
  | none => "n/a"

def leftAligned (width : Nat) (text : String) : String := text.pushn ' ' (width - text.length)

namespace Histogram

/-- Three columns with a bar and a tab between them. -/
def tableRow (start stop count : String) : String :=
  s!"{leftAligned 15 start} |\t{leftAligned 15 stop} |\t{leftAligned 15 count}"

def binRow (b : Bin) : String :=
  tableRow b.start.exactText (b.stop?.elim "inf" Span.exactText) (toString b.count)

/-- The bins up to the last one that is not empty, and at least one. -/
def shownBins (h : Histogram) : List Bin := (List.range (max h.usedBins 1)).map h.bin

/-- A heading, the bins shown, a rule and an empty line. -/
def tableLines (h : Histogram) : List String :=
  tableRow "Bin Start (s)" "Bin End (s)" "Packet Count" :: h.shownBins.map binRow ++
    ["-----------------", ""]

end Histogram

namespace FlowEntry

def lines (f : FlowEntry) (seconds : Float) : List String :=
  let r := f.record
  [s!"Flow {f.id} ({f.key.source.text} -> {f.key.destination.text})",
    s!"  Protocol:   {f.key.protocol.text} {f.key.sourcePort} -> {f.key.destinationPort}",
    s!"  Tx Packets: {r.sent.packets}",
    s!"  Tx Bytes:   {r.sent.bytes}",
    s!"  TxOffered:  {bitRateText (bitsPerSecond r.sent.bytes seconds)}",
    s!"  Rx Packets: {r.received.packets}",
    s!"  Rx Bytes:   {r.received.bytes}",
    s!"  Throughput: {bitRateText (bitsPerSecond r.received.bytes seconds)}",
    s!"  Lost Packets: {r.lost}",
    s!"  Mean Delay:  {millisText r.meanDelay?}",
    s!"  Mean Jitter: {millisText r.meanJitter?}"] ++
  (if 0 < r.unattributed then [s!"  Unattributed: {r.unattributed}"] else []) ++
  ["Delay Histogram"] ++ r.delays.histogram.tableLines ++
  ["Jitter Histogram"] ++ r.jitters.histogram.tableLines

end FlowEntry

namespace FlowSnapshot

def tableLines (s : FlowSnapshot) (duration : Span) : List String :=
  if s.flows.isEmpty then ["No flows observed.", ""]
  else s.flows.flatMap (·.lines duration.inSeconds)

def tableText (s : FlowSnapshot) (duration : Span) : String := unlines (s.tableLines duration)

end FlowSnapshot

def onOff (enabled : Bool) : String := if enabled then "on" else "off"

namespace RunParameters

def lines (p : RunParameters) : List String :=
  ["=== Video traffic report ===",
    s!"Duration: {fixedText 3 p.duration.inSeconds} s | " ++
      s!"Quality: {p.quality.text} (scale {shortestText p.scale}, shape {shortestText p.shape}) | " ++
      s!"Frame interval: {shortestText p.frameInterval.inSeconds} s | Jitter: {onOff p.hasJitter}",
    s!"Link: {bitRateText (countAsFloat p.linkRate)}, {fixedText 3 p.linkDelay.inMillis} ms | " ++
      s!"Transport: {p.protocol.text} | Uplink: {onOff p.uplink} | " ++
      s!"Downlink: {onOff p.downlink} | Seed: {p.seed}"] ++
  match p.protocol with
  | .tcp =>
    ["Note: TCP acknowledgments use the reverse 5-tuple and are listed as separate flows.", ""]
  | .udp => [""]

end RunParameters

namespace GeneratorReport

def lines (g : GeneratorReport) : List String :=
  let s := g.stats
  [s!"{g.direction.text}: frames {s.frames}, bytes {s.bytes}, " ++
      s!"mean frame {fixedText 1 s.meanFrame} bytes, segments {s.segments}, " ++
      s!"deferred {s.deferred}, failed {s.failed} ({s.failedBytes} bytes)",
    s!"  socket: accepted {g.socket.accepted} ({g.socket.bytes} bytes), " ++
      s!"deferred {g.socket.deferred}, refused {g.socket.refused}, packets {g.socket.packets}"]

end GeneratorReport

namespace Report

def text (r : Report) : String :=
  let d := r.diagnostics
  unlines (r.parameters.lines ++ r.flows.tableLines r.parameters.duration ++
    ["=== Generators ==="] ++
    (if r.generators.isEmpty then ["(none enabled)"] else r.generators.flatMap (·.lines)) ++
    ["", "=== Diagnostics ===",
      s!"Unattributed samples: {d.unattributed} | ACK drops: {d.ackDrops} | " ++
        s!"In flight at end: {r.flows.inFlight} | Discarded events: {d.discarded} | " ++
        s!"Captured events: {d.captured}"])

end Report

end VideoLink
