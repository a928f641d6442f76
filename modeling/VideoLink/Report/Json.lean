import VideoLink.Json.Basic
import VideoLink.Report.Basic

/-! Records and reports as JSON documents. -/
namespace VideoLink

def Span.json (d : Span) : Json := .object [("secs", .nat d.seconds), ("nanos", .nat d.subsecond)]

def Instant.json (t : Instant) : Json := .nat t.nanos

def Protocol.name : Protocol → String
  | tcp => "Tcp"
  | udp => "Udp"

def Direction.name : Direction → String
  | uplink => "Uplink"
  | downlink => "Downlink"

def FlowKey.json (k : FlowKey) : Json := .object [
  ("source", .text k.source.text),
  ("destination", .text k.destination.text),
  ("source_port", .nat k.sourcePort.toNat),
  ("destination_port", .nat k.destinationPort.toNat),
  ("protocol", .text k.protocol.name)]

def Histogram.json (h : Histogram) : Json := .object [
  ("bin_width", h.width.json),
  ("counts", .list (h.counts.toList.map .nat))]

def FlowRecord.json (r : FlowRecord) : Json := .object [
  ("tx_packets", .nat r.sent.packets),
  ("tx_bytes", .nat r.sent.bytes),
  ("rx_packets", .nat r.received.packets),
  ("rx_bytes", .nat r.received.bytes),
  ("lost_packets", .nat r.lost),
  ("unattributed_packets", .nat r.unattributed),
  ("delay_sum", r.delays.sum.json),
  ("jitter_sum", r.jitters.sum.json),
  ("first_tx", .ofOption Instant.json r.sent.first?),
  ("last_tx", .ofOption Instant.json r.sent.last?),
  ("first_rx", .ofOption Instant.json r.received.first?),
  ("last_rx", .ofOption Instant.json r.received.last?),
  ("delay_histogram", r.delays.histogram.json),
  ("jitter_histogram", r.jitters.histogram.json)]

def FlowEntry.json (f : FlowEntry) : Json := .object [
  ("id", .nat f.id),
  ("key", f.key.json),
  ("record", f.record.json)]

def FlowSnapshot.json (s : FlowSnapshot) : Json := .object [
  ("flows", .list (s.flows.map FlowEntry.json)),
  ("unattributed", .nat s.unattributed),
  ("in_flight", .nat s.inFlight)]

def GeneratorStats.json (s : GeneratorStats) : Json := .object [
  ("frames", .nat s.frames),
  ("bytes_generated", .nat s.bytes),
  ("segments_issued", .nat s.segments),
  ("segments_deferred", .nat s.deferred),
  ("segments_failed", .nat s.failed),
  ("bytes_failed", .nat s.failedBytes)]

def SocketStats.json (s : SocketStats) : Json := .object [
  ("sends_accepted", .nat s.accepted),
  ("sends_deferred", .nat s.deferred),
  ("sends_refused", .nat s.refused),
  ("bytes_accepted", .nat s.bytes),
  ("packets_emitted", .nat s.packets)]

def GeneratorReport.json (g : GeneratorReport) : Json := .object [
  ("direction", .text g.direction.name),
  ("stats", g.stats.json),
  ("socket", g.socket.json)]

def Diagnostics.json (d : Diagnostics) : Json := .object [
  ("unattributed", .nat d.unattributed),
  ("ack_drops", .nat d.ackDrops),
  ("discarded_events", .nat d.discarded),
  ("captured_events", .nat d.captured)]

def RunParameters.json (p : RunParameters) : Json := .object [
  ("duration", p.duration.json),
  ("quality", .text p.quality.text),
  ("scale", .float p.scale),
  ("shape", .float p.shape),
  ("frame_interval", p.frameInterval.json),
  ("protocol", .text p.protocol.name),
  ("link_rate_bps", .nat p.linkRate),
  ("link_delay", p.linkDelay.json),
  ("uplink", .bool p.uplink),
  ("downlink", .bool p.downlink),
  ("has_jitter", .bool p.hasJitter),
  ("seed", .nat p.seed.toNat)]

def Report.json (r : Report) : Json := .object [
  ("parameters", r.parameters.json),
  ("flows", r.flows.json),
  ("generators", .list (r.generators.map GeneratorReport.json)),
  ("diagnostics", r.diagnostics.json)]

end VideoLink
