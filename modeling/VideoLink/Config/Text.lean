import VideoLink.Config.Basic

/-! A configuration as text, in sections. -/
namespace VideoLink

open Numeric

/-- Each line with a newline at its end. -/
def unlines (lines : List String) : String := String.join (lines.map (· ++ "\n"))

namespace Config

private def jitterText : Option JitterSettings → String
  | some jitter =>
    s!"Jitter: gamma shape {shortestText jitter.shape}, scale {fixedText 3 jitter.scale.inMillis} ms"
  | none => "Jitter: off"

def text (c : Config) : String := unlines [
  "=== Configuration ===",
  s!"Duration: {fixedText 3 c.duration.inSeconds} s",
  s!"Seed: {c.seed}",
  "",
  "=== Link ===",
  s!"Data rate: {c.link.rate} bps",
  s!"Delay: {fixedText 3 c.link.delay.inMillis} ms",
  s!"Device queue: {c.link.capacity} packets",
  "",
  "=== Video ===",
  s!"Uplink: {c.uplink}",
  s!"Downlink: {c.downlink}",
  s!"Quality: {c.quality.text} (scale {shortestText c.quality.scale}, shape {shortestText c.quality.shape})",
  s!"Frame interval: {fixedText 4 c.frameInterval.inSeconds} s",
  s!"Max segment: {c.maxSegment} bytes",
  jitterText c.jitter?,
  "",
  "=== Transport ===",
  s!"Protocol: {c.transport.protocol.text}",
  s!"MSS: {c.transport.mss} bytes",
  s!"Send buffer: {c.transport.bufferBytes} bytes",
  s!"Backlog limit: {c.transport.backlogBytes} bytes",
  s!"Capture: {c.capture}"]

end Config

end VideoLink
