import VideoLink.Config.Basic
import VideoLink.Video.FrameSource

/-! What is reported of a run. -/
namespace VideoLink

/-- The settings that a report repeats. -/
structure RunParameters where
  duration : Span
  quality : Quality
  scale : Float
  shape : Float
  frameInterval : Span
  protocol : Protocol
  linkRate : Nat
  linkDelay : Span
  uplink : Bool
  downlink : Bool
  hasJitter : Bool
  seed : UInt64

namespace RunParameters

def ofConfig (c : Config) : RunParameters where
  duration := c.duration
  quality := c.quality
  scale := c.quality.scale
  shape := c.quality.shape
  frameInterval := c.frameInterval
  protocol := c.transport.protocol
  linkRate := c.link.rate
  linkDelay := c.link.delay
  uplink := c.uplink
  downlink := c.downlink
  hasJitter := c.jitter?.isSome
  seed := c.seed

end RunParameters

structure GeneratorReport where
  direction : Direction
  stats : GeneratorStats
  socket : SocketStats

/-- Counters that belong to no single flow. -/
structure Diagnostics where
  /-- Arrivals that match no packet sent before. -/
  unattributed : Nat := 0
  /-- Acknowledgments that found a queue full. -/
  ackDrops : Nat := 0
  /-- Events that were pending at the end. -/
  discarded : Nat := 0
  captured : Nat := 0
deriving DecidableEq, Repr

structure Report where
  parameters : RunParameters
  flows : FlowSnapshot
  generators : List GeneratorReport
  diagnostics : Diagnostics

end VideoLink
