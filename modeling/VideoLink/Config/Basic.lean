import VideoLink.Link.Channel
import VideoLink.Measure.Monitor
import VideoLink.Transport.Socket
import VideoLink.Video.Pacer
import VideoLink.Video.Segments

/-! Configurations, and the settings that they are made from. -/
namespace VideoLink

structure Config where
  duration : Span
  link : LinkSettings
  /-- Whether video flows from the client to the server. -/
  uplink : Bool
  /-- Whether video flows from the server to the client. -/
  downlink : Bool
  capture : Bool
  quality : Quality
  frameInterval : Span
  maxSegment : Nat
  maxFrame : Nat
  /-- The gaps between segments, if they are paced. -/
  jitter? : Option JitterSettings
  transport : TransportSettings
  monitor : MonitorSettings
  seed : UInt64

def Config.hasVideo (c : Config) : Direction → Bool
  | .uplink => c.uplink
  | .downlink => c.downlink

/-- Settings as they are given, before any check. -/
structure Settings where
  durationSeconds : Float := 30.0
  linkDelayMillis : Float := 10.0
  linkRate : Nat := LinkSettings.standard.rate
  queueCapacity : Nat := LinkSettings.standard.capacity
  uplink : Bool := false
  downlink : Bool := true
  capture : Bool := false
  quality : Nat := 1
  frameIntervalSeconds : Float := 0.0333
  maxSegment : Nat := standardMaxSegment
  maxFrame : Nat := standardMaxFrame
  hasJitter : Bool := false
  gammaShape : Float := JitterSettings.standard.shape
  gammaScaleMillis : Float := JitterSettings.standard.scale.inMillis
  protocol : Protocol := TransportSettings.standard.protocol
  mss : Nat := TransportSettings.standard.mss
  sendBuffer : Nat := TransportSettings.standard.bufferBytes
  maxBacklog : Nat := TransportSettings.standard.backlogBytes
  ackEvery : Nat := TransportSettings.standard.ackEvery
  delayBinSeconds : Float := MonitorSettings.standard.delayBinWidth.inSeconds
  jitterBinSeconds : Float := MonitorSettings.standard.jitterBinWidth.inSeconds
  bins : Nat := MonitorSettings.standard.bins
  seed : UInt64 := 1

namespace Settings

/-- A positive number of seconds that is not rounded to zero. -/
def positiveSpan (setting : Setting) (seconds : Float) : Except ConfigError Span :=
  match Span.ofFloatSeconds? seconds with
  | some span => if 0 < span.nanos then .ok span else .error (.nonPositiveDuration setting seconds)
  | none => .error (.nonPositiveDuration setting seconds)

def positive (setting : Setting) (value : Nat) : Except ConfigError Unit :=
  if value = 0 then .error (.zero setting) else .ok ()

def jitter? (s : Settings) : Except ConfigError (Option JitterSettings) :=
  if s.hasJitter then
    let scale := s.gammaScaleMillis / 1000.0
    match Span.ofFloatSeconds? scale with
    | some span =>
      if isPositive s.gammaShape && 0 < span.nanos then .ok (some ⟨s.gammaShape, span⟩)
      else .error (.invalidGamma s.gammaShape scale)
    | none => .error (.invalidGamma s.gammaShape scale)
  else .ok none

/-- The configuration, or the first setting found to be wrong. -/
def check (s : Settings) : Except ConfigError Config := do
  let quality ← Quality.ofNumber? s.quality
  let duration ← positiveSpan .simulationDuration s.durationSeconds
  let frameInterval ← positiveSpan .frameInterval s.frameIntervalSeconds
  let delay ← match Span.ofFloatSeconds? (s.linkDelayMillis / 1000.0) with
    | some delay => .ok delay
    | none => .error (.invalidLinkDelay s.linkDelayMillis)
  let delayBinWidth ← positiveSpan .delayBinWidth s.delayBinSeconds
  let jitterBinWidth ← positiveSpan .jitterBinWidth s.jitterBinSeconds
  let jitter? ← s.jitter?
  positive .linkRate s.linkRate
  positive .queueCapacity s.queueCapacity
  positive .maxSegment s.maxSegment
  positive .maxFrame s.maxFrame
  positive .mss s.mss
  positive .sendBuffer s.sendBuffer
  positive .ackFrequency s.ackEvery
  positive .binCount s.bins
  return {
    duration
    link := ⟨s.linkRate, delay, s.queueCapacity⟩
    uplink := s.uplink
    downlink := s.downlink
    capture := s.capture
    quality
    frameInterval
    maxSegment := s.maxSegment
    maxFrame := s.maxFrame
    jitter?
    transport := ⟨s.protocol, s.mss, s.sendBuffer, s.maxBacklog, s.ackEvery⟩
    monitor := { MonitorSettings.standard with delayBinWidth, jitterBinWidth, bins := s.bins }
    seed := s.seed }

end Settings

end VideoLink
