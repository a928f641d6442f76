import VideoLink.Numeric.Shortest

/-! What can be wrong with a configuration. -/
namespace VideoLink

/-- A setting that has to be positive. -/
inductive Setting
  | simulationDuration
  | frameInterval
  | delayBinWidth
  | jitterBinWidth
  | linkRate
  | queueCapacity
  | maxSegment
  | maxFrame
  | mss
  | sendBuffer
  | ackFrequency
  | binCount
deriving DecidableEq, Repr

namespace Setting

def label : Setting → String
  | simulationDuration => "simulation duration"
  | frameInterval => "frame interval"
  | delayBinWidth => "delay bin width"
  | jitterBinWidth => "jitter bin width"
  | linkRate => "link data rate"
  | queueCapacity => "link queue capacity"
  | maxSegment => "maximum segment size"
  | maxFrame => "maximum frame size"
  | mss => "transport MSS"
  | sendBuffer => "send buffer size"
  | ackFrequency => "ACK frequency"
  | binCount => "histogram bin count"

end Setting

inductive ConfigError
  | invalidQuality (number : Nat)
  | nonPositiveDuration (setting : Setting) (seconds : Float)
  | invalidLinkDelay (millis : Float)
  | invalidWeibull (scale shape : Float)
  | invalidGamma (shape scale : Float)
  | zero (setting : Setting)
deriving Repr

namespace ConfigError

open Numeric

def message : ConfigError → String
  | invalidQuality number => s!"video quality {number} is invalid, expected 1 through 6"
  | nonPositiveDuration setting seconds =>
    s!"{setting.label} must be a positive number of seconds, got {shortestText seconds}"
  | invalidLinkDelay millis =>
    s!"link delay must be a non-negative number of milliseconds, got {shortestText millis}"
  | invalidWeibull scale shape =>
    s!"weibull parameters must be positive: scale {shortestText scale}, shape {shortestText shape}"
  | invalidGamma shape scale =>
    s!"gamma parameters must be positive: shape {shortestText shape}, scale {shortestText scale} s"
  | zero setting => s!"{setting.label} must be greater than zero"

end ConfigError

/-- Whether a number is finite and greater than zero. -/
def isPositive (x : Float) : Bool := x.isFinite && 0.0 < x

end VideoLink
