import VideoLink.Session.Progress
import VideoLink.Report.Basic

/-! Runs with random supplies made from a configuration, from the first event to the last, and their reports. -/
namespace VideoLink

/-- Why a run cannot be set up, or what a part of it refused. -/
inductive SessionError
  | config (error : ConfigError)
  | transport (error : TransportError)
  | histogram (error : HistogramError)
deriving Repr

namespace SessionError

def message : SessionError → String
  | config error => s!"configuration error: {error.message}"
  | transport error => s!"transport error: {error.message}"
  | histogram error => s!"histogram error: {error.message}"

end SessionError

namespace Config

/-- The two directions have seeds of their own. -/
def directionSeed (c : Config) : Direction → UInt64
  | .uplink => c.seed * 2
  | .downlink => c.seed * 2 + 1

def feed? (c : Config) (d : Direction) :
    Except ConfigError (Option (Feed FrameSizes GapTimes)) :=
  if c.hasVideo d then do
    let seed := c.directionSeed d
    let sizes ← FrameSizes.new? c.quality.scale c.quality.shape c.maxFrame seed
    let gaps? ← match c.jitter? with
      | some jitter => (GapTimes.new? jitter c.frameInterval seed).map some
      | none => .ok none
    return some ⟨sizes, gaps?⟩
  else .ok none

def feedNotice? (c : Config) (d : Direction) (feed? : Option (Feed FrameSizes GapTimes)) :
    Option Notice :=
  feed?.map fun feed => .generatorConfigured d c.quality feed.sizes.mean feed.gaps?.isSome

end Config

namespace Session

/-- Sets up a run: the monitor first, then the segments, then the video of the uplink and of the
downlink. -/
def build? (c : Config) : Except SessionError (Session FrameSizes GapTimes) := do
  let monitor ← (Monitor.new? c.monitor).mapError .histogram
  let segmenter ← (Segmenter.new? c.maxSegment).mapError .config
  let up ← (c.feed? .uplink).mapError .config
  let down ← (c.feed? .downlink).mapError .config
  let s := start c monitor segmenter ⟨up, down⟩
  let configured := (c.feedNotice? .uplink up).toList ++ (c.feedNotice? .downlink down).toList
  return { s with journal := configured.toArray ++ s.journal }

variable {σ γ : Type}

section

variable [Draws σ Nat] [Draws γ Span]

def runEvents (s : Session σ γ) : Session σ γ :=
  match _ : s.step? with
  | none => s
  | some t => runEvents t
termination_by (s.framesLeft, s.work)
decreasing_by exact decreases_of_step? ‹_›

/-- The summary of a run whose events ran out before its stop. -/
def exhausted (s : Session σ γ) : Summary := ⟨s.events.now, s.processed, 0, 0⟩

/-- Runs to the end. A run that is over stays as it is. -/
def run (s : Session σ γ) : Summary × Session σ γ :=
  match s.summary? with
  | some summary => (summary, s)
  | none =>
    let generators := s.directions.length
    let s := (s.note (.started generators)).runEvents
    let summary := s.summary?.getD s.exhausted
    (summary, { s with summary? := some summary })

end

def generatorReport? (s : Session σ γ) (d : Direction) : Option GeneratorReport :=
  (s.generator? d).map fun g => ⟨d, g.source.stats, g.socket.stats⟩

def diagnostics (s : Session σ γ) : Diagnostics where
  unattributed := s.monitor.unattributed
  ackDrops := (s.link.stats .uplink).drops + (s.link.stats .downlink).drops
  discarded := s.summary?.elim 0 Summary.discarded
  captured := s.capture.count

def report (s : Session σ γ) : Report where
  parameters := .ofConfig s.config
  flows := s.monitor.snapshot
  generators := Direction.all.filterMap s.generatorReport?
  diagnostics := s.diagnostics

end Session

end VideoLink
