import VideoLink.Config.Basic
import VideoLink.Session.Notice
import VideoLink.Video.FrameSource

/-! The state of a run between two events. Frame sizes and gaps are drawn from any two supplies `σ` and `γ`.
-/
namespace VideoLink

inductive Event
  | frameTick (direction : Direction)
  | segmentDue (direction : Direction)
  | wireFree (direction : Direction)
  | arrival (direction : Direction) (packet : Packet)
  | stop
deriving DecidableEq, Repr

/-- The random supplies of one direction. Its segments are paced if there is one of gaps. -/
structure Feed (σ γ : Type) where
  sizes : σ
  gaps? : Option γ

/-- The video of one direction, from the source to the acknowledgments of the far end. -/
structure Generator (σ γ : Type) where
  source : FrameSource σ
  pacer? : Option (Pacer γ)
  socket : Socket
  acks? : Option AckCounter

/-- The outcome of a run. -/
structure Summary where
  endTime : Instant
  processed : Nat
  /-- Events that were pending at the end. -/
  discarded : Nat
  lost : Nat
deriving DecidableEq, Repr

structure Session (σ γ : Type) where
  config : Config
  events : EventQueue Event
  link : Link
  segmenter : Segmenter
  generators : Duplex (Option (Generator σ γ))
  monitor : Monitor
  uids : UidCounter
  capture : Capture
  processed : Nat
  journal : Array Notice
  summary? : Option Summary

namespace Session

variable {σ γ : Type}

def note (s : Session σ γ) (n : Notice) : Session σ γ := { s with journal := s.journal.push n }

def noteAny (s : Session σ γ) (n? : Option Notice) : Session σ γ := n?.elim s s.note

def generator? (s : Session σ γ) (d : Direction) : Option (Generator σ γ) := s.generators.get d

def setGenerator (s : Session σ γ) (d : Direction) (g : Generator σ γ) : Session σ γ :=
  { s with generators := s.generators.set d (some g) }

def directions (s : Session σ γ) : List Direction :=
  Direction.all.filter fun d => (s.generator? d).isSome

def dataFlow? (s : Session σ γ) (d : Direction) : Option FlowKey :=
  (s.generator? d).map fun _ => videoFlow s.config.transport.protocol d

def ackFlow? (s : Session σ γ) (d : Direction) : Option FlowKey :=
  match s.config.transport.protocol with
  | .tcp => (s.dataFlow? d).map FlowKey.reversed
  | .udp => none

def schedule (s : Session σ γ) (time : Instant) (e : Event) : Session σ γ :=
  { s with events := (s.events.schedule time e).2 }

def addGenerator (s : Session σ γ) (d : Direction) (feed : Feed σ γ) : Session σ γ :=
  let c := s.config
  let flow := videoFlow c.transport.protocol d
  let source : FrameSource σ :=
    { sizes := feed.sizes
      interval := c.frameInterval
      start := .zero
      stop := Instant.zero.after c.duration }
  let (_, source, events) := source.arm s.events (.frameTick d)
  let g : Generator σ γ :=
    { source
      pacer? := feed.gaps?.map fun gaps => { gaps }
      socket := .idle flow c.transport
      acks? := match c.transport.protocol with
        | .tcp => some (.answering flow c.transport.ackEvery)
        | .udp => none }
  { s with events }.setGenerator d g

/-- A run before its first event. The stop is submitted before all else, so it comes first among the
events of its instant. -/
def start (config : Config) (monitor : Monitor) (segmenter : Segmenter)
    (feeds : Duplex (Option (Feed σ γ))) : Session σ γ :=
  let stop := Instant.zero.after config.duration
  let empty : Session σ γ :=
    { config
      events := (EventQueue.empty.schedule stop .stop).2
      link := .idle config.link
      segmenter
      generators := ⟨none, none⟩
      monitor
      uids := .start
      capture := { enabled := config.capture }
      processed := 0
      journal := #[]
      summary? := none }
  let s := Direction.all.foldl
    (fun s d => (feeds.get d).elim s (s.addGenerator d)) empty
  let s := if s.directions.isEmpty then s.note .noVideo else s
  s.note (.topologyBuilt stop config.link.rate config.link.delay config.transport.protocol)

end Session

end VideoLink
