import VideoLink.Config.Error
import VideoLink.Transport.Pieces
import VideoLink.Transport.Socket

/-! Frames cut into segments, and segments handed to a sink until it refuses one. -/
namespace VideoLink

/-- The greatest segment, where nothing else is said: with its headers it fills 1500 bytes. -/
def standardMaxSegment : Nat := 1472

class SegmentSink (τ : Type) where
  send : τ → Nat → Except TransportError SendStatus × τ

instance : SegmentSink Socket := ⟨Socket.send⟩

/-- What became of the segments of one frame. -/
structure DispatchOutcome where
  /-- Segments that the sink took, and their bytes. -/
  segments : Nat := 0
  bytes : Nat := 0
  /-- Segments taken that wait in a backlog. -/
  deferred : Nat := 0
  /-- The refused segment and all after it, and their bytes. -/
  failed : Nat := 0
  failedBytes : Nat := 0
  error? : Option TransportError := none
deriving DecidableEq, Repr

namespace DispatchOutcome

def addTaken (o : DispatchOutcome) (size : Nat) (status : SendStatus) : DispatchOutcome :=
  { o with
    segments := o.segments + 1
    bytes := o.bytes + size
    deferred := match status with
      | .queued => o.deferred
      | .deferred => o.deferred + 1 }

/-- Counts a segment that the sink refused and those that were not offered. -/
def addRefused (o : DispatchOutcome) (size : Nat) (rest : List Nat) (error : TransportError) :
    DispatchOutcome :=
  { o with
    failed := rest.length + 1
    failedBytes := rest.foldl (· + ·) size
    error? := some error }

end DispatchOutcome

/-- Hands segments to a sink in order, up to the first one that it refuses. -/
def dispatch {τ : Type} [SegmentSink τ] (sink : τ) (sizes : List Nat) : DispatchOutcome × τ :=
  go {} sink sizes
where
  go (o : DispatchOutcome) (sink : τ) : List Nat → DispatchOutcome × τ
    | [] => (o, sink)
    | size :: rest =>
      match SegmentSink.send sink size with
      | (.ok status, sink) => go (o.addTaken size status) sink rest
      | (.error error, sink) => (o.addRefused size rest error, sink)

structure Segmenter where
  limit : Nat
  limit_pos : 0 < limit

namespace Segmenter

def new? (limit : Nat) : Except ConfigError Segmenter :=
  if h : 0 < limit then .ok ⟨limit, h⟩ else .error (.zero .maxSegment)

def sizes (g : Segmenter) (frame : Nat) : List Nat := pieces g.limit frame

def count (g : Segmenter) (frame : Nat) : Nat := pieceCount g.limit frame

def next? (g : Segmenter) (frame : Nat) : Option (Nat × Nat) :=
  if frame = 0 then none else some (min frame g.limit, frame - g.limit)

def send {τ : Type} [SegmentSink τ] (g : Segmenter) (sink : τ) (frame : Nat) : DispatchOutcome × τ :=
  dispatch sink (g.sizes frame)

end Segmenter

end VideoLink
