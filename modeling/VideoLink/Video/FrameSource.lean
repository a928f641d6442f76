import VideoLink.EventQueue.Basic
import VideoLink.Random.Draws
import VideoLink.Time.Seconds
import VideoLink.Video.Segments

/-! The source of frames: one frame of random size at every multiple of an interval, until it stops. -/
namespace VideoLink

structure Frame where
  /-- Counted from zero. -/
  index : Nat
  /-- Bytes. -/
  size : Nat
  time : Instant
deriving DecidableEq, Repr

structure GeneratorStats where
  frames : Nat := 0
  bytes : Nat := 0
  segments : Nat := 0
  deferred : Nat := 0
  failed : Nat := 0
  failedBytes : Nat := 0
deriving DecidableEq, Repr

namespace GeneratorStats

/-- The mean size of a frame, zero without frames. -/
def meanFrame (s : GeneratorStats) : Float :=
  if s.frames = 0 then 0.0 else countAsFloat s.bytes / countAsFloat s.frames

def addFrame (s : GeneratorStats) (size : Nat) : GeneratorStats :=
  { s with frames := s.frames + 1, bytes := s.bytes + size }

def addOutcome (s : GeneratorStats) (o : DispatchOutcome) : GeneratorStats :=
  { s with
    segments := s.segments + o.segments
    deferred := s.deferred + o.deferred
    failed := s.failed + o.failed
    failedBytes := s.failedBytes + o.failedBytes }

end GeneratorStats

structure FrameSource (σ : Type) where
  sizes : σ
  interval : Span
  start : Instant
  /-- No frame comes at this time or later. -/
  stop : Instant
  nextIndex : Nat := 0
  pending? : Option Ticket := none
  stopped : Bool := false
  stats : GeneratorStats := {}

namespace FrameSource

variable {σ α : Type}

/-- The time of the next frame, if one is to come. Frames have 32-bit indices. -/
def nextTick? (s : FrameSource σ) : Option Instant := do
  guard (!s.stopped && s.nextIndex < UInt32.size)
  let offset ← s.interval.times? s.nextIndex
  let time := s.start.after offset
  guard (time < s.stop)
  return time

theorem nextIndex_lt_of_nextTick? {s : FrameSource σ} {time : Instant}
    (h : s.nextTick? = some time) : s.nextIndex < UInt32.size := by
  by_cases lt : s.nextIndex < UInt32.size
  · exact lt
  · have closed : (!s.stopped && s.nextIndex < UInt32.size) = false := by
      rw [decide_eq_false lt, Bool.and_false]
    rw [nextTick?, closed] at h
    cases h

def arm (s : FrameSource σ) (q : EventQueue α) (event : α) :
    Option Instant × FrameSource σ × EventQueue α :=
  match s.nextTick? with
  | some time =>
    let (ticket, q) := q.schedule time event
    (some time, { s with pending? := some ticket }, q)
  | none => (none, { s with pending? := none }, q)

def emit [Draws σ Nat] (s : FrameSource σ) (now : Instant) : Frame × FrameSource σ :=
  let (size, sizes) := Draws.draw s.sizes
  (⟨s.nextIndex, size, now⟩,
    { s with
      sizes
      nextIndex := s.nextIndex + 1
      pending? := none
      stats := s.stats.addFrame size })

def record (s : FrameSource σ) (o : DispatchOutcome) : FrameSource σ :=
  { s with stats := s.stats.addOutcome o }

def halt (s : FrameSource σ) (q : EventQueue α) : FrameSource σ × EventQueue α :=
  ({ s with stopped := true, pending? := none }, s.pending?.elim q q.cancel)

end FrameSource

end VideoLink
