import VideoLink.Config.Error
import VideoLink.EventQueue.Basic
import VideoLink.Fifo
import VideoLink.Random.Draws
import VideoLink.Random.Gamma
import VideoLink.Time.Seconds
import VideoLink.Video.FrameSizes

/-! Pacing: the segments of a frame leave one by one, after random gaps that are shorter than the time
between two frames. -/
namespace VideoLink

open VideoLink.Random

/-- The gamma distribution of the gaps. -/
structure JitterSettings where
  shape : Float
  scale : Span

namespace JitterSettings

def standard : JitterSettings := ⟨0.2463, ⟨60_227_000⟩⟩

end JitterSettings

structure GapTimes where
  law : Gamma
  /-- Every gap is shorter than the limit, or zero. -/
  limit : Span
  generator : ChaCha

namespace GapTimes

/-- Gaps have a stream of their own, so that they change no frame size of the same seed. -/
def new? (jitter : JitterSettings) (limit : Span) (seed : UInt64) : Except ConfigError GapTimes :=
  let scale := jitter.scale.inSeconds
  if isPositive jitter.shape && 0.0 < scale then
    .ok ⟨⟨jitter.shape, scale⟩, limit, ChaCha.ofSeed seed 1⟩
  else .error (.invalidGamma jitter.shape scale)

private def spanBelow? (limit : Span) (seconds : Float) : Option Span :=
  (Span.ofFloatSeconds? seconds).filter (· < limit)

def draw (g : GapTimes) : Span × GapTimes :=
  let (gap?, generator) := Draws.retry g.law.draw (spanBelow? g.limit) maxRedraws g.generator
  (gap?.getD .zero, { g with generator })

instance : Draws GapTimes Span := ⟨draw⟩

theorem draw_lt (g : GapTimes) (pos : 0 < g.limit.nanos) : g.draw.1 < g.limit := by
  unfold draw
  generalize h : Draws.retry g.law.draw (spanBelow? g.limit) maxRedraws g.generator = r
  obtain ⟨gap?, generator⟩ := r
  cases gap? with
  | none => exact pos
  | some gap =>
    obtain ⟨x, hx⟩ := Draws.exists_of_retry (congrArg Prod.fst h)
    exact of_decide_eq_true (Option.filter_eq_some_iff.1 hx).2

end GapTimes

/-- Segments that wait for their time, and the event at which the next of them is due. -/
structure Pacer (γ : Type) where
  gaps : γ
  queued : Fifo Nat := .empty
  pending? : Option Ticket := none

namespace Pacer

variable {γ α : Type}

def push (p : Pacer γ) (segments : List Nat) : Pacer γ :=
  { p with queued := p.queued.pushAll segments }

/-- Schedules the next segment after a gap, unless one is scheduled or none is left. -/
def arm [Draws γ Span] (p : Pacer γ) (q : EventQueue α) (now : Instant) (event : α) :
    Option Instant × Pacer γ × EventQueue α :=
  if p.pending?.isSome || p.queued.isEmpty then (none, p, q)
  else
    let (gap, gaps) := Draws.draw p.gaps
    let time := now.after gap
    let (ticket, q) := q.schedule time event
    (some time, { p with gaps, pending? := some ticket }, q)

def take (p : Pacer γ) : Option Nat × Pacer γ :=
  match p.queued.pop? with
  | some (size, queued) => (some size, { p with queued, pending? := none })
  | none => (none, { p with pending? := none })

/-- Withdraws the scheduled event and drops the waiting segments. Tells their bytes. -/
def stop (p : Pacer γ) (q : EventQueue α) : Nat × Pacer γ × EventQueue α :=
  (p.queued.toList.foldl (· + ·) 0, { p with queued := .empty, pending? := none },
    p.pending?.elim q q.cancel)

end Pacer

end VideoLink
