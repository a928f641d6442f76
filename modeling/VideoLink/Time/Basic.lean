/-! Instants of the virtual clock and spans of time, both in whole nanoseconds. An instant is a 64-bit count
and every sum of an instant and a span stops at the latest one. -/
namespace VideoLink

def nanosPerSecond : Nat := 1_000_000_000

structure Span where
  nanos : Nat
deriving DecidableEq, Repr, Inhabited

namespace Span

def zero : Span := ⟨0⟩

def ofMillis (n : Nat) : Span := ⟨n * 1_000_000⟩

def ofSeconds (n : Nat) : Span := ⟨n * nanosPerSecond⟩

/-- The longest span with a 64-bit count of seconds. -/
def longest : Span := ⟨UInt64.size * nanosPerSecond - 1⟩

def seconds (d : Span) : Nat := d.nanos / nanosPerSecond

/-- Nanoseconds past the whole seconds. -/
def subsecond (d : Span) : Nat := d.nanos % nanosPerSecond

instance : Add Span := ⟨fun a b => ⟨a.nanos + b.nanos⟩⟩

instance : LE Span := ⟨fun a b => a.nanos ≤ b.nanos⟩

instance : LT Span := ⟨fun a b => a.nanos < b.nanos⟩

instance (a b : Span) : Decidable (a ≤ b) := inferInstanceAs (Decidable (a.nanos ≤ b.nanos))

instance (a b : Span) : Decidable (a < b) := inferInstanceAs (Decidable (a.nanos < b.nanos))

/-- The difference of two spans, whichever is longer. -/
def distance (a b : Span) : Span := ⟨(a.nanos - b.nanos) + (b.nanos - a.nanos)⟩

/-- `n` times the span, if that is not longer than the longest span. -/
def times? (d : Span) (n : Nat) : Option Span :=
  if d.nanos * n ≤ longest.nanos then some ⟨d.nanos * n⟩ else none

def divided (d : Span) (n : Nat) : Span := ⟨d.nanos / n⟩

@[simp] theorem nanos_add (a b : Span) : (a + b).nanos = a.nanos + b.nanos := rfl

theorem le_iff {a b : Span} : a ≤ b ↔ a.nanos ≤ b.nanos := Iff.rfl

theorem lt_iff {a b : Span} : a < b ↔ a.nanos < b.nanos := Iff.rfl

end Span

/-- A reading of the virtual clock, in nanoseconds since the start. -/
structure Instant where
  nanos : Nat
  nanos_lt : nanos < 0x1_0000_0000_0000_0000
deriving DecidableEq, Repr

namespace Instant

def zero : Instant := ⟨0, by decide⟩

instance : Inhabited Instant := ⟨zero⟩

/-- The instant `n` nanoseconds after the start, or the latest one. -/
def ofNanos (n : Nat) : Instant := ⟨min n 0xFFFF_FFFF_FFFF_FFFF, by omega⟩

instance : LE Instant := ⟨fun a b => a.nanos ≤ b.nanos⟩

instance : LT Instant := ⟨fun a b => a.nanos < b.nanos⟩

instance (a b : Instant) : Decidable (a ≤ b) := inferInstanceAs (Decidable (a.nanos ≤ b.nanos))

instance (a b : Instant) : Decidable (a < b) := inferInstanceAs (Decidable (a.nanos < b.nanos))

instance : Ord Instant := ⟨fun a b => compare a.nanos b.nanos⟩

def latest (a b : Instant) : Instant := if a ≤ b then b else a

def after (t : Instant) (d : Span) : Instant := ofNanos (t.nanos + d.nanos)

def since? (t earlier : Instant) : Option Span :=
  if earlier ≤ t then some ⟨t.nanos - earlier.nanos⟩ else none

/-- The span from `earlier` to `t`, zero if `t` comes first. -/
def elapsed (t earlier : Instant) : Span := ⟨t.nanos - earlier.nanos⟩

theorem ext {a b : Instant} (h : a.nanos = b.nanos) : a = b := by
  cases a; cases b; simp_all

theorem le_iff {a b : Instant} : a ≤ b ↔ a.nanos ≤ b.nanos := Iff.rfl

theorem lt_iff {a b : Instant} : a < b ↔ a.nanos < b.nanos := Iff.rfl

@[simp] theorem nanos_ofNanos (n : Nat) : (ofNanos n).nanos = min n 0xFFFF_FFFF_FFFF_FFFF := rfl

@[simp] theorem nanos_after (t : Instant) (d : Span) :
    (t.after d).nanos = min (t.nanos + d.nanos) 0xFFFF_FFFF_FFFF_FFFF := rfl

theorem le_after (t : Instant) (d : Span) : t ≤ t.after d := by
  have := t.nanos_lt
  rw [le_iff, nanos_after]
  omega

theorem after_le_after {t u : Instant} (h : t ≤ u) (d : Span) : t.after d ≤ u.after d := by
  rw [le_iff] at h
  rw [le_iff, nanos_after, nanos_after]
  omega

theorem nanos_latest (a b : Instant) : (a.latest b).nanos = max a.nanos b.nanos := by
  unfold latest
  split <;> rename_i h <;> rw [le_iff] at h <;> omega

theorem latest_of_le {a b : Instant} (h : b ≤ a) : a.latest b = a := by
  apply ext
  rw [nanos_latest]
  exact Nat.max_eq_left h

end Instant

end VideoLink
