/-! Supplies of random values. What a run makes of its draws is stated for every supply. -/
namespace VideoLink

/-- A state from which values of one kind are drawn, one after the other. -/
class Draws (σ : Type) (α : outParam Type) where
  draw : σ → α × σ

namespace Draws

def take {σ α : Type} [Draws σ α] : Nat → σ → List α × σ
  | 0, s => ([], s)
  | n + 1, s =>
    let (a, s) := draw s
    let (as, s) := take n s
    (a :: as, s)

/-- Repeats a draw until `accept` gives a result, at most `attempts` times. -/
def retry {σ α β : Type} (draw : σ → α × σ) (accept : α → Option β) : Nat → σ → Option β × σ
  | 0, s => (none, s)
  | attempts + 1, s =>
    let (a, s) := draw s
    match accept a with
    | some b => (some b, s)
    | none => retry draw accept attempts s

theorem exists_of_retry {σ α β : Type} {draw : σ → α × σ} {accept : α → Option β}
    {attempts : Nat} {s : σ} {b : β} (h : (retry draw accept attempts s).1 = some b) :
    ∃ a, accept a = some b := by
  induction attempts generalizing s with
  | zero => cases h
  | succ n ih =>
    unfold retry at h
    dsimp only at h
    split at h
    · rename_i found
      exact ⟨_, found.trans h⟩
    · exact ih h

end Draws

end VideoLink
