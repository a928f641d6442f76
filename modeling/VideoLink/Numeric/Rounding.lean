/-! Rounding of quotients of natural numbers. The main statement is that a rounded quotient is within half a
unit of the exact one. -/
namespace VideoLink.Numeric

/-- Where a value halfway between two integers goes. -/
inductive Tie
  | even
  | away
deriving DecidableEq, Repr

def roundDiv (tie : Tie) (num den : Nat) : Nat :=
  let quotient := num / den
  let rest := num % den
  if 2 * rest < den then quotient
  else if den < 2 * rest then quotient + 1
  else match tie with
    | .even => quotient + quotient % 2
    | .away => quotient + 1

theorem roundDiv_mul_le (tie : Tie) (num den : Nat) :
    2 * (roundDiv tie num den * den) ≤ 2 * num + den := by
  have split := Nat.div_add_mod num den
  have comm : num / den * den = den * (num / den) := Nat.mul_comm _ _
  unfold roundDiv
  dsimp only
  split
  · omega
  · split
    · rw [Nat.add_mul]; omega
    · cases tie with
      | away => dsimp only; rw [Nat.add_mul]; omega
      | even =>
        dsimp only
        have parity : num / den % 2 = 0 ∨ num / den % 2 = 1 := by omega
        rcases parity with h | h <;> rw [h, Nat.add_mul] <;> omega

theorem mul_le_roundDiv (tie : Tie) {num den : Nat} (pos : 0 < den) :
    2 * num ≤ 2 * (roundDiv tie num den * den) + den := by
  have split := Nat.div_add_mod num den
  have small := Nat.mod_lt num pos
  have comm : num / den * den = den * (num / den) := Nat.mul_comm _ _
  unfold roundDiv
  dsimp only
  split
  · omega
  · split
    · rw [Nat.add_mul]; omega
    · cases tie with
      | away => dsimp only; rw [Nat.add_mul]; omega
      | even => dsimp only; rw [Nat.add_mul]; omega

end VideoLink.Numeric
