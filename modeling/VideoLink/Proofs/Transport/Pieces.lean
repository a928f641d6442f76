import Mathlib.Algebra.Order.Floor.Div
import VideoLink.Transport.Pieces
import VideoLink.Weight

/-! The sum and the number of the pieces of a count, and the pieces one after another. -/
namespace VideoLink

theorem weight_pieces (limit bytes : Nat) : weight id (pieces limit bytes) = bytes := by
  have hrep : ∀ n, weight id (List.replicate n limit) = limit * n := by
    intro n
    induction n with
    | zero => rfl
    | succ n ih => rw [List.replicate_succ, weight_cons, ih, id, Nat.mul_succ, Nat.add_comm]
  have hdiv := Nat.div_add_mod bytes limit
  unfold pieces
  rw [weight_append, hrep]
  split
  · rw [weight_nil]
    omega
  · rw [weight_cons, weight_nil, id]
    omega

theorem pieceCount_eq_ceilDiv {limit : Nat} (h : 0 < limit) (bytes : Nat) :
    pieceCount limit bytes = bytes ⌈/⌉ limit := by
  have hdiv := Nat.div_add_mod bytes limit
  have hlt := Nat.mod_lt bytes h
  have hsum : bytes + limit - 1 = bytes % limit + limit - 1 + limit * (bytes / limit) := by omega
  rw [Nat.ceilDiv_eq_add_pred_div, hsum, Nat.add_mul_div_left _ _ h, pieceCount]
  split
  · rename_i hzero
    rw [hzero, Nat.zero_add, Nat.div_eq_of_lt (Nat.sub_lt h Nat.one_pos)]
    omega
  · have hone : (bytes % limit + limit - 1) / limit = 1 := by
      rw [Nat.div_eq_iff h]
      omega
    rw [hone]
    omega

theorem weight_flatMap_pieces {α : Type} (limit : Nat) (size : α → Nat) (l : List α) :
    weight id (l.flatMap fun a => pieces limit (size a)) = weight size l := by
  induction l with
  | nil => rfl
  | cons a l ih => rw [List.flatMap_cons, weight_append, weight_pieces, ih, weight_cons]

theorem length_flatMap_pieces {α : Type} {limit : Nat} (h : 0 < limit) (size : α → Nat) (l : List α) :
    (l.flatMap fun a => pieces limit (size a)).length = weight (fun a => size a ⌈/⌉ limit) l := by
  induction l with
  | nil => rfl
  | cons a l ih =>
    rw [List.flatMap_cons, List.length_append, length_pieces, pieceCount_eq_ceilDiv h, ih, weight_cons]

theorem pieces_zero (limit : Nat) : pieces limit 0 = [] := by
  simp [pieces]

theorem pieces_of_pos {limit bytes : Nat} (hl : 0 < limit) (hb : 0 < bytes) :
    pieces limit bytes = min bytes limit :: pieces limit (bytes - limit) := by
  by_cases hlt : bytes < limit
  · have hrest : bytes - limit = 0 := by omega
    have hmod : bytes % limit = bytes := Nat.mod_eq_of_lt hlt
    rw [hrest, pieces_zero, Nat.min_eq_left hlt.le, pieces, Nat.div_eq_of_lt hlt, hmod, if_neg hb.ne']
    rfl
  · have hle : limit ≤ bytes := Nat.le_of_not_lt hlt
    have hdiv : bytes / limit = (bytes - limit) / limit + 1 := Nat.div_eq_sub_div hl hle
    have hmod : bytes % limit = (bytes - limit) % limit := Nat.mod_eq_sub_mod hle
    rw [Nat.min_eq_right hle, pieces, pieces, hdiv, hmod, List.replicate_succ, List.cons_append]

end VideoLink
