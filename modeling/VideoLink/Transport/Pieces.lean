/-! A count of bytes cut into pieces of one size and a shorter remainder. -/
namespace VideoLink

/-- Full pieces of `limit` bytes first, then what is left, if anything is. -/
def pieces (limit bytes : Nat) : List Nat :=
  List.replicate (bytes / limit) limit ++ if bytes % limit = 0 then [] else [bytes % limit]

def pieceCount (limit bytes : Nat) : Nat :=
  bytes / limit + if bytes % limit = 0 then 0 else 1

theorem length_pieces (limit bytes : Nat) : (pieces limit bytes).length = pieceCount limit bytes := by
  unfold pieces pieceCount
  split <;> simp

theorem pieceCount_le (limit bytes : Nat) : pieceCount limit bytes ≤ bytes := by
  unfold pieceCount
  split
  · exact Nat.div_le_self _ _
  · rename_i rest
    by_cases zero : limit = 0
    · rw [zero, Nat.mod_zero] at rest
      rw [zero, Nat.div_zero]
      omega
    · have split := Nat.div_add_mod bytes limit
      have := Nat.le_mul_of_pos_left (bytes / limit) (Nat.pos_of_ne_zero zero)
      omega

theorem pos_of_mem_pieces {limit bytes n : Nat} (pos : 0 < limit) (h : n ∈ pieces limit bytes) :
    0 < n := by
  unfold pieces at h
  rw [List.mem_append, List.mem_replicate] at h
  rcases h with ⟨_, rfl⟩ | h
  · exact pos
  · split at h
    · cases h
    · rw [List.mem_singleton] at h
      omega

theorem le_of_mem_pieces {limit bytes n : Nat} (pos : 0 < limit) (h : n ∈ pieces limit bytes) :
    n ≤ limit := by
  unfold pieces at h
  rw [List.mem_append, List.mem_replicate] at h
  rcases h with ⟨_, rfl⟩ | h
  · exact Nat.le_refl _
  · split at h
    · cases h
    · rw [List.mem_singleton] at h
      have := Nat.mod_lt bytes pos
      omega

end VideoLink
