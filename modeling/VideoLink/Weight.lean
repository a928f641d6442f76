/-! The sum of a weight over the elements of a list. -/
namespace VideoLink

variable {α : Type}

def weight (weigh : α → Nat) : List α → Nat
  | [] => 0
  | a :: rest => weigh a + weight weigh rest

variable (weigh : α → Nat)

@[simp] theorem weight_nil : weight weigh [] = 0 := rfl

@[simp] theorem weight_cons (a : α) (rest : List α) :
    weight weigh (a :: rest) = weigh a + weight weigh rest := rfl

@[simp] theorem weight_append (l m : List α) :
    weight weigh (l ++ m) = weight weigh l + weight weigh m := by
  induction l with
  | nil => simp
  | cons a l ih => simp [ih, Nat.add_assoc]

theorem weight_eq_zero {l : List α} (h : ∀ a ∈ l, weigh a = 0) : weight weigh l = 0 := by
  induction l with
  | nil => rfl
  | cons a l ih =>
    rw [weight_cons, h a (List.mem_cons_self ..), ih fun b hb => h b (List.mem_cons_of_mem a hb)]

theorem weight_perm {l m : List α} (h : l.Perm m) : weight weigh l = weight weigh m := by
  induction h with
  | nil => rfl
  | cons a _ ih => rw [weight_cons, weight_cons, ih]
  | swap a b l => simp [Nat.add_left_comm]
  | trans _ _ ih₁ ih₂ => rw [ih₁, ih₂]

theorem weight_map {β : Type} (f : β → α) (l : List β) :
    weight weigh (l.map f) = weight (fun b => weigh (f b)) l := by
  induction l with
  | nil => rfl
  | cons b l ih => simp [ih]

theorem weight_filter_le (keep : α → Bool) (l : List α) :
    weight weigh (l.filter keep) ≤ weight weigh l := by
  induction l with
  | nil => exact Nat.le_refl _
  | cons a l ih =>
    rw [List.filter_cons]
    split <;> simp only [weight_cons] <;> omega

theorem foldl_add (n : Nat) (l : List Nat) : l.foldl (· + ·) n = n + weight id l := by
  induction l generalizing n with
  | nil => rfl
  | cons a l ih =>
    rw [List.foldl_cons, ih, weight_cons, id]
    omega

theorem weight_modify {l : List Nat} {i : Nat} (h : i < l.length) :
    weight id (l.modify i (· + 1)) = weight id l + 1 := by
  induction l generalizing i with
  | nil => simp at h
  | cons a l ih =>
    cases i with
    | zero =>
      simp only [List.modify_zero_cons, weight_cons, id]
      omega
    | succ i =>
      rw [List.modify_succ_cons, weight_cons, weight_cons, ih (by simpa using h)]
      omega

end VideoLink
