/-! Calls made one after another on something with a state: their answers, the state that they leave, and
the state in which each of them was made. -/
namespace VideoLink

variable {σ κ ρ : Type}

def answers (call : σ → κ → ρ × σ) : σ → List κ → List ρ
  | _, [] => []
  | s, c :: rest => (call s c).1 :: answers call (call s c).2 rest

def after (call : σ → κ → ρ × σ) (s : σ) (calls : List κ) : σ :=
  calls.foldl (fun s c => (call s c).2) s

theorem after_concat (call : σ → κ → ρ × σ) (s : σ) (calls : List κ) (c : κ) :
    after call s (calls ++ [c]) = (call (after call s calls) c).2 := by
  rw [after, List.foldl_append]
  rfl

theorem answers_concat (call : σ → κ → ρ × σ) (s : σ) (calls : List κ) (c : κ) :
    answers call s (calls ++ [c]) = answers call s calls ++ [(call (after call s calls) c).1] := by
  induction calls generalizing s with
  | nil => rfl
  | cons d calls ih =>
    rw [List.cons_append, answers, ih, answers, List.cons_append]
    rfl

theorem length_answers (call : σ → κ → ρ × σ) (s : σ) (calls : List κ) :
    (answers call s calls).length = calls.length := by
  induction calls generalizing s with
  | nil => rfl
  | cons c calls ih => simp only [answers, List.length_cons, ih]

/-- Each call with the state in which it is made. -/
def history (step : σ → κ → σ) : σ → List κ → List (σ × κ)
  | _, [] => []
  | s, c :: rest => (s, c) :: history step (step s c) rest

theorem history_concat (step : σ → κ → σ) (s : σ) (calls : List κ) (c : κ) :
    history step s (calls ++ [c]) = history step s calls ++ [(calls.foldl step s, c)] := by
  induction calls generalizing s with
  | nil => rfl
  | cons d calls ih => simp only [List.cons_append, history, ih, List.foldl_cons]

end VideoLink
