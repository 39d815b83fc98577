namespace TcpReactor

/-! # Runs of machines

A machine is in a state, and each step leads to the next one, unless it gets stuck. Whatever its
steps keep holds at the end of its runs (`foldlM_keeps`).

A data structure is a machine that answers: each command gets an answer. It is as good as a simpler
machine if both give the same answers to every sequence of commands (`answers_of_simulates`). A
machine that may fail on the way does not, if it follows one that cannot (`answers?_of_follows`).
-/

variable {σ τ ι ο : Type}

/-- What each step keeps, a run keeps that comes to its end. -/
theorem foldlM_keeps {step : σ → ι → Option σ} {P : ι → Prop} {I : σ → Prop}
    (hstep : ∀ {s i s'}, P i → I s → step s i = some s' → I s') {is : List ι}
    (his : ∀ i ∈ is, P i) {s s' : σ} (h : I s) (hrun : is.foldlM step s = some s') : I s' := by
  induction is generalizing s with
  | nil =>
      cases hrun
      exact h
  | cons i is ih =>
      rw [List.forall_mem_cons] at his
      rw [List.foldlM_cons] at hrun
      obtain ⟨s₁, hi, hrest⟩ := Option.bind_eq_some_iff.mp hrun
      exact ih his.2 (hstep his.1 h hi) hrest

/-! ## Machines that answer -/

/-- Carry out commands one after the other: their answers, and the state behind them. -/
def answers (step : σ → ι → ο × σ) (s : σ) : List ι → List ο × σ
  | [] => ([], s)
  | i :: is =>
      let (o, s') := step s i
      let (os, s'') := answers step s' is
      (o :: os, s'')

/-- The same for a machine that may fail. -/
def answers? (step : σ → ι → Option (ο × σ)) (s : σ) : List ι → Option (List ο × σ)
  | [] => some ([], s)
  | i :: is => do
      let (o, s') ← step s i
      let (os, s'') ← answers? step s' is
      return (o :: os, s'')

/-- What does not come back once it is lost was there from the start if it is there in the end. -/
theorem of_answers {step : σ → ι → ο × σ} {I : σ → Prop}
    (hback : ∀ s i, I (step s i).2 → I s) {s : σ} {is : List ι}
    (hend : I (answers step s is).2) : I s := by
  induction is generalizing s with
  | nil => exact hend
  | cons i is ih => exact hback s i (ih hend)

/-- `R` relates the states of two machines. As long as the first keeps `I`, related machines give
the same answer and stay related; and a state with `I` has come from such states only. Then they
give the same answers to every sequence of commands that leaves the first with `I`. -/
theorem answers_of_simulates {step : σ → ι → ο × σ} {step' : τ → ι → ο × τ} {R : σ → τ → Prop}
    {I : σ → Prop} (hback : ∀ s i, I (step s i).2 → I s)
    (hstep : ∀ s t i, I (step s i).2 → R s t →
      (step s i).1 = (step' t i).1 ∧ R (step s i).2 (step' t i).2)
    {s : σ} {t : τ} {is : List ι} (hend : I (answers step s is).2) (h : R s t) :
    (answers step s is).1 = (answers step' t is).1 ∧
      R (answers step s is).2 (answers step' t is).2 := by
  induction is generalizing s t with
  | nil => exact ⟨rfl, h⟩
  | cons i is ih =>
      obtain ⟨hanswer, hnext⟩ := hstep s t i (of_answers hback hend) h
      obtain ⟨hanswers, hrest⟩ := ih hend hnext
      constructor
      · show (step s i).1 :: _ = (step' t i).1 :: _
        rw [hanswer, hanswers]
      · exact hrest

/-- If each step of a machine that may fail is that of one that cannot, seen through `view`, then it
never fails. -/
theorem answers?_of_follows {step : σ → ι → ο × σ} {step? : τ → ι → Option (ο × τ)} {view : σ → τ}
    (hstep : ∀ s i, step? (view s) i = some ((step s i).1, view (step s i).2))
    (s : σ) (is : List ι) :
    answers? step? (view s) is = some ((answers step s is).1, view (answers step s is).2) := by
  induction is generalizing s with
  | nil => rfl
  | cons i is ih =>
      rw [answers?, hstep]
      show (answers? step? (view (step s i).2) is).bind _ = _
      rw [ih]
      rfl

end TcpReactor
