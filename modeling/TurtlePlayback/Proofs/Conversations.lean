namespace TurtlePlayback

variable {σ τ ρ α : Type} {ask : σ → ρ → α × σ} {s : σ}

def converse (ask : σ → ρ → α × σ) (s : σ) : List ρ → List (ρ × α) × σ
  | [] => ([], s)
  | r :: rs =>
    let (answer, s) := ask s r
    let (later, s) := converse ask s rs
    ((r, answer) :: later, s)

@[simp] theorem converse_nil (ask : σ → ρ → α × σ) (s : σ) : converse ask s [] = ([], s) :=
  rfl

@[simp] theorem converse_cons (ask : σ → ρ → α × σ) (s : σ) (r : ρ) (rs : List ρ) :
    converse ask s (r :: rs) =
      ((r, (ask s r).1) :: (converse ask (ask s r).2 rs).1, (converse ask (ask s r).2 rs).2) :=
  rfl

theorem converse_map {other : τ → ρ → α × τ} {f : σ → τ}
    (alike : ∀ s r, other (f s) r = ((ask s r).1, f (ask s r).2)) (s : σ) (rs : List ρ) :
    converse other (f s) rs = ((converse ask s rs).1, f (converse ask s rs).2) := by
  induction rs generalizing s with
  | nil => rfl
  | cons r rs ih => simp [alike, ih]

theorem converse_keeps {P : σ → Prop} (kept : ∀ s r, P s → P (ask s r).2) (holds : P s)
    (rs : List ρ) : P (converse ask s rs).2 := by
  induction rs generalizing s with
  | nil => exact holds
  | cons r rs ih => exact ih (kept s r holds)

end TurtlePlayback
