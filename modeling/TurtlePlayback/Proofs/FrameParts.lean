import TurtlePlayback.Session.Edit

namespace TurtlePlayback.Session.Player

open Artifact Canvas Playback

variable {τ σ : Type}

def Draws (p q : Player τ σ) : Prop :=
  ∃ holdings surface evaluation output draw stats,
    q = { p with holdings, surface, evaluation, output, draw, stats }

variable {p q r : Player τ σ}

theorem Draws.refl (p : Player τ σ) : Draws p p :=
  ⟨_, _, _, _, _, _, rfl⟩

theorem Draws.trans (h : Draws p q) (k : Draws q r) : Draws p r := by
  obtain ⟨_, _, _, _, _, _, rfl⟩ := h
  obtain ⟨_, _, _, _, _, _, rfl⟩ := k
  exact ⟨_, _, _, _, _, _, rfl⟩

theorem setDirty_of_eq {b : Bool} (same : p.dirty.value = b) : p.setDirty b = p := by
  simp [setDirty, Watched.set, same, mark, Observers.markIf]

theorem Draws.setDirty (h : Draws p q) (b : Bool) : Draws (p.setDirty b) (q.setDirty b) := by
  obtain ⟨_, _, _, _, _, _, rfl⟩ := h
  exact ⟨_, _, _, _, _, _, rfl⟩

theorem Draws.tick [Time τ] (h : Draws p q) (elapsed : τ) :
    Draws (p.tick elapsed).2 (q.tick elapsed).2 := by
  obtain ⟨_, _, _, _, _, _, rfl⟩ := h
  simp only [Player.tick]
  split <;> exact ⟨_, _, _, _, _, _, rfl⟩

theorem fail_draws (p : Player τ σ) (f : Failure) : Draws p (p.fail f) := by
  simp only [fail]
  split <;> exact ⟨_, _, _, _, _, _, rfl⟩

theorem recompile_eq (p : Player τ σ) :
    ∃ dirty observers evaluation output compiles compileErrors, p.recompile = { p with
      holdings := (p.holdings.compile p.source).2.assignPending
        (p.holdings.compile p.source).1.toOption
      dirty, observers, evaluation, output, stats := { p.stats with compiles, compileErrors } } := by
  rcases compiled : p.holdings.compile p.source with ⟨result, h⟩
  simp only [recompile, compiled]
  cases result with
  | ok image => exact ⟨_, _, _, _, _, _, rfl⟩
  | error f =>
    simp only [fail]
    split <;> exact ⟨_, _, _, _, _, _, rfl⟩

theorem recompile_draws (p : Player τ σ) : Draws (p.setDirty false) p.recompile := by
  rcases compiled : p.holdings.compile p.source with ⟨result, h⟩
  simp only [recompile, compiled]
  cases result with
  | ok image => exact ⟨_, _, _, _, _, _, rfl⟩
  | error f =>
    refine Draws.trans ?_ (fail_draws _ f)
    exact ⟨_, _, _, _, _, _, rfl⟩

theorem ensureEnvironment_draws (p : Player τ σ) : Draws p p.ensureEnvironment := by
  simp only [ensureEnvironment]
  split
  · simp only [startEnvironment]
    split
    · exact ⟨_, _, _, _, _, _, rfl⟩
    · refine Draws.trans ?_ (fail_draws _ _)
      exact ⟨_, _, _, _, _, _, rfl⟩
  · exact .refl p

theorem runSteps_draws (p : Player τ σ) (n : Nat) : Draws p (p.runSteps n) := by
  induction n generalizing p with
  | zero => exact .refl p
  | succ n ih =>
    simp only [runSteps]
    split
    · exact .refl p
    · split
      · next out h _ =>
        refine Draws.trans ?_ (ih (drawStep { p with holdings := h } out))
        exact ⟨_, _, _, _, _, _, rfl⟩
      · next f h _ =>
        have counted : Draws p
            { p with holdings := h, stats.stepErrors := p.stats.stepErrors + 1 } :=
          ⟨_, _, _, _, _, _, rfl⟩
        refine (counted.trans (fail_draws _ f)).trans ?_
        exact ⟨_, _, _, _, _, _, rfl⟩

section

variable [Surface σ]

theorem promoteFirst_draws (p : Player τ σ) : Draws p p.promoteFirst := by
  simp only [promoteFirst]
  split <;> exact ⟨_, _, _, _, _, _, rfl⟩

theorem flush_draws (p : Player τ σ) : Draws p p.flush := by
  simp only [flush]
  split <;> exact ⟨_, _, _, _, _, _, rfl⟩

theorem runFrame_draws [Time τ] (visible : p.visible.value = true) (elapsed : τ) :
    Draws ((p.tick elapsed).2.setDirty false) (p.runFrame elapsed) := by
  let counted : Player τ σ := { p with stats.frames := p.stats.frames + 1 }
  have start : Draws p counted := ⟨_, _, _, _, _, _, rfl⟩
  have ticked := start.tick elapsed
  have compiled : Draws ((p.tick elapsed).2.setDirty false)
      (if (counted.tick elapsed).2.dirty.value then (counted.tick elapsed).2.recompile
        else (counted.tick elapsed).2) := by
    have cleaned := ticked.setDirty false
    split
    · exact cleaned.trans (recompile_draws _)
    · next clean =>
      have same : (counted.tick elapsed).2.setDirty false = (counted.tick elapsed).2 :=
        setDirty_of_eq (by simpa using clean)
      rwa [same] at cleaned
  have started := (compiled.trans (promoteFirst_draws _)).trans (ensureEnvironment_draws _)
  simp only [runFrame, visible, ↓reduceIte]
  split
  · exact (started.trans (runSteps_draws _ _)).trans (flush_draws _)
  · exact started.trans (flush_draws _)

end

def Brackets (p q : Player τ σ) : Prop :=
  ∃ scheduler observers before, q = { p with scheduler, observers, before }

theorem Brackets.trans (h : Brackets p q) (k : Brackets q r) : Brackets p r := by
  obtain ⟨_, _, _, rfl⟩ := h
  obtain ⟨_, _, _, rfl⟩ := k
  exact ⟨_, _, _, rfl⟩

theorem openBatch_brackets (p : Player τ σ) : Brackets p p.openBatch :=
  ⟨_, _, _, rfl⟩

theorem closeBatch_brackets (p : Player τ σ) : Brackets p p.closeBatch := by
  simp only [closeBatch]
  split
  · split <;> exact ⟨_, _, _, rfl⟩
  · exact ⟨_, _, _, rfl⟩
  · exact ⟨_, _, _, rfl⟩

theorem batch_brackets [Time τ] {α : Type} (p : Player τ σ) (f : Player τ σ → α × Player τ σ) :
    Brackets (f p.openBatch).2 (p.batch f).2 := by
  simp only [batch]
  split
  · exact closeBatch_brackets _
  · exact Brackets.trans ⟨_, _, _, rfl⟩ (closeBatch_brackets _)

theorem update_brackets [Time τ] (p : Player τ σ) (f : Player τ σ → Player τ σ) :
    Brackets (f p.openBatch) (p.update f) :=
  batch_brackets p fun p => ((), f p)

end TurtlePlayback.Session.Player
