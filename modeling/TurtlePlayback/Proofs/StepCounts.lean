import TurtlePlayback.Proofs.RunParts
import TurtlePlayback.Turtle.Environment

/-!
Steps in a row, and how they are counted. Code reaches its host by commands only; what commands keep
of the host is kept by all that runs, so the count is in the hands of the environment alone.
-/

namespace TurtlePlayback

namespace Script.Run

variable {σ ε α β : Type}

def KeepsHost (P : σ → Prop) (x : Run σ ε α) : Prop :=
  ∀ m, P m.host → P (behind (x m)).host

namespace KeepsHost

variable {P : σ → Prop}

theorem bind {x : Run σ ε α} {f : α → Run σ ε β} (first : KeepsHost P x)
    (next : ∀ a, KeepsHost P (f a)) : KeepsHost P (x >>= f) :=
  Keeps.bind (P := fun m => P m.host) first next

theorem pop : KeepsHost P (Run.pop : Run σ ε Value) := by
  intro m holds
  rcases m with ⟨vars, stack, host⟩
  cases stack <;> exact holds

theorem store (slot : Nat) : KeepsHost P (Run.store slot : Run σ ε Unit) := by
  refine pop.bind fun v => ?_
  intro m holds
  simp only
  split <;> exact holds

theorem inherited (P : σ → Prop) : Inherited fun α => KeepsHost P (σ := σ) (ε := ε) (α := α) where
  bind := bind
  pure _ _ holds := holds
  fail _ _ holds := holds
  get _ holds := holds
  push _ _ holds := holds
  pop := pop
  store := store

variable [Host σ ε] (performed : ∀ s c args, P s → P (Host.perform s c args).2)

include performed

theorem command (c : Command) (args : Nat) : KeepsHost P (Run.command c args : Run σ ε Unit) := by
  intro m holds
  simp only [Run.command]
  split
  · exact holds
  · have kept := performed m.host c (m.stack.take args).reverse holds
    split
    · next done => rwa [done] at kept
    · next refused => rwa [refused] at kept

theorem instr (literals : Array Literal) (i : Instr) :
    KeepsHost P (Run.instr literals i : Run σ ε Unit) :=
  (inherited P).instr literals i fun c args _ => command performed c args

theorem instrs (c : Code) (pc : Nat) (is : List Instr) :
    KeepsHost P (Run.instrs c pc is : Run σ ε Unit) :=
  Keeps.instrs (P := fun m => P m.host) (instr performed c.literals) pc is

theorem code (c : Code) : KeepsHost P (Run.code c : Run σ ε Unit) := by
  intro m holds
  rw [behind_code]
  exact instrs performed c 0 _ _ holds

end KeepsHost

theorem instr_silent [Host σ ε] {i : Instr} (other : ∀ c args, i ≠ .command c args)
    (literals : Array Literal) (m : Machine σ) :
    (behind ((instr literals i : Run σ ε Unit) m)).host = m.host :=
  (KeepsHost.inherited (· = m.host)).instr literals i
    (fun c args same => absurd same (other c args)) m rfl

theorem code_stack [Host σ ε] (c : Code) (m : Machine σ) (stack : List Value) :
    (Run.code c : Run σ ε Unit) { m with stack } = Run.code c m :=
  rfl

end Script.Run

namespace Turtle

theorem apply_step (t : Turtle) (e : Effect) : (t.apply e).step = t.step := by
  cases e with
  | move p =>
    simp only [apply]
    split <;> rfl
  | _ => rfl

theorem perform_step (n : Nat) (t : Turtle) (c : Script.Command) (args : List Script.Value)
    (same : t.step = n) : (Script.Host.perform t c args).2.step = n := by
  simp only [Script.Host.perform]
  split
  · rw [apply_step, same]
  · exact same

end Turtle

namespace Environment

theorem run_step (e : Environment) (c : Script.Code) : (e.run c).2.turtle.step = e.turtle.step := by
  have kept := Script.Run.KeepsHost.code (Turtle.perform_step e.turtle.step) c
    ⟨e.vars, [], e.turtle⟩ rfl
  simp only [run]
  split
  · next ran => rwa [ran] at kept
  · next ran => rwa [ran] at kept

theorem step_step (e : Environment) : e.step.2.turtle.step =
    if e.step.1.isOk then e.turtle.step + 1 else e.turtle.step := by
  have same := run_step e e.program.step
  rcases ran : e.run e.program.step with ⟨result, e'⟩
  rw [ran] at same
  cases result with
  | error f =>
    simp only [step, ran]
    exact same
  | ok _ =>
    simp only [step, ran]
    exact congrArg (· + 1) same

def outputs (e : Environment) : Nat → List (Except Failure StepOutput)
  | 0 => []
  | k + 1 => e.step.1 :: e.step.2.outputs k

def after (e : Environment) : Nat → Environment
  | 0 => e
  | k + 1 => e.step.2.after k

theorem outputs_add (e : Environment) (j k : Nat) :
    e.outputs (j + k) = e.outputs j ++ (e.after j).outputs k := by
  induction j generalizing e with
  | zero => rw [Nat.zero_add]; rfl
  | succ j ih => rw [Nat.succ_add, outputs, ih]; rfl

theorem after_add (e : Environment) (j k : Nat) : e.after (j + k) = (e.after j).after k := by
  induction j generalizing e with
  | zero => rw [Nat.zero_add]; rfl
  | succ j ih => rw [Nat.succ_add, after, ih]; rfl

theorem after_count (e : Environment) (k : Nat) :
    (e.after k).turtle.step = e.turtle.step + (e.outputs k).countP (·.isOk) := by
  induction k generalizing e with
  | zero => rfl
  | succ k ih =>
    rw [after, ih, step_step, outputs, List.countP_cons]
    split <;> omega

theorem after_step {e : Environment} {k : Nat}
    (ran : ∀ output ∈ e.outputs k, output.isOk = true) :
    (e.after k).turtle.step = e.turtle.step + k := by
  have length : (e.outputs k).length = k := by
    clear ran
    induction k generalizing e with
    | zero => rfl
    | succ k ih => rw [outputs, List.length_cons, ih]
  rw [after_count, List.countP_eq_length.mpr ran, length]

end Environment

end TurtlePlayback
