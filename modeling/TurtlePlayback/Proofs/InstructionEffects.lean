import Mathlib.Data.List.Basic
import TurtlePlayback.Proofs.TreeEvaluation

namespace TurtlePlayback.Script

namespace Run

variable {σ ε α β : Type}

def holding (m : Machine σ) (values : List Value) : Machine σ :=
  { m with stack := values ++ m.stack }

def Pushes (m : Machine σ) (offset : Option Nat) (top : α → List Value)
    (x : Except (Fault ε) α) (r : EStateM.Result (Trap ε) (Machine σ) Unit) : Prop :=
  match x with
  | .ok a => r = .ok () (holding m (top a))
  | .error f => ∃ stack, r = .error ⟨f, offset⟩ { m with stack }

variable {m : Machine σ} {offset : Option Nat}

theorem bind_run {x y : Run σ ε Unit} {m m' : Machine σ} (ran : x m = .ok () m') :
    (x >>= fun _ => y) m = y m' := by
  simp only [Bind.bind, EStateM.bind, ran]

theorem bind_trap {x y : Run σ ε Unit} {m m' : Machine σ} {t : Trap ε}
    (ran : x m = .error t m') : (x >>= fun _ => y) m = .error t m' := by
  simp only [Bind.bind, EStateM.bind, ran]

theorem bind_ran {x : Run σ ε α} {k : α → Run σ ε β} {m m' : Machine σ} {b : β} :
    (x >>= k) m = .ok b m' ↔ ∃ a m₁, x m = .ok a m₁ ∧ k a m₁ = .ok b m' := by
  simp only [Bind.bind, EStateM.bind]
  cases x m <;> simp

theorem Pushes.bind {x y : Run σ ε Unit} (below : List Value) {top : α → List Value}
    {top' : β → List Value} {e : Except (Fault ε) α} {k : α → Except (Fault ε) β}
    (first : Pushes (holding m below) offset top e (x (holding m below)))
    (next : ∀ a, e = .ok a → Pushes m offset top' (k a) (y (holding m (top a ++ below)))) :
    Pushes m offset top' (e >>= k) ((x >>= fun _ => y) (holding m below)) := by
  cases e with
  | error f =>
    obtain ⟨stack, ran⟩ := first
    exact ⟨stack, bind_trap ran⟩
  | ok a =>
    have ran : x (holding m below) = .ok () (holding m (top a ++ below)) := by
      simpa [Pushes, holding] using first
    rw [bind_run ran]
    exact next a rfl

theorem Pushes.map {r : EStateM.Result (Trap ε) (Machine σ) Unit} {below : List Value}
    {top : α → List Value} {top' : β → List Value} {e : Except (Fault ε) α} {g : α → β}
    (pushed : Pushes (holding m below) offset top e r)
    (same : ∀ a, top a ++ below = top' (g a)) :
    Pushes m offset top' (do return g (← e)) r := by
  cases e with
  | error f => exact pushed
  | ok a =>
    change r = .ok () (holding m (top' (g a)))
    rw [← same a]
    simpa [Pushes, holding] using pushed

theorem Pushes.located {x : Run σ ε Unit} {m' : Machine σ} {n : Nat} {top : α → List Value}
    {e : Except (Fault ε) α} (ran : Pushes m none top e (x m')) :
    Pushes m (some n) top e (located (some n) x m') := by
  cases e with
  | error f =>
    obtain ⟨stack, ran⟩ := ran
    exact ⟨stack, by simp [Run.located, ran]⟩
  | ok a =>
    have ran : x m' = .ok () (holding m (top a)) := ran
    simp [Pushes, Run.located, ran]

def single (v : Value) : List Value :=
  [v]

theorem mapNumber_pushes (f : Float → Float) (a : Value) :
    Pushes (ε := ε) m none single (a.mapNumber f) (number f (holding m [a])) := by
  cases a with
  | number x => rfl
  | _ => exact ⟨_, rfl⟩

theorem numbers_pushes (f : Float → Float → Value) (a b : Value) :
    Pushes (ε := ε) m none single (a.arithmetic f b) (numbers f (holding m [b, a])) := by
  cases b with
  | number y =>
    cases a with
    | number x => rfl
    | _ => exact ⟨_, rfl⟩
  | _ => exact ⟨_, rfl⟩

theorem truths_pushes (f : Bool → Bool → Bool) (a b : Value) :
    Pushes (ε := ε) m none single (a.logic f b) (truths f (holding m [b, a])) := by
  cases b with
  | truth y =>
    cases a with
    | truth x => rfl
    | _ => exact ⟨_, rfl⟩
  | _ => exact ⟨_, rfl⟩

theorem equality_pushes (wanted : Bool) (a b : Value) :
    Pushes (ε := ε) m none single (a.equality wanted b) (equality wanted (holding m [b, a])) := by
  cases a with
  | unset => exact ⟨_, rfl⟩
  | number x =>
    cases b with
    | number y => rfl
    | _ => exact ⟨_, rfl⟩
  | truth x =>
    cases b with
    | truth y => rfl
    | _ => exact ⟨_, rfl⟩

theorem unary_pushes (op : UnaryOp) (a : Value) :
    Pushes (ε := ε) m none single (op.apply a) (unary op (holding m [a])) := by
  cases op with
  | neg => exact mapNumber_pushes _ a
  | not =>
    cases a with
    | truth x => rfl
    | _ => exact ⟨_, rfl⟩

theorem binary_pushes (op : BinaryOp) (a b : Value) :
    Pushes (ε := ε) m none single (op.apply a b) (binary op (holding m [b, a])) := by
  cases op with
  | eq => exact equality_pushes true a b
  | ne => exact equality_pushes false a b
  | and => exact truths_pushes _ a b
  | or => exact truths_pushes _ a b
  | _ => exact numbers_pushes _ a b

theorem clamp_pushes (a b c : Value) :
    Pushes (ε := ε) m none single (Function.clamp.apply [a, b, c])
      (function .clamp (holding m [c, b, a])) := by
  cases c with
  | number high =>
    cases b with
    | number low =>
      cases a with
      | number x =>
        have taken : function (ε := ε) .clamp (holding m [.number high, .number low, .number x]) =
            (if low.isNaN || high.isNaN || high < low then fail (.clampBounds low high)
              else push (.number (clamp x low high))) (holding m []) := by
          simp only [function]
          rfl
        have applied : Function.clamp.apply (ε := ε) [.number x, .number low, .number high] =
            if low.isNaN || high.isNaN || high < low then .error (.clampBounds low high)
            else .ok (.number (clamp x low high)) := rfl
        rw [taken, applied]
        split
        · exact ⟨_, rfl⟩
        · rfl
      | _ => exact ⟨_, rfl⟩
    | _ => exact ⟨_, rfl⟩
  | _ => exact ⟨_, rfl⟩

theorem lerp_pushes (a b c : Value) :
    Pushes (ε := ε) m none single (Function.lerp.apply [a, b, c])
      (function .lerp (holding m [c, b, a])) := by
  cases c with
  | number t =>
    cases b with
    | number y =>
      cases a with
      | number x => rfl
      | _ => exact ⟨_, rfl⟩
    | _ => exact ⟨_, rfl⟩
  | _ => exact ⟨_, rfl⟩

theorem function_pushes (f : Function) {values : List Value} (count : values.length = f.arity) :
    Pushes (ε := ε) m none single (f.apply values) (function f (holding m values.reverse)) := by
  cases f with
  | min | max =>
    obtain ⟨a, b, rfl⟩ := List.length_eq_two.mp count
    exact numbers_pushes _ a b
  | clamp =>
    obtain ⟨a, b, c, rfl⟩ := List.length_eq_three.mp count
    exact clamp_pushes a b c
  | lerp =>
    obtain ⟨a, b, c, rfl⟩ := List.length_eq_three.mp count
    exact lerp_pushes a b c
  | _ =>
    obtain ⟨a, rfl⟩ := List.length_eq_one_iff.mp count
    exact mapNumber_pushes _ a

theorem take_holding (m : Machine σ) (values : List Value) :
    (holding m values.reverse).stack.take values.length = values.reverse := by
  rw [holding, List.take_append_of_le_length (by simp), List.take_of_length_le (by simp)]

theorem drop_holding (m : Machine σ) (values : List Value) :
    (holding m values.reverse).stack.drop values.length = m.stack := by
  rw [holding, List.drop_append_of_le_length (by simp), List.drop_of_length_le (by simp),
    List.nil_append]

theorem store_holding {slot : Nat} (bound : slot < m.vars.size) (v : Value) :
    store (ε := ε) slot (holding m [v]) = .ok () { m with vars := m.vars.setIfInBounds slot v } := by
  change (if slot < m.vars.size then _ else _) = _
  rw [if_pos bound]
  rfl

variable [Host σ ε]

theorem load_pushes (literals : Array Literal) {slot : Nat} {v : Value}
    (at_slot : m.vars[slot]? = some v) :
    Pushes (ε := ε) m none single v.assigned (instr literals (.load slot) m) := by
  have read (k : Machine σ → Run σ ε Unit) : (get >>= k) m = k m m := rfl
  simp only [instr]
  rw [read, at_slot]
  cases v with
  | unset => exact ⟨_, rfl⟩
  | _ => rfl

theorem call_pushes (literals : Array Literal) (f : Function) {values : List Value}
    (count : values.length = f.arity) :
    Pushes (ε := ε) m none single (f.apply values)
      (instr literals (.call f values.length) (holding m values.reverse)) := by
  have enough : ¬ ((holding m values.reverse).stack.take values.length).length < values.length := by
    simp [take_holding]
  have called : instr (ε := ε) literals (.call f values.length) (holding m values.reverse) =
      function f (holding m values.reverse) := by
    change (if _ then fail .underflowInCall else function f) (holding m values.reverse) = _
    rw [if_neg enough]
  rw [called]
  exact function_pushes f count

theorem command_holding (c : Command) (values : List Value) :
    command c values.length (holding m values.reverse) =
      match Host.perform m.host c values with
      | (.ok (), host) => .ok () { m with host }
      | (.error r, host) => .error (⟨.refused r.cause, r.offset⟩ : Trap ε) { m with host } := by
  have enough : ¬ values.reverse.length < values.length := by simp
  simp only [command, take_holding, if_neg enough, drop_holding, List.reverse_reverse]
  rfl

end Run

end TurtlePlayback.Script
