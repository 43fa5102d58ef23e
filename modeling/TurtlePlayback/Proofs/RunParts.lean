import TurtlePlayback.Script.Machine

/-!
Runs and their parts. What holds of the single effects of the machine and of a sequence when it
holds of its parts, holds of every instruction but for the commands; and what every instruction
keeps, all code keeps.
-/

namespace TurtlePlayback.Script

def Value.IsSet (v : Value) : Prop :=
  v ≠ .unset

namespace Value

theorem number_isSet (x : Float) : (number x).IsSet :=
  nofun

theorem truth_isSet (b : Bool) : (truth b).IsSet :=
  nofun

end Value

theorem literal_isSet (l : Literal) : (Run.literal l).IsSet := by
  cases l with
  | number x => exact Value.number_isSet x
  | truth b => exact Value.truth_isSet b

namespace Run

variable {σ ε : Type}

/-- A property of runs that the effects of the machine have and that sequences inherit. -/
structure Inherited (Q : (α : Type) → Run σ ε α → Prop) : Prop where
  bind {α β : Type} {x : Run σ ε α} {f : α → Run σ ε β} (first : Q α x) (next : ∀ a, Q β (f a)) :
    Q β (x >>= f)
  pure {α : Type} (a : α) : Q α (Pure.pure a)
  fail {α : Type} (f : Fault ε) : Q α (Run.fail f)
  get : Q (Machine σ) MonadState.get
  push {v : Value} (set : v.IsSet) : Q Unit (Run.push v)
  pop : Q Value Run.pop
  store (slot : Nat) : Q Unit (Run.store slot)

namespace Inherited

variable {Q : (α : Type) → Run σ ε α → Prop} (h : Inherited Q)

include h

theorem typed {α : Type} (x : Except TypeFault α) : Q α (Run.typed x) := by
  cases x with
  | ok a => exact h.pure a
  | error f => exact h.fail _

theorem popNumber : Q Float Run.popNumber :=
  h.bind h.pop fun _ => h.typed _

theorem popTruth : Q Bool Run.popTruth :=
  h.bind h.pop fun _ => h.typed _

theorem numbers {f : Float → Float → Value} (set : ∀ a b, (f a b).IsSet) :
    Q Unit (Run.numbers f) :=
  h.bind h.popNumber fun _ => h.bind h.popNumber fun _ => h.push (set _ _)

theorem truths (f : Bool → Bool → Bool) : Q Unit (Run.truths f) :=
  h.bind h.popTruth fun _ => h.bind h.popTruth fun _ => h.push (Value.truth_isSet _)

theorem equality (wanted : Bool) : Q Unit (Run.equality wanted) :=
  h.bind h.pop fun _ => h.bind h.pop fun _ => h.bind (h.typed _) fun _ => h.push (Value.truth_isSet _)

theorem unary (op : UnaryOp) : Q Unit (Run.unary op) := by
  cases op with
  | neg => exact h.bind h.popNumber fun _ => h.push (Value.number_isSet _)
  | not => exact h.bind h.popTruth fun _ => h.push (Value.truth_isSet _)

theorem binary (op : BinaryOp) : Q Unit (Run.binary op) := by
  cases op with
  | eq => exact h.equality _
  | ne => exact h.equality _
  | and => exact h.truths _
  | or => exact h.truths _
  | lt | le | gt | ge => exact h.numbers fun _ _ => Value.truth_isSet _
  | _ => exact h.numbers fun _ _ => Value.number_isSet _

theorem number (f : Float → Float) : Q Unit (Run.number f) :=
  h.bind h.popNumber fun _ => h.push (Value.number_isSet _)

theorem function (f : Function) : Q Unit (Run.function f) := by
  cases f with
  | min => exact h.numbers fun _ _ => Value.number_isSet _
  | max => exact h.numbers fun _ _ => Value.number_isSet _
  | clamp =>
    refine h.bind h.popNumber fun high => h.bind h.popNumber fun low => h.bind h.popNumber fun x => ?_
    split
    · exact h.bind (h.fail _) fun _ => h.push (Value.number_isSet _)
    · exact h.push (Value.number_isSet _)
  | lerp =>
    exact h.bind h.popNumber fun _ => h.bind h.popNumber fun _ => h.bind h.popNumber fun _ =>
      h.push (Value.number_isSet _)
  | _ => exact h.number _

theorem instr [Host σ ε] (literals : Array Literal) (i : Instr)
    (ordered : ∀ c args, i = .command c args → Q Unit (Run.command c args)) :
    Q Unit (Run.instr literals i) := by
  cases i with
  | push i =>
    simp only [Run.instr]
    split
    · exact h.push (literal_isSet _)
    · exact h.fail _
  | load slot =>
    refine h.bind h.get fun m => ?_
    split
    · exact h.fail _
    · exact h.fail _
    · next v other _ => exact h.push other
  | store slot => exact h.store slot
  | sense r => exact h.bind h.get fun _ => h.push (Value.number_isSet _)
  | unary op => exact h.unary op
  | binary op => exact h.binary op
  | call f args =>
    refine h.bind h.get fun m => ?_
    split
    · exact h.fail _
    · exact h.function f
  | command c args => exact ordered c args rfl

end Inherited

variable {α β : Type}

def behind : EStateM.Result (Trap ε) (Machine σ) α → Machine σ
  | .ok _ m => m
  | .error _ m => m

theorem behind_located (offset : Option Nat) (x : Run σ ε α) (m : Machine σ) :
    behind (located offset x m) = behind (x m) := by
  simp only [located]
  cases x m <;> rfl

def ended : Run σ ε Unit := do
  let m ← get
  unless m.stack.isEmpty do fail (.leftOver m.stack.length)

theorem ended_eq (m : Machine σ) : (ended : Run σ ε Unit) m =
    if m.stack = [] then .ok () m else .error ⟨.leftOver m.stack.length, none⟩ m := by
  rcases m with ⟨vars, stack, host⟩
  cases stack <;> rfl

theorem code_eq [Host σ ε] (c : Code) (m : Machine σ) : (code c : Run σ ε Unit) m =
    (instrs c 0 c.instrs.toList >>= fun _ => ended) { m with stack := [] } :=
  rfl

theorem behind_code [Host σ ε] (c : Code) (m : Machine σ) :
    behind ((code c : Run σ ε Unit) m) =
      behind ((instrs c 0 c.instrs.toList : Run σ ε Unit) { m with stack := [] }) := by
  rw [code_eq]
  simp only [Bind.bind, EStateM.bind]
  cases (instrs c 0 c.instrs.toList : Run σ ε Unit) { m with stack := [] } with
  | error t m' => rfl
  | ok _ m' =>
    simp only [ended_eq]
    split <;> rfl

def Keeps (P : Machine σ → Prop) (x : Run σ ε α) : Prop :=
  ∀ m, P m → P (behind (x m))

namespace Keeps

variable {P : Machine σ → Prop}

theorem bind {x : Run σ ε α} {f : α → Run σ ε β} (first : Keeps P x)
    (next : ∀ a, Keeps P (f a)) : Keeps P (x >>= f) := by
  intro m holds
  have kept := first m holds
  simp only [Bind.bind, EStateM.bind]
  cases ran : x m with
  | ok a m' =>
    rw [ran] at kept
    exact next a m' kept
  | error t m' =>
    rw [ran] at kept
    exact kept

theorem located {x : Run σ ε α} (kept : Keeps P x) (offset : Option Nat) :
    Keeps P (Run.located offset x) := by
  intro m holds
  rw [behind_located]
  exact kept m holds

theorem instrs [Host σ ε] {c : Code} (each : ∀ i, Keeps P (Run.instr c.literals i : Run σ ε Unit))
    (pc : Nat) (is : List Instr) : Keeps P (Run.instrs c pc is : Run σ ε Unit) := by
  induction is generalizing pc with
  | nil => exact fun _ holds => holds
  | cons i is ih => exact ((each i).located _).bind fun _ => ih _

end Keeps

end Run

end TurtlePlayback.Script
