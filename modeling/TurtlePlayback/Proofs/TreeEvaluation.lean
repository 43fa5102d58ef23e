import Mathlib.Logic.Function.Basic
import TurtlePlayback.Script.Machine
import TurtlePlayback.Script.Tree

/-!
Scripts run as trees, without code and without a stack. Expressions have values, and statements
change a scene, where variables are known by their names. Operands have their values left to right,
and all of them before an operator or a function looks at their kinds.
-/

namespace TurtlePlayback.Script

abbrev Store :=
  String → Value

structure Scene (σ : Type) where
  store : Store
  host : σ

namespace Value

variable {ε : Type}

def needNumber (v : Value) : Except (Fault ε) Float :=
  v.asNumber.mapError .type

def needTruth (v : Value) : Except (Fault ε) Bool :=
  v.asTruth.mapError .type

def assigned : Value → Except (Fault ε) Value
  | unset => .error .readBeforeAssignment
  | v => .ok v

def arithmetic (f : Float → Float → Value) (a b : Value) : Except (Fault ε) Value := do
  let y ← b.needNumber
  let x ← a.needNumber
  return f x y

def logic (f : Bool → Bool → Bool) (a b : Value) : Except (Fault ε) Value := do
  let y ← b.needTruth
  let x ← a.needTruth
  return .truth (f x y)

/-- Unlike other operators, equality looks at the kind of its left operand first. -/
def equality (wanted : Bool) : Value → Value → Except (Fault ε) Value
  | .truth x, .truth y => .ok (.truth ((x == y) == wanted))
  | a, b => do
    let x ← a.needNumber
    let y ← b.needNumber
    return .truth ((x == y) == wanted)

def mapNumber (f : Float → Float) (v : Value) : Except (Fault ε) Value := do
  let x ← v.needNumber
  return .number (f x)

end Value

variable {σ ε : Type}

def UnaryOp.apply : UnaryOp → Value → Except (Fault ε) Value
  | .neg, v => v.mapNumber fun x => -x
  | .not, v => do
    let b ← v.needTruth
    return .truth (!b)

def BinaryOp.apply : BinaryOp → Value → Value → Except (Fault ε) Value
  | .add => Value.arithmetic fun x y => .number (x + y)
  | .sub => Value.arithmetic fun x y => .number (x - y)
  | .mul => Value.arithmetic fun x y => .number (x * y)
  | .div => Value.arithmetic fun x y => .number (x / y)
  | .mod => Value.arithmetic fun x y => .number (Binary64.remainder x y)
  | .eq => Value.equality true
  | .ne => Value.equality false
  | .lt => Value.arithmetic fun x y => .truth (x < y)
  | .le => Value.arithmetic fun x y => .truth (x ≤ y)
  | .gt => Value.arithmetic fun x y => .truth (y < x)
  | .ge => Value.arithmetic fun x y => .truth (y ≤ x)
  | .and => Value.logic fun x y => x && y
  | .or => Value.logic fun x y => x || y

/-- The last arguments are looked at first. A wrong number of them, which no compiled call has,
counts as one that is missing. -/
def Function.apply : Function → List Value → Except (Fault ε) Value
  | .abs, [a] => a.mapNumber Float.abs
  | .sin, [a] => a.mapNumber Float.sin
  | .cos, [a] => a.mapNumber Float.cos
  | .sqrt, [a] => a.mapNumber Float.sqrt
  | .floor, [a] => a.mapNumber Float.floor
  | .min, [a, b] => a.arithmetic (fun x y => .number (Run.least x y)) b
  | .max, [a, b] => a.arithmetic (fun x y => .number (Run.greatest x y)) b
  | .clamp, [a, b, c] => do
    let high ← c.needNumber
    let low ← b.needNumber
    let x ← a.needNumber
    if low.isNaN || high.isNaN || high < low then .error (.clampBounds low high)
    else return .number (Run.clamp x low high)
  | .lerp, [a, b, c] => do
    let t ← c.needNumber
    let y ← b.needNumber
    let x ← a.needNumber
    return .number (x + (y - x) * t)
  | _, _ => .error .underflowInCall

def Scene.assign (scene : Scene σ) (name : String) (v : Value) : Scene σ :=
  { scene with store := Function.update scene.store name v }

def Scene.after {α : Type} (scene : Scene σ) (offset : Nat) (x : Except (Fault ε) α)
    (act : α → Except (Trap ε) Unit × Scene σ) : Except (Trap ε) Unit × Scene σ :=
  match x with
  | .error f => (.error ⟨f, some offset⟩, scene)
  | .ok a => act a

variable [Host σ ε]

def Scene.value (scene : Scene σ) (name : String) : Except (Fault ε) Value :=
  match Reading.ofName? name with
  | some reading => .ok (.number (Host.read scene.host reading))
  | none =>
    match Constant.ofName? name with
    | some c => .ok (.number c.value)
    | none => (scene.store name).assigned

mutual

def Expr.value (scene : Scene σ) : Expr → Except (Fault ε) Value
  | .literal (.number x) => .ok (.number x)
  | .literal (.truth b) => .ok (.truth b)
  | .name n _ => scene.value n
  | .unary op e => do
    let v ← Expr.value scene e
    op.apply v
  | .binary op l r => do
    let a ← Expr.value scene l
    let b ← Expr.value scene r
    op.apply a b
  | .call f args _ => do
    let vs ← Expr.values scene args
    match Function.ofName? f with
    | some function => function.apply vs
    | none => .error .underflowInCall

def Expr.values (scene : Scene σ) : List Expr → Except (Fault ε) (List Value)
  | [] => .ok []
  | e :: es => do
    let v ← Expr.value scene e
    let vs ← Expr.values scene es
    return v :: vs

end

def Scene.order (scene : Scene σ) (offset : Nat) (c : Command) (args : List Value) :
    Except (Trap ε) Unit × Scene σ :=
  match Host.perform scene.host c args with
  | (.error r, host) =>
    (.error ⟨.refused r.cause, r.offset.or (some offset)⟩, { scene with host })
  | (.ok (), host) => (.ok (), { scene with host })

namespace Stmt

def run (s : Stmt) (scene : Scene σ) : Except (Trap ε) Unit × Scene σ :=
  match s.action with
  | .declare name e | .assign name e =>
    scene.after s.offset (e.value scene) fun v => (.ok (), scene.assign name v)
  | .command name args =>
    scene.after s.offset (Expr.values scene args) fun vs =>
      match Command.ofName? name with
      | some c => scene.order s.offset c vs
      | none => (.error ⟨.underflowInCommand, some s.offset⟩, scene)

def runAll (scene : Scene σ) : List Stmt → Except (Trap ε) Unit × Scene σ
  | [] => (.ok (), scene)
  | s :: rest =>
    match s.run scene with
    | (.ok (), scene) => runAll scene rest
    | (.error t, scene) => (.error t, scene)

end Stmt

end TurtlePlayback.Script
