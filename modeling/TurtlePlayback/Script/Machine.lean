import TurtlePlayback.Binary64.Remainder
import TurtlePlayback.Script.Code
import TurtlePlayback.Script.Value

/-!
The machine that runs code. It keeps variables and a stack, and it passes commands on to a host,
of which it knows only how to read it and how to order it. An operation that fails leaves the
machine as it was when it failed, with the operands taken so far.
-/

namespace TurtlePlayback.Script

structure Refusal (ε : Type) where
  cause : ε
  offset : Option Nat := none

/-- The other side of the machine: readings, and commands that may fail. -/
class Host (σ : Type) (ε : outParam Type) where
  read : σ → Reading → Float
  perform : σ → Command → List Value → Except (Refusal ε) Unit × σ

inductive Fault (ε : Type)
  | literalRange
  | slotRange
  | readBeforeAssignment
  | underflow
  | underflowInCall
  | underflowInCommand
  | type (fault : TypeFault)
  | clampBounds (low high : Float)
  | leftOver (count : Nat)
  | refused (cause : ε)

def Fault.message {ε : Type} (ofCause : ε → String) : Fault ε → String
  | literalRange => "const idx out of range"
  | slotRange => "variable slot out of range"
  | readBeforeAssignment => "variable read before assignment"
  | underflow => "stack underflow"
  | underflowInCall => "stack underflow in builtin call"
  | underflowInCommand => "stack underflow in command"
  | type fault => fault.message
  | clampBounds low high =>
    s!"clamp bounds inverted ({Decimal.Layout.plain.write low} > {Decimal.Layout.plain.write high})"
  | leftOver count => s!"stack has {count} values at end of block"
  | refused cause => ofCause cause

structure Trap (ε : Type) where
  fault : Fault ε
  offset : Option Nat := none

/-- The stack has its top first. -/
structure Machine (σ : Type) where
  vars : Array Value
  stack : List Value
  host : σ

abbrev Run (σ ε : Type) :=
  EStateM (Trap ε) (Machine σ)

namespace Run

variable {σ ε : Type}

def fail {α : Type} (f : Fault ε) : Run σ ε α :=
  throw ⟨f, none⟩

def push (v : Value) : Run σ ε Unit :=
  modify fun m => { m with stack := v :: m.stack }

def pop : Run σ ε Value := do
  let m ← get
  match m.stack with
  | [] => fail .underflow
  | v :: stack =>
    set { m with stack }
    return v

def typed {α : Type} : Except TypeFault α → Run σ ε α
  | .ok a => pure a
  | .error f => fail (.type f)

def popNumber : Run σ ε Float := do
  typed (← pop).asNumber

def popTruth : Run σ ε Bool := do
  typed (← pop).asTruth

def numbers (f : Float → Float → Value) : Run σ ε Unit := do
  let b ← popNumber
  let a ← popNumber
  push (f a b)

def truths (f : Bool → Bool → Bool) : Run σ ε Unit := do
  let b ← popTruth
  let a ← popTruth
  push (.truth (f a b))

/-- Two truths or two numbers are compared; of anything else the left operand is blamed first. -/
def same (a b : Value) : Except TypeFault Bool :=
  match a, b with
  | .truth a, .truth b => .ok (a == b)
  | a, b => do
    let x ← a.asNumber
    let y ← b.asNumber
    return x == y

def equality (wanted : Bool) : Run σ ε Unit := do
  let b ← pop
  let a ← pop
  let equal ← typed (same a b)
  push (.truth (equal == wanted))

def unary : UnaryOp → Run σ ε Unit
  | .neg => do push (.number (-(← popNumber)))
  | .not => do push (.truth (!(← popTruth)))

def binary : BinaryOp → Run σ ε Unit
  | .add => numbers fun a b => .number (a + b)
  | .sub => numbers fun a b => .number (a - b)
  | .mul => numbers fun a b => .number (a * b)
  | .div => numbers fun a b => .number (a / b)
  | .mod => numbers fun a b => .number (Binary64.remainder a b)
  | .eq => equality true
  | .ne => equality false
  | .lt => numbers fun a b => .truth (a < b)
  | .le => numbers fun a b => .truth (a ≤ b)
  | .gt => numbers fun a b => .truth (b < a)
  | .ge => numbers fun a b => .truth (b ≤ a)
  | .and => truths and
  | .or => truths or

/-- The smaller of two numbers; NaN gives way to the other, and of two equal ones, such as the zeros
of either sign, the right one is taken. -/
def least (a b : Float) : Float :=
  if a.isNaN then b else if b.isNaN then a else if a < b then a else b

def greatest (a b : Float) : Float :=
  if a.isNaN then b else if b.isNaN then a else if b < a then a else b

def clamp (x low high : Float) : Float :=
  let x := if x < low then low else x
  if high < x then high else x

def number (f : Float → Float) : Run σ ε Unit := do
  push (.number (f (← popNumber)))

def function : Function → Run σ ε Unit
  | .abs => number Float.abs
  | .sin => number Float.sin
  | .cos => number Float.cos
  | .sqrt => number Float.sqrt
  | .floor => number Float.floor
  | .min => numbers fun a b => .number (least a b)
  | .max => numbers fun a b => .number (greatest a b)
  | .clamp => do
    let high ← popNumber
    let low ← popNumber
    let x ← popNumber
    if low.isNaN || high.isNaN || high < low then fail (.clampBounds low high)
    push (.number (clamp x low high))
  | .lerp => do
    let t ← popNumber
    let b ← popNumber
    let a ← popNumber
    push (.number (a + (b - a) * t))

def literal : Literal → Value
  | .number v => .number v
  | .truth b => .truth b

variable [Host σ ε]

def command (c : Command) (args : Nat) : Run σ ε Unit := fun ⟨vars, stack, host⟩ =>
  let taken := stack.take args
  if taken.length < args then .error ⟨.underflowInCommand, none⟩ ⟨vars, stack, host⟩
  else
    let stack := stack.drop args
    match Host.perform host c taken.reverse with
    | (.ok (), host) => .ok () ⟨vars, stack, host⟩
    | (.error refusal, host) =>
      .error ⟨.refused refusal.cause, refusal.offset⟩ ⟨vars, stack, host⟩

def store (slot : Nat) : Run σ ε Unit := do
  let v ← pop
  fun ⟨vars, stack, host⟩ =>
    if slot < vars.size then .ok () ⟨vars.setIfInBounds slot v, stack, host⟩
    else .error ⟨.slotRange, none⟩ ⟨vars, stack, host⟩

def instr (literals : Array Literal) : Instr → Run σ ε Unit
  | .push i =>
    match literals[i]? with
    | some l => push (literal l)
    | none => fail .literalRange
  | .load slot => do
    match (← get).vars[slot]? with
    | none => fail .slotRange
    | some .unset => fail .readBeforeAssignment
    | some v => push v
  | .store slot => store slot
  | .sense r => do push (.number (Host.read (← get).host r))
  | .unary op => unary op
  | .binary op => binary op
  | .call f args => do
    if ((← get).stack.take args).length < args then fail .underflowInCall else function f
  | .command c args => command c args

def located {α : Type} (offset : Option Nat) (x : Run σ ε α) : Run σ ε α := fun m =>
  match x m with
  | .ok a m => .ok a m
  | .error t m => .error { t with offset := t.offset.or offset } m

def instrs (code : Code) : (pc : Nat) → List Instr → Run σ ε Unit
  | _, [] => pure ()
  | pc, i :: rest => do
    located code.offsets[pc]? (instr code.literals i)
    instrs code (pc + 1) rest

/-- Runs code on an empty stack, and demands that it leaves an empty one. -/
def code (c : Code) : Run σ ε Unit := do
  modify fun m => { m with stack := [] }
  instrs c 0 c.instrs.toList
  let m ← get
  unless m.stack.isEmpty do fail (.leftOver m.stack.length)

end Run

end TurtlePlayback.Script
