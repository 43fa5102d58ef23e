import TurtlePlayback.Script.Code
import TurtlePlayback.Script.Tree.Parsing

/-!
Trees as code. Operands come before their operator, left to right. A name stands for the variable
declared by it, else for a reading of the turtle, else for a constant.
-/

namespace TurtlePlayback.Script

/-- The variables declared so far; the position of a name is its slot. -/
abbrev Scope :=
  Array String

namespace Scope

def slot? (s : Scope) (name : String) : Option Nat :=
  s.idxOf? name

/-- A new name gets the next slot. Slots are not taken as words, which would begin anew behind `2 ^
32` names. -/
def declare (s : Scope) (name : String) : Scope × Nat :=
  match s.slot? name with
  | some slot => (s, slot)
  | none => (s.push name, s.size)

end Scope

def checkArity (name : String) (least most got offset : Nat) : Except Error Unit :=
  if least ≤ got ∧ got ≤ most then .ok ()
  else .error ⟨offset, .argumentCount name least most got⟩

def lowerName (scope : Scope) (offset : Nat) (code : Code) (name : String) (nameOffset : Nat) :
    Except Error Code :=
  match scope.slot? name with
  | some slot => .ok (code.emit (.load slot) offset)
  | none =>
    match Reading.ofName? name with
    | some reading => .ok (code.emit (.sense reading) offset)
    | none =>
      match Constant.ofName? name with
      | some c => .ok (code.emitLiteral (.number c.value) offset)
      | none => .error ⟨nameOffset, .unknownName name⟩

def callee (name : String) (args offset : Nat) : Except Error Function :=
  match Function.ofName? name with
  | some f => do
    checkArity name f.arity f.arity args offset
    return f
  | none =>
    .error ⟨offset,
      if (Command.ofName? name).isSome then .commandWithoutValue name else .unknownFunction name⟩

def commandNamed (name : String) (args offset : Nat) : Except Error Command :=
  match Command.ofName? name with
  | some c => do
    checkArity name c.arity.1 c.arity.2 args offset
    return c
  | none =>
    .error ⟨offset,
      if (Function.ofName? name).isSome then .unusedFunctionValue name else .unknownCommand name⟩

mutual

def lowerExpr (scope : Scope) (offset : Nat) (code : Code) : Expr → Except Error Code
  | .literal l => .ok (code.emitLiteral l offset)
  | .name n nameOffset => lowerName scope offset code n nameOffset
  | .unary op e => do
    let code ← lowerExpr scope offset code e
    return code.emit (.unary op) offset
  | .binary op l r => do
    let code ← lowerExpr scope offset code l
    let code ← lowerExpr scope offset code r
    return code.emit (.binary op) offset
  | .call f args callOffset => do
    let function ← callee f args.length callOffset
    let code ← lowerExprs scope offset code args
    return code.emit (.call function args.length) offset

def lowerExprs (scope : Scope) (offset : Nat) (code : Code) : List Expr → Except Error Code
  | [] => .ok code
  | e :: es => do
    let code ← lowerExpr scope offset code e
    lowerExprs scope offset code es

end

def lowerStmt (scope : Scope) (code : Code) (s : Stmt) : Except Error (Scope × Code) :=
  match s.action with
  | .declare name value =>
    if isReserved name then .error ⟨s.offset, .redefinedBuiltin name⟩
    else do
      let code ← lowerExpr scope s.offset code value
      let (scope, slot) := scope.declare name
      return (scope, code.emit (.store slot) s.offset)
  | .assign name value =>
    match scope.slot? name with
    | some slot => do
      let code ← lowerExpr scope s.offset code value
      return (scope, code.emit (.store slot) s.offset)
    | none =>
      .error ⟨s.offset,
        if isReserved name then .assignedBuiltin name else .undeclaredVariable name⟩
  | .command name args => do
    let command ← commandNamed name args.length s.offset
    let code ← lowerExprs scope s.offset code args
    return (scope, code.emit (.command command args.length) s.offset)

def lowerStmts (scope : Scope) (code : Code) : List Stmt → Except Error (Scope × Code)
  | [] => .ok (scope, code)
  | s :: rest =>
    match lowerStmt scope code s with
    | .ok (scope, code) => lowerStmts scope code rest
    | .error e => .error e

def Tree.lower (t : Tree) (source : String) : Except Error Program := do
  let (scope, setup) ← lowerStmts #[] {} t.setup
  let (scope, step) ← lowerStmts scope {} t.step
  return ⟨setup, step, scope, source⟩

def Program.compile (source : String) : Except Error Program := do
  let tree ← Tree.parse source
  tree.lower source

end TurtlePlayback.Script
