import TurtlePlayback.Proofs.ParsedScripts

/-!
Parsers by the index of their token. They ask for tokens by number, count how deep expressions are
nested and can stop for want of tokens, of active calls or of rounds of a loop, all of which the
parsers on lists cannot.
-/

namespace TurtlePlayback.Script.Indexed

structure Cursor where
  index : Nat
  depth : Nat

inductive Stop
  | refused (e : Error)
  | outside
  | underflow
  | calls
  | rounds

abbrev Reading (α : Type) :=
  EStateM Stop Cursor α

def refuse {α : Type} (offset : Nat) (complaint : Complaint) : Reading α :=
  throw (.refused ⟨offset, complaint⟩)

variable (ts : List Token)

def tokenAt (i : Nat) : Reading Token :=
  match ts[i]? with
  | some t => pure t
  | none => throw .outside

def current : Reading Token := do
  tokenAt ts (← get).index

def ahead (n : Nat) : Reading Token := do
  if ts.length = 0 then throw .underflow
  else tokenAt ts (min ((← get).index + n) (ts.length - 1))

def bump : Reading Token := do
  let t ← current ts
  modify fun c => if c.index + 1 < ts.length then { c with index := c.index + 1 } else c
  return t

def consume (k : Kind) : Reading Bool := do
  if (← current ts).kind = k then
    let _ ← bump ts
    return true
  else return false

def expect (k : Kind) : Reading Unit := do
  let t ← current ts
  if t.kind = k then
    let _ ← bump ts
  else refuse t.start (.expected k t.kind)

def descend : Reading Unit := do
  modify fun c => { c with depth := c.depth + 1 }
  if maxNesting < (← get).depth then refuse (← current ts).start .nestedTooDeeply

def ascend : Reading Unit := do
  if (← get).depth = 0 then throw .underflow
  else modify fun c => { c with depth := c.depth - 1 }

def chain (l : Level) (operand : Reading Expr) : (rounds : Nat) → Expr → Reading Expr
  | 0, _ => throw .rounds
  | rounds + 1, left => do
    match l.operator? (← current ts).kind with
    | none => return left
    | some op =>
      let _ ← bump ts
      descend ts
      let right ← operand
      chain l operand rounds (.binary op left right)

def argumentsFrom (expr : Reading Expr) : (rounds : Nat) → Reading (List Expr)
  | 0 => throw .rounds
  | rounds + 1 => do
    let e ← expr
    if ← consume ts .comma then
      let es ← argumentsFrom expr rounds
      return e :: es
    else
      expect ts .closeParen
      return [e]

mutual

/-- Reads expressions whose operators are of the given levels, and unary ones behind the last. At
most `calls` calls are active at once, this one included. -/
def operand : (calls : Nat) → List Level → Reading Expr
  | 0, _ => throw .calls
  | calls + 1, [] => do
    match unaryOperator? (← current ts).kind with
    | some op =>
      let _ ← bump ts
      descend ts
      let e ← operand calls []
      ascend
      return .unary op e
    | none => primary calls
  | calls + 1, l :: tighter => do
    let base := (← get).depth
    let e ← operand calls tighter
    let e ← chain ts l (operand calls tighter) ts.length e
    modify fun c => { c with depth := base }
    return e

def primary : (calls : Nat) → Reading Expr
  | 0 => throw .calls
  | calls + 1 => do
    let t ← bump ts
    match t.kind with
    | .number value => return .literal (.number value)
    | .truth value => return .literal (.truth value)
    | .name text =>
      if ← consume ts .openParen then
        descend ts
        let args ← arguments calls
        ascend
        return .call text args t.start
      else return .name text t.start
    | .openParen =>
      descend ts
      let e ← operand calls Level.all
      expect ts .closeParen
      ascend
      return e
    | other => refuse t.start (.unexpectedToken other)

def arguments : (calls : Nat) → Reading (List Expr)
  | 0 => throw .calls
  | calls + 1 => do
    if ← consume ts .closeParen then return []
    else argumentsFrom ts (operand calls Level.all) ts.length

end

def name : Reading String := do
  let t ← bump ts
  match t.kind with
  | .name text => return text
  | other => refuse t.start (.expectedName other)

def statement : (calls : Nat) → Reading Stmt
  | 0 => throw .calls
  | calls + 1 => do
    let t ← bump ts
    match t.kind with
    | .letWord =>
      let text ← name ts
      expect ts .assign
      let value ← operand ts calls Level.all
      return ⟨.declare text value, t.start⟩
    | .name text =>
      if ← consume ts .assign then
        let value ← operand ts calls Level.all
        return ⟨.assign text value, t.start⟩
      else if ← consume ts .openParen then
        let args ← arguments ts calls
        return ⟨.command text args, t.start⟩
      else refuse (← current ts).start (.expectedCallOrAssignment text)
    | other => refuse t.start (.expectedStatement other)

def statementEnd : Reading Unit := do
  let t ← current ts
  match t.kind with
  | .separator =>
    let _ ← bump ts
  | .finish => return ()
  | .closeBrace => return ()
  | other => refuse t.start (.expectedStatementEnd other)

def skipSeparators : (rounds : Nat) → Reading Unit
  | 0 => throw .rounds
  | rounds + 1 => do
    if ← consume ts .separator then skipSeparators rounds

def blockHeader? : Reading (Option Block) := do
  match (← current ts).kind with
  | .name text =>
    if (← ahead ts 1).kind = .openBrace then
      match text with
      | "setup" => return some .setup
      | "step" => return some .step
      | _ => return none
    else return none
  | _ => return none

def bodyFrom (calls : Nat) : (rounds : Nat) → Array Stmt → Reading (List Stmt)
  | 0, _ => throw .rounds
  | rounds + 1, read => do
    skipSeparators ts ts.length
    if ← consume ts .closeBrace then return read.toList
    else
      let t ← current ts
      if t.kind = .finish then refuse t.start .unclosedBlock
      else if (← blockHeader? ts).isSome then refuse t.start .nestedBlock
      else
        let s ← statement ts calls
        statementEnd ts
        bodyFrom calls rounds (read.push s)

def body : (calls : Nat) → Reading (List Stmt)
  | 0 => throw .calls
  | calls + 1 => bodyFrom ts calls ts.length #[]

def scriptFrom (calls : Nat) :
    (rounds : Nat) → Option (List Stmt) → Array Stmt → Reading Tree
  | 0, _, _ => throw .rounds
  | rounds + 1, setup, step => do
    skipSeparators ts ts.length
    let t ← current ts
    if t.kind = .finish then return ⟨setup.getD [], step.toList⟩
    else
      match ← blockHeader? ts with
      | some block =>
        let _ ← bump ts
        expect ts .openBrace
        let statements ← body ts calls
        match block with
        | .setup =>
          if setup.isSome then refuse t.start .duplicateSetup
          else scriptFrom calls rounds (some statements) step
        | .step => scriptFrom calls rounds setup (step ++ statements)
      | none =>
        let s ← statement ts calls
        statementEnd ts
        scriptFrom calls rounds setup (step.push s)

def script : (calls : Nat) → Reading Tree
  | 0 => throw .calls
  | calls + 1 => scriptFrom ts calls ts.length none #[]

end TurtlePlayback.Script.Indexed
