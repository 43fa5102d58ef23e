import TurtlePlayback.Script.Token.Reading
import TurtlePlayback.Script.Tree

/-!
Token lists as trees. A parser takes the tokens from its place on and returns what it has read
with the tokens behind it. Expressions may nest only so deep: each parser of expressions is given
the room that is left, and an operator, a call or a parenthesis takes one from it. The room is what
the recursion ends by.
-/

namespace TurtlePlayback.Script

abbrev Parser (α : Type) :=
  List Token → Except Error (α × List Token)

inductive Level
  | disjunction
  | conjunction
  | equality
  | comparison
  | sum
  | product
  deriving DecidableEq

namespace Level

def operator? : Level → Kind → Option BinaryOp
  | disjunction, .either => some .or
  | conjunction, .both => some .and
  | equality, .equal => some .eq
  | equality, .notEqual => some .ne
  | comparison, .less => some .lt
  | comparison, .lessEqual => some .le
  | comparison, .greater => some .gt
  | comparison, .greaterEqual => some .ge
  | sum, .plus => some .add
  | sum, .minus => some .sub
  | product, .star => some .mul
  | product, .slash => some .div
  | product, .percent => some .mod
  | _, _ => none

def all : List Level :=
  [disjunction, conjunction, equality, comparison, sum, product]

end Level

def unaryOperator? : Kind → Option UnaryOp
  | .minus => some .neg
  | .bang => some .not
  | _ => none

def peek : List Token → Kind
  | [] => .finish
  | t :: _ => t.kind

def here : List Token → Nat
  | [] => 0
  | t :: _ => t.start

/-- The tokens behind the next one. The end is never passed. -/
def advance : List Token → List Token
  | [] => []
  | t :: ts => if t.kind = .finish then t :: ts else ts

def complain {α : Type} (ts : List Token) (c : Complaint) : Except Error α :=
  .error ⟨here ts, c⟩

def expect (wanted : Kind) (ts : List Token) : Except Error (List Token) :=
  if peek ts = wanted then .ok (advance ts) else complain ts (.expected wanted (peek ts))

def argumentsUpTo (expr : Parser Expr) : (bound : List Token) → Parser (List Expr)
  | [], ts => complain ts (.expected .closeParen (peek ts))
  | _ :: bound, ts => do
    let (e, ts) ← expr ts
    if peek ts = .comma then
      let (es, ts) ← argumentsUpTo expr bound (advance ts)
      return (e :: es, ts)
    else
      let ts ← expect .closeParen ts
      return ([e], ts)

def arguments (expr : Parser Expr) : Parser (List Expr) := fun ts =>
  if peek ts = .closeParen then .ok ([], advance ts) else argumentsUpTo expr ts ts

def operandOf (unary : Parser Expr) (chain : Level → List Level → Expr → Parser Expr) :
    List Level → Parser Expr
  | [] => unary
  | l :: tighter => fun ts => do
    let (e, ts) ← operandOf unary chain tighter ts
    chain l tighter e ts

mutual

def unaryAt (room : Nat) : Parser Expr := fun ts =>
  match unaryOperator? (peek ts) with
  | some op =>
    match room with
    | 0 => complain (advance ts) .nestedTooDeeply
    | room + 1 => do
      let (e, ts) ← unaryAt room (advance ts)
      return (.unary op e, ts)
  | none =>
    match peek ts with
    | .number value => .ok (.literal (.number value), advance ts)
    | .truth value => .ok (.literal (.truth value), advance ts)
    | .name text =>
      if peek (advance ts) = .openParen then
        match room with
        | 0 => complain (advance (advance ts)) .nestedTooDeeply
        | room + 1 => do
          let expr := operandOf (unaryAt room) (chainAt room) Level.all
          let (args, rest) ← arguments expr (advance (advance ts))
          return (.call text args (here ts), rest)
      else .ok (.name text (here ts), advance ts)
    | .openParen =>
      match room with
      | 0 => complain (advance ts) .nestedTooDeeply
      | room + 1 => do
        let (e, ts) ← operandOf (unaryAt room) (chainAt room) Level.all (advance ts)
        let ts ← expect .closeParen ts
        return (e, ts)
    | other => complain ts (.unexpectedToken other)

/-- The operators of the level `l` that follow `left`, with operands of the tighter levels. Each
operator of a chain leaves less room for the next. -/
def chainAt (room : Nat) (l : Level) (tighter : List Level) (left : Expr) : Parser Expr :=
  fun ts =>
    match l.operator? (peek ts) with
    | none => .ok (left, ts)
    | some op =>
      match room with
      | 0 => complain (advance ts) .nestedTooDeeply
      | room + 1 => do
        let (right, ts) ← operandOf (unaryAt room) (chainAt room) tighter (advance ts)
        chainAt room l tighter (.binary op left right) ts

end

def maxNesting : Nat := 128

def expression : Parser Expr :=
  operandOf (unaryAt maxNesting) (chainAt maxNesting) Level.all

def statement : Parser Stmt := fun ts =>
  match peek ts with
  | .letWord =>
    match peek (advance ts) with
    | .name text => do
      let rest ← expect .assign (advance (advance ts))
      let (value, rest) ← expression rest
      return (⟨.declare text value, here ts⟩, rest)
    | other => complain (advance ts) (.expectedName other)
  | .name text =>
    match peek (advance ts) with
    | .assign => do
      let (value, rest) ← expression (advance (advance ts))
      return (⟨.assign text value, here ts⟩, rest)
    | .openParen => do
      let (args, rest) ← arguments expression (advance (advance ts))
      return (⟨.command text args, here ts⟩, rest)
    | _ => complain (advance ts) (.expectedCallOrAssignment text)
  | other => complain ts (.expectedStatement other)

def statementEnd (ts : List Token) : Except Error (List Token) :=
  match peek ts with
  | .separator => .ok (advance ts)
  | .finish => .ok ts
  | .closeBrace => .ok ts
  | other => complain ts (.expectedStatementEnd other)

inductive Block
  | setup
  | step
  deriving DecidableEq

def blockHeader? (ts : List Token) : Option Block :=
  match peek ts, peek (advance ts) with
  | .name "setup", .openBrace => some .setup
  | .name "step", .openBrace => some .step
  | _, _ => none

def skipSeparators (ts : List Token) : List Token :=
  ts.dropWhile (·.kind = .separator)

def blockBodyUpTo (read : Array Stmt) : (bound : List Token) → Parser (List Stmt)
  | [], ts => complain ts .unclosedBlock
  | _ :: bound, ts =>
    let ts := skipSeparators ts
    if peek ts = .closeBrace then .ok (read.toList, advance ts)
    else if peek ts = .finish then complain ts .unclosedBlock
    else if (blockHeader? ts).isSome then complain ts .nestedBlock
    else do
      let (s, ts) ← statement ts
      let ts ← statementEnd ts
      blockBodyUpTo (read.push s) bound ts

def blockBody : Parser (List Stmt) := fun ts =>
  blockBodyUpTo #[] ts ts

def treeUpTo (setup : Option (List Stmt)) (step : Array Stmt) :
    (bound : List Token) → List Token → Except Error Tree
  | [], _ => .ok ⟨setup.getD [], step.toList⟩
  | _ :: bound, ts =>
    let ts := skipSeparators ts
    if peek ts = .finish then .ok ⟨setup.getD [], step.toList⟩
    else
      match blockHeader? ts with
      | some .setup => do
        let (body, rest) ← blockBody (advance (advance ts))
        if setup.isSome then complain ts .duplicateSetup
        else treeUpTo (some body) step bound rest
      | some .step => do
        let (body, rest) ← blockBody (advance (advance ts))
        treeUpTo setup (step ++ body) bound rest
      | none => do
        let (s, ts) ← statement ts
        let ts ← statementEnd ts
        treeUpTo setup (step.push s) bound ts

def Tree.ofTokens (ts : List Token) : Except Error Tree :=
  treeUpTo none #[] ts ts

def Tree.parse (source : String) : Except Error Tree :=
  tokens source >>= Tree.ofTokens

end TurtlePlayback.Script
