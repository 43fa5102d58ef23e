import TurtlePlayback.Script.Tree
import TurtlePlayback.Script.Vocabulary

namespace TurtlePlayback.Script

/-- Places of literals and slots of variables are numbers without a bound. In words of 32 bits they
are the same as long as a program has no more than `2 ^ 32` of either. -/
inductive Instr
  | push (literal : Nat)
  | load (slot : Nat)
  | store (slot : Nat)
  | sense (reading : Reading)
  | unary (op : UnaryOp)
  | binary (op : BinaryOp)
  | call (function : Function) (args : Nat)
  | command (command : Command) (args : Nat)
  deriving DecidableEq

structure Code where
  instrs : Array Instr := #[]
  literals : Array Literal := #[]
  offsets : Array Nat := #[]
  deriving DecidableEq

namespace Code

def emit (c : Code) (i : Instr) (offset : Nat) : Code :=
  { c with instrs := c.instrs.push i, offsets := c.offsets.push offset }

/-- Appends an instruction that pushes a literal. Literals are not shared. -/
def emitLiteral (c : Code) (l : Literal) (offset : Nat) : Code :=
  let position := c.literals.size
  { c with literals := c.literals.push l }.emit (.push position) offset

end Code

/-- What a script is compiled to. Variables are numbered in the order of their declarations. -/
structure Program where
  setup : Code
  step : Code
  names : Array String
  source : String
  deriving DecidableEq

namespace Program

def variableCount (p : Program) : Nat :=
  p.names.size

def instrCount (p : Program) : Nat :=
  p.setup.instrs.size + p.step.instrs.size

end Program

end TurtlePlayback.Script
