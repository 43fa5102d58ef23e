namespace TurtlePlayback.Script

inductive Literal
  | number (value : Float)
  | truth (value : Bool)
  deriving DecidableEq

inductive UnaryOp
  | neg
  | not
  deriving DecidableEq

inductive BinaryOp
  | add
  | sub
  | mul
  | div
  | mod
  | eq
  | ne
  | lt
  | le
  | gt
  | ge
  | and
  | or
  deriving DecidableEq

inductive Expr
  | literal (value : Literal)
  | unary (op : UnaryOp) (operand : Expr)
  | binary (op : BinaryOp) (left right : Expr)
  | call (function : String) (args : List Expr) (offset : Nat)
  | name (name : String) (offset : Nat)

inductive Action
  | declare (name : String) (value : Expr)
  | assign (name : String) (value : Expr)
  | command (name : String) (args : List Expr)

structure Stmt where
  action : Action
  offset : Nat

structure Tree where
  setup : List Stmt
  step : List Stmt

end TurtlePlayback.Script
