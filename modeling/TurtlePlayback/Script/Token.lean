import TurtlePlayback.Decimal.Layout

namespace TurtlePlayback.Script

inductive Kind
  | name (text : String)
  | number (value : Float)
  | truth (value : Bool)
  | letWord
  | openParen
  | closeParen
  | openBrace
  | closeBrace
  | comma
  /-- A semicolon, or a line end outside parentheses. -/
  | separator
  | assign
  | plus
  | minus
  | star
  | slash
  | percent
  | bang
  | equal
  | notEqual
  | less
  | lessEqual
  | greater
  | greaterEqual
  | both
  | either
  | finish
  deriving DecidableEq

namespace Kind

def label : Kind → String
  | name _ => "Ident"
  | number _ => "Number"
  | truth true => "True"
  | truth false => "False"
  | letWord => "Let"
  | openParen => "LParen"
  | closeParen => "RParen"
  | openBrace => "LBrace"
  | closeBrace => "RBrace"
  | comma => "Comma"
  | separator => "Sep"
  | assign => "Assign"
  | plus => "Plus"
  | minus => "Minus"
  | star => "Star"
  | slash => "Slash"
  | percent => "Percent"
  | bang => "Bang"
  | equal => "EqEq"
  | notEqual => "Ne"
  | less => "Lt"
  | lessEqual => "Le"
  | greater => "Gt"
  | greaterEqual => "Ge"
  | both => "AndAnd"
  | either => "OrOr"
  | finish => "Eof"

def describe (k : Kind) : String :=
  match k with
  | name text => k.label ++ "(\"" ++ text ++ "\")"
  | number value => k.label ++ "(" ++ Decimal.Layout.exact.write value ++ ")"
  | _ => k.label

end Kind

/-- A token over the bytes from `start` to before `stop`. -/
structure Token where
  kind : Kind
  start : Nat
  stop : Nat
  deriving DecidableEq

end TurtlePlayback.Script
