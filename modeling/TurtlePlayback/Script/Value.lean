import TurtlePlayback.Decimal.Layout

namespace TurtlePlayback.Script

inductive Value
  | unset
  | number (value : Float)
  | truth (value : Bool)
  deriving DecidableEq

inductive TypeFault
  | expectedTruth (got : Value)
  | expectedNumber (got : Value)
  deriving DecidableEq

namespace Value

def text : Value → String
  | unset => "unset"
  | number v => Decimal.Layout.plain.write v
  | truth b => toString b

def describe : Value → String
  | unset => "Unset"
  | number v => "F64(" ++ Decimal.Layout.exact.write v ++ ")"
  | truth b => "Bool(" ++ toString b ++ ")"

def asTruth : Value → Except TypeFault Bool
  | truth b => .ok b
  | other => .error (.expectedTruth other)

def asNumber : Value → Except TypeFault Float
  | number v => .ok v
  | other => .error (.expectedNumber other)

end Value

def TypeFault.message : TypeFault → String
  | expectedTruth got => s!"expected bool, got {got.describe}"
  | expectedNumber got => s!"expected number, got {got.describe}"

end TurtlePlayback.Script
