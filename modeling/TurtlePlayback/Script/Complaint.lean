import TurtlePlayback.Script.Token

namespace TurtlePlayback.Script

inductive Complaint
  | badExponent
  | unexpectedCharacter (shown : Char)
  | nestedTooDeeply
  | expected (wanted found : Kind)
  | expectedStatementEnd (found : Kind)
  | expectedStatement (found : Kind)
  | expectedCallOrAssignment (name : String)
  | expectedName (found : Kind)
  | unexpectedToken (found : Kind)
  | unclosedBlock
  | nestedBlock
  | duplicateSetup
  | redefinedBuiltin (name : String)
  | assignedBuiltin (name : String)
  | undeclaredVariable (name : String)
  | unusedFunctionValue (name : String)
  | unknownCommand (name : String)
  | unknownName (name : String)
  | commandWithoutValue (name : String)
  | unknownFunction (name : String)
  | argumentCount (name : String) (least most got : Nat)
  deriving DecidableEq

namespace Complaint

def message : Complaint → String
  | badExponent => "invalid number exponent (expected digits)"
  | unexpectedCharacter c => s!"unexpected character '{c}'"
  | nestedTooDeeply => "expression nested too deeply"
  | expected wanted found => s!"expected {wanted.describe}, found {found.describe}"
  | expectedStatementEnd found => s!"expected end of statement, found {found.describe}"
  | expectedStatement found => s!"expected statement, found {found.describe}"
  | expectedCallOrAssignment name => s!"expected '(' or '=' after '{name}'"
  | expectedName found => s!"expected identifier, found {found.describe}"
  | unexpectedToken found => s!"unexpected token {found.describe}"
  | unclosedBlock => "unclosed block"
  | nestedBlock => "blocks cannot be nested"
  | duplicateSetup => "duplicate setup block"
  | redefinedBuiltin name => s!"cannot redefine built-in name '{name}'"
  | assignedBuiltin name => s!"cannot assign to built-in name '{name}'"
  | undeclaredVariable name => s!"assignment to undeclared variable '{name}'"
  | unusedFunctionValue name => s!"'{name}' is a function; its value must be used"
  | unknownCommand name => s!"unknown command '{name}'"
  | unknownName name => s!"unknown name '{name}'"
  | commandWithoutValue name => s!"'{name}' is a command and has no value"
  | unknownFunction name => s!"unknown function '{name}'"
  | argumentCount name least most got =>
    let range := if least = most then toString least else s!"{least} to {most}"
    s!"'{name}' expects {range} argument(s), got {got}"

end Complaint

structure Error where
  offset : Nat
  complaint : Complaint
  deriving DecidableEq

end TurtlePlayback.Script
