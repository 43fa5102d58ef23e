namespace TurtlePlayback

inductive Stage
  | validation
  | compile
  | step
  | render
  | misuse
  | other
  deriving DecidableEq, Repr

structure Failure where
  stage : Stage
  message : String
  deriving DecidableEq, Repr

namespace Failure

def text (f : Failure) : String :=
  match f.stage with
  | .validation => "validation error: " ++ f.message
  | .compile => "compile error: " ++ f.message
  | .step => "step error: " ++ f.message
  | .render => "render error: " ++ f.message
  | .misuse => "resource misuse: " ++ f.message
  | .other => f.message

end Failure

end TurtlePlayback
