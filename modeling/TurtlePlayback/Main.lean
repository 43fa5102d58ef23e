import TurtlePlayback.Canvas.Png
import TurtlePlayback.Command.Execution

namespace TurtlePlayback.Command

open Canvas

def PathFault.ofError : IO.Error → PathFault
  | .noFileOrDirectory .. => .missing
  | .alreadyExists .. => .alreadyThere
  | .inappropriateType _ code _ => if code = 21 then .isDirectory else .notDirectory
  | e@(.invalidArgument _ code _) => if code = 36 then .nameTooLong else .other (toString e)
  | e => .other (toString e)

def attempt {α : Type} (effect : IO α) : IO (Except PathFault α) :=
  try return .ok (← effect) catch e => return .error (.ofError e)

instance : FileSystem IO where
  read path := do
    match ← attempt (IO.FS.readBinFile path) with
    | .error f => return .error f
    | .ok bytes =>
      match String.fromUTF8? bytes with
      | some text => return .ok text
      | none => return .error (.other "stream did not contain valid UTF-8")
  makeDirectory path := attempt (IO.FS.createDirAll path)
  writePicture path p := attempt (IO.FS.writeBinFile path (Png.encode p))

end TurtlePlayback.Command

def main (args : List String) : IO UInt32 := do
  let report ← TurtlePlayback.Command.execute (m := IO) args
  for line in report.stdout do
    IO.println line
  for line in report.stderr do
    IO.eprintln line
  return .ofNat report.code
