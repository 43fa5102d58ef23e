namespace TurtlePlayback.Command

inductive PathFault
  | missing
  | alreadyThere
  | notDirectory
  | isDirectory
  | nameTooLong
  | other (message : String)
  deriving DecidableEq

def PathFault.message : PathFault → String
  | missing => "No such file or directory (os error 2)"
  | alreadyThere => "File exists (os error 17)"
  | notDirectory => "Not a directory (os error 20)"
  | isDirectory => "Is a directory (os error 21)"
  | nameTooLong => "File name too long (os error 36)"
  | other message => message

namespace Path

def fits (path : String) : Bool :=
  path.utf8ByteSize < 4096

def nameFits (part : String) : Bool :=
  part.utf8ByteSize ≤ 255

def isStill (part : String) : Bool :=
  part = "" || part = "."

/-- A path, last character first, without the slashes and single dots at its end. A dot or a slash
that is the whole path stays. -/
def trimEnd : List Char → List Char
  | ['/'] => ['/']
  | '/' :: r => trimEnd r
  | '.' :: '/' :: r => trimEnd ('/' :: r)
  | r => r

def parent? (path : String) : Option String :=
  match (trimEnd path.toList.reverse).dropWhile (· ≠ '/') with
  | [] => none
  | r => some (.ofList (trimEnd r).reverse)

end Path

end TurtlePlayback.Command
