namespace TurtlePlayback.Script

/-- A place in a text, both counted from one. Columns count bytes. -/
structure Location where
  line : Nat
  column : Nat
  deriving DecidableEq, Repr

def byteLength : List Char → Nat
  | [] => 0
  | c :: cs => c.utf8Size + byteLength cs

namespace Location

def first : Location := ⟨1, 1⟩

def past (l : Location) (c : Char) : Location :=
  if c = '\n' then ⟨l.line + 1, 1⟩ else ⟨l.line, l.column + c.utf8Size⟩

def walk (l : Location) : List Char → Nat → Option Location
  | _, 0 => some l
  | [], _ => some l
  | c :: cs, offset => if offset < c.utf8Size then none else (l.past c).walk cs (offset - c.utf8Size)

def ofOffset? (source : String) (offset : Nat) : Option Location :=
  first.walk source.toList offset

def render (l : Location) (message : String) : String :=
  s!"{l.line}:{l.column}: {message}"

end Location

end TurtlePlayback.Script
