namespace TurtlePlayback.Session

structure OutputLine where
  text : String
  isError : Bool
  deriving DecidableEq, Repr

def maxOutputLines : Nat := 1000

/-- A queue of lines: the front in its order, and behind it the back, newest first. -/
structure Output where
  front : List OutputLine := []
  back : List OutputLine := []
  size : Nat := 0
  dropped : Nat := 0

namespace Output

def lines (o : Output) : List OutputLine :=
  o.front ++ o.back.reverse

def dropOldest (o : Output) : Output :=
  match o.front with
  | _ :: front => { o with front, size := o.size - 1, dropped := o.dropped + 1 }
  | [] =>
    { o with front := o.back.reverse.tail, back := [], size := o.size - 1, dropped := o.dropped + 1 }

def print (o : Output) (text : String) (isError : Bool) : Output :=
  let o := if o.size = maxOutputLines then o.dropOldest else o
  { o with back := ⟨text, isError⟩ :: o.back, size := o.size + 1 }

def printError (o : Output) (text : String) : Output :=
  o.print text true

def printAll (o : Output) (texts : Array String) : Output :=
  texts.foldl (·.print · false) o

def clear (_ : Output) : Output :=
  {}

def last? (o : Output) : Option OutputLine :=
  o.back.head? <|> o.front.getLast?

def errors (o : Output) : List String :=
  (o.lines.filter (·.isError)).map (·.text)

def text (o : Output) : String :=
  "\n".intercalate (o.lines.map (·.text))

end Output

end TurtlePlayback.Session
