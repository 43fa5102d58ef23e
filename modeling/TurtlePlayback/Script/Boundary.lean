import TurtlePlayback.Script.Location
import TurtlePlayback.Text.Hidden

namespace TurtlePlayback.Script

structure Split where
  offset : Nat
  character : Char
  start : Nat

namespace Split

def find? (start : Nat) : List Char → (offset : Nat) → Option Split
  | [], _ => none
  | c :: cs, offset =>
    if offset = start then none
    else if offset < start + c.utf8Size then some ⟨offset, c, start⟩
    else find? (start + c.utf8Size) cs offset

def ofOffset? (source : String) (offset : Nat) : Option Split :=
  find? 0 source.toList offset

def shown (c : Char) : String :=
  if Text.isHidden c then "\\u\x7b" ++ String.ofList (Nat.toDigits 16 c.toNat) ++ "\x7d"
  else c.toString

def message (s : Split) : String :=
  s!"end byte index {s.offset} is not a char boundary; it is inside '{shown s.character}' " ++
    s!"(bytes {s.start}..{s.start + s.character.utf8Size} of string)"

end Split

end TurtlePlayback.Script
