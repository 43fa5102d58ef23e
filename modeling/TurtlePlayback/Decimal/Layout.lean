import TurtlePlayback.Binary64.Parts
import TurtlePlayback.Decimal.Shortest

/-!
How a double is written. All layouts write the shortest digits that read back; a `Layout` says
where the point may stand and how whole numbers end.
-/

namespace TurtlePlayback.Decimal

/-- The choices of a number format. With `p` places before the point, a number is written
positionally when `least < p ≤ most` (a missing bound bounds nothing) and with a power of ten
otherwise. `whole` ends a positional number without decimals, and `plus` stands in front of an
exponent that is not negative. -/
structure Layout where
  least : Option Int
  most : Option Int
  whole : String
  plus : String
  tie : Tie

def Layout.plain : Layout :=
  ⟨none, none, "", "", .up⟩

/-- Numbers inside the text of a value or token: a power of ten from `1e16` on and below `1e-4`,
whole numbers end in `.0`. -/
def Layout.exact : Layout :=
  ⟨some (-4), some 16, ".0", "", .up⟩

def Layout.json : Layout :=
  ⟨some (-5), some 16, ".0", "+", .toEven⟩

def Layout.positional (l : Layout) (place : Int) : Bool :=
  l.least.all (· < place) && l.most.all (place ≤ ·)

def writePositional (whole : String) (digits : List Char) (exponent : Int) : String :=
  let place := digits.length + exponent
  if 0 ≤ exponent then
    String.ofList (digits ++ List.replicate exponent.toNat '0') ++ whole
  else if 0 < place then
    String.ofList (digits.take place.toNat ++ '.' :: digits.drop place.toNat)
  else
    String.ofList ('0' :: '.' :: List.replicate (-place).toNat '0' ++ digits)

def writeScientific (plus : String) (digits : List Char) (exponent : Int) : String :=
  let mantissa :=
    match digits with
    | d :: e :: r => d :: '.' :: e :: r
    | ds => ds
  let power := digits.length + exponent - 1
  String.ofList mantissa ++ "e" ++ (if power < 0 then "" else plus) ++ toString power

def Layout.write (l : Layout) (x : Float) : String :=
  match Binary64.parts? x with
  | none => if x.isNaN then "NaN" else if Binary64.signBit x then "-inf" else "inf"
  | some p =>
    let sign := if p.negative then "-" else ""
    if p.mantissa = 0 then sign ++ "0" ++ l.whole
    else
      let s := shortest l.tie p.mantissa p.exponent
      let digits := Nat.toDigits 10 s.digits
      sign ++
        if l.positional (digits.length + s.exponent) then writePositional l.whole digits s.exponent
        else writeScientific l.plus digits s.exponent

end TurtlePlayback.Decimal
