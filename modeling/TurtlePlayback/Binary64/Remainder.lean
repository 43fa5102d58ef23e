import TurtlePlayback.Binary64.Parts

/-!
Division remainders of doubles. The remainder of two finite doubles is again a double, so it is
computed on whole numbers and never rounded.
-/

namespace TurtlePlayback.Binary64

def remainder (x y : Float) : Float :=
  match parts? x, parts? y with
  | some p, some d =>
    if d.mantissa = 0 then 0.0 / 0.0
    else
      let e := min p.exponent d.exponent
      let a := p.mantissa <<< (p.exponent - e).toNat
      let b := d.mantissa <<< (d.exponent - e).toNat
      Parts.toFloat ⟨p.negative, a % b, e⟩
  | some _, none => if y.isNaN then y else x
  | none, _ => 0.0 / 0.0

/-- The remainder moved into the range from zero to the size of `y`. The last addition rounds, so
the result can reach that size. -/
def remainderUp (x y : Float) : Float :=
  let r := remainder x y
  if r < 0.0 then r + y.abs else r

end TurtlePlayback.Binary64
