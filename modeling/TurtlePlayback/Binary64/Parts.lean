namespace TurtlePlayback.Binary64

/-- The number `mantissa * 2 ^ exponent`, negated when `negative` holds. -/
structure Parts where
  negative : Bool
  mantissa : Nat
  exponent : Int
  deriving DecidableEq, Repr

def signBit (x : Float) : Bool :=
  x.toBits >>> 63 == 1

def parts? (x : Float) : Option Parts :=
  let bits := x.toBits.toNat
  let biased : Nat := bits >>> 52 % (1 <<< 11)
  let fraction : Nat := bits % (1 <<< 52)
  if biased = 2047 then none
  else if biased = 0 then some ⟨signBit x, fraction, -1074⟩
  else some ⟨signBit x, 1 <<< 52 + fraction, (biased : Int) - 1075⟩

/-- Moves factors of two from the exponent into the mantissa until the leading bit of a normal
double is set or the least exponent is reached. -/
def Parts.widen (p : Parts) : Parts :=
  let shift : Nat := min (52 - p.mantissa.log2) (p.exponent + 1074).toNat
  ⟨p.negative, p.mantissa <<< shift, p.exponent - shift⟩

/-- The double with these parts, for a mantissa below `2 ^ 53` and an exponent from `-1074`
to `971`. -/
def Parts.toFloat (p : Parts) : Float :=
  let p := p.widen
  let magnitude : Nat :=
    if p.mantissa < 1 <<< 52 then p.mantissa
    else (p.exponent + 1075).toNat <<< 52 + (p.mantissa - 1 <<< 52)
  Float.ofBits (UInt64.ofNat (if p.negative then 1 <<< 63 + magnitude else magnitude))

end TurtlePlayback.Binary64
