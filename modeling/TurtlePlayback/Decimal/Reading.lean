namespace TurtlePlayback.Decimal

def ofReversed (b : Nat) : List Nat → Nat
  | [] => 0
  | d :: ds => d + b * ofReversed b ds

def pairUp (b : Nat) : List Nat → List Nat
  | d :: e :: ds => (d + b * e) :: pairUp b ds
  | ds => ds

theorem ofReversed_pairUp (b : Nat) (ds : List Nat) :
    ofReversed (b * b) (pairUp b ds) = ofReversed b ds := by
  fun_induction pairUp b ds with
  | case1 d e ds ih => simp [ofReversed, ih, Nat.mul_add, Nat.mul_assoc, Nat.add_assoc]
  | case2 ds h =>
    match ds with
    | [] => rfl
    | [d] => simp [ofReversed]
    | d :: e :: ds => exact (h d e ds rfl).elim

/-- The value of digits in base `b`, the last digit first, after `rounds` of pairing them up. With
as many rounds as halve the digits to one, the numbers grow slowly. -/
def ofPairs (b : Nat) (ds : List Nat) : (rounds : Nat) → Nat
  | 0 => ofReversed b ds
  | n + 1 => ofPairs (b * b) (pairUp b ds) n

theorem ofPairs_eq (b : Nat) (ds : List Nat) (n : Nat) : ofPairs b ds n = ofReversed b ds := by
  induction n generalizing b ds with
  | zero => rfl
  | succ n ih => rw [ofPairs, ih, ofReversed_pairUp]

def ofDigits (digits : List Char) : Nat :=
  let reversed := digits.reverse.map fun c => c.toNat - '0'.toNat
  ofPairs 10 reversed reversed.length.log2

def magnitude (n : Nat) : Nat :=
  n.log2 * 30103 / 100000

/-- The double nearest to `digits * 10 ^ exponent`. Beyond `10 ^ 310` all is infinite and below
`10 ^ -400` all is zero, whatever the digits, so no power of ten larger than that is formed. -/
def toFloat (digits : Nat) (exponent : Int) : Float :=
  let size := magnitude digits + exponent
  if digits = 0 ∨ size < -400 then 0.0
  else if 310 < size then 1.0 / 0.0
  else if exponent < 0 then Float.ofScientific digits true (-exponent).toNat
  else Float.ofScientific digits false exponent.toNat

end TurtlePlayback.Decimal
