/-!
The shortest decimal that reads back as a given number. A double `mantissa * 2 ^ exponent` is what
a decimal reads as when the decimal lies in the interval around it that rounds to it. On the grid
of decimals with one digit, then two, and so on, the double's two neighbours are tried; the first
grid that has a neighbour in the interval gives the digits.
-/

namespace TurtlePlayback.Decimal

structure Scaled where
  digits : Nat
  exponent : Int
  deriving DecidableEq, Repr

inductive Tie
  | up
  | toEven
  deriving DecidableEq, Repr

/-- Numbers with a common denominator: a value, and the ends of the interval of numbers that round
to it. The ends belong to it when `closed` holds. -/
structure Rounding where
  low : Nat
  value : Nat
  high : Nat
  denominator : Nat
  closed : Bool

/-- The interval of the double `mantissa * 2 ^ exponent`. Below a power of two the doubles lie
twice as dense, so there the lower end is nearer. -/
def Rounding.ofDouble (mantissa : Nat) (exponent : Int) : Rounding :=
  let scale := 1 <<< (exponent - 2).toNat
  let below := if mantissa = 1 <<< 52 ∧ -1074 < exponent then 1 else 2
  { low := (4 * mantissa - below) * scale
    value := 4 * mantissa * scale
    high := (4 * mantissa + 2) * scale
    denominator := 1 <<< (2 - exponent).toNat
    closed := mantissa % 2 = 0 }

def Rounding.contains (r : Rounding) (numerator : Nat) : Bool :=
  if r.closed then r.low ≤ numerator && numerator ≤ r.high
  else r.low < numerator && numerator < r.high

def Rounding.onGrid? (r : Rounding) (tie : Tie) (exponent : Int) : Option Scaled :=
  let up := Nat.pow 10 (-exponent).toNat
  let step := r.denominator * Nat.pow 10 exponent.toNat
  let r := { r with low := r.low * up, value := r.value * up, high := r.high * up }
  let below := r.value / step
  let gap := 2 * (r.value - below * step)
  let takeAbove := step < gap || (gap == step && (tie == .up || below % 2 == 1))
  match r.contains (below * step), r.contains ((below + 1) * step) with
  | true, true => some ⟨if takeAbove then below + 1 else below, exponent⟩
  | true, false => some ⟨below, exponent⟩
  | false, true => some ⟨below + 1, exponent⟩
  | false, false => none

def digitCount (n : Nat) : Nat :=
  (Nat.toDigits 10 n).length

def Rounding.place (r : Rounding) : Int :=
  if r.denominator ≤ r.value then digitCount (r.value / r.denominator)
  else 1 - (digitCount ((r.denominator - 1) / r.value) : Int)

def Rounding.search (r : Rounding) (tie : Tie) : (n : Nat) → (exponent : Int) → Option Scaled
  | 0, _ => none
  | n + 1, exponent => (r.onGrid? tie exponent).orElse fun _ => r.search tie n (exponent - 1)

def Scaled.strip (s : Scaled) : Scaled :=
  if s.digits ≠ 0 ∧ s.digits % 10 = 0 then Scaled.strip ⟨s.digits / 10, s.exponent + 1⟩ else s
termination_by s.digits
decreasing_by omega

/-- The fewest digits that read back as the positive double `mantissa * 2 ^ exponent`, and of those
the nearest. Seventeen digits always suffice. -/
def shortest (tie : Tie) (mantissa : Nat) (exponent : Int) : Scaled :=
  let r := Rounding.ofDouble mantissa exponent
  ((r.search tie 17 (r.place - 1)).getD ⟨0, 0⟩).strip

end TurtlePlayback.Decimal
