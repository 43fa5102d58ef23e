import TurtlePlayback.Binary64.Remainder
import TurtlePlayback.Decimal.Layout

/-!
Arithmetic of times. Clocks, schedulers and displays ask no more of their times than this, so the
same definitions run on doubles and make sense on exact numbers. A double may be infinite or NaN,
and then it is not finite; a rational number always is.
-/

namespace TurtlePlayback.Playback

class Time (τ : Type) extends Add τ, Sub τ, Mul τ, Div τ, LT τ, LE τ, BEq τ where
  ofNat : Nat → τ
  isFinite : τ → Bool
  abs : τ → τ
  wrap : τ → τ → τ
  floor : τ → Nat
  text : τ → String
  decLt : DecidableLT τ
  decLe : DecidableLE τ

namespace Time

instance {τ : Type} [Time τ] : DecidableLT τ :=
  Time.decLt

instance {τ : Type} [Time τ] : DecidableLE τ :=
  Time.decLe

variable {τ : Type} [Time τ]

def zero : τ :=
  ofNat 0

/-- The time itself if it is positive, or zero: for a negative time, for a negative zero and for
NaN. -/
def nonneg (x : τ) : τ :=
  if zero < x then x else zero

def clamp (x low high : τ) : τ :=
  let x := if x < low then low else x
  if high < x then high else x

def ofMillis (ms : τ) : τ :=
  ms / ofNat 1000

end Time

instance : Time Float where
  ofNat := Float.ofNat
  isFinite := Float.isFinite
  abs := Float.abs
  wrap := Binary64.remainderUp
  floor x := x.toUInt64.toNat
  text := Decimal.Layout.plain.write
  decLt := inferInstance
  decLe := inferInstance

instance : Time Rat where
  ofNat n := n
  isFinite _ := true
  abs := Rat.abs
  wrap x y := x - y * (x / y).floor
  floor x := x.floor.toNat
  text := toString
  decLt := inferInstance
  decLe := inferInstance

end TurtlePlayback.Playback
