import Mathlib.Algebra.Order.Round
import Mathlib.Data.Rat.Floor
import Mathlib.Tactic.FieldSimp
import Mathlib.Tactic.Linarith
import Mathlib.Tactic.Ring
import TurtlePlayback.Playback.Clock

namespace TurtlePlayback.Playback

namespace Time

variable {x y z : Rat}

@[simp] theorem zero_eq : (zero : Rat) = 0 := rfl

@[simp] theorem ofNat_eq (n : Nat) : (ofNat n : Rat) = n := rfl

@[simp] theorem isFinite_eq (x : Rat) : isFinite x = true := rfl

@[simp] theorem ofMillis_eq (x : Rat) : ofMillis x = x / 1000 := rfl

theorem nonneg_of_le (h : 0 ≤ x) : nonneg x = x := by
  simp only [nonneg]
  split
  · rfl
  · next still => exact le_antisymm h (not_lt.mp still)

theorem clamp_of_le (low : y ≤ x) (high : x ≤ z) : clamp x y z = x := by
  have within : ¬ x < y ∧ ¬ z < x := ⟨not_lt.mpr low, not_lt.mpr high⟩
  simp only [clamp, within, ↓reduceIte]

theorem wrap_eq (room : y ≠ 0) : wrap x y = y * Int.fract (x / y) := by
  change x - y * (⌊x / y⌋ : Int) = y * (x / y - (⌊x / y⌋ : Int))
  field_simp

theorem wrap_nonneg (room : 0 < y) : 0 ≤ wrap x y := by
  rw [wrap_eq room.ne']
  exact mul_nonneg room.le (Int.fract_nonneg _)

theorem wrap_lt (room : 0 < y) : wrap x y < y := by
  rw [wrap_eq room.ne']
  exact mul_lt_of_lt_one_right room (Int.fract_lt_one _)

theorem wrap_wrap_add (room : y ≠ 0) : wrap (wrap x y + z) y = wrap (x + z) y := by
  have whole : (wrap x y + z) / y = (x + z) / y - (⌊x / y⌋ : Int) := by
    change (x - y * (⌊x / y⌋ : Int) + z) / y = _
    field_simp
    ring
  rw [wrap_eq room, whole, Int.fract_sub_intCast, ← wrap_eq room]

theorem abs_signed (d : Direction) (h : 0 ≤ x) : abs (ofMillis (d.sign * x)) = x / 1000 := by
  have ahead : 0 ≤ x / 1000 := by positivity
  cases d with
  | forward =>
    simp only [Direction.sign, ofNat_eq, Nat.cast_one, one_mul]
    exact Rat.abs_of_nonneg ahead
  | backward =>
    have turned : ofMillis (Direction.sign .backward * x) = -(x / 1000) := by
      simp only [Direction.sign, zero_eq, ofNat_eq, Nat.cast_one, ofMillis_eq]
      ring
    rw [turned]
    exact Rat.abs_neg.trans (Rat.abs_of_nonneg ahead)

end Time

namespace Clock

variable {c : Clock Rat} {e : Rat}

structure InBounds (c : Clock Rat) : Prop where
  start_le : c.loopStart ≤ c.t
  le_end : c.t ≤ c.loopEnd
  forward : c.mode ≠ .reverse → c.direction = .forward

def length (c : Clock Rat) : Rat :=
  c.loopEnd - c.loopStart

/-- How far a clock has come on the way to the end and back. -/
def phase (c : Clock Rat) : Rat :=
  match c.direction with
  | .forward => c.t - c.loopStart
  | .backward => 2 * c.length - (c.t - c.loopStart)

def atPhase (c : Clock Rat) (x : Rat) : Clock Rat :=
  if x ≤ c.length then { c with t := c.loopStart + x, direction := .forward }
  else { c with t := c.loopStart + (2 * c.length - x), direction := .backward }

def pass (c : Clock Rat) (e : Rat) : Clock Rat :=
  if c.state = .playing then c.advance e else c

theorem tick_snd (c : Clock Rat) (e : Rat) (whenStopped : Bool) :
    (c.tick e whenStopped).2 = c.pass e := by
  cases state : c.state <;> simp [tick, pass, state]

theorem advance_empty (empty : c.loopStart = c.loopEnd) (h : 0 ≤ e) :
    c.advance e = { c with
      t := c.loopStart, state := if 0 < e then .paused else c.state } := by
  have none : c.loopEnd - c.loopStart ≤ 0 := by linarith
  simp [advance, none, Time.nonneg_of_le h]

section

variable (room : c.loopStart < c.loopEnd) (h : 0 ≤ e)

include room h

theorem advance_once (mode : c.mode = .noLoop) (ok : c.InBounds) :
    c.advance e = if c.loopEnd ≤ c.t + e / 1000 then { c with t := c.loopEnd, state := .paused }
      else { c with t := c.t + e / 1000 } := by
  have some : ¬ c.loopEnd - c.loopStart ≤ 0 := by linarith
  have forward : c.direction = .forward := ok.forward (by simp [mode])
  have behind : ¬ c.t + e / 1000 < c.loopStart := by
    have := ok.start_le
    linarith
  simp [advance, some, mode, advanceOnce, Direction.sign, Time.nonneg_of_le h, forward, behind]

theorem advance_wrap (mode : c.mode = .wrap) (ok : c.InBounds) :
    c.advance e = { c with
      t := c.loopStart + Time.wrap (c.t - c.loopStart + e / 1000) c.length } := by
  have some : ¬ c.loopEnd - c.loopStart ≤ 0 := by linarith
  have forward : c.direction = .forward := ok.forward (by simp [mode])
  have offset : c.t + e / 1000 - c.loopStart = c.t - c.loopStart + e / 1000 := by ring
  have less : ¬ c.loopEnd - c.loopStart ≤
      Time.wrap (c.t - c.loopStart + e / 1000) (c.loopEnd - c.loopStart) :=
    not_le.mpr (Time.wrap_lt (sub_pos.mpr room))
  simp only [advance, Time.zero_eq, some, ↓reduceIte, mode, advanceWrapping]
  simp only [Time.isFinite_eq, ↓reduceIte, Time.nonneg_of_le h, forward, Direction.sign,
    Time.ofNat_eq, Nat.cast_one, one_mul, Time.ofMillis_eq, offset, less, length]

omit room h in
theorem atPhase_eq {x : Rat} (ahead : 0 ≤ x) (short : x < 2 * c.length) :
    (let next := if 2 * c.length ≤ x then 0 else x
     let (position, direction) : Rat × Direction :=
       if next ≤ c.length then (next, .forward) else (2 * c.length - next, .backward)
     { c with t := Time.clamp (c.loopStart + position) c.loopStart c.loopEnd, direction }) =
      c.atPhase x := by
  simp only [not_le.mpr short, ↓reduceIte, atPhase]
  simp only [length] at short ⊢
  by_cases rising : x ≤ c.loopEnd - c.loopStart
  · have inside : Time.clamp (c.loopStart + x) c.loopStart c.loopEnd = c.loopStart + x :=
      Time.clamp_of_le (by linarith) (by linarith)
    simp only [rising, ↓reduceIte, inside]
  · have inside : Time.clamp (c.loopStart + (2 * (c.loopEnd - c.loopStart) - x)) c.loopStart
        c.loopEnd = c.loopStart + (2 * (c.loopEnd - c.loopStart) - x) :=
      Time.clamp_of_le (by linarith) (by linarith)
    simp only [rising, ↓reduceIte, inside]

omit h in
theorem advanceReversing_eq (ok : c.InBounds) (dt : Rat) :
    c.advanceReversing dt = c.atPhase (Time.wrap (c.phase + Time.abs dt) (2 * c.length)) := by
  have period : 0 < 2 * c.length := by
    simp only [length]
    linarith
  have position : Time.clamp (c.t - c.loopStart) 0 (c.loopEnd - c.loopStart) =
      c.t - c.loopStart := by
    have low := ok.start_le
    have high := ok.le_end
    exact Time.clamp_of_le (by linarith) (by linarith)
  simp only [advanceReversing, Time.zero_eq, Time.ofNat_eq, Nat.cast_ofNat, position]
  exact atPhase_eq (Time.wrap_nonneg period) (Time.wrap_lt period)

theorem advance_reverse (mode : c.mode = .reverse) (ok : c.InBounds) :
    c.advance e = c.atPhase (Time.wrap (c.phase + e / 1000) (2 * c.length)) := by
  have some : ¬ c.loopEnd - c.loopStart ≤ 0 := by linarith
  simp only [advance, Time.zero_eq, some, ↓reduceIte, mode, Time.isFinite_eq, Time.nonneg_of_le h,
    advanceReversing_eq room ok, Time.abs_signed _ h]

end

end Clock

end TurtlePlayback.Playback
