import TurtlePlayback.Proofs.ClockRuns
import TurtlePlayback.Proofs.ExactRemainders

/-!
A clock on doubles. A tick that makes no sum too large for a double ends between the bounds, however
it is rounded; after one that does, the time is NaN, since nothing is left of an infinite one.
-/

namespace TurtlePlayback.Playback

open Binary64

namespace Time

variable {x low high : Float}

theorem zero_finite : (zero : Float).isFinite = true ∧ number zero = 0 :=
  ⟨rfl, rfl⟩

theorem clamp_finite (isNumber : x.isNaN = false) (fl : low.isFinite = true)
    (fh : high.isFinite = true) (ordered : number low ≤ number high) :
    (clamp x low high).isFinite = true ∧ number low ≤ number (clamp x low high) ∧
      number (clamp x low high) ≤ number high := by
  have between {z : Float} (nz : z.isNaN = false) (above : low ≤ z) :
      (if high < z then high else z).isFinite = true ∧
        number low ≤ number (if high < z then high else z) ∧
          number (if high < z then high else z) ≤ number high := by
    split
    · exact ⟨fh, ordered, le_refl _⟩
    · next short =>
      have below := le_of_not_lt (not_nan_of_finite fh) nz short
      have fz := finite_of_between nz fl fh above below
      exact ⟨fz, (le_iff fl fz).mp above, (le_iff fz fh).mp below⟩
  simp only [clamp]
  by_cases below : x < low
  · rw [if_pos below]
    exact between (not_nan_of_finite fl) ((le_iff fl fl).mpr (le_refl _))
  · rw [if_neg below]
    exact between isNumber (le_of_not_lt isNumber (not_nan_of_finite fl) below)

theorem clamp_nan (nan : x.isNaN = true) (low high : Float) : clamp x low high = x := by
  simp only [clamp, not_nan_lt nan, not_lt_nan nan, ↓reduceIte]

end Time

namespace Clock

section

variable {τ : Type} [Time τ]

def counted (e : τ) : τ :=
  if Time.isFinite e then Time.nonneg e else Time.zero

def movement (c : Clock τ) (e : τ) : τ :=
  Time.ofMillis (c.direction.sign * counted e)

def span (c : Clock τ) : τ :=
  c.loopEnd - c.loopStart

def period (c : Clock τ) : τ :=
  Time.ofNat 2 * c.span

def cyclePhase (c : Clock τ) : τ :=
  let position := Time.clamp (c.t - c.loopStart) Time.zero c.span
  match c.direction with
  | .forward => position
  | .backward => c.period - position

theorem advance_eq (c : Clock τ) (e : τ) : c.advance e =
    if c.span ≤ Time.zero then
      { c with t := c.loopStart, state := if Time.zero < counted e then .paused else c.state }
    else
      match c.mode with
      | .noLoop => c.advanceOnce (c.movement e)
      | .wrap => c.advanceWrapping (c.movement e)
      | .reverse => c.advanceReversing (c.movement e) :=
  rfl

end

variable {c : Clock Float} {e : Float}

/-- Whether a tick makes a sum that is too large for a double. -/
def Overflows (c : Clock Float) : Action Float → Prop
  | .tick e _ => c.state = .playing ∧ ¬ c.span ≤ Time.zero ∧
    match c.mode with
    | .noLoop => False
    | .wrap => (c.t + c.movement e).isFinite = false
    | .reverse => (c.cyclePhase + (c.movement e).abs).isFinite = false
  | _ => False

structure Inside (c : Clock Float) : Prop where
  isNumber : c.t.isNaN = false
  start_le : c.loopStart ≤ c.t
  le_end : c.t ≤ c.loopEnd

structure Admitted (c : Clock Float) : Prop where
  start_finite : c.loopStart.isFinite = true
  end_finite : c.loopEnd.isFinite = true
  start_nonneg : 0 ≤ number c.loopStart
  ordered : number c.loopStart ≤ number c.loopEnd
  forward : c.mode ≠ .reverse → c.direction = .forward

def Within (c : Clock Float) (t : Float) : Prop :=
  t.isFinite = true ∧ number c.loopStart ≤ number t ∧ number t ≤ number c.loopEnd

structure Sound (c : Clock Float) : Prop extends c.Admitted where
  within : c.Within c.t

theorem Sound.inside (ok : c.Sound) : c.Inside where
  isNumber := not_nan_of_finite ok.within.1
  start_le := (le_iff ok.start_finite ok.within.1).mpr ok.within.2.1
  le_end := (le_iff ok.within.1 ok.end_finite).mpr ok.within.2.2

theorem Inside.not_nan (inside : c.Inside) : c.t.isNaN ≠ true := by
  rw [inside.isNumber]
  decide

theorem checkBounds_finite {a b : Float} : checkBounds a b = .ok () ↔
    a.isFinite = true ∧ b.isFinite = true ∧ 0 ≤ number a ∧ number a ≤ number b := by
  have zero := Time.zero_finite
  by_cases finite : a.isFinite = true ∧ b.isFinite = true
  · obtain ⟨fa, fb⟩ := finite
    have bounded : (!Time.isFinite a || !Time.isFinite b) = false := by
      change (!a.isFinite || !b.isFinite) = false
      rw [fa, fb]
      rfl
    have below : a < Time.zero ↔ number a < 0 := by rw [lt_iff fa zero.1, zero.2]
    simp only [checkBounds, bounded, below, lt_iff fb fa, fa, fb, ← not_lt]
    by_cases negative : number a < 0
    · simp [negative]
    · by_cases crossed : number b < number a <;> simp [negative, crossed]
  · have unbounded : (!Time.isFinite a || !Time.isFinite b) = true := by
      change (!a.isFinite || !b.isFinite) = true
      rwa [← Bool.not_and, Bool.not_eq_true', ← Bool.not_eq_true, Bool.and_eq_true]
    rw [checkBounds, unbounded]
    constructor
    · intro accepted
      cases accepted
    · rintro ⟨fa, fb, -⟩
      exact absurd ⟨fa, fb⟩ finite

theorem counted_finite (e : Float) : (counted e).isFinite = true ∧ 0 ≤ number (counted e) := by
  have zero := Time.zero_finite
  simp only [counted, Time.nonneg]
  split
  · next finite =>
    change e.isFinite = true at finite
    split
    · next ahead =>
      rw [lt_iff zero.1 finite, zero.2] at ahead
      exact ⟨finite, ahead.le⟩
    · exact ⟨zero.1, zero.2.ge⟩
  · exact ⟨zero.1, zero.2.ge⟩

theorem sign_finite (d : Direction) : (d.sign : Float).isFinite = true ∧
    number d.sign = match d with | .forward => 1 | .backward => -1 := by
  cases d with
  | forward =>
    have one : number (Direction.sign .forward) = 4503599627370496 * 2 ^ (-52 : Int) := rfl
    rw [one]
    exact ⟨rfl, by norm_num⟩
  | backward =>
    have one : number (Direction.sign .backward) = -(4503599627370496 * 2 ^ (-52 : Int)) := rfl
    rw [one]
    exact ⟨rfl, by norm_num⟩

theorem thousand_finite :
    (Time.ofNat 1000 : Float).isFinite = true ∧ number (Time.ofNat 1000) = 1000 := by
  have thousand : number (Time.ofNat 1000) = 8796093022208000 * 2 ^ (-43 : Int) := rfl
  rw [thousand]
  exact ⟨rfl, by norm_num⟩

theorem two_finite : (Time.ofNat 2 : Float).isFinite = true ∧ number (Time.ofNat 2) = 2 := by
  have two : number (Time.ofNat 2) = 4503599627370496 * 2 ^ (-51 : Int) := rfl
  rw [two]
  exact ⟨rfl, by norm_num⟩

theorem greatestMovement_finite : (1.8e305 : Float).isFinite = true ∧
    number 1.8e305 = 4617603901460673 * 2 ^ (962 : Int) := by
  have bits : (1.8e305 : Float) = Float.ofBits 9173946445227790529 := by decide +kernel
  rw [bits]
  exact ⟨rfl, rfl⟩

theorem signed_counted (d : Direction) (e : Float) : (d.sign * counted e).isFinite = true ∧
    number (d.sign * counted e) = number d.sign * number (counted e) := by
  obtain ⟨fs, sign⟩ := sign_finite d
  obtain ⟨fe, -⟩ := counted_finite e
  have rounds := rounds_mul fs fe
  cases d with
  | forward =>
    refine rounds.exact fe ?_
    rw [sign, one_mul]
  | backward =>
    refine rounds.exact (neg_finite fe).1 ?_
    rw [sign, (neg_finite fe).2, neg_one_mul]

theorem seconds_le (d : Direction) (e : Float) :
    |number d.sign * number (counted e) / 1000| ≤ number 1.8e305 := by
  obtain ⟨-, ahead⟩ := counted_finite e
  have below : number (counted e) < 2 ^ (1024 : Int) :=
    (value_lt (float_canonical _).1 (float_canonical _).2).2
  have unit := two_zpow_pos 962
  have top : (2 : ℚ) ^ (1024 : Int) = 2 ^ (62 : Int) * 2 ^ (962 : Int) := two_zpow_add 62 962
  have one : |number d.sign| = 1 := by
    rw [(sign_finite d).2]
    cases d <;> simp
  rw [abs_div, abs_mul, one, one_mul, abs_of_nonneg ahead, greatestMovement_finite.2,
    abs_of_pos (by norm_num)]
  rw [top] at below
  generalize (2 : ℚ) ^ (962 : Int) = u at unit below ⊢
  rw [div_le_iff₀ (by norm_num)]
  norm_num at below
  linarith

theorem movement_finite (c : Clock Float) (e : Float) : (c.movement e).isFinite = true ∧
    |number (c.movement e)| ≤ number 1.8e305 ∧
      (c.direction = .forward → 0 ≤ number (c.movement e)) := by
  obtain ⟨fp, product⟩ := signed_counted c.direction e
  obtain ⟨fk, thousand⟩ := thousand_finite
  have rounds : Rounds _ (c.movement e) := rounds_div fp fk (by rw [thousand]; norm_num)
  rw [product, thousand] at rounds
  obtain ⟨fg, -⟩ := greatestMovement_finite
  have size := seconds_le c.direction e
  -- The literal is not to be computed.
  generalize (1.8e305 : Float) = g at fg size ⊢
  obtain ⟨fn, opposite⟩ := neg_finite fg
  obtain ⟨low, high⟩ := abs_le.mp size
  obtain ⟨finite, low', high'⟩ := rounds.between fn fg (by rw [opposite]; exact low) high
  refine ⟨finite, abs_le.mpr ⟨?_, high'⟩, fun forward => ?_⟩
  · rwa [← opposite]
  · have zero := Time.zero_finite
    rw [← zero.2, ← le_iff zero.1 finite]
    refine rounds.of_le _ zero.1 ?_
    rw [zero.2, (sign_finite c.direction).2, forward]
    exact div_nonneg (mul_nonneg zero_le_one (counted_finite e).2) (by norm_num)

theorem Admitted.span_rounds (ok : c.Admitted) :
    Rounds (number c.loopEnd - number c.loopStart) c.span :=
  rounds_sub ok.end_finite ok.start_finite

theorem Admitted.span_finite (ok : c.Admitted) : c.span.isFinite = true ∧ 0 ≤ number c.span ∧
    number c.span ≤ number c.loopEnd := by
  have zero := Time.zero_finite
  rw [← zero.2]
  refine ok.span_rounds.between zero.1 ok.end_finite ?_ (sub_le_self _ ok.start_nonneg)
  rw [zero.2]
  exact sub_nonneg.mpr ok.ordered

theorem Admitted.period_rounds (ok : c.Admitted) : Rounds (2 * number c.span) c.period := by
  have rounds := rounds_mul two_finite.1 ok.span_finite.1
  rwa [two_finite.2] at rounds

theorem Admitted.span_le_period (ok : c.Admitted) (fp : c.period.isFinite = true) :
    number c.span ≤ number c.period := by
  obtain ⟨fs, ahead, -⟩ := ok.span_finite
  rw [← le_iff fs fp]
  exact ok.period_rounds.of_le _ fs (by linarith)

theorem Sound.position_finite (ok : c.Sound) :
    let position := Time.clamp (c.t - c.loopStart) Time.zero c.span
    position.isFinite = true ∧ 0 ≤ number position ∧ number position ≤ number c.span := by
  have zero := Time.zero_finite
  obtain ⟨fs, ahead, -⟩ := ok.span_finite
  have isNumber := (rounds_sub ok.within.1 ok.start_finite).isNumber
  have inside := Time.clamp_finite isNumber zero.1 fs (by rw [zero.2]; exact ahead)
  rwa [zero.2] at inside

theorem Sound.cyclePhase_le (ok : c.Sound) (fp : c.period.isFinite = true) :
    c.cyclePhase.isFinite = true ∧ 0 ≤ number c.cyclePhase ∧
      number c.cyclePhase ≤ number c.period := by
  have zero := Time.zero_finite
  have short := ok.span_le_period fp
  obtain ⟨finite, ahead, below⟩ := ok.position_finite
  rw [cyclePhase]
  cases c.direction with
  | forward => exact ⟨finite, ahead, below.trans short⟩
  | backward =>
    rw [← zero.2]
    refine (rounds_sub fp finite).between zero.1 fp ?_ (sub_le_self _ ahead)
    rw [zero.2]
    exact sub_nonneg.mpr (below.trans short)

theorem Sound.cyclePhase_nonneg (ok : c.Sound) (fz : c.cyclePhase.isFinite = true) :
    0 ≤ number c.cyclePhase := by
  by_cases fp : c.period.isFinite = true
  · exact (ok.cyclePhase_le fp).2.1
  · obtain ⟨finite, ahead, -⟩ := ok.position_finite
    rw [cyclePhase] at fz ⊢
    cases direction : c.direction with
    | forward => exact ahead
    | backward =>
      simp only [direction] at fz
      rw [sub_unbounded (eq_false_of_ne_true fp) finite] at fz
      cases fz

theorem advanceOnce_within (ok : c.Sound) {dt : Float} (fd : dt.isFinite = true) :
    c.Within (c.advanceOnce dt).t := by
  have isNumber : (c.t + dt).isNaN = false := (rounds_add ok.within.1 fd).isNumber
  simp only [advanceOnce]
  by_cases reached : c.loopEnd ≤ c.t + dt
  · rw [if_pos reached]
    exact ⟨ok.end_finite, ok.ordered, le_refl _⟩
  · rw [if_neg reached]
    have below := le_of_not_le (not_nan_of_finite ok.end_finite) isNumber reached
    by_cases before : c.t + dt < c.loopStart
    · rw [if_pos before]
      exact ⟨ok.start_finite, le_refl _, ok.ordered⟩
    · rw [if_neg before]
      have above := le_of_not_lt isNumber (not_nan_of_finite ok.start_finite) before
      have finite := finite_of_between isNumber ok.start_finite ok.end_finite above below
      exact ⟨finite, (le_iff ok.start_finite finite).mp above, (le_iff finite ok.end_finite).mp below⟩

theorem advanceWrapping_within (ok : c.Sound) (room : number c.span ≠ 0) {dt : Float}
    (fd : dt.isFinite = true) (ahead : 0 ≤ number dt) (fits : (c.t + dt).isFinite = true) :
    c.Within (c.advanceWrapping dt).t := by
  have zero := Time.zero_finite
  obtain ⟨ft, above, -⟩ := ok.within
  obtain ⟨fs, -, -⟩ := ok.span_finite
  have later : number c.t ≤ number (c.t + dt) := by
    rw [← le_iff ft fits]
    exact (rounds_add ft fd).of_le _ ft (le_add_of_nonneg_right ahead)
  obtain ⟨fx, low, -⟩ := (rounds_sub fits ok.start_finite).between zero.1 fits
    (by rw [zero.2]; exact sub_nonneg.mpr (above.trans later)) (sub_le_self _ ok.start_nonneg)
  rw [zero.2] at low
  obtain ⟨fo, rest⟩ := remainderUp_finite fx fs low room
  simp only [advanceWrapping]
  change c.Within (c.loopStart + if c.span ≤ remainderUp (c.t + dt - c.loopStart) c.span then
    Time.zero else remainderUp (c.t + dt - c.loopStart) c.span)
  generalize remainderUp (c.t + dt - c.loopStart) c.span = offset at fo rest ⊢
  by_cases full : c.span ≤ offset
  · rw [if_pos full]
    refine (rounds_add ok.start_finite zero.1).between ok.start_finite ok.end_finite ?_ ?_
    · rw [zero.2, add_zero]
    · rw [zero.2, add_zero]
      exact ok.ordered
  · rw [if_neg full]
    -- A larger offset would be no less than the rounded length.
    have short : number offset ≤ number c.loopEnd - number c.loopStart := by
      by_contra long
      exact full (ok.span_rounds.le_of _ fo (le_of_not_ge long))
    refine (rounds_add ok.start_finite fo).between ok.start_finite ok.end_finite ?_ ?_
    · exact le_add_of_nonneg_right rest
    · linarith

theorem advanceWrapping_nan (ok : c.Admitted) {dt : Float} (large : (c.t + dt).isFinite = false) :
    (c.advanceWrapping dt).t.isNaN = true := by
  have nan : (remainderUp (c.t + dt - c.loopStart) c.span).isNaN = true :=
    remainderUp_unbounded (sub_unbounded large ok.start_finite) _
  change (c.loopStart + if c.span ≤ remainderUp (c.t + dt - c.loopStart) c.span then
    Time.zero else remainderUp (c.t + dt - c.loopStart) c.span).isNaN = true
  rw [if_neg (not_le_nan nan _)]
  exact add_nan nan _

def nextPhase (c : Clock Float) (dt : Float) : Float :=
  let next := remainderUp (c.cyclePhase + dt.abs) c.period
  if c.period ≤ next then Time.zero else next

theorem advanceReversing_t (c : Clock Float) (dt : Float) : (c.advanceReversing dt).t =
    Time.clamp (c.loopStart + if c.nextPhase dt ≤ c.span then c.nextPhase dt
      else c.period - c.nextPhase dt) c.loopStart c.loopEnd := by
  have turned : c.advanceReversing dt =
      match if c.nextPhase dt ≤ c.span then (c.nextPhase dt, Direction.forward)
        else (c.period - c.nextPhase dt, .backward) with
      | (position, direction) =>
        { c with t := Time.clamp (c.loopStart + position) c.loopStart c.loopEnd, direction } :=
    rfl
  rw [turned]
  by_cases rising : c.nextPhase dt ≤ c.span
  · simp only [if_pos rising]
  · simp only [if_neg rising]

theorem advanceReversing_within (ok : c.Sound) (room : number c.span ≠ 0) {dt : Float}
    (fd : dt.isFinite = true) (fits : (c.cyclePhase + dt.abs).isFinite = true) :
    c.Within (c.advanceReversing dt).t := by
  have zero := Time.zero_finite
  obtain ⟨fa, size⟩ := abs_finite fd
  obtain ⟨fs, ahead, -⟩ := ok.span_finite
  have rounds := ok.period_rounds
  have fz : c.cyclePhase.isFinite = true := by
    by_contra unbounded
    rw [add_unbounded (eq_false_of_ne_true unbounded) fa] at fits
    cases fits
  have low : 0 ≤ number (c.cyclePhase + dt.abs) := by
    rw [← zero.2, ← le_iff zero.1 fits]
    refine (rounds_add fz fa).of_le _ zero.1 ?_
    rw [zero.2, size]
    exact add_nonneg (ok.cyclePhase_nonneg fz) (abs_nonneg _)
  -- The way there and back may be infinite, and then the sum is already on it.
  have next : (remainderUp (c.cyclePhase + dt.abs) c.period).isFinite = true := by
    by_cases fp : c.period.isFinite = true
    · have long := ok.span_le_period fp
      exact (remainderUp_finite fits fp low fun none => room (by linarith)).1
    · rw [remainderUp_infinite fits low (eq_false_of_ne_true fp) rounds.isNumber]
      exact fits
  have folded : (c.nextPhase dt).isFinite = true := by
    simp only [nextPhase]
    split
    · exact zero.1
    · exact next
  have isNumber : (c.loopStart + if c.nextPhase dt ≤ c.span then c.nextPhase dt
      else c.period - c.nextPhase dt).isNaN = false := by
    refine add_isNumber ok.start_finite ?_
    split
    · exact not_nan_of_finite folded
    · exact sub_isNumber rounds.isNumber folded
  rw [advanceReversing_t]
  exact Time.clamp_finite isNumber ok.start_finite ok.end_finite ok.ordered

theorem advanceReversing_nan {dt : Float} (large : (c.cyclePhase + dt.abs).isFinite = false) :
    (c.advanceReversing dt).t.isNaN = true := by
  have nan := remainderUp_unbounded large c.period
  have next : (c.nextPhase dt).isNaN = true := by
    rw [nextPhase, if_neg (not_le_nan nan _)]
    exact nan
  have position := add_nan (sub_nan next c.period) c.loopStart
  rw [advanceReversing_t, if_neg (not_nan_le next _), Time.clamp_nan position]
  exact position

theorem advance_direction (c : Clock Float) (e : Float) (other : c.mode ≠ .reverse) :
    (c.advance e).direction = c.direction := by
  rw [advance_eq]
  split
  · rfl
  · cases mode : c.mode with
    | noLoop =>
      simp only [advanceOnce]
      split
      · rfl
      · split <;> rfl
    | wrap => rfl
    | reverse => exact absurd mode other

theorem no_room (ok : c.Admitted) : c.span ≤ Time.zero ↔ number c.span = 0 := by
  obtain ⟨fs, ahead, -⟩ := ok.span_finite
  have zero := Time.zero_finite
  rw [le_iff fs zero.1, zero.2]
  exact ⟨fun none => le_antisymm none ahead, le_of_eq⟩

theorem advance_within (ok : c.Sound) (playing : c.state = .playing) {whenStopped : Bool}
    (calm : ¬ c.Overflows (.tick e whenStopped)) : c.Within (c.advance e).t := by
  obtain ⟨fd, -, ahead⟩ := movement_finite c e
  rw [advance_eq]
  by_cases empty : c.span ≤ Time.zero
  · rw [if_pos empty]
    exact ⟨ok.start_finite, le_refl _, ok.ordered⟩
  · have room : number c.span ≠ 0 := fun none => empty ((no_room ok.toAdmitted).mpr none)
    rw [if_neg empty]
    have fits := fun large => calm ⟨playing, empty, large⟩
    cases mode : c.mode with
    | noLoop => exact advanceOnce_within ok fd
    | wrap =>
      have forward := ok.forward (by rw [mode]; decide)
      simp only [mode] at fits
      exact advanceWrapping_within ok room fd (ahead forward) (eq_true_of_ne_false fits)
    | reverse =>
      simp only [mode] at fits
      exact advanceReversing_within ok room fd (eq_true_of_ne_false fits)

theorem overflow_nan (ok : c.Admitted) {a : Action Float} (overflows : c.Overflows a) :
    (c.act a).t.isNaN = true := by
  cases a with
  | tick e whenStopped =>
    obtain ⟨playing, room, large⟩ := overflows
    have played : c.act (.tick e whenStopped) = c.advance e := by
      simp only [act, tick, playing]
    rw [played, advance_eq, if_neg room]
    cases mode : c.mode with
    | noLoop =>
      simp only [mode] at large
    | wrap =>
      simp only [mode] at large
      exact advanceWrapping_nan ok large
    | reverse =>
      simp only [mode] at large
      exact advanceReversing_nan large
  | _ => exact overflows.elim

end Clock

end TurtlePlayback.Playback
