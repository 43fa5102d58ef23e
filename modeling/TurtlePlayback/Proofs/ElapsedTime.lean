import Mathlib.Algebra.Order.BigOperators.Group.List
import TurtlePlayback.Proofs.ExactTimes

/-!
Playback and the rate of frames. On exact times a clock knows how much time has passed, and not in
how many ticks it has passed: two ticks do what one tick of their sum does, whatever bound lies
between them. So where a clock is follows from the time since it began to play.
-/

namespace TurtlePlayback.Playback.Clock

variable {c : Clock Rat} {a b e x y : Rat}

theorem InBounds.start_le_end (ok : c.InBounds) : c.loopStart ≤ c.loopEnd :=
  ok.start_le.trans ok.le_end

theorem phase_atPhase (c : Clock Rat) (x : Rat) : (c.atPhase x).phase = x := by
  simp only [atPhase]
  split
  · simp [phase]
  · simp [phase, length]

theorem length_atPhase (c : Clock Rat) (x : Rat) : (c.atPhase x).length = c.length := by
  simp only [atPhase]
  split <;> rfl

theorem atPhase_frame (c : Clock Rat) (x : Rat) :
    (c.atPhase x).state = c.state ∧ (c.atPhase x).loopStart = c.loopStart ∧
      (c.atPhase x).loopEnd = c.loopEnd ∧ (c.atPhase x).mode = c.mode := by
  simp only [atPhase]
  split <;> exact ⟨rfl, rfl, rfl, rfl⟩

theorem atPhase_atPhase (c : Clock Rat) (x y : Rat) : (c.atPhase x).atPhase y = c.atPhase y := by
  rw [atPhase, length_atPhase]
  by_cases rising : x ≤ c.length <;> simp only [atPhase, rising, ↓reduceIte]

theorem atPhase_inBounds (mode : c.mode = .reverse) (ahead : 0 ≤ x) (short : x < 2 * c.length) :
    (c.atPhase x).InBounds := by
  simp only [length] at short
  by_cases rising : x ≤ c.loopEnd - c.loopStart
  · simp only [atPhase, length, rising, ↓reduceIte]
    refine ⟨?_, ?_, absurd mode⟩
    · simpa
    · simp only
      linarith
  · simp only [atPhase, length, rising, ↓reduceIte]
    refine ⟨?_, ?_, absurd mode⟩
    · simp only
      linarith
    · simp only
      linarith

theorem InBounds.advance (ok : c.InBounds) (h : 0 ≤ e) : (c.advance e).InBounds := by
  rcases ok.start_le_end.eq_or_lt with empty | room
  · rw [advance_empty empty h]
    exact ⟨le_refl _, empty.le, ok.forward⟩
  · have some : 0 < c.length := sub_pos.mpr room
    cases mode : c.mode with
    | noLoop =>
      rw [advance_once room h mode ok]
      split
      · exact ⟨room.le, le_refl _, ok.forward⟩
      · next short =>
        have low := ok.start_le
        constructor
        · simp only
          have : 0 ≤ e / 1000 := by positivity
          linarith
        · exact (not_le.mp short).le
        · exact ok.forward
    | wrap =>
      rw [advance_wrap room h mode ok]
      have ahead := Time.wrap_nonneg (x := c.t - c.loopStart + e / 1000) some
      have short := Time.wrap_lt (x := c.t - c.loopStart + e / 1000) some
      constructor
      · simpa
      · simp only [length] at short ⊢
        linarith
      · exact ok.forward
    | reverse =>
      rw [advance_reverse room h mode ok]
      have period : 0 < 2 * c.length := by linarith
      exact atPhase_inBounds mode (Time.wrap_nonneg period) (Time.wrap_lt period)

theorem InBounds.pass (ok : c.InBounds) (h : 0 ≤ e) : (c.pass e).InBounds := by
  simp only [Clock.pass]
  split
  · exact ok.advance h
  · exact ok

theorem pass_playing (playing : c.state = .playing) (e : Rat) : c.pass e = c.advance e := by
  simp [pass, playing]

theorem pass_still (still : c.state ≠ .playing) (e : Rat) : c.pass e = c := by
  simp [pass, still]

section

variable (playing : c.state = .playing) (ha : 0 ≤ a) (hb : 0 ≤ b)

include playing ha hb

theorem advance_pass_empty (empty : c.loopStart = c.loopEnd) :
    (c.advance a).pass b = c.advance (a + b) := by
  have first := advance_empty empty ha
  have both := advance_empty empty (add_nonneg ha hb)
  by_cases passed : 0 < a
  · have later : 0 < a + b := by linarith
    rw [if_pos passed] at first
    rw [pass_still (by simp [first]), first, both, if_pos later]
  · obtain rfl : a = 0 := le_antisymm (not_lt.mp passed) ha
    rw [if_neg passed] at first
    rw [pass_playing (by rw [first]; exact playing),
      advance_empty (by rw [first]; exact empty) hb, first, both, zero_add]

variable (room : c.loopStart < c.loopEnd) (ok : c.InBounds)

include room ok

theorem advance_pass_once (mode : c.mode = .noLoop) :
    (c.advance a).pass b = c.advance (a + b) := by
  have first := advance_once room ha mode ok
  have both := advance_once room (add_nonneg ha hb) mode ok
  rw [add_div, ← add_assoc] at both
  by_cases reached : c.loopEnd ≤ c.t + a / 1000
  · have later : c.loopEnd ≤ c.t + a / 1000 + b / 1000 := by
      have : 0 ≤ b / 1000 := by positivity
      linarith
    rw [if_pos reached] at first
    rw [pass_still (by simp [first]), first, both, if_pos later]
  · rw [if_neg reached] at first
    rw [pass_playing (by rw [first]; exact playing), advance_once (by rw [first]; exact room) hb
      (by rw [first]; exact mode) (ok.advance ha), first, both]

theorem advance_pass_wrap (mode : c.mode = .wrap) :
    (c.advance a).pass b = c.advance (a + b) := by
  have some : c.length ≠ 0 := (sub_pos.mpr room).ne'
  have first := advance_wrap room ha mode ok
  have both := advance_wrap room (add_nonneg ha hb) mode ok
  rw [add_div, ← add_assoc, ← Time.wrap_wrap_add some] at both
  rw [pass_playing (by rw [first]; exact playing), advance_wrap (by rw [first]; exact room) hb
    (by rw [first]; exact mode) (ok.advance ha), first, both]
  simp only [add_sub_cancel_left]
  rfl

theorem advance_pass_reverse (mode : c.mode = .reverse) :
    (c.advance a).pass b = c.advance (a + b) := by
  have period : 2 * c.length ≠ 0 := mul_ne_zero two_ne_zero (sub_pos.mpr room).ne'
  have first := advance_reverse room ha mode ok
  have both := advance_reverse room (add_nonneg ha hb) mode ok
  rw [add_div, ← add_assoc, ← Time.wrap_wrap_add period] at both
  obtain ⟨state, start, stop, kind⟩ :=
    atPhase_frame c (Time.wrap (c.phase + a / 1000) (2 * c.length))
  rw [← first] at state start stop kind
  rw [pass_playing (state.trans playing), advance_reverse (by rwa [start, stop]) hb
    (kind.trans mode) (ok.advance ha), first, both, atPhase_atPhase, phase_atPhase, length_atPhase]

end

theorem pass_pass (ok : c.InBounds) (ha : 0 ≤ a) (hb : 0 ≤ b) :
    (c.pass a).pass b = c.pass (a + b) := by
  by_cases playing : c.state = .playing
  · rw [pass_playing playing, pass_playing playing]
    rcases ok.start_le_end.eq_or_lt with empty | room
    · exact advance_pass_empty playing ha hb empty
    · cases mode : c.mode with
      | noLoop => exact advance_pass_once playing ha hb room ok mode
      | wrap => exact advance_pass_wrap playing ha hb room ok mode
      | reverse => exact advance_pass_reverse playing ha hb room ok mode
  · rw [pass_still playing, pass_still playing, pass_still playing]

theorem foldl_pass (ok : c.InBounds) (settled : c.pass 0 = c) {es : List Rat}
    (nonneg : ∀ e ∈ es, 0 ≤ e) : es.foldl pass c = c.pass es.sum := by
  induction es generalizing c with
  | nil => exact settled.symm
  | cons e es ih =>
    rw [List.forall_mem_cons] at nonneg
    have first := nonneg.1
    have again : (c.pass e).pass 0 = c.pass e := by
      rw [pass_pass ok first le_rfl, add_zero]
    rw [List.foldl_cons, ih (ok.pass first) again nonneg.2, pass_pass ok first
      (List.sum_nonneg nonneg.2), List.sum_cons]

structure Fresh (c : Clock Rat) : Prop where
  playing : c.state = .playing
  t_eq : c.t = c.loopStart
  forward : c.direction = .forward
  bounds : c.loopStart ≤ c.loopEnd

theorem play_eq (stopped : c.state = .stopped) : c.play =
    { c with state := .playing, t := c.loopStart, direction := .forward } := by
  simp [play, stopped, rewind]

theorem play_fresh (stopped : c.state = .stopped) (bounds : c.loopStart ≤ c.loopEnd) :
    c.play.Fresh := by
  rw [play_eq stopped]
  exact ⟨rfl, rfl, rfl, bounds⟩

namespace Fresh

variable (fresh : c.Fresh)

include fresh

theorem inBounds : c.InBounds :=
  ⟨fresh.t_eq.ge, fresh.t_eq.trans_le fresh.bounds, fun _ => fresh.forward⟩

theorem eq_start : { c with t := c.loopStart } = c := by
  have start := fresh.t_eq
  cases c
  simp_all

theorem phase_eq : c.phase = 0 := by
  simp only [phase, fresh.forward, fresh.t_eq, sub_self]

theorem atPhase_zero : c.atPhase 0 = c := by
  have some : 0 ≤ c.length := sub_nonneg.mpr fresh.bounds
  rw [atPhase, if_pos some, add_zero, ← fresh.forward]
  exact fresh.eq_start

variable (h : 0 ≤ e)

include h

theorem pass_empty (empty : c.loopStart = c.loopEnd) : c.pass e = { c with
    t := c.loopStart, state := if 0 < e then .paused else .playing } := by
  rw [pass_playing fresh.playing, advance_empty empty h, fresh.playing]

variable (room : c.loopStart < c.loopEnd)

include room

theorem pass_once (mode : c.mode = .noLoop) :
    c.pass e = { c with
      t := min (c.loopStart + e / 1000) c.loopEnd
      state := if c.loopEnd ≤ c.loopStart + e / 1000 then .paused else .playing } := by
  rw [pass_playing fresh.playing, advance_once room h mode fresh.inBounds, fresh.t_eq]
  split
  · next reached => rw [min_eq_right reached]
  · next short => rw [min_eq_left (not_le.mp short).le, fresh.playing]

theorem pass_wrap (mode : c.mode = .wrap) :
    c.pass e = { c with t := c.loopStart + c.length * Int.fract (e / 1000 / c.length) } := by
  have some : c.length ≠ 0 := (sub_pos.mpr room).ne'
  rw [pass_playing fresh.playing, advance_wrap room h mode fresh.inBounds, fresh.t_eq, sub_self,
    zero_add, Time.wrap_eq some]

theorem pass_reverse (mode : c.mode = .reverse) :
    c.pass e = c.atPhase (Time.wrap (e / 1000) (2 * c.length)) := by
  rw [pass_playing fresh.playing, advance_reverse room h mode fresh.inBounds, fresh.phase_eq,
    zero_add]

omit room h in
theorem pass_zero : c.pass 0 = c := by
  rcases fresh.bounds.eq_or_lt with empty | room
  · rw [fresh.pass_empty le_rfl empty, if_neg (lt_irrefl 0), ← fresh.playing]
    exact fresh.eq_start
  · cases mode : c.mode with
    | noLoop =>
      rw [fresh.pass_once le_rfl room mode, zero_div, add_zero, min_eq_left room.le,
        if_neg (not_le.mpr room), ← fresh.playing]
      exact fresh.eq_start
    | wrap =>
      rw [fresh.pass_wrap le_rfl room mode, zero_div, zero_div, Int.fract_zero, mul_zero, add_zero]
      exact fresh.eq_start
    | reverse =>
      have period : 2 * c.length ≠ 0 := mul_ne_zero two_ne_zero (sub_pos.mpr room).ne'
      rw [fresh.pass_reverse le_rfl room mode, Time.wrap_eq period, zero_div, zero_div,
        Int.fract_zero, mul_zero, fresh.atPhase_zero]

omit room h in
theorem ticks {es : List Rat} (nonneg : ∀ e ∈ es, 0 ≤ e) : es.foldl pass c = c.pass es.sum :=
  foldl_pass fresh.inBounds fresh.pass_zero nonneg

end Fresh

def triangle (length x : Rat) : Rat :=
  |x - 2 * length * round (x / (2 * length))|

theorem triangle_eq (room : 0 < x) :
    triangle x e = min (Time.wrap e (2 * x)) (2 * x - Time.wrap e (2 * x)) := by
  have period : 0 < 2 * x := by linarith
  have scaled : e - 2 * x * round (e / (2 * x)) = 2 * x * (e / (2 * x) - round (e / (2 * x))) := by
    field_simp
  rw [triangle, scaled, abs_mul, abs_of_pos period, abs_sub_round_eq_min,
    mul_min_of_nonneg _ _ period.le, mul_sub, mul_one, ← Time.wrap_eq period.ne']

theorem atPhase_t (room : 0 < c.length) :
    (c.atPhase (Time.wrap e (2 * c.length))).t = c.loopStart + triangle c.length e := by
  rw [triangle_eq room, atPhase]
  split
  · next rising => rw [min_eq_left (by linarith)]
  · next falling => rw [min_eq_right (by linarith)]

theorem atPhase_direction (c : Clock Rat) (x : Rat) :
    (c.atPhase x).direction = .backward ↔ c.length < x := by
  rw [atPhase]
  split
  · next rising => simpa using rising
  · next falling => simpa using falling

theorem falling_iff (room : 0 < x) : x < Time.wrap e (2 * x) ↔
    ∃ k : Int, (2 * k + 1) * x < e ∧ e < (2 * k + 2) * x := by
  have period : 0 < 2 * x := by linarith
  have rest (k : Int) (whole : ⌊e / (2 * x)⌋ = k) : Time.wrap e (2 * x) = e - 2 * x * k := by
    rw [← whole]
    rfl
  constructor
  · intro falling
    have short := Time.wrap_lt (x := e) period
    rw [rest _ rfl] at falling short
    exact ⟨⌊e / (2 * x)⌋, by linarith, by linarith⟩
  · rintro ⟨k, low, high⟩
    have whole : ⌊e / (2 * x)⌋ = k := by
      rw [Int.floor_eq_iff, le_div_iff₀ period, div_lt_iff₀ period]
      constructor <;> linarith
    rw [rest k whole]
    linarith

/-- Where a clock `d` is that began with the bounds and the mode of `c` and has played for so many
seconds. -/
structure PlayedFor (c : Clock Rat) (seconds : Rat) (d : Clock Rat) : Prop where
  wrap : c.loopStart < c.loopEnd → c.mode = .wrap →
    d.state = .playing ∧ d.t = c.loopStart + c.length * Int.fract (seconds / c.length)
  once : c.loopStart < c.loopEnd → c.mode = .noLoop →
    d.state = (if c.loopEnd ≤ c.loopStart + seconds then .paused else .playing) ∧
      d.t = min (c.loopStart + seconds) c.loopEnd
  reverse : c.loopStart < c.loopEnd → c.mode = .reverse →
    d.state = .playing ∧ d.t = c.loopStart + triangle c.length seconds ∧
      (d.direction = .backward ↔
        ∃ k : Int, (2 * k + 1) * c.length < seconds ∧ seconds < (2 * k + 2) * c.length)
  empty : c.loopStart = c.loopEnd →
    d.state = (if 0 < seconds then .paused else .playing) ∧ d.t = c.loopStart

theorem Fresh.playedFor (fresh : c.Fresh) (h : 0 ≤ e) : c.PlayedFor (e / 1000) (c.pass e) where
  wrap room mode := by
    rw [fresh.pass_wrap h room mode]
    exact ⟨fresh.playing, rfl⟩
  once room mode := by
    rw [fresh.pass_once h room mode]
    exact ⟨rfl, rfl⟩
  reverse room mode := by
    have some : 0 < c.length := sub_pos.mpr room
    rw [fresh.pass_reverse h room mode]
    exact ⟨(atPhase_frame c _).1.trans fresh.playing, atPhase_t some,
      (atPhase_direction c _).trans (falling_iff some)⟩
  empty empty := by
    have passed : 0 < e / 1000 ↔ 0 < e := div_pos_iff_of_pos_right (by norm_num)
    rw [fresh.pass_empty h empty]
    exact ⟨by simp only [passed], rfl⟩

/-- Two ticks leave what one of their sum leaves; and where a clock is that was stopped and has
played since, in ticks of any lengths, follows from their sum. -/
theorem elapsed_decides (whenStopped : Bool) :
    (∀ (c : Clock Rat) (a b : Rat), c.state = .playing → c.InBounds → 0 ≤ a → 0 ≤ b →
      ((c.tick a whenStopped).2.tick b whenStopped).2 = (c.tick (a + b) whenStopped).2) ∧
    ∀ (c : Clock Rat) (es : List Rat), c.state = .stopped → c.loopStart ≤ c.loopEnd →
      (∀ e ∈ es, 0 ≤ e) →
      c.PlayedFor (es.sum / 1000) (es.foldl (fun c e => (c.tick e whenStopped).2) c.play) := by
  simp only [tick_snd]
  refine ⟨fun c a b _ ok ha hb => pass_pass ok ha hb, ?_⟩
  intro c es stopped bounds nonneg
  have fresh := play_fresh stopped bounds
  have played := fresh.playedFor (List.sum_nonneg nonneg)
  rw [← fresh.ticks nonneg] at played
  -- Playing changes neither the bounds nor the mode.
  rw [play_eq stopped] at played ⊢
  exact ⟨played.wrap, played.once, played.reverse, played.empty⟩

theorem elapsed_decides_turning :
    let c : Clock Rat := ⟨.stopped, 3, .backward, 1, 7 / 2, .reverse⟩
    let turned : Clock Rat := ⟨.playing, 7 / 2, .backward, 1, 7 / 2, .reverse⟩
    let d := [2000, 2500, 0, 4000].foldl (fun c e => (c.tick e true).2) c.play
    d.state = .playing ∧ d.t = 5 / 2 ∧ d.direction = .backward ∧
      ((turned.tick 0 true).2.tick 9000 true).2 = (turned.tick (0 + 9000) true).2 := by
  intro c turned d
  have room : c.loopStart < c.loopEnd := by decide +kernel
  have played := (elapsed_decides true).2 c [2000, 2500, 0, 4000] rfl room.le (by decide +kernel)
  obtain ⟨state, t, direction⟩ := played.reverse room rfl
  refine ⟨state, ?_, ?_, ?_⟩
  · rw [t]
    decide +kernel
  · exact direction.mpr ⟨1, by decide +kernel, by decide +kernel⟩
  · exact (elapsed_decides true).1 turned 0 9000 rfl
      ⟨by decide +kernel, le_rfl, absurd rfl⟩ le_rfl (by decide +kernel)

end TurtlePlayback.Playback.Clock
