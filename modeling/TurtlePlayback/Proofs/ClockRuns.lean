import TurtlePlayback.Proofs.ElapsedTime
import TurtlePlayback.Proofs.ExceptResults

namespace TurtlePlayback.Playback

namespace Time

variable {x y z : Rat}

theorem nonneg_eq_max (x : Rat) : nonneg x = max x 0 := by
  rw [nonneg, zero_eq]
  by_cases ahead : 0 < x
  · rw [if_pos ahead, max_eq_left ahead.le]
  · rw [if_neg ahead, max_eq_right (not_lt.mp ahead)]

theorem clamp_eq (x y z : Rat) : clamp x y z = min (max x y) z := by
  simp only [clamp]
  by_cases low : x < y
  · rw [if_pos low, max_eq_right low.le]
    by_cases high : z < y
    · rw [if_pos high, min_eq_right high.le]
    · rw [if_neg high, min_eq_left (not_lt.mp high)]
  · rw [if_neg low, max_eq_left (not_lt.mp low)]
    by_cases high : z < x
    · rw [if_pos high, min_eq_right high.le]
    · rw [if_neg high, min_eq_left (not_lt.mp high)]

end Time

namespace Clock

inductive Action (τ : Type)
  | play
  | pause
  | playPause
  | stop
  | rewind
  | setMode (mode : LoopMode)
  | setBounds (start stop : τ)
  | tick (elapsed : τ) (whenStopped : Bool)

section

variable {τ : Type}

theorem play_t {c : Clock τ} (begun : c.state ≠ .stopped) : c.play.t = c.t := by
  simp only [play, begun, ↓reduceIte]

theorem pause_t (c : Clock τ) : c.pause.t = c.t := by
  simp only [pause]
  split <;> rfl

variable [Time τ]

def act (c : Clock τ) : Action τ → Clock τ
  | .play => c.play
  | .pause => c.pause
  | .playPause => c.playPause
  | .stop => c.stop
  | .rewind => c.rewind
  | .setMode m => c.setMode m
  | .setBounds a b => (c.setBounds a b).toOption.getD c
  | .tick e whenStopped => (c.tick e whenStopped).2

/-- Whether an action may set the time. -/
def SetsTime (c : Clock τ) : Action τ → Prop
  | .play => c.state = .stopped
  | .pause => False
  | .playPause => c.state = .stopped
  | .stop => True
  | .rewind => True
  | .setMode _ => False
  | .setBounds a b => checkBounds a b = .ok ()
  | .tick _ _ => c.state = .playing

theorem act_t {c : Clock τ} {a : Action τ} (kept : ¬ c.SetsTime a) : (c.act a).t = c.t := by
  cases a with
  | play => exact play_t kept
  | pause => exact pause_t c
  | playPause =>
    simp only [act, playPause]
    split
    · exact pause_t c
    · exact play_t kept
  | stop => exact absurd trivial kept
  | rewind => exact absurd trivial kept
  | setMode m => rfl
  | setBounds a b =>
    simp only [act, setBounds]
    cases checked : checkBounds a b with
    | ok u => exact absurd checked kept
    | error f => rfl
  | tick e whenStopped =>
    cases state : c.state with
    | playing => exact absurd state kept
    | paused => simp only [act, tick, state]
    | stopped => simp only [act, tick, state]

theorem advanceOnce_frame (c : Clock τ) (dt : τ) :
    (c.advanceOnce dt).loopStart = c.loopStart ∧ (c.advanceOnce dt).loopEnd = c.loopEnd ∧
      (c.advanceOnce dt).mode = c.mode := by
  simp only [advanceOnce]
  split
  · exact ⟨rfl, rfl, rfl⟩
  · split <;> exact ⟨rfl, rfl, rfl⟩

theorem advance_frame (c : Clock τ) (e : τ) :
    (c.advance e).loopStart = c.loopStart ∧ (c.advance e).loopEnd = c.loopEnd ∧
      (c.advance e).mode = c.mode := by
  simp only [advance]
  split
  · exact ⟨rfl, rfl, rfl⟩
  · split
    · exact advanceOnce_frame c _
    · exact ⟨rfl, rfl, rfl⟩
    · exact ⟨rfl, rfl, rfl⟩

end

variable {c : Clock Rat} {e : Rat}

theorem checkBounds_ok {a b : Rat} : checkBounds a b = .ok () ↔ 0 ≤ a ∧ a ≤ b := by
  simp only [checkBounds, Time.isFinite_eq, Time.zero_eq, ← not_lt]
  by_cases negative : a < 0
  · simp [negative]
  · by_cases crossed : b < a <;> simp [negative, crossed]

theorem advance_nonneg (c : Clock Rat) (e : Rat) : c.advance e = c.advance (max e 0) := by
  simp only [advance, Time.isFinite_eq, ↓reduceIte, Time.nonneg_eq_max, max_assoc, max_self]

theorem tick_playing (playing : c.state = .playing) (e : Rat) (whenStopped : Bool) :
    (c.tick e whenStopped).2 = c.advance (max e 0) := by
  rw [tick_snd, pass_playing playing, advance_nonneg]

structure Valid (c : Clock Rat) : Prop extends c.InBounds where
  start_nonneg : 0 ≤ c.loopStart

namespace Valid

theorem rewind (ok : c.Valid) : c.rewind.Valid := by
  constructor
  · exact ⟨le_refl _, ok.start_le_end, fun _ => rfl⟩
  · exact ok.start_nonneg

theorem setState (ok : c.Valid) (s : PlaybackState) : Valid { c with state := s } :=
  ⟨⟨ok.start_le, ok.le_end, ok.forward⟩, ok.start_nonneg⟩

theorem play (ok : c.Valid) : c.play.Valid := by
  simp only [Clock.play]
  split
  · exact ok.rewind.setState .playing
  · exact ok.setState .playing

theorem pause (ok : c.Valid) : c.pause.Valid := by
  simp only [Clock.pause]
  split
  · exact ok.setState .paused
  · exact ok

theorem setMode (ok : c.Valid) (m : LoopMode) : (c.setMode m).Valid := by
  refine ⟨⟨ok.start_le, ok.le_end, ?_⟩, ok.start_nonneg⟩
  intro other
  exact if_neg other

theorem setBounds (ok : c.Valid) (a b : Rat) : (c.act (.setBounds a b)).Valid := by
  simp only [act, Clock.setBounds]
  cases checked : checkBounds a b with
  | error f => exact ok
  | ok u =>
    obtain ⟨ahead, ordered⟩ := checkBounds_ok.mp checked
    refine ⟨⟨?_, ?_, ok.forward⟩, ahead⟩
    · change a ≤ Time.clamp c.t a b
      rw [Time.clamp_eq]
      exact le_min (le_max_right _ _) ordered
    · change Time.clamp c.t a b ≤ b
      rw [Time.clamp_eq]
      exact min_le_right _ _

theorem tick (ok : c.Valid) (e : Rat) (whenStopped : Bool) : (c.tick e whenStopped).2.Valid := by
  by_cases playing : c.state = .playing
  · rw [tick_playing playing]
    constructor
    · exact ok.advance (le_max_right _ _)
    · rw [(advance_frame c _).1]
      exact ok.start_nonneg
  · rw [tick_snd, pass_still playing]
    exact ok

theorem act (ok : c.Valid) (a : Action Rat) : (c.act a).Valid := by
  cases a with
  | play => exact ok.play
  | pause => exact ok.pause
  | playPause =>
    simp only [Clock.act, playPause]
    split
    · exact ok.pause
    · exact ok.play
  | stop => exact ok.rewind.setState .stopped
  | rewind => exact ok.rewind
  | setMode m => exact ok.setMode m
  | setBounds a b => exact ok.setBounds a b
  | tick e whenStopped => exact ok.tick e whenStopped

theorem run (ok : c.Valid) (as : List (Action Rat)) : (as.foldl Clock.act c).Valid := by
  induction as generalizing c with
  | nil => exact ok
  | cons a as ih => exact ih (ok.act a)

end Valid

theorem default_valid : (default : Clock Rat).Valid := by
  constructor
  · exact ⟨le_refl _, by decide +kernel, fun _ => rfl⟩
  · exact le_refl _

theorem create_valid {a b : Rat} {m : LoopMode} (made : create a b m = .ok c) : c.Valid := by
  obtain ⟨_, checked, rfl⟩ := map_ok.mp made
  obtain ⟨ahead, ordered⟩ := checkBounds_ok.mp checked
  exact ⟨⟨le_refl _, ordered, fun _ => rfl⟩, ahead⟩

section

variable (ok : c.InBounds) (playing : c.state = .playing) (room : c.loopStart < c.loopEnd)
  (e : Rat) (whenStopped : Bool)

include ok playing room

theorem tick_wrap_lt (mode : c.mode = .wrap) :
    (c.tick e whenStopped).2.t < (c.tick e whenStopped).2.loopEnd := by
  have some : 0 < c.length := sub_pos.mpr room
  have short := Time.wrap_lt (x := c.t - c.loopStart + max e 0 / 1000) some
  rw [tick_playing playing, advance_wrap room (le_max_right _ _) mode ok]
  simp only [length] at short ⊢
  linarith

theorem tick_once_le (mode : c.mode = .noLoop) : c.t ≤ (c.tick e whenStopped).2.t := by
  rw [tick_playing playing, advance_once room (le_max_right _ _) mode ok]
  split
  · exact ok.le_end
  · have ahead : 0 ≤ max e 0 / 1000 := div_nonneg (le_max_right _ _) (by norm_num)
    exact le_add_of_nonneg_right ahead

theorem tick_once_paused (mode : c.mode = .noLoop) :
    (c.tick e whenStopped).2.state = .paused ↔
      (c.tick e whenStopped).2.t = (c.tick e whenStopped).2.loopEnd := by
  rw [tick_playing playing, advance_once room (le_max_right _ _) mode ok]
  split
  · exact ⟨fun _ => rfl, fun _ => rfl⟩
  · next short =>
    constructor
    · intro paused
      rw [show c.state = .paused from paused] at playing
      cases playing
    · intro reached
      exact absurd reached (not_le.mp short).ne

end

/-- However a clock is used from the beginning. -/
theorem runs_in_bounds {c : Clock Rat}
    (made : c = default ∨ ∃ start stop mode, create start stop mode = .ok c)
    (as : List (Action Rat)) :
    let d := as.foldl act c
    0 ≤ d.loopStart ∧ d.loopStart ≤ d.t ∧ d.t ≤ d.loopEnd ∧
    (d.mode ≠ .reverse → d.direction = .forward) ∧
    (∀ a, (d.act a).t ≠ d.t → d.SetsTime a) ∧
    ∀ e whenStopped, d.state = .playing → d.loopStart < d.loopEnd →
      let next := (d.tick e whenStopped).2
      (d.mode = .wrap → next.t < next.loopEnd) ∧
      (d.mode = .noLoop → d.t ≤ next.t ∧ (next.state = .paused ↔ next.t = next.loopEnd)) := by
  intro d
  have fresh : c.Valid := by
    rcases made with rfl | ⟨start, stop, mode, made⟩
    · exact default_valid
    · exact create_valid made
  have ok : d.Valid := fresh.run as
  refine ⟨ok.start_nonneg, ok.start_le, ok.le_end, ok.forward, ?_, ?_⟩
  · intro a moved
    by_contra kept
    exact moved (act_t kept)
  · intro e whenStopped playing room
    constructor
    · exact tick_wrap_lt ok.toInBounds playing room e whenStopped
    · intro mode
      constructor
      · exact tick_once_le ok.toInBounds playing room e whenStopped mode
      · exact tick_once_paused ok.toInBounds playing room e whenStopped mode

theorem runs_in_bounds_narrowed :
    ∃ c : Clock Rat, create 1 (7 / 2) .reverse = .ok c ∧
      let d := [Action.play, .tick 4000 true, .setBounds 0 2, .setBounds 3 1, .tick (-9) false,
        .setMode .noLoop].foldl act c
      d.t = 2 ∧ d.loopEnd = 2 ∧ d.direction = .forward ∧ d.loopStart ≤ d.t ∧
      ((d.tick 0 false).2.state = .paused ↔ (d.tick 0 false).2.t = (d.tick 0 false).2.loopEnd) := by
  let c : Clock Rat := ⟨.stopped, 1, .forward, 1, 7 / 2, .reverse⟩
  have made : create 1 (7 / 2) .reverse = .ok c := by
    have checked : checkBounds (1 : Rat) (7 / 2) = .ok () := checkBounds_ok.mpr (by decide +kernel)
    simp only [create, checked]
    rfl
  obtain ⟨-, low, -, forward, -, ticks⟩ := runs_in_bounds (.inr ⟨1, 7 / 2, .reverse, made⟩)
    [.play, .tick 4000 true, .setBounds 0 2, .setBounds 3 1, .tick (-9) false, .setMode .noLoop]
  have paused := (ticks 0 false (by decide +kernel) (by decide +kernel)).2 (by decide +kernel)
  exact ⟨c, made, by decide +kernel, by decide +kernel, forward (by decide +kernel), low, paused.2⟩

end Clock

end TurtlePlayback.Playback
