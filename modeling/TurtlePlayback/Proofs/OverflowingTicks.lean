import TurtlePlayback.Proofs.DoubleClocks

namespace TurtlePlayback.Playback.Clock

open Binary64

section

variable {τ : Type} [Time τ]

theorem act_pause (c : Clock τ) :
    c.act .pause = c ∨ c.act .pause = { c with state := .paused } := by
  simp only [act, pause]
  split
  · exact .inr rfl
  · exact .inl rfl

theorem act_play (c : Clock τ) : c.act .play = { c with state := .playing } ∨
    c.act .play = { c.rewind with state := .playing } := by
  simp only [act, play]
  split
  · exact .inr rfl
  · exact .inl rfl

theorem act_cases (c : Clock τ) (a : Action τ) :
    (∃ state, c.act a = { c with state }) ∨
    (∃ state, c.act a = { c.rewind with state }) ∨
    (∃ mode, c.act a = c.setMode mode) ∨
    (∃ start stop, a = .setBounds start stop ∧ checkBounds start stop = .ok () ∧ c.act a =
      { c with loopStart := start, loopEnd := stop, t := Time.clamp c.t start stop }) ∨
    (∃ e whenStopped, a = .tick e whenStopped ∧ c.state = .playing ∧ c.act a = c.advance e) := by
  cases a with
  | play =>
    rcases act_play c with kept | rewound
    · exact .inl ⟨_, kept⟩
    · exact .inr (.inl ⟨_, rewound⟩)
  | pause =>
    rcases act_pause c with kept | paused
    · exact .inl ⟨c.state, kept⟩
    · exact .inl ⟨_, paused⟩
  | playPause =>
    by_cases playing : c.state = .playing
    · exact .inl ⟨.paused, by simp only [act, playPause, pause, playing, ↓reduceIte]⟩
    · have played : c.act .playPause = c.act .play := if_neg playing
      rw [played]
      rcases act_play c with kept | rewound
      · exact .inl ⟨_, kept⟩
      · exact .inr (.inl ⟨_, rewound⟩)
  | stop => exact .inr (.inl ⟨_, rfl⟩)
  | rewind => exact .inr (.inl ⟨c.state, rfl⟩)
  | setMode mode => exact .inr (.inr (.inl ⟨mode, rfl⟩))
  | setBounds start stop =>
    cases checked : checkBounds start stop with
    | error fault => exact .inl ⟨c.state, by simp only [act, setBounds, checked]; rfl⟩
    | ok u =>
      refine .inr (.inr (.inr (.inl ⟨start, stop, rfl, checked, ?_⟩)))
      simp only [act, setBounds, checked]
      rfl
  | tick e whenStopped =>
    cases state : c.state with
    | playing =>
      exact .inr (.inr (.inr (.inr ⟨e, whenStopped, rfl, rfl, by simp only [act, tick, state]⟩)))
    | paused => exact .inl ⟨.paused, by simp only [act, tick, state]; rw [← state]⟩
    | stopped => exact .inl ⟨.stopped, by simp only [act, tick, state]; rw [← state]⟩

end

variable {c : Clock Float}

theorem Admitted.act (ok : c.Admitted) (a : Action Float) : (c.act a).Admitted := by
  obtain ⟨fs, fe, low, ordered, forward⟩ := ok
  obtain ⟨_, acted⟩ | ⟨_, acted⟩ | ⟨_, acted⟩ | ⟨a, b, -, checked, acted⟩ | ⟨e, _, -, -, acted⟩ :=
    act_cases c a
  · rw [acted]
    exact ⟨fs, fe, low, ordered, forward⟩
  · rw [acted]
    exact ⟨fs, fe, low, ordered, fun _ => rfl⟩
  · rw [acted]
    exact ⟨fs, fe, low, ordered, fun other => if_neg other⟩
  · rw [acted]
    obtain ⟨fa, fb, low', ordered'⟩ := checkBounds_finite.mp checked
    exact ⟨fa, fb, low', ordered', forward⟩
  · rw [acted]
    obtain ⟨start, stop, mode⟩ := advance_frame c e
    refine ⟨by rwa [start], by rwa [stop], by rwa [start], by rwa [start, stop], fun other => ?_⟩
    rw [mode] at other
    rw [advance_direction c e other]
    exact forward other

theorem Sound.act (ok : c.Sound) {a : Action Float} (calm : ¬ c.Overflows a) : (c.act a).Sound := by
  refine ⟨ok.toAdmitted.act a, ?_⟩
  obtain ⟨_, acted⟩ | ⟨_, acted⟩ | ⟨_, acted⟩ | ⟨start, stop, -, checked, acted⟩ |
    ⟨e, _, rfl, playing, acted⟩ := act_cases c a
  · rw [acted]
    exact ok.within
  · rw [acted]
    exact ⟨ok.start_finite, le_refl _, ok.ordered⟩
  · rw [acted]
    exact ok.within
  · rw [acted]
    obtain ⟨fa, fb, -, ordered⟩ := checkBounds_finite.mp checked
    exact Time.clamp_finite (not_nan_of_finite ok.within.1) fa fb ordered
  · rw [acted]
    obtain ⟨start, stop, -⟩ := advance_frame c e
    rw [Within, start, stop]
    exact advance_within ok playing calm

theorem create_sound {start stop : Float} {mode : LoopMode}
    (made : create start stop mode = .ok c) : c.Sound := by
  obtain ⟨_, checked, rfl⟩ := map_ok.mp made
  obtain ⟨fs, fe, low, ordered⟩ := checkBounds_finite.mp checked
  exact ⟨⟨fs, fe, low, ordered, fun _ => rfl⟩, fs, le_refl _, ordered⟩

theorem Sound.inside_iff (ok : c.Sound) (as : List (Action Float)) :
    (∀ n, ((as.take n).foldl Clock.act c).Inside) ↔
      ∀ n a, as[n]? = some a → ¬ ((as.take n).foldl Clock.act c).Overflows a := by
  induction as generalizing c with
  | nil =>
    constructor
    · intro _ n a here
      cases here
    · intro _ n
      rw [List.take_nil]
      exact ok.inside
  | cons a as ih =>
    constructor
    · intro inside
      -- The first action cannot overflow, or the time would be NaN after it.
      have calm : ¬ c.Overflows a := fun overflows =>
        (inside 1).not_nan (overflow_nan ok.toAdmitted overflows)
      intro n b here
      cases n with
      | zero =>
        cases here
        exact calm
      | succ n => exact (ih (ok.act calm)).mp (fun n => inside (n + 1)) n b here
    · intro calm n
      cases n with
      | zero => exact ok.inside
      | succ n => exact (ih (ok.act (calm 0 a rfl))).mpr (fun n b here => calm (n + 1) b here) n

theorem Admitted.run (ok : c.Admitted) (as : List (Action Float)) :
    (as.foldl Clock.act c).Admitted := by
  induction as generalizing c with
  | nil => exact ok
  | cons a as ih => exact ih (ok.act a)

theorem greatestBound_finite : (8e307 : Float).isFinite = true ∧
    number 8e307 = 8016673440035891 * 2 ^ (970 : Int) := by
  have bits : (8e307 : Float) = Float.ofBits 9213374311785329715 := by decide +kernel
  rw [bits]
  exact ⟨rfl, rfl⟩

theorem room_for_sums : ∃ double sum : Float, double.isFinite = true ∧ sum.isFinite = true ∧
    2 * number 8e307 ≤ number double ∧ number double + number 1.8e305 ≤ number sum := by
  refine ⟨Float.ofBits 9217877911412700211, Float.ofBits 9218868437227405311, rfl, rfl, ?_, ?_⟩
  · have double : number (Float.ofBits 9217877911412700211) = 8016673440035891 * 2 ^ (971 : Int) :=
      rfl
    have next : (2 : ℚ) ^ (971 : Int) = 2 ^ (1 : Int) * 2 ^ (970 : Int) := two_zpow_add 1 970
    rw [double, greatestBound_finite.2, next]
    linarith
  · have double : number (Float.ofBits 9217877911412700211) = 8016673440035891 * 2 ^ (971 : Int) :=
      rfl
    have sum : number (Float.ofBits 9218868437227405311) = 9007199254740991 * 2 ^ (971 : Int) := rfl
    have scale : (2 : ℚ) ^ (971 : Int) = 2 ^ (9 : Int) * 2 ^ (962 : Int) := two_zpow_add 9 962
    have unit := two_zpow_pos 962
    rw [double, sum, greatestMovement_finite.2, scale]
    generalize (2 : ℚ) ^ (962 : Int) = u at unit ⊢
    norm_num
    linarith

theorem Sound.calm (ok : c.Sound) (small : c.loopEnd ≤ 8e307) (a : Action Float) :
    ¬ c.Overflows a := by
  obtain ⟨fb, -⟩ := greatestBound_finite
  obtain ⟨double, sum, fd, fs, twice, behind⟩ := room_for_sums
  rw [le_iff ok.end_finite fb] at small
  generalize number 8e307 = bound at small twice
  cases a with
  | tick e whenStopped =>
    rintro ⟨-, -, large⟩
    obtain ⟨fm, size, -⟩ := movement_finite c e
    obtain ⟨ft, above, below⟩ := ok.within
    obtain ⟨left, right⟩ := abs_le.mp size
    generalize number 1.8e305 = greatest at size left right behind
    have low := ok.start_nonneg
    cases mode : c.mode with
    | noLoop =>
      simp only [mode] at large
    | wrap =>
      simp only [mode] at large
      obtain ⟨fn, opposite⟩ := neg_finite fs
      have fits := (rounds_add ft fm).between fn fs (by linarith) (by linarith)
      rw [fits.1] at large
      cases large
    | reverse =>
      simp only [mode] at large
      have zero := Time.zero_finite
      obtain ⟨-, ahead, short⟩ := ok.span_finite
      obtain ⟨fa, size'⟩ := abs_finite fm
      obtain ⟨fp, -, long⟩ := ok.period_rounds.between zero.1 fd (by linarith) (by linarith)
      obtain ⟨fc, start, stop⟩ := ok.cyclePhase_le fp
      have some := abs_nonneg (number (c.movement e))
      have fits := (rounds_add fc fa).between zero.1 fs (by linarith) (by linarith)
      rw [fits.1] at large
      cases large
  | _ => exact id

theorem Sound.small (ok : c.Sound) (small : c.loopEnd ≤ 8e307) {as : List (Action Float)}
    (bounded : ∀ a b, .setBounds a b ∈ as → checkBounds a b = .ok () → b ≤ 8e307) :
    ∀ n, ((as.take n).foldl Clock.act c).Inside := by
  induction as generalizing c with
  | nil =>
    intro n
    rw [List.take_nil]
    exact ok.inside
  | cons a as ih =>
    intro n
    have small' : (c.act a).loopEnd ≤ 8e307 := by
      obtain ⟨_, acted⟩ | ⟨_, acted⟩ | ⟨_, acted⟩ | ⟨start, stop, rfl, checked, acted⟩ |
        ⟨e, _, -, -, acted⟩ := act_cases c a
      · rwa [acted]
      · rwa [acted]
      · rwa [acted]
      · rw [acted]
        exact bounded start stop List.mem_cons_self checked
      · rwa [acted, (advance_frame c e).2.1]
    cases n with
    | zero => exact ok.inside
    | succ n =>
      exact ih (ok.act (ok.calm small a)) small' (fun a b here => bounded a b (.tail _ here)) n

/-- A run on doubles stays inside its bounds exactly until a tick makes a sum that is too large. -/
theorem runs_inside_until_overflow {start stop : Float} {mode : LoopMode}
    (made : create start stop mode = .ok c) (as : List (Action Float)) :
    ((∀ n, ((as.take n).foldl act c).Inside) ↔
      ∀ n a, as[n]? = some a → ¬ ((as.take n).foldl act c).Overflows a) ∧
    (∀ n a, as[n]? = some a → ((as.take n).foldl act c).Overflows a →
      ((as.take (n + 1)).foldl act c).t.isNaN = true) ∧
    (stop ≤ 8e307 → (∀ a b, .setBounds a b ∈ as → checkBounds a b = .ok () → b ≤ 8e307) →
      ∀ n, ((as.take n).foldl act c).Inside) := by
  have ok := create_sound made
  refine ⟨ok.inside_iff as, ?_, ?_⟩
  · intro n a here overflows
    have next : as.take (n + 1) = as.take n ++ [a] := by
      rw [List.take_add_one, here]
      rfl
    rw [next, List.foldl_append]
    exact overflow_nan (ok.toAdmitted.run _) overflows
  · intro small bounded
    obtain ⟨_, _, rfl⟩ := map_ok.mp made
    exact ok.small small bounded

theorem runs_inside_until_overflow_widened :
    ∃ c : Clock Float, create 0 1 .reverse = .ok c ∧
      let as := [Action.play, .tick 1500 false, .setBounds 0 1e308, .tick 0 false]
      (as.foldl act c).t.isNaN = true ∧ ¬ (∀ n, ((as.take n).foldl act c).Inside) ∧
        ∀ n, ((([.play, .tick 1500 false, .setBounds 0 8e307, .tick 0 false] : List _).take n).foldl
          act c).Inside := by
  let c : Clock Float := ⟨.stopped, 0, .forward, 0, 1, .reverse⟩
  have made : create 0 1 .reverse = .ok c := by
    have checked : checkBounds (0 : Float) 1 = .ok () := by decide +kernel
    simp only [create, checked]
    rfl
  obtain ⟨outside, nan, -⟩ := runs_inside_until_overflow made
    [.play, .tick 1500 false, .setBounds 0 1e308, .tick 0 false]
  obtain ⟨-, -, inside⟩ := runs_inside_until_overflow made
    [.play, .tick 1500 false, .setBounds 0 8e307, .tick 0 false]
  have overflows : ([Action.play, .tick 1500 false, .setBounds 0 1e308].foldl act c).Overflows
      (.tick 0 false) := by
    have mode : ([Action.play, .tick 1500 false, .setBounds 0 1e308].foldl act c).mode = .reverse := by
      decide +kernel
    simp only [Overflows, mode]
    decide +kernel
  refine ⟨c, made, nan 3 _ rfl overflows, ?_, inside (by decide +kernel) ?_⟩
  · intro all
    exact outside.mp all 3 _ rfl overflows
  · intro a b here _
    obtain ⟨rfl, rfl⟩ : a = 0 ∧ b = 8e307 := by simpa using here
    decide +kernel

/-- The way back over bounds that were widened without limit. -/
theorem widened_bounds_break : ∃ c : Clock Float, create 0 1 .reverse = .ok c ∧
    let d := [Action.play, .tick 1500 false, .setBounds 0 1e308, .tick 0 false].foldl act c
    d.t.isNaN = true ∧ ¬ d.loopStart ≤ d.t ∧ ¬ d.t ≤ d.loopEnd := by
  let c : Clock Float := ⟨.stopped, 0, .forward, 0, 1, .reverse⟩
  have made : create 0 1 .reverse = .ok c := by
    have checked : checkBounds (0 : Float) 1 = .ok () := by decide +kernel
    simp only [create, checked]
    rfl
  exact ⟨c, made, by decide +kernel, by decide +kernel, by decide +kernel⟩

end TurtlePlayback.Playback.Clock
