import TurtlePlayback.Proofs.AnsweredRequests
import TurtlePlayback.Proofs.ClockRuns
import TurtlePlayback.Proofs.FrameSuccessors

/-!
The time of a run without a window. A player that plays asks for the next frame while a frame runs,
so that its frames are all an interval of the display apart, whatever becomes of the script. No time
is lost, and a clock that pauses by itself is followed by one frame more.
-/

namespace TurtlePlayback.Playback

theorem Clock.create_fresh {a b : Rat} {m : LoopMode} {c : Clock Rat}
    (made : Clock.create a b m = .ok c) : c.play.Fresh := by
  obtain ⟨_, checked, rfl⟩ := map_ok.mp made
  exact play_fresh rfl (checkBounds_ok.mp checked).2

end TurtlePlayback.Playback

namespace TurtlePlayback.Session

open Canvas Playback

namespace Player

section

variable {τ σ : Type} [Time τ] [Surface σ]

theorem create_clock {surface : σ} {c : Config τ} {p : Player τ σ}
    (created : Player.create surface c = .ok p) :
    ∃ clock, Clock.create c.loopStart c.loopEnd c.loopMode = .ok clock ∧
      p.clock = if c.autoplay then clock.play else clock := by
  obtain ⟨s, clock, r, -, bounds, rfl⟩ := create_made created
  exact ⟨clock, bounds, rfl⟩

theorem frame_tick {p : Player τ σ} (visible : p.visible.value = true) (elapsed : τ) :
    (p.frame elapsed).clock = (p.clock.tick elapsed true).2 := by
  obtain ⟨_, _, _, closed⟩ := update_brackets p (·.runFrame elapsed)
  rw [frame, closed]
  exact runFrame_clock (p := p.openBatch) visible elapsed

theorem frame_scheduler {p : Player τ σ} (closed : p.Closed)
    (number : (p.clock.t == p.clock.t) = true) (idle : p.scheduler.pending = false) (elapsed : τ) :
    (p.visible.value = true → p.dirty.value = true ∨ p.clock.state = .playing →
      (p.frame elapsed).scheduler = p.scheduler.schedule.2) ∧
    (¬ (p.dirty.value = true ∨ p.clock.state = .playing) →
      (p.frame elapsed).scheduler = p.scheduler) := by
  have asks := frame_pending closed number idle elapsed
  constructor
  · intro visible work
    rcases frame_scheduled p elapsed with same | asked
    · have pending := asks.mpr ⟨visible, work⟩
      rw [same, idle] at pending
      exact absurd pending Bool.false_ne_true
    · exact asked
  · intro rests
    rcases frame_scheduled p elapsed with same | asked
    · exact same
    · have pending : (p.frame elapsed).scheduler.pending = true := by
        rw [asked]
        exact p.scheduler.pending_schedule
      exact absurd (asks.mp pending).2 rests

end

end Player

namespace Display

section

variable {τ σ : Type} [Time τ] [Surface σ]

def Delivers (d : Display τ) (p : Player τ σ) (elapsed : τ) : Prop :=
  ∃ s, p.scheduler.taken.beginFrame (d.now + d.interval) = (some elapsed, s) ∧
    d.refresh p = (true, { d with now := d.now + d.interval },
      { Player.frame { p with scheduler := s } elapsed with
        scheduler := (Player.frame { p with scheduler := s } elapsed).scheduler.finishFrame })

theorem Delivers.ran {d : Display τ} {p : Player τ σ} {elapsed : τ}
    (delivers : d.Delivers p elapsed) : (d.refresh p).1 = true := by
  obtain ⟨s, -, ran⟩ := delivers
  rw [ran]

def refreshes (d : Display τ) (p : Player τ σ) : Nat → Display τ × Player τ σ
  | 0 => (d, p)
  | n + 1 => ((d.refreshes p n).1.refresh (d.refreshes p n).2).2

theorem refreshes_interval (d : Display τ) (p : Player τ σ) (n : Nat) :
    (d.refreshes p n).1.interval = d.interval := by
  induction n with
  | zero => rfl
  | succ n ih =>
    rw [refreshes, ← ih]
    simp only [refresh]
    split <;> rfl

theorem refresh_unasked {d : Display τ} {p : Player τ σ}
    (idle : p.scheduler.host.requested = false) : (d.refresh p).1 = false ∧
      (d.refresh p).2.2.scheduler.host.requested = false := by
  simp [refresh, Host.take, idle]

theorem refreshes_unasked {d : Display τ} {p : Player τ σ} {n m : Nat} (later : n ≤ m)
    (idle : (d.refreshes p n).2.scheduler.host.requested = false) :
    (d.refreshes p m).2.scheduler.host.requested = false := by
  induction later with
  | refl => exact idle
  | step _ ih => exact (refresh_unasked ih).2

end

variable {σ : Type} {d : Display Rat} {p : Player Rat σ}

/-- A visible player waits for the frame that goes on from the refresh before, or for its first. -/
structure Waits (d : Display Rat) (p : Player Rat σ) : Prop extends p.Closed where
  visible : p.visible.value = true
  pending : p.scheduler.pending = true
  requested : p.scheduler.host.requested = true
  last : p.scheduler.last = if p.scheduler.frames = 0 then none else some d.now

def due (d : Display Rat) (p : Player Rat σ) : Rat :=
  if p.scheduler.frames = 0 then 0 else d.interval

def begun (d : Display Rat) (p : Player Rat σ) : Scheduler Rat :=
  { p.scheduler.taken with
    pending := false, inFrame := true, rescheduled := false
    frames := p.scheduler.frames + 1, last := some (d.now + d.interval) }

theorem due_nonneg (ahead : 0 < d.interval) (p : Player Rat σ) : 0 ≤ d.due p := by
  simp only [due]
  split
  · exact le_rfl
  · exact ahead.le

namespace Waits

theorem elapsed (waits : Waits d p) (ahead : 0 < d.interval) :
    (p.scheduler.last.elim Time.zero fun last => Time.nonneg (d.now + d.interval - last)) =
      d.due p := by
  rw [waits.last, due]
  split
  · rfl
  · simp only [Option.elim_some, add_sub_cancel_left]
    exact Time.nonneg_of_le ahead.le

theorem beginFrame (waits : Waits d p) (ahead : 0 < d.interval) :
    p.scheduler.taken.beginFrame (d.now + d.interval) = (some (d.due p), d.begun p) := by
  have pending : p.scheduler.taken.pending = true := waits.pending
  rw [← waits.elapsed ahead]
  simp only [Scheduler.beginFrame, pending, ↓reduceIte]
  rfl

variable [Surface σ]

theorem delivers (waits : Waits d p) (ahead : 0 < d.interval) : d.Delivers p (d.due p) :=
  ⟨d.begun p, waits.beginFrame ahead, refresh_taken waits.requested (waits.beginFrame ahead)⟩

theorem refreshed (waits : Waits d p) (ahead : 0 < d.interval) :
    (d.refresh p).2.2.clock = p.clock.pass (d.due p) ∧
    (d.refresh p).2.2.dirty.value = false ∧
    (d.refresh p).2.2.scheduler.frames = p.scheduler.frames + 1 ∧
    (p.dirty.value = true ∨ p.clock.state = .playing →
      Waits (d.refresh p).2.1 (d.refresh p).2.2) ∧
    (¬ (p.dirty.value = true ∨ p.clock.state = .playing) →
      (d.refresh p).2.2.scheduler.host.requested = false) := by
  have ran := refresh_taken waits.requested (waits.beginFrame ahead)
  let q : Player Rat σ := { p with scheduler := d.begun p }
  have closed : q.Closed := ⟨waits.depth, waits.unmarked⟩
  have number : (q.clock.t == q.clock.t) = true := decide_eq_true rfl
  obtain ⟨asked, alone⟩ := Player.frame_scheduler closed number rfl (d.due p)
  obtain ⟨-, shown, worked⟩ := Player.frame_worked (p := q) waits.depth (d.due p)
  have settled := (Player.update_settles (p := q) (f := (·.runFrame (d.due p)))
    (Player.runFrame_follows q.openBatch (d.due p)).depth).2 closed
  have counted := (Player.frame_scheduled q (d.due p)).frames
  rw [ran]
  refine ⟨?_, (worked waits.visible).1, counted, ?_, ?_⟩
  · exact (Player.frame_tick (p := q) waits.visible _).trans (Clock.tick_snd _ _ _)
  · intro work
    have again := asked waits.visible work
    constructor
    · exact ⟨settled.depth, settled.unmarked⟩
    · exact shown.trans waits.visible
    · change (q.frame _).scheduler.pending = true
      rw [again]
      exact q.scheduler.pending_schedule
    · change (q.frame _).scheduler.host.requested = true
      rw [again]
      rfl
    -- It has asked while its frame ran, so the frame that comes goes on from this one.
    · change (q.frame _).scheduler.finishFrame.last =
        if (q.frame _).scheduler.frames = 0 then none else some (d.now + d.interval)
      have begun : (q.frame (d.due p)).scheduler.frames ≠ 0 :=
        counted.trans_ne (Nat.succ_ne_zero _)
      rw [if_neg begun, again]
      rfl
  · intro rests
    change (q.frame _).scheduler.host.requested = false
    rw [alone rests]
    rfl

end Waits

variable {n : Nat} {k : Clock Rat}

/-- Before frame `n + 1` of a clock that has played all the time, from `k` on. -/
structure Rolls (k : Clock Rat) (n : Nat) (d : Display Rat) (p : Player Rat σ) : Prop
    extends Waits d p where
  playing : p.clock.state = .playing
  frames : p.scheduler.frames = n
  clock : p.clock = k.pass ((n - 1 : Nat) * d.interval)

variable [Surface σ]

theorem Rolls.pass (rolls : Rolls k n d p) (fresh : k.Fresh) (ahead : 0 < d.interval) :
    (d.refresh p).2.2.clock = k.pass (n * d.interval) := by
  have before : (0 : Rat) ≤ (n - 1 : Nat) * d.interval := by positivity
  rw [(rolls.toWaits.refreshed ahead).1, rolls.clock,
    Clock.pass_pass fresh.inBounds before (due_nonneg ahead p), due, rolls.frames]
  cases n with
  | zero => simp
  | succ n =>
    congr 1
    rw [if_neg (Nat.succ_ne_zero n), Nat.add_sub_cancel]
    push_cast
    ring

theorem Rolls.refreshed (rolls : Rolls k n d p) (fresh : k.Fresh) (ahead : 0 < d.interval) :
    Waits (d.refresh p).2.1 (d.refresh p).2.2 ∧ (d.refresh p).2.2.dirty.value = false ∧
      ((d.refresh p).2.2.clock.state = .playing →
        Rolls k (n + 1) (d.refresh p).2.1 (d.refresh p).2.2) := by
  obtain ⟨-, clean, frames, again, -⟩ := rolls.toWaits.refreshed ahead
  have waits := again (.inr rolls.playing)
  refine ⟨waits, clean, fun playing => ⟨waits, playing, ?_, ?_⟩⟩
  · rw [frames, rolls.frames]
  · have interval : (d.refresh p).2.1.interval = d.interval := refreshes_interval d p 1
    rw [rolls.pass fresh ahead, interval, Nat.add_sub_cancel]

/-- The phases of a run: the clock plays, or it has paused by itself and a last frame is waited for,
or nobody asks. -/
inductive Phase (k : Clock Rat) (n : Nat) (d : Display Rat) (p : Player Rat σ) : Prop
  | rolls (rolls : Rolls k n d p)
  | ends (waits : Waits d p) (clean : p.dirty.value = false) (paused : p.clock.state ≠ .playing)
    (begun : p.scheduler.frames ≠ 0)
  | idle (paused : p.clock.state ≠ .playing) (unasked : p.scheduler.host.requested = false)

namespace Phase

theorem refreshed (phase : Phase k n d p) (fresh : k.Fresh) (ahead : 0 < d.interval) :
    Phase k (n + 1) (d.refresh p).2.1 (d.refresh p).2.2 := by
  rcases phase with rolls | ⟨waits, clean, paused, -⟩ | ⟨paused, unasked⟩
  · obtain ⟨waits, clean, plays⟩ := rolls.refreshed fresh ahead
    by_cases playing : (d.refresh p).2.2.clock.state = .playing
    · exact .rolls (plays playing)
    · have frames := (rolls.toWaits.refreshed ahead).2.2.1
      exact .ends waits clean playing (by omega)
  · obtain ⟨clock, -, -, -, silent⟩ := waits.refreshed ahead
    rw [Clock.pass_still paused] at clock
    exact .idle (clock ▸ paused) (silent (by simp [clean, paused]))
  · have clock : (d.refresh p).2.2.clock = p.clock := by simp [refresh, Host.take, unasked]
    exact .idle (clock ▸ paused) (refresh_unasked unasked).2

theorem refreshes (phase : Phase k 0 d p) (fresh : k.Fresh) (ahead : 0 < d.interval) (n : Nat) :
    Phase k n (d.refreshes p n).1 (d.refreshes p n).2 := by
  induction n with
  | zero => exact phase
  | succ n ih =>
    have interval := d.refreshes_interval p n
    exact ih.refreshed fresh (interval ▸ ahead)

omit [Surface σ] in
theorem rolls_of_playing (phase : Phase k n d p) (playing : p.clock.state = .playing) :
    Rolls k n d p := by
  rcases phase with rolls | ⟨-, -, paused, -⟩ | ⟨paused, -⟩
  · exact rolls
  · exact absurd playing paused
  · exact absurd playing paused

theorem delivers (phase : Phase k n d p) (ahead : 0 < d.interval)
    (ran : (d.refresh p).1 = true) : d.Delivers p (d.due p) := by
  rcases phase with rolls | ⟨waits, -, -, -⟩ | ⟨-, unasked⟩
  · exact rolls.toWaits.delivers ahead
  · exact waits.delivers ahead
  · rw [(refresh_unasked unasked).1] at ran
    cases ran

end Phase

theorem setSource_rolls {surface : σ} {c : Config Rat} (created : Player.create surface c = .ok p)
    (visible : c.visible = true) (fresh : p.clock.Fresh) (d : Display Rat) (source : String) :
    Rolls p.clock 0 d (p.setSource source) := by
  have closed : (p.setSource source).Closed :=
    (Player.edit_settles p (.setSource source)).2 (Player.Reached.created created).closed
  have asked : p.scheduler.Scheduled (p.setSource source).scheduler :=
    Player.edit_scheduled p (.setSource source) rfl
  have awake : (p.setSource source).control.Awake :=
    Player.edit_awake (Player.create_awake created) (.setSource source) rfl
  obtain ⟨_, _, _, set⟩ := Player.update_brackets p fun p => { p with source }.setDirty true
  have same : (p.setSource source).clock = p.clock := by
    rw [Player.setSource, set]
    rfl
  have shown : (p.setSource source).visible = p.visible := by
    rw [Player.setSource, set]
    rfl
  have changed : (p.setSource source).dirty.value = true := by
    rw [Player.setSource, set]
    exact Watched.set_value _ _
  obtain ⟨s, clock, r, rfl⟩ := Player.create_eq created
  have visible := (congrArg Watched.value shown).trans visible
  have pending := awake.dirty visible changed
  rcases asked with idle | scheduled
  · rw [Player.control, idle] at pending
    exact absurd pending Bool.false_ne_true
  · refine ⟨⟨closed, visible, pending, ?_, ?_⟩, ?_, ?_, ?_⟩
    · rw [scheduled]
      rfl
    · rw [scheduled]
      rfl
    · exact (congrArg Clock.state same).trans fresh.playing
    · rw [scheduled]
      rfl
    · rw [Nat.zero_sub, Nat.cast_zero, zero_mul]
      exact same.trans fresh.pass_zero.symm

/-- A player that plays from its creation on and is refreshed, again and again: each frame comes an
interval after the one before, whatever the script does, and the clock is where it would be in one
tick. When it has paused by itself there is one frame more. -/
theorem refreshes_keep_time {surface : σ} {c : Config Rat}
    (created : Player.create surface c = .ok p) (autoplay : c.autoplay = true)
    (visible : c.visible = true) (source : String) (ahead : 0 < d.interval) :
    let run := d.refreshes (p.setSource source)
    ∃ clock, Clock.create c.loopStart c.loopEnd c.loopMode = .ok clock ∧
    (run 0).2.clock = clock.play ∧ ∀ n : Nat,
      (((run n).1.refresh (run n).2).1 = true → (run n).1.Delivers (run n).2
        (if (run n).2.scheduler.frames = 0 then 0 else d.interval)) ∧
      ((run n).2.clock.state = .playing →
        (run n).2.scheduler.frames = n ∧ ((run n).1.refresh (run n).2).1 = true ∧
          (run (n + 1)).2.clock = (clock.play.tick (n * d.interval) true).2) ∧
      ((run n).2.clock.state = .playing → (run (n + 1)).2.clock.state ≠ .playing →
        ((run (n + 1)).1.refresh (run (n + 1)).2).1 = true ∧
          ∀ m ≥ n + 2, (run m).2.scheduler.host.requested = false ∧
            ((run m).1.refresh (run m).2).1 = false) := by
  intro run
  obtain ⟨clock, bounds, same⟩ := Player.create_clock created
  rw [autoplay, if_pos rfl] at same
  have fresh := Clock.create_fresh bounds
  have start := setSource_rolls created visible (same ▸ fresh) d source
  rw [same] at start
  have phase (n : Nat) := (Phase.rolls start).refreshes fresh ahead n
  have interval (n : Nat) := d.refreshes_interval (p.setSource source) n
  have ahead (n : Nat) := ahead.trans_eq (interval n).symm
  refine ⟨clock, bounds, ?_, fun n => ⟨?_, ?_, ?_⟩⟩
  · exact start.clock.trans (by simp [fresh.pass_zero])
  · intro ran
    have delivers := (phase n).delivers (ahead n) ran
    rwa [due, interval] at delivers
  · intro playing
    have rolls := (phase n).rolls_of_playing playing
    refine ⟨rolls.frames, (rolls.toWaits.delivers (ahead n)).ran, ?_⟩
    rw [Clock.tick_snd, ← interval n]
    exact rolls.pass fresh (ahead n)
  · intro playing paused
    have rolls := (phase n).rolls_of_playing playing
    obtain ⟨waits, clean, -⟩ := rolls.refreshed fresh (ahead n)
    refine ⟨(waits.delivers (ahead (n + 1))).ran, fun m later => ?_⟩
    obtain ⟨-, -, -, -, silent⟩ := waits.refreshed (ahead (n + 1))
    have unasked := refreshes_unasked later (silent (not_or.mpr ⟨by simp [clean], paused⟩))
    exact ⟨unasked, (refresh_unasked unasked).1⟩

theorem refreshes_keep_time_ended :
    ∃ (c : Config Rat) (p : Player Rat Recording) (d : Display Rat),
      Player.create { resolution := ⟨512, 512⟩ } c = .ok p ∧ c.autoplay = true ∧
      c.visible = true ∧ 0 < d.interval ∧
      let run := d.refreshes (p.setSource "assert(false)")
      (run 2).2.clock.t = 5 / 2 ∧ (run 3).2.clock.t = 3 ∧ (run 3).2.clock.state = .paused ∧
      ((run 3).1.refresh (run 3).2).1 = true ∧
      ∀ m ≥ 4, ((run m).1.refresh (run m).2).1 = false := by
  let d : Display Rat := ⟨1500, 0⟩
  have ahead : 0 < d.interval := by decide +kernel
  obtain ⟨clock, made, first, keeps⟩ :=
    refreshes_keep_time Player.create_unlooped rfl rfl "assert(false)" ahead
  obtain rfl : (⟨.stopped, 1, .forward, 1, 3, .noLoop⟩ : Clock Rat) = clock := Except.ok.inj made
  refine ⟨_, _, d, Player.create_unlooped, rfl, rfl, ahead, ?_⟩
  intro run
  have ticked (n : Nat) (playing : (run n).2.clock.state = .playing) :
      (run (n + 1)).2.clock = (Player.unlooped.clock.tick (n * 1500) true).2 :=
    ((keeps n).2.1 playing).2.2
  have second := ticked 0 (congrArg Clock.state first)
  have third := ticked 1 (by rw [second]; decide +kernel)
  have playing : (run 2).2.clock.state = .playing := by
    rw [third]
    decide +kernel
  have last := ticked 2 playing
  have paused : (run 3).2.clock.state = .paused := by
    rw [last]
    decide +kernel
  obtain ⟨ran, silent⟩ := (keeps 2).2.2 playing fun plays => by
    rw [show (run 3).2.clock.state = .playing from plays] at paused
    cases paused
  refine ⟨?_, ?_, paused, ran, fun m later => (silent m later).2⟩
  · rw [third]
    decide +kernel
  · rw [last]
    decide +kernel

end Display

end TurtlePlayback.Session
