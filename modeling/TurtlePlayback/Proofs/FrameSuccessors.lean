import TurtlePlayback.Proofs.ChangeNotices

namespace TurtlePlayback.Playback

theorem Clock.tick_still {τ : Type} [Time τ] {c : Clock τ} (still : c.state ≠ .playing)
    (elapsed : τ) (whenStopped : Bool) : (c.tick elapsed whenStopped).2 = c := by
  cases state : c.state with
  | playing => exact absurd state still
  | paused => simp [tick, state]
  | stopped => simp [tick, state]

theorem Scheduler.beginFrame_waiting {τ : Type} [Time τ] {s : Scheduler τ}
    (waiting : s.pending = true) (now : τ) :
    ∃ elapsed t, s.beginFrame now = (some elapsed, t) ∧ t.pending = false := by
  simp only [beginFrame, waiting, ↓reduceIte]
  exact ⟨_, _, rfl, rfl⟩

end TurtlePlayback.Playback

namespace TurtlePlayback.Session.Player

open Artifact Canvas Playback Control

variable {τ σ : Type}

structure Closed (p : Player τ σ) : Prop where
  depth : p.observers.depth = 0
  unmarked : p.observers.pending = .empty

theorem Closed.not_marked {p : Player τ σ} (closed : p.Closed) : ¬ p.control.Marked := by
  simp [Marked, control, closed.unmarked, ChangeSet.isEmpty, ChangeSet.empty]

/-- From `p` to `q` batches are closed as they were opened, and the outermost one leaves no mark. -/
def Settles (p q : Player τ σ) : Prop :=
  q.observers.depth = p.observers.depth ∧ (p.Closed → q.Closed)

theorem Settles.of_eq {p q : Player τ σ} (same : q.observers = p.observers) : Settles p q :=
  ⟨congrArg Observers.depth same,
    fun closed => ⟨same ▸ closed.depth, same ▸ closed.unmarked⟩⟩

section

variable [Time τ]

theorem update_settles {p : Player τ σ} {f : Player τ σ → Player τ σ}
    (body : (f p.openBatch).observers.depth = p.observers.depth + 1) :
    Settles p (p.update f) := by
  by_cases outside : p.observers.depth = 0
  · rw [update_outer f outside]
    generalize f p.openBatch = q at body
    have depth : q.markClock.observers.depth = 1 :=
      (markClock_follows q).depth.trans (body.trans (congrArg (· + 1) outside))
    have told := congrArg (fun o => (o.depth, o.pending)) (closeBatch_told depth).1
    obtain ⟨closed, unmarked⟩ := Prod.mk.inj told
    exact ⟨closed.trans outside.symm, fun _ => ⟨closed, unmarked⟩⟩
  · obtain ⟨n, hn⟩ : ∃ n, p.observers.depth = n + 1 := ⟨p.observers.depth - 1, by omega⟩
    rw [update_inner f (by omega), closeBatch_inner (n := n) (by omega)]
    exact ⟨hn.symm, fun closed => absurd closed.depth outside⟩

theorem Batched.settles {p q : Player τ σ} (batched : Batched p q) : Settles p q := by
  rcases batched with same | ⟨f, rfl, body⟩
  · exact .of_eq (congrArg Control.observers same)
  · exact update_settles body.depth

variable [Surface σ]

theorem refresh_settles (p : Player τ σ) (now : τ) : Settles p (p.refresh now).2 := by
  simp only [refresh]
  split
  · exact .of_eq rfl
  · next elapsed s _ =>
    let q : Player τ σ := { p with scheduler := s }
    have framed : Settles q (q.frame elapsed) :=
      update_settles (runFrame_follows q.openBatch elapsed).depth
    refine ⟨framed.1, fun closed => ?_⟩
    have after : (q.frame elapsed).Closed := framed.2 ⟨closed.depth, closed.unmarked⟩
    exact ⟨after.depth, after.unmarked⟩

mutual

theorem edit_settles (p : Player τ σ) (e : Edit τ) : Settles p (p.edit e).2 := by
  cases e with
  | refresh now => exact refresh_settles p now
  | batch es =>
    exact update_settles (f := fun q => (q.editAll es).2) (editAll_depth p.openBatch es)
  | _ => exact (edit_batched p _ rfl).settles

theorem editAll_depth (p : Player τ σ) (es : List (Edit τ)) :
    (p.editAll es).2.observers.depth = p.observers.depth := by
  cases es with
  | nil => rfl
  | cons e es => exact (editAll_depth (p.edit e).2 es).trans (edit_settles p e).1

end

theorem Reached.closed {surface : σ} {c : Config τ} {p : Player τ σ}
    (reached : Reached surface c p) : p.Closed := by
  induction reached with
  | created made =>
    obtain ⟨s, clock, r, rfl⟩ := create_eq made
    exact ⟨rfl, rfl⟩
  | edited e _ closed => exact (edit_settles _ e).2 closed
  | subscribed mask _ closed => exact ⟨closed.depth, closed.unmarked⟩
  | unsubscribed id _ closed => exact ⟨closed.depth, closed.unmarked⟩

end

theorem mark_marked {p : Player τ σ} {happened : Bool} {s : Signal} :
    (p.mark happened s).control.Marked ↔ happened = true ∨ p.control.Marked := by
  cases happened with
  | false => simp [mark, Observers.markIf]
  | true =>
    have marked : (p.mark true s).control.Marked := ChangeSet.isEmpty_insert _ s
    simp [marked]

theorem closeBatch_pending {p : Player τ σ} (depth : p.observers.depth = 1) :
    p.closeBatch.scheduler.pending = true ↔ p.scheduler.pending = true ∨ p.control.Marked := by
  simp only [closeBatch, Observers.endBatch, depth, Marked, control]
  split
  · next nothing => simp [nothing]
  · next something =>
    have asked : p.schedule.scheduler.pending = true := p.scheduler.pending_schedule
    simp [asked, something]

variable [Time τ]

theorem markClock_marked_iff {p : Player τ σ} :
    p.markClock.control.Marked ↔ p.clock.state ≠ p.before.state ∨
      (p.clock.t != p.before.t) = true ∨ p.control.Marked := by
  simp only [markClock, mark_marked]
  simp only [Snapshot.stateDiffers, Snapshot.timeDiffers, Clock.snapshot, bne_iff_ne]
  exact or_left_comm

section

variable [Surface σ] {p : Player τ σ} (visible : p.visible.value = true) (elapsed : τ)

include visible

theorem runFrame_clock : (p.runFrame elapsed).clock = (p.clock.tick elapsed true).2 := by
  refine (congrArg Control.clock (runFrame_control visible elapsed)).trans ?_
  change (p.tick elapsed).2.clock = _
  simp only [tick]
  split <;> rfl

theorem runFrame_pending (idle : p.scheduler.pending = false) :
    (p.runFrame elapsed).scheduler.pending = true ↔
      (p.clock.tick elapsed true).2.state = .playing := by
  have scheduler : (p.runFrame elapsed).scheduler = (p.tick elapsed).2.scheduler :=
    congrArg Control.scheduler (runFrame_control visible elapsed)
  rw [scheduler]
  simp only [tick]
  split
  · next plays =>
    have asked : (p.setClock (p.clock.tick elapsed true).2).schedule.scheduler.pending = true :=
      Scheduler.pending_schedule _
    simpa [asked, Clock.isPlaying] using plays
  · next rests =>
    have kept : (p.setClock (p.clock.tick elapsed true).2).scheduler.pending = false := idle
    simpa [kept, Clock.isPlaying] using rests

theorem runFrame_marked :
    (p.runFrame elapsed).control.Marked ↔ p.dirty.value = true ∨ p.control.Marked := by
  have ticked : (p.tick elapsed).2.observers = p.observers ∧ (p.tick elapsed).2.dirty = p.dirty := by
    simp only [tick]
    split <;> exact ⟨rfl, rfl⟩
  have written : ((p.dirty.set false).1 = true) ↔ p.dirty.value = true := by
    cases changed : p.dirty.value <;> simp [Watched.set, changed]
  rw [runFrame_control visible, ← written, ← ticked.2]
  refine mark_marked.trans (or_congr_right ?_)
  simp only [Marked, control, ticked.1]

end

variable [Surface σ]

theorem frame_pending {p : Player τ σ} (closed : p.Closed)
    (number : (p.clock.t == p.clock.t) = true) (idle : p.scheduler.pending = false) (elapsed : τ) :
    (p.frame elapsed).scheduler.pending = true ↔
      p.visible.value = true ∧ (p.dirty.value = true ∨ p.clock.state = .playing) := by
  let q := p.openBatch.runFrame elapsed
  have unmarked : ¬ p.openBatch.control.Marked := closed.not_marked
  have same : ¬ (p.clock.t != p.clock.t) = true := by simp [bne, number]
  have body := runFrame_follows p.openBatch elapsed
  have before : q.before = p.clock.snapshot := by
    refine body.before.trans ?_
    simp [control, openBatch, Observers.inBatch, closed.depth]
  have depth : q.markClock.observers.depth = 1 :=
    (markClock_follows q).depth.trans (body.depth.trans (congrArg (· + 1) closed.depth))
  have asked : (p.frame elapsed).scheduler.pending = true ↔ q.scheduler.pending = true ∨
      q.clock.state ≠ p.clock.state ∨ (q.clock.t != p.clock.t) = true ∨ q.control.Marked := by
    rw [frame, update_outer _ closed.depth, closeBatch_pending depth, markClock_marked_iff, before]
    rfl
  rw [asked]
  by_cases visible : p.visible.value = true
  · have clock : q.clock = (p.clock.tick elapsed true).2 :=
      runFrame_clock (p := p.openBatch) visible elapsed
    have pending := runFrame_pending (p := p.openBatch) visible elapsed idle
    have marked : q.control.Marked ↔ p.dirty.value = true :=
      (runFrame_marked (p := p.openBatch) visible elapsed).trans (or_iff_left unmarked)
    by_cases playing : p.clock.state = .playing
    · -- The clock plays on, and asks itself, or it has paused, which is a change.
      have seen : q.scheduler.pending = true ∨ q.clock.state ≠ p.clock.state := by
        rw [pending, clock, playing]
        exact em _
      simp only [visible, playing, or_true, and_self, iff_true]
      rw [playing] at seen
      exact seen.elim .inl fun paused => .inr (.inl paused)
    · have still := Clock.tick_still playing elapsed true
      have quiet : ¬ q.scheduler.pending = true := by
        rw [pending]
        exact still.symm ▸ playing
      rw [clock, still]
      simp [visible, quiet, same, marked, playing]
  · have hidden : q = p.openBatch := by
      simp only [q, runFrame, show ¬ p.openBatch.visible.value = true from visible]
      rfl
    have kept : p.openBatch.scheduler.pending = false := idle
    have clock : p.openBatch.clock = p.clock := rfl
    rw [hidden, clock]
    simp [visible, unmarked, kept, same]

theorem refresh_pending {p : Player τ σ} (closed : p.Closed)
    (number : (p.clock.t == p.clock.t) = true) (waiting : p.scheduler.pending = true) (now : τ) :
    (p.refresh now).1 = true ∧ ((p.refresh now).2.scheduler.pending = true ↔
      p.visible.value = true ∧ (p.dirty.value = true ∨ p.clock.state = .playing)) := by
  obtain ⟨elapsed, s, begun, idle⟩ := Scheduler.beginFrame_waiting waiting now
  simp only [refresh, begun]
  refine ⟨trivial, ?_⟩
  exact frame_pending (p := { p with scheduler := s }) ⟨closed.depth, closed.unmarked⟩ number idle
    elapsed

theorem frame_clock {p : Player τ σ} (still : p.clock.state ≠ .playing) (elapsed : τ) :
    (p.frame elapsed).clock = p.clock := by
  have ran : (p.frame elapsed).clock = (p.openBatch.runFrame elapsed).clock := by
    obtain ⟨_, _, _, closed⟩ := update_brackets p (·.runFrame elapsed)
    rw [frame, closed]
  rw [ran]
  by_cases visible : p.visible.value = true
  · exact (runFrame_clock (p := p.openBatch) visible elapsed).trans (Clock.tick_still still _ _)
  · simp only [runFrame, show ¬ p.openBatch.visible.value = true from visible]
    rfl

structure Rests (p : Player τ σ) : Prop extends p.Closed where
  number : (p.clock.t == p.clock.t) = true
  still : p.clock.state ≠ .playing

/-- The frames that a player whose clock rests still runs when it is only refreshed. -/
def framesLeft (p : Player τ σ) : Nat :=
  if p.scheduler.pending then if p.visible.value && p.dirty.value then 2 else 1 else 0

theorem refresh_rests {p : Player τ σ} (rests : p.Rests) (now : τ) :
    (p.refresh now).2.Rests ∧ (p.refresh now).1 = p.scheduler.pending ∧
      (p.refresh now).2.framesLeft = p.framesLeft - 1 := by
  have closed := (refresh_settles p now).2 rests.toClosed
  by_cases waiting : p.scheduler.pending = true
  · obtain ⟨ran, asks⟩ := refresh_pending rests.toClosed rests.number waiting now
    obtain ⟨elapsed, s, begun, -⟩ := Scheduler.beginFrame_waiting waiting now
    let q : Player τ σ := { p with scheduler := s }
    have clock : (p.refresh now).2.clock = p.clock := by
      simp only [refresh, begun]
      exact frame_clock (p := q) rests.still elapsed
    obtain ⟨-, visible, worked⟩ := frame_worked (p := q) rests.depth elapsed
    have seen : (p.refresh now).2.visible.value = p.visible.value := by
      simp only [refresh, begun]
      exact visible
    have clean : p.visible.value = true → (p.refresh now).2.dirty.value = false := by
      intro visible
      simp only [refresh, begun]
      exact (worked visible).1
    refine ⟨⟨closed, clock ▸ rests.number, clock ▸ rests.still⟩, ran.trans waiting.symm, ?_⟩
    have next : (p.refresh now).2.scheduler.pending = (p.visible.value && p.dirty.value) := by
      rw [Bool.eq_iff_iff, asks, Bool.and_eq_true]
      simp [rests.still]
    simp only [framesLeft, next, waiting, seen, ↓reduceIte]
    cases shown : p.visible.value with
    | false => simp
    | true =>
      rw [clean shown]
      cases p.dirty.value <;> rfl
  · have idle : p.scheduler.beginFrame now = (none, p.scheduler) := by
      simp [Scheduler.beginFrame, waiting]
    simp only [refresh, idle]
    exact ⟨rests, by simpa using waiting, by simp [framesLeft, waiting]⟩

theorem refreshes_rests {p : Player τ σ} (rests : p.Rests) (nows : List τ) :
    (p.editAll (nows.map .refresh)).1 =
      List.replicate (min p.framesLeft nows.length) (.answer true) ++
        List.replicate (nows.length - p.framesLeft) (.answer false) := by
  induction nows generalizing p with
  | nil => simp [editAll]
  | cons now nows ih =>
    obtain ⟨later, ran, fewer⟩ := refresh_rests rests now
    have first : (p.editAll ((now :: nows).map .refresh)).1 =
        .answer p.scheduler.pending :: ((p.refresh now).2.editAll (nows.map .refresh)).1 := by
      simp only [List.map_cons, editAll, edit, ran]
    rw [first, ih later, fewer, List.length_cons]
    cases waiting : p.scheduler.pending with
    | true =>
      obtain ⟨k, left⟩ : ∃ k, p.framesLeft = k + 1 := by
        simp only [framesLeft, waiting, ↓reduceIte]
        split <;> exact ⟨_, rfl⟩
      have least : min (k + 1) (nows.length + 1) = min k nows.length + 1 := by omega
      rw [left, least, List.replicate_succ]
      simp
    | false =>
      have none_left : p.framesLeft = 0 := by simp [framesLeft, waiting]
      simp [none_left, List.replicate_succ]

/-- After a refresh a frame is waited for again exactly if there was work. So a player whose clock
rests runs two frames at most when it is only refreshed, and then no more. -/
theorem successor_of_work {surface : σ} {c : Config τ} {p : Player τ σ}
    (reached : Reached surface c p) (number : (p.clock.t == p.clock.t) = true) :
    (p.scheduler.pending = true → ∀ now, (p.refresh now).1 = true ∧
      ((p.refresh now).2.scheduler.pending = true ↔
        p.visible.value = true ∧ (p.dirty.value = true ∨ p.clock.state = .playing))) ∧
    (p.clock.state ≠ .playing → ∃ frames ≤ 2, ∀ nows : List τ,
      (p.editAll (nows.map .refresh)).1 =
        List.replicate (min frames nows.length) (.answer true) ++
          List.replicate (nows.length - frames) (.answer false)) := by
  refine ⟨refresh_pending reached.closed number, fun still => ⟨p.framesLeft, ?_, ?_⟩⟩
  · simp only [framesLeft]
    split
    · split <;> omega
    · omega
  · exact refreshes_rests ⟨reached.closed, number, still⟩

theorem successor_of_work_failing :
    ∃ p : Player Float Recording, Reached { resolution := ⟨512, 512⟩ } Config.default p ∧
      (p.clock.t == p.clock.t) = true ∧ p.clock.state ≠ .playing ∧ p.scheduler.pending = true ∧
      (p.refresh 0.0).2.stats.stepErrors = 1 ∧ (p.refresh 0.0).1 = true ∧
      (p.refresh 0.0).2.scheduler.pending = true ∧
      ∃ frames ≤ 2, ∀ nows : List Float, (p.editAll (nows.map .refresh)).1 =
        List.replicate (min frames nows.length) (.answer true) ++
          List.replicate (nows.length - frames) (.answer false) := by
  let start : Player Float Recording := opening { resolution := ⟨512, 512⟩ }
  let p := ((start.edit (.setSource "assert(false)")).2.edit .stop).2
  have created : Player.create { resolution := ⟨512, 512⟩ } Config.default = .ok start :=
    create_opening rfl
  have reached : Reached { resolution := ⟨512, 512⟩ } Config.default p :=
    .edited _ (.edited _ (.created created))
  have number : (p.clock.t == p.clock.t) = true := by decide +kernel
  have still : p.clock.state ≠ .playing := by decide +kernel
  have waiting : p.scheduler.pending = true := by decide +kernel
  have failed : (p.refresh 0.0).2.stats.stepErrors = 1 := by decide +kernel
  have changed : p.visible.value = true ∧ (p.dirty.value = true ∨ p.clock.state = .playing) := by
    decide +kernel
  obtain ⟨asks, few⟩ := successor_of_work reached number
  obtain ⟨ran, again⟩ := asks waiting 0.0
  exact ⟨p, reached, number, still, waiting, failed, ran, again.mpr changed, few still⟩

end TurtlePlayback.Session.Player
