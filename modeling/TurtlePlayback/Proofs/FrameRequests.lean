import Mathlib.Tactic.ByContra
import TurtlePlayback.Proofs.PlayerControl
import TurtlePlayback.Proofs.PlayerRuns

/-!
No change is lost: a visible player with something to do has asked for a frame. An operation inside
a batch either leaves the watched cells alone or marks a signal, and it takes no request back; so
the batch asks for a frame when it closes, unless one is asked for already.
-/

namespace TurtlePlayback.Playback

theorem ChangeSet.isEmpty_insert (c : ChangeSet) (s : Signal) : (c.insert s).isEmpty = false := by
  have member : (c.insert s).bits.getLsbD s.index = true := by
    cases s <;> simp [insert, Signal.index]
  simp only [isEmpty, beq_eq_false_iff_ne]
  intro empty
  rw [empty] at member
  simp at member

theorem Scheduler.pending_schedule {τ : Type} (s : Scheduler τ) :
    s.schedule.2.pending = true := by
  simp only [schedule]
  split <;> split <;> simp_all

theorem Watched.set_unchanged {α : Type} [BEq α] {w : Watched α} {a : α}
    (same : (w.set a).1 = false) : (w.set a).2 = w := by
  simp only [set] at same ⊢
  split <;> simp_all

theorem Watched.set_value {α : Type} [BEq α] [LawfulBEq α] (w : Watched α) (a : α) :
    (w.set a).2.value = a := by
  simp only [set]
  split
  · next same => exact eq_of_beq same
  · rfl

theorem Scheduler.eq_of_beginFrame_none {τ : Type} [Time τ] {s t : Scheduler τ} {now : τ}
    (begun : s.beginFrame now = (none, t)) : t = s := by
  simp only [beginFrame] at begun
  split at begun
  · simp at begun
  · exact (Prod.mk.inj begun).2.symm

end TurtlePlayback.Playback

namespace TurtlePlayback.Session

open Artifact Canvas Playback

mutual

def Edit.isQuiet {τ : Type} : Edit τ → Bool
  | .refresh _ => false
  | .batch es => Edit.areQuiet es
  | _ => true

def Edit.areQuiet {τ : Type} : List (Edit τ) → Bool
  | [] => true
  | e :: es => e.isQuiet && Edit.areQuiet es

end

def Edit.isOuter {τ : Type} : Edit τ → Bool
  | .refresh _ => true
  | e => e.isQuiet

namespace Control

variable {τ : Type}

def Marked (c : Control τ) : Prop :=
  c.observers.pending.isEmpty = false

structure Follows (a b : Control τ) : Prop where
  depth : b.observers.depth = a.observers.depth
  before : b.before = a.before
  marked : a.Marked → b.Marked
  pending : a.scheduler.pending = true → b.scheduler.pending = true
  requests : b.scheduler.requests = a.scheduler.requests ∨ b.scheduler.pending = true
  cells : b.visible = a.visible ∧ b.dirty = a.dirty ∨ b.Marked

theorem Follows.refl (a : Control τ) : Follows a a :=
  ⟨rfl, rfl, id, id, .inl rfl, .inl ⟨rfl, rfl⟩⟩

theorem Follows.trans {a b c : Control τ} (h : Follows a b) (k : Follows b c) : Follows a c where
  depth := k.depth.trans h.depth
  before := k.before.trans h.before
  marked := k.marked ∘ h.marked
  pending := k.pending ∘ h.pending
  requests := by
    rcases k.requests with hk | hk
    · rcases h.requests with hh | hh
      · exact .inl (hk.trans hh)
      · exact .inr (k.pending hh)
    · exact .inr hk
  cells := by
    rcases k.cells with ⟨hv, hd⟩ | hk
    · rcases h.cells with ⟨hv', hd'⟩ | hh
      · exact .inl ⟨hv.trans hv', hd.trans hd'⟩
      · exact .inr (k.marked hh)
    · exact .inr hk

/-- Outside of batches: a visible player with a changed source waits for a frame, and so does one
that plays and has ever asked for one. -/
structure Awake (c : Control τ) : Prop where
  closed : c.observers.depth = 0
  dirty : c.visible.value = true → c.dirty.value = true → c.scheduler.pending = true
  playing : c.visible.value = true → c.clock.isPlaying = true → 0 < c.scheduler.requests →
    c.scheduler.pending = true

end Control

namespace Player

open Control

variable {τ σ : Type}

theorem write_follows {p q : Player τ σ} {changed : Bool} (s : Signal)
    (same : q.scheduler = p.scheduler ∧ q.observers = p.observers ∧ q.before = p.before)
    (cells : changed = false → q.visible = p.visible ∧ q.dirty = p.dirty) :
    Follows p.control (q.mark changed s).control := by
  obtain ⟨hs, ho, hb⟩ := same
  cases changed with
  | false =>
    refine ⟨?_, hb, ?_, ?_, .inl ?_, .inl (cells rfl)⟩
    · simp [control, mark, Observers.markIf, ho]
    · simp [Marked, control, mark, Observers.markIf, ho]
    · simp [control, mark, hs]
    · simp [control, mark, hs]
  | true =>
    have marked : (q.mark true s).control.Marked := ChangeSet.isEmpty_insert _ s
    refine ⟨?_, hb, fun _ => marked, ?_, .inl ?_, .inr marked⟩
    · simp [control, mark, Observers.markIf, Observers.mark, ho]
    · simp [control, mark, hs]
    · simp [control, mark, hs]

theorem setDirty_follows (p : Player τ σ) (b : Bool) :
    Follows p.control (p.setDirty b).control := by
  change Follows p.control
    (mark { p with dirty := (p.dirty.set b).2 } (p.dirty.set b).1 .scriptDirty).control
  exact write_follows .scriptDirty ⟨rfl, rfl, rfl⟩ fun same => ⟨rfl, Watched.set_unchanged same⟩

theorem schedule_follows (p : Player τ σ) : Follows p.control p.schedule.control :=
  ⟨rfl, rfl, id, fun _ => p.scheduler.pending_schedule, .inr p.scheduler.pending_schedule,
    .inl ⟨rfl, rfl⟩⟩

theorem setClock_follows (p : Player τ σ) (c : Clock τ) :
    Follows p.control (p.setClock c).control :=
  ⟨rfl, rfl, id, id, .inl rfl, .inl ⟨rfl, rfl⟩⟩

theorem applyViewport_follows [Surface σ] (p : Player τ σ) (v : Viewport) (r : Resolution) :
    Follows p.control (p.applyViewport v r).2.control := by
  simp only [applyViewport]
  split
  · split
    · exact write_follows .resolution ⟨rfl, rfl, rfl⟩ fun _ => ⟨rfl, rfl⟩
    · exact ⟨rfl, rfl, id, id, .inl rfl, .inl ⟨rfl, rfl⟩⟩
  · exact ⟨rfl, rfl, id, id, .inl rfl, .inl ⟨rfl, rfl⟩⟩

theorem resetEnvironment_follows [Surface σ] (p : Player τ σ) :
    Follows p.control p.resetEnvironment.control :=
  schedule_follows p.clearEnvironment.clearCanvas

variable [Time τ]

theorem tick_follows (p : Player τ σ) (elapsed : τ) :
    Follows p.control (p.tick elapsed).2.control := by
  simp only [tick]
  split
  · exact (setClock_follows p _).trans (schedule_follows _)
  · exact setClock_follows p _

theorem runFrame_follows [Surface σ] (p : Player τ σ) (elapsed : τ) :
    Follows p.control (p.runFrame elapsed).control := by
  by_cases visible : p.visible.value = true
  · rw [runFrame_control visible]
    exact (tick_follows p elapsed).trans (setDirty_follows _ false)
  · simp only [runFrame, visible]
    exact .refl _

theorem runFrame_worked [Surface σ] {p : Player τ σ} (visible : p.visible.value = true)
    (elapsed : τ) :
    (p.runFrame elapsed).control.visible = p.visible ∧
    (p.runFrame elapsed).control.dirty.value = false ∧
    ((p.runFrame elapsed).control.clock.isPlaying = true →
      (p.runFrame elapsed).control.scheduler.pending = true) := by
  rw [runFrame_control visible]
  refine ⟨?_, ?_, ?_⟩
  · simp only [tick]
    split <;> rfl
  · change ((p.tick elapsed).2.dirty.set false).2.value = false
    simp only [Watched.set]
    split <;> simp_all
  · change (p.tick elapsed).2.clock.isPlaying = true → (p.tick elapsed).2.scheduler.pending = true
    simp only [tick]
    split
    · exact fun _ => Scheduler.pending_schedule _
    · next still => exact fun plays => absurd plays still

omit [Time τ] in
theorem closeBatch_inner {p : Player τ σ} {n : Nat} (depth : p.observers.depth = n + 2) :
    p.closeBatch = { p with observers.depth := n + 1 } := by
  simp only [closeBatch, Observers.endBatch, depth]

omit [Time τ] in
theorem closeBatch_outer {p : Player τ σ} (depth : p.observers.depth = 1) :
    p.closeBatch.observers.depth = 0 ∧ p.closeBatch.visible = p.visible ∧
    p.closeBatch.dirty = p.dirty ∧ p.closeBatch.clock = p.clock ∧
    (p.closeBatch.scheduler.pending = true ∨
      ¬ p.control.Marked ∧ p.closeBatch.scheduler = p.scheduler) := by
  simp only [closeBatch, Observers.endBatch, depth]
  split
  · next empty =>
    have quiet : ¬ p.control.Marked := by simp [control, Marked, empty]
    exact ⟨rfl, rfl, rfl, rfl, .inr ⟨quiet, rfl⟩⟩
  · exact ⟨rfl, rfl, rfl, rfl, .inl p.scheduler.pending_schedule⟩

theorem markClock_follows (p : Player τ σ) : Follows p.control p.markClock.control := by
  have state :
      Follows p.control (p.mark (p.clock.snapshot.stateDiffers p.before) .clockState).control :=
    write_follows .clockState ⟨rfl, rfl, rfl⟩ fun _ => ⟨rfl, rfl⟩
  exact state.trans (write_follows .clockTime ⟨rfl, rfl, rfl⟩ fun _ => ⟨rfl, rfl⟩)

theorem markClock_marked {p : Player τ σ} (moved : p.clock.state ≠ p.before.state) :
    p.markClock.control.Marked := by
  have differs : p.clock.snapshot.stateDiffers p.before = true := by
    simpa [Snapshot.stateDiffers, Clock.snapshot] using moved
  have state : (p.mark (p.clock.snapshot.stateDiffers p.before) .clockState).control.Marked := by
    rw [differs]
    exact ChangeSet.isEmpty_insert _ _
  exact (write_follows .clockTime ⟨rfl, rfl, rfl⟩ fun _ => ⟨rfl, rfl⟩).marked state

theorem update_inner {p : Player τ σ} (f : Player τ σ → Player τ σ)
    (inside : 0 < p.observers.depth) : p.update f = (f p.openBatch).closeBatch := by
  simp [update, batch, Observers.inBatch, inside]

theorem update_outer {p : Player τ σ} (f : Player τ σ → Player τ σ)
    (outside : p.observers.depth = 0) : p.update f = (f p.openBatch).markClock.closeBatch := by
  simp [update, batch, Observers.inBatch, outside]

theorem update_follows {p : Player τ σ} {f : Player τ σ → Player τ σ}
    (inside : 0 < p.observers.depth)
    (body : Follows p.openBatch.control (f p.openBatch).control) :
    Follows p.control (p.update f).control := by
  obtain ⟨n, hn⟩ : ∃ n, p.observers.depth = n + 1 := ⟨p.observers.depth - 1, by omega⟩
  have depth : (f p.openBatch).observers.depth = n + 2 := body.depth.trans (congrArg (· + 1) hn)
  have before : (f p.openBatch).before = p.before := by
    rw [show (f p.openBatch).before = p.openBatch.before from body.before]
    simp [openBatch, Observers.inBatch, inside]
  rw [update_inner f inside, closeBatch_inner depth]
  exact ⟨hn.symm, before, body.marked, body.pending, body.requests, body.cells⟩

theorem update_awake {p : Player τ σ} {f : Player τ σ → Player τ σ} (awake : p.control.Awake)
    (body : Follows p.openBatch.control (f p.openBatch).control) :
    (p.update f).control.Awake := by
  have outside : p.observers.depth = 0 := awake.closed
  rw [update_outer f outside]
  generalize f p.openBatch = q at body ⊢
  have depth : q.markClock.observers.depth = 1 :=
    (markClock_follows q).depth.trans (body.depth.trans (congrArg (· + 1) outside))
  have before : q.before = p.clock.snapshot := by
    rw [show q.before = p.openBatch.before from body.before]
    simp [openBatch, Observers.inBatch, outside]
  obtain ⟨closed, visible, dirty, clock, asked | ⟨quiet, scheduler⟩⟩ :=
    closeBatch_outer depth
  · exact ⟨closed, fun _ _ => asked, fun _ _ _ => asked⟩
  -- Nothing is marked: what the invariant looks at is as it was before the batch.
  · have cells := body.cells.resolve_right fun h => quiet ((markClock_follows q).marked h)
    have state : q.clock.state = p.clock.state := by
      by_contra moved
      exact quiet (markClock_marked (by rwa [before]))
    have kept : q.scheduler.pending = true → q.markClock.closeBatch.scheduler.pending = true := by
      rw [scheduler]
      exact id
    have sameVisible : q.markClock.closeBatch.control.visible = p.control.visible :=
      visible.trans cells.1
    have sameDirty : q.markClock.closeBatch.control.dirty = p.control.dirty := dirty.trans cells.2
    have samePlaying : q.markClock.closeBatch.control.clock.isPlaying =
        p.control.clock.isPlaying := by
      change (q.markClock.closeBatch.clock.state == _) = (p.clock.state == _)
      rw [clock, show q.markClock.clock.state = p.clock.state from state]
    refine ⟨closed, ?_, ?_⟩
    · rw [sameVisible, sameDirty]
      exact fun seen changed => kept (body.pending (awake.dirty seen changed))
    · rw [sameVisible, samePlaying]
      intro seen plays requested
      rcases body.requests with same | asked
      · have asked : 0 < q.scheduler.requests := by
          rw [← show q.markClock.scheduler = q.scheduler from rfl, ← scheduler]
          exact requested
        rw [show q.scheduler.requests = p.scheduler.requests from same] at asked
        exact kept (body.pending (awake.playing seen plays asked))
      · exact kept asked

theorem frame_worked [Surface σ] {p : Player τ σ} (outside : p.observers.depth = 0)
    (elapsed : τ) :
    (p.frame elapsed).control.observers.depth = 0 ∧
    (p.frame elapsed).visible.value = p.visible.value ∧
    (p.visible.value = true → (p.frame elapsed).dirty.value = false ∧
      ((p.frame elapsed).clock.isPlaying = true →
        (p.frame elapsed).scheduler.pending = true)) := by
  have body := runFrame_follows p.openBatch elapsed
  have worked (visible : p.openBatch.visible.value = true) :=
    runFrame_worked visible elapsed
  have hidden : p.openBatch.visible.value ≠ true →
      p.openBatch.runFrame elapsed = p.openBatch := by
    intro hidden
    simp only [runFrame, hidden]
    rfl
  rw [frame, update_outer _ outside]
  generalize p.openBatch.runFrame elapsed = q at body worked hidden ⊢
  have depth : q.markClock.observers.depth = 1 :=
    (markClock_follows q).depth.trans (body.depth.trans (congrArg (· + 1) outside))
  obtain ⟨closed, visible, dirty, clock, scheduler⟩ := closeBatch_outer depth
  refine ⟨closed, ?_, ?_⟩
  · rw [visible]
    by_cases seen : p.visible.value = true
    · exact congrArg Watched.value (worked seen).1
    · rw [hidden seen]
      rfl
  · intro seen
    obtain ⟨-, clean, asks⟩ := worked seen
    refine ⟨by rw [dirty]; exact clean, ?_⟩
    rw [clock]
    intro plays
    rcases scheduler with asked | ⟨-, same⟩
    · exact asked
    · rw [same]
      exact asks plays

def Batched (p q : Player τ σ) : Prop :=
  q.control = p.control ∨ ∃ f : Player τ σ → Player τ σ,
    q = p.update f ∧ Follows p.openBatch.control (f p.openBatch).control

theorem Batched.update {p : Player τ σ} {f : Player τ σ → Player τ σ}
    (body : Follows p.openBatch.control (f p.openBatch).control) : Batched p (p.update f) :=
  .inr ⟨f, rfl, body⟩

theorem Batched.batch {α : Type} {p : Player τ σ} {f : Player τ σ → α × Player τ σ}
    (body : Follows p.openBatch.control (f p.openBatch).2.control) : Batched p (p.batch f).2 :=
  .inr ⟨fun q => (f q).2, rfl, body⟩

theorem Batched.follows {p q : Player τ σ} (batched : Batched p q)
    (inside : 0 < p.observers.depth) : Follows p.control q.control := by
  rcases batched with same | ⟨f, rfl, body⟩
  · exact same ▸ .refl _
  · exact update_follows inside body

theorem Batched.awake {p q : Player τ σ} (batched : Batched p q) (awake : p.control.Awake) :
    q.control.Awake := by
  rcases batched with same | ⟨f, rfl, body⟩
  · exact same ▸ awake
  · exact update_awake awake body

variable [Surface σ]

mutual

theorem edit_batched (p : Player τ σ) (e : Edit τ) (quiet : e.isQuiet = true) :
    Batched p (p.edit e).2 := by
  cases e with
  | setSource s =>
    simp only [edit, setSource]
    apply Batched.update
    exact setDirty_follows { p.openBatch with source := s } true
  | switchScript s =>
    simp only [edit, switchScript]
    apply Batched.update
    exact setDirty_follows { clearCanvas { p.openBatch with
      holdings := p.openBatch.holdings.clearActive.2.clearPending } with source := s } true
  | setVisible b =>
    simp only [edit, setVisible]
    apply Batched.update
    exact write_follows .visibility ⟨rfl, rfl, rfl⟩ fun same => ⟨Watched.set_unchanged same, rfl⟩
  | setViewport v =>
    simp only [edit, setViewport]
    split
    · exact .inl rfl
    · exact .inl rfl
    · apply Batched.batch
      exact applyViewport_follows p.openBatch v _
  | setSpeed n =>
    simp only [edit, setSpeed]
    split
    · exact .inl rfl
    · apply Batched.update
      exact write_follows .playbackSpeed ⟨rfl, rfl, rfl⟩ fun _ => ⟨rfl, rfl⟩
  | play =>
    simp only [edit, play]
    apply Batched.update
    exact setClock_follows p.openBatch _
  | pause =>
    simp only [edit, pause]
    apply Batched.update
    exact setClock_follows p.openBatch _
  | playPause =>
    simp only [edit, playPause]
    apply Batched.update
    exact setClock_follows p.openBatch _
  | stop =>
    simp only [edit, stop]
    apply Batched.update
    exact (setClock_follows p.openBatch _).trans (resetEnvironment_follows _)
  | restart =>
    simp only [edit, restart]
    apply Batched.update
    exact (setClock_follows p.openBatch _).trans (resetEnvironment_follows _)
  | load =>
    simp only [edit, load]
    apply Batched.batch
    split
    · exact resetEnvironment_follows p.openBatch.promote
    · exact .refl _
  | setBounds a b =>
    simp only [edit, setBounds]
    apply Batched.batch
    split
    · exact setClock_follows p.openBatch _
    · exact .refl _
  | setMode m =>
    simp only [edit, setMode]
    apply Batched.update
    exact setClock_follows p.openBatch _
  | teardown => exact .inl rfl
  | frame elapsed =>
    simp only [edit, frame]
    apply Batched.update
    exact runFrame_follows p.openBatch elapsed
  | refresh now => simp [Edit.isQuiet] at quiet
  | batch es =>
    rw [Edit.isQuiet] at quiet
    simp only [edit]
    apply Batched.batch
    exact editAll_follows p.openBatch (Nat.succ_pos _) es quiet

theorem editAll_follows (p : Player τ σ) (inside : 0 < p.observers.depth) (es : List (Edit τ))
    (quiet : Edit.areQuiet es = true) : Follows p.control (p.editAll es).2.control := by
  cases es with
  | nil => exact .refl _
  | cons e es =>
    rw [Edit.areQuiet, Bool.and_eq_true] at quiet
    have first := (edit_batched p e quiet.1).follows inside
    have depth : (p.edit e).2.observers.depth = p.observers.depth := first.depth
    exact first.trans (editAll_follows (p.edit e).2 (depth ▸ inside) es quiet.2)

end

theorem refresh_awake {p : Player τ σ} (awake : p.control.Awake) (now : τ) :
    (p.refresh now).2.control.Awake := by
  simp only [refresh]
  split
  · next s begun =>
    rw [Scheduler.eq_of_beginFrame_none begun]
    exact awake
  · next elapsed s begun =>
    obtain ⟨closed, visible, worked⟩ :=
      frame_worked (p := { p with scheduler := s }) awake.closed elapsed
    refine ⟨closed, ?_, ?_⟩
    · intro seen changed
      have clean := (worked (visible ▸ seen)).1
      exact absurd (changed.symm.trans clean) Bool.noConfusion
    · intro seen plays _
      exact (worked (visible ▸ seen)).2 plays

theorem edit_awake {p : Player τ σ} (awake : p.control.Awake) (e : Edit τ)
    (outer : e.isOuter = true) : (p.edit e).2.control.Awake := by
  cases e with
  | refresh now => exact refresh_awake awake now
  | _ => exact (edit_batched p _ outer).awake awake

theorem editAll_awake {p : Player τ σ} (awake : p.control.Awake) (es : List (Edit τ))
    (outer : ∀ e ∈ es, e.isOuter = true) : (p.editAll es).2.control.Awake := by
  induction es generalizing p with
  | nil => exact awake
  | cons e es ih =>
    rw [List.forall_mem_cons] at outer
    exact ih (edit_awake awake e outer.1) outer.2

theorem create_awake {surface : σ} {c : Config τ} {p : Player τ σ}
    (created : Player.create surface c = .ok p) : p.control.Awake := by
  obtain ⟨s, clock, r, rfl⟩ := create_eq created
  refine ⟨rfl, ?_, ?_⟩
  · simp [control]
  · simp [control]

theorem pending_of_work {surface : σ} {c : Config τ} {p : Player τ σ}
    (created : Player.create surface c = .ok p) (es : List (Edit τ))
    (outer : ∀ e ∈ es, e.isOuter = true) :
    let q := (p.editAll es).2
    (q.visible.value = true → q.dirty.value = true → q.scheduler.pending = true) ∧
    (q.visible.value = true → q.clock.state = .playing → 0 < q.scheduler.requests →
      q.scheduler.pending = true) := by
  have awake := editAll_awake (create_awake created) es outer
  refine ⟨awake.dirty, ?_⟩
  intro visible playing requested
  have plays : (p.editAll es).2.clock.isPlaying = true := by simp [Clock.isPlaying, playing]
  exact awake.playing visible plays requested

theorem pending_of_work_shown :
    ∃ (p : Player Float Recording) (es : List (Edit Float)),
      Player.create { resolution := ⟨512, 512⟩ } Config.default = .ok p ∧
      (∀ e ∈ es, e.isOuter = true) ∧
      (p.editAll es).2.visible.value = true ∧ (p.editAll es).2.dirty.value = true ∧
      (p.editAll es).2.clock.state = .playing ∧ 0 < (p.editAll es).2.scheduler.requests ∧
      (p.editAll es).2.scheduler.pending = true := by
  let p : Player Float Recording := opening { resolution := ⟨512, 512⟩ }
  let es : List (Edit Float) := [.batch [.pause, .play], .setVisible false,
    .setSource "forward(1)", .refresh 0.0, .setVisible true]
  have created : Player.create { resolution := ⟨512, 512⟩ } Config.default = .ok p :=
    create_opening rfl
  have outer : ∀ e ∈ es, e.isOuter = true := by simp [es, Edit.isOuter, Edit.isQuiet, Edit.areQuiet]
  have seen : (p.editAll es).2.visible.value = true := by decide +kernel
  have changed : (p.editAll es).2.dirty.value = true := by decide +kernel
  have playing : (p.editAll es).2.clock.state = .playing := by decide +kernel
  have requested : 0 < (p.editAll es).2.scheduler.requests := by decide +kernel
  have awake := pending_of_work created es outer
  exact ⟨p, es, created, outer, seen, changed, playing, requested, awake.1 seen changed⟩

end Player

end TurtlePlayback.Session
