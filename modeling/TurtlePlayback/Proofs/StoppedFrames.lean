import TurtlePlayback.Proofs.EnvironmentOwner
import TurtlePlayback.Proofs.FrameSuccessors
import TurtlePlayback.Proofs.IsolatedEnvironments
import TurtlePlayback.Proofs.UndisturbedPlayback

namespace TurtlePlayback

namespace Artifact

variable {n : Nat}

theorem Engine.after_eq_ask (g : Engine) (e : Event) :
    g.after e = g ∨ ∃ r, g.after e = (g.ask r).2 := by
  cases e with
  | compile source _ => exact .inr ⟨.compile source, rfl⟩
  | start image _ => exact .inr ⟨.start image, rfl⟩
  | step r => exact .inr ⟨.step r, rfl⟩
  | retain k m =>
    refine .inr ⟨.retain k m, ?_⟩
    simp only [after, ask]
    cases g.retain k m <;> rfl
  | release k m =>
    refine .inr ⟨.release k m, ?_⟩
    simp only [after, ask]
    cases g.release k m <;> rfl
  | clearCanvas => exact .inl rfl

theorem Engine.dead_after {g : Engine} (e : Event) (issued : n ≤ g.environments.issued)
    (dead : g.environments.refs n = 0) :
    n ≤ (g.after e).environments.issued ∧ (g.after e).environments.refs n = 0 := by
  rcases after_eq_ask g e with same | ⟨r, asked⟩
  · rw [same]
    exact ⟨issued, dead⟩
  · rw [asked]
    exact dead_ask r issued dead

namespace Holdings

structure Gone (h : Holdings) (n : Nat) : Prop where
  issued : n ≤ h.engine.environments.issued
  dead : h.engine.environments.refs n = 0

variable {h h' : Holdings} {calls : List Event}

theorem Extends.gone (extended : h.Extends calls h') (gone : h.Gone n) : h'.Gone n := by
  obtain ⟨issued, dead⟩ := gone
  have kept : n ≤ (calls.foldl Engine.after h.engine).environments.issued ∧
      (calls.foldl Engine.after h.engine).environments.refs n = 0 := by
    clear extended
    induction calls generalizing h with
    | nil => exact ⟨issued, dead⟩
    | cons e calls ih =>
      obtain ⟨issued, dead⟩ := Engine.dead_after e issued dead
      exact ih (h := h.note e (h.engine.after e)) issued dead
  rw [← extended.engine] at kept
  exact ⟨kept.1, kept.2⟩

theorem Silent.extended (silent : h.Silent h') : ∃ calls, h.Extends calls h' := by
  obtain ⟨calls, extended, -⟩ := silent
  exact ⟨calls, extended⟩

theorem Gone.get {h : Holdings} (gone : h.Gone n) :
    ∃ m, h.engine.environments.get n = .error m := by
  cases found : h.engine.environments.get n with
  | error m => exact ⟨m, rfl⟩
  | ok e =>
    have alive := Table.alive_of_get found
    rw [gone.dead] at alive
    cases alive

end Holdings

end Artifact

namespace Session

open Artifact Canvas Playback

theorem Move.extended {h h' : Holdings} (move : Move h h') : ∃ calls, h.Extends calls h' := by
  cases move with
  | clearCanvas => exact ⟨_, Holdings.note_extends h .clearCanvas⟩
  | clearEnvironment => exact (Holdings.Silent.clearEnvironment h).extended
  | clearActive => exact (Holdings.Silent.setActive h none).extended
  | clearPending => exact (Holdings.Silent.assignPending h none).extended
  | promote => exact (Holdings.Silent.promote h).extended
  | teardown => exact (Holdings.Silent.teardown h).extended
  | @compiled h' source image done =>
    have compiled := Holdings.Silent.compile h source
    rw [done] at compiled
    exact (compiled.trans (.assignPending h' (some image))).extended
  | @rejected h' source f failed =>
    have compiled := Holdings.Silent.compile h source
    rw [failed] at compiled
    exact (compiled.trans (.assignPending h' none)).extended
  | @started h' image s _ _ done =>
    obtain ⟨calls, extended⟩ := (Holdings.Silent.setEnvironment h' s.environment).extended
    obtain rfl : _ = h' := congrArg Prod.snd ((Holdings.start_eq h image).symm.trans done)
    exact ⟨_, (Holdings.note_extends h (.start image _)).trans extended⟩
  | @notStarted h' image f _ _ failed =>
    obtain rfl : _ = h' := congrArg Prod.snd ((Holdings.start_eq h image).symm.trans failed)
    exact ⟨_, Holdings.note_extends h (.start image _)⟩
  | @stepped e _ => exact ⟨_, Holdings.note_extends h (.step e)⟩

theorem Moves.extended {h h' : Holdings} (moves : Moves h h') : ∃ calls, h.Extends calls h' := by
  induction moves with
  | refl => exact ⟨[], .of_eq rfl rfl⟩
  | tail _ move ih =>
    obtain ⟨calls, extended⟩ := ih
    obtain ⟨later, extended'⟩ := move.extended
    exact ⟨calls ++ later, extended.trans extended'⟩

namespace Player

variable {τ σ : Type} {p q : Player τ σ} {r : Running} {e : Environment}

def environmentOf (p : Player τ σ) (r : Running) : Except Misuse Environment :=
  p.holdings.engine.environments.get r.number

def segmentsOf : List (Except Failure StepOutput) → Nat
  | [] => 0
  | .ok out :: later => out.lines.size + segmentsOf later
  | .error _ :: later => segmentsOf later

theorem segmentsOf_append (early late : List (Except Failure StepOutput)) :
    segmentsOf (early ++ late) = segmentsOf early + segmentsOf late := by
  induction early with
  | nil => exact (Nat.zero_add _).symm
  | cons output early ih =>
    cases output with
    | ok out => simp only [List.cons_append, segmentsOf, ih, Nat.add_assoc]
    | error f => simp only [List.cons_append, segmentsOf, ih]

/-- `q` comes after `p` by steps of the environment in the slot, all of which have succeeded. -/
structure Stepped (p q : Player τ σ) (r : Running) (e : Environment) (k : Nat) : Prop where
  running : q.holdings.slots.environment = some r
  environment : q.environmentOf r = .ok (e.after k)
  steps : q.stats.steps = p.stats.steps + k
  segments : q.stats.segments = p.stats.segments + segmentsOf (e.outputs k)

def stepOf (p : Player τ σ) (r : Running) : Player τ σ :=
  { p with holdings := (p.holdings.step r).2 }

theorem stepOf_environmentOf (found : p.environmentOf r = .ok e) :
    (p.stepOf r).environmentOf r = .ok e.step.2 :=
  (Engine.step_of_get found).2

theorem runSteps_succ (running : p.holdings.slots.environment = some r)
    (found : p.environmentOf r = .ok e) (k : Nat) :
    p.runSteps (k + 1) = match e.step.1 with
      | .ok out => ((p.stepOf r).drawStep out).runSteps k
      | .error f =>
        ({ p.stepOf r with
          stats.stepErrors := p.stats.stepErrors + 1 }.fail f).clearEnvironment := by
  have answer : (p.holdings.step r).1 = e.step.1 := (Engine.step_of_get found).1
  rw [← answer]
  simp only [runSteps, running, stepOf]
  rcases p.holdings.step r with ⟨_ | _, h⟩ <;> rfl

theorem runSteps_ran (running : p.holdings.slots.environment = some r)
    (found : p.environmentOf r = .ok e) {k : Nat}
    (ran : ∀ output ∈ e.outputs k, output.isOk = true) : Stepped p (p.runSteps k) r e k := by
  induction k generalizing p e with
  | zero => exact ⟨running, found, rfl, rfl⟩
  | succ k ih =>
    rw [Environment.outputs, List.forall_mem_cons] at ran
    rw [runSteps_succ running found]
    cases output : e.step.1 with
    | error f =>
      rw [output] at ran
      cases ran.1
    | ok out =>
      have first := stepOf_environmentOf found
      obtain ⟨running, environment, steps, segments⟩ :=
        ih (p := (p.stepOf r).drawStep out) running first ran.2
      refine ⟨running, environment, steps.trans ?_, segments.trans ?_⟩
      · exact Nat.succ_add _ _
      · rw [Environment.outputs, output]
        exact Nat.add_assoc _ _ _

theorem runSteps_failed (running : p.holdings.slots.environment = some r)
    (found : p.environmentOf r = .ok e) {k : Nat}
    (failed : ∃ output ∈ e.outputs k, output.isOk = false) :
    (p.runSteps k).holdings.slots.environment = none := by
  induction k generalizing p e with
  | zero =>
    obtain ⟨_, none_given, -⟩ := failed
    cases none_given
  | succ k ih =>
    rw [runSteps_succ running found]
    cases output : e.step.1 with
    | error f => simp [clearEnvironment, Holdings.clearEnvironment]
    | ok out =>
      obtain ⟨o, member, bad⟩ := failed
      rw [Environment.outputs, output, List.mem_cons] at member
      rcases member with rfl | later
      · cases bad
      · exact ih (p := (p.stepOf r).drawStep out) running (stepOf_environmentOf found)
          ⟨o, later, bad⟩

theorem Draws.same (h : Draws p q) :
    q.clock = p.clock ∧ q.visible = p.visible ∧ q.dirty = p.dirty ∧ q.speed = p.speed := by
  obtain ⟨_, _, _, _, _, _, rfl⟩ := h
  exact ⟨rfl, rfl, rfl, rfl⟩

/-- A visible player with nothing to compile and an environment, whose clock is stopped. -/
structure Halted (p : Player τ σ) (r : Running) : Prop where
  attached : p.holdings.Attached []
  visible : p.visible.value = true
  clean : p.dirty.value = false
  stopped : p.clock.state = .stopped
  running : p.holdings.slots.environment = some r

def countFrame (p : Player τ σ) : Player τ σ :=
  { p with stats.frames := p.stats.frames + 1 }

variable [Time τ] [Surface σ]

theorem Halted.runFrame_eq (halted : p.Halted r) (elapsed : τ) :
    p.runFrame elapsed = (p.countFrame.runSteps p.speed.value).flush := by
  obtain ⟨image, active, -⟩ := halted.attached.owned r halted.running
  simp [runFrame, countFrame, halted.visible, tick, Clock.tick, halted.stopped, setClock,
    Clock.isPlaying, halted.clean, promoteFirst, active, ensureEnvironment, halted.running]

omit [Time τ] in
theorem flush_eq (p : Player τ σ) :
    ∃ surface output draw, p.flush = { p with surface, output, draw } := by
  simp only [flush]
  split
  · exact ⟨_, _, _, rfl⟩
  · exact ⟨_, _, _, rfl⟩

theorem Halted.frame_eq (halted : p.Halted r) (elapsed : τ) :
    ∃ scheduler observers before surface output draw, p.frame elapsed =
      { p.openBatch.countFrame.runSteps p.openBatch.speed.value with
        scheduler, observers, before, surface, output, draw } := by
  have opened : p.openBatch.Halted r :=
    ⟨halted.attached, halted.visible, halted.clean, halted.stopped, halted.running⟩
  obtain ⟨scheduler, observers, before, closed⟩ :=
    update_brackets p fun p : Player τ σ => p.runFrame elapsed
  rw [opened.runFrame_eq] at closed
  obtain ⟨surface, output, draw, flushed⟩ :=
    flush_eq (p.openBatch.countFrame.runSteps p.openBatch.speed.value)
  refine ⟨scheduler, observers, before, surface, output, draw, ?_⟩
  rw [frame, closed, flushed]

theorem Halted.frame_same (halted : p.Halted r) (elapsed : τ) :
    (p.frame elapsed).clock = p.clock ∧ (p.frame elapsed).visible = p.visible ∧
      (p.frame elapsed).dirty = p.dirty ∧ (p.frame elapsed).speed = p.speed := by
  obtain ⟨_, _, _, _, _, _, framed⟩ := halted.frame_eq elapsed
  rw [framed]
  exact (runSteps_draws p.openBatch.countFrame p.speed.value).same

theorem frame_attached (attached : p.holdings.Attached []) (elapsed : τ) :
    (p.frame elapsed).holdings.Attached [] :=
  (frame_moves p elapsed).preserve Move.attached attached

theorem Halted.frame_ran (halted : p.Halted r) (found : p.environmentOf r = .ok e) (elapsed : τ)
    (ran : ∀ output ∈ e.outputs p.speed.value, output.isOk = true) :
    (p.frame elapsed).Halted r ∧ Stepped p (p.frame elapsed) r e p.speed.value := by
  obtain ⟨clock, visible, dirty, -⟩ := halted.frame_same elapsed
  obtain ⟨_, _, _, _, _, _, framed⟩ := halted.frame_eq elapsed
  have stepped : Stepped p (p.frame elapsed) r e p.speed.value := by
    obtain ⟨running, environment, steps, segments⟩ :=
      runSteps_ran (p := p.openBatch.countFrame) halted.running found ran
    rw [framed]
    exact ⟨running, environment, steps, segments⟩
  exact ⟨⟨frame_attached halted.attached elapsed, by rw [visible, halted.visible],
    by rw [dirty, halted.clean], by rw [clock, halted.stopped], stepped.running⟩, stepped⟩

theorem Halted.frame_failed (halted : p.Halted r) (found : p.environmentOf r = .ok e) (elapsed : τ)
    (failed : ∃ output ∈ e.outputs p.speed.value, output.isOk = false) :
    (p.frame elapsed).holdings.Gone r.number := by
  have attached := frame_attached halted.attached elapsed
  constructor
  · obtain ⟨image, -, started⟩ := halted.attached.owned r halted.running
    obtain ⟨calls, extended⟩ := (frame_moves p elapsed).extended
    apply attached.account.calls.started_le (e := .start image (some r)) _ rfl
    rw [extended.events]
    exact List.mem_append_left _ started
  · obtain ⟨_, _, _, _, _, _, framed⟩ := halted.frame_eq elapsed
    have emptied : (p.frame elapsed).holdings.slots.environment = none := by
      rw [framed]
      exact runSteps_failed (p := p.openBatch.countFrame) halted.running found failed
    have counts := attached.account.counts .environment r.number
    rw [List.append_nil] at counts
    exact counts.trans ((Slots.count_held_environment _ r).trans (by simp [emptied]))

theorem Halted.frames_clock (halted : p.Halted r) (elapsed : List τ) :
    (elapsed.foldl frame p).clock = p.clock := by
  have still : p.clock.state ≠ .playing := by
    rw [halted.stopped]
    decide
  clear halted
  induction elapsed generalizing p with
  | nil => rfl
  | cons ms later ih =>
    have same := frame_clock still ms
    rw [List.foldl_cons, ih (by rwa [same]), same]

theorem steps_cons {α : Type} (speed : Nat) (ms : α) (later : List α) :
    speed * (ms :: later).length = speed + speed * later.length := by
  rw [List.length_cons, Nat.mul_succ, Nat.add_comm]

theorem Halted.frames_ran (halted : p.Halted r) (found : p.environmentOf r = .ok e)
    {elapsed : List τ}
    (ran : ∀ output ∈ e.outputs (p.speed.value * elapsed.length), output.isOk = true) :
    Stepped p (elapsed.foldl frame p) r e (p.speed.value * elapsed.length) := by
  induction elapsed generalizing p e with
  | nil => exact ⟨halted.running, found, rfl, rfl⟩
  | cons ms later ih =>
    rw [steps_cons, Environment.outputs_add, List.forall_mem_append] at ran
    obtain ⟨halted', first⟩ := halted.frame_ran found ms ran.1
    have speed : (p.frame ms).speed = p.speed := (halted.frame_same ms).2.2.2
    have rest := ih halted' first.environment (by rw [speed]; exact ran.2)
    rw [speed] at rest
    rw [List.foldl_cons, steps_cons]
    refine ⟨rest.running, ?_, ?_, ?_⟩
    · rw [Environment.after_add]
      exact rest.environment
    · rw [rest.steps, first.steps, Nat.add_assoc]
    · rw [rest.segments, first.segments, Environment.outputs_add, segmentsOf_append,
        Nat.add_assoc]

theorem frames_gone {n : Nat} (gone : p.holdings.Gone n) (elapsed : List τ) :
    (elapsed.foldl frame p).holdings.Gone n := by
  induction elapsed generalizing p with
  | nil => exact gone
  | cons ms later ih =>
    obtain ⟨calls, extended⟩ := (frame_moves p ms).extended
    exact ih (extended.gone gone)

theorem Halted.frames_failed (halted : p.Halted r) (found : p.environmentOf r = .ok e)
    {elapsed : List τ}
    (failed : ∃ output ∈ e.outputs (p.speed.value * elapsed.length), output.isOk = false) :
    (elapsed.foldl frame p).holdings.Gone r.number := by
  induction elapsed generalizing p e with
  | nil =>
    obtain ⟨_, none_given, -⟩ := failed
    cases none_given
  | cons ms later ih =>
    by_cases now : ∃ output ∈ e.outputs p.speed.value, output.isOk = false
    · exact frames_gone (halted.frame_failed found ms now) later
    · have ran : ∀ output ∈ e.outputs p.speed.value, output.isOk = true := by
        intro output member
        by_contra bad
        exact now ⟨output, member, by simpa using bad⟩
      obtain ⟨halted', first⟩ := halted.frame_ran found ms ran
      have speed : (p.frame ms).speed = p.speed := (halted.frame_same ms).2.2.2
      apply ih halted' first.environment
      rw [speed]
      obtain ⟨output, member, bad⟩ := failed
      rw [steps_cons, Environment.outputs_add, List.mem_append] at member
      rcases member with early | late
      · exact absurd ⟨output, early, bad⟩ now
      · exact ⟨output, late, bad⟩

omit [Surface σ] in
theorem batch_speed {α : Type} (p : Player τ σ) (f : Player τ σ → α × Player τ σ) :
    (p.batch f).2.speed = (f p.openBatch).2.speed := by
  obtain ⟨_, _, _, closed⟩ := batch_brackets p f
  rw [closed]

omit [Surface σ] in
theorem update_speed (p : Player τ σ) (f : Player τ σ → Player τ σ) :
    (p.update f).speed = (f p.openBatch).speed :=
  batch_speed p fun p => ((), f p)

theorem frame_speed (p : Player τ σ) (elapsed : τ) : (p.frame elapsed).speed = p.speed := by
  rw [frame, update_speed]
  by_cases visible : p.openBatch.visible.value = true
  · rw [(runFrame_draws visible elapsed).same.2.2.2]
    simp only [tick]
    split <;> rfl
  · simp only [runFrame, visible]
    rfl

mutual

theorem edit_speed (p : Player τ σ) (e : Edit τ) (pos : 0 < p.speed.value) :
    0 < (p.edit e).2.speed.value := by
  cases e with
  | setSpeed n =>
    simp only [edit, setSpeed]
    split
    · exact pos
    · next some_steps =>
      rw [update_speed]
      simp only [Watched.set, mark]
      split
      · exact pos
      · exact Nat.pos_of_ne_zero some_steps
  | frame elapsed =>
    rw [edit, frame_speed]
    exact pos
  | refresh now =>
    simp only [edit, refresh]
    split
    · exact pos
    · rw [frame_speed]
      exact pos
  | batch es =>
    simp only [edit, batch_speed]
    exact editAll_speed p.openBatch es pos
  | setBounds a b =>
    simp only [edit, setBounds, batch_speed]
    split <;> exact pos
  | setViewport v =>
    simp only [edit, setViewport]
    split
    · exact pos
    · exact pos
    · simp only [batch_speed, applyViewport]
      split
      · split <;> exact pos
      · exact pos
  | load =>
    simp only [edit, load, batch_speed]
    split <;> exact pos
  | teardown => exact pos
  | _ =>
    simp only [edit, setSource, switchScript, setVisible, play, pause, playPause, stop, restart,
      setMode, update_speed]
    exact pos

theorem editAll_speed (p : Player τ σ) (es : List (Edit τ)) (pos : 0 < p.speed.value) :
    0 < (p.editAll es).2.speed.value := by
  cases es with
  | nil => exact pos
  | cons e es => exact editAll_speed _ es (edit_speed p e pos)

end

theorem create_speed {surface : σ} {c : Config τ} (created : Player.create surface c = .ok p) :
    0 < p.speed.value := by
  obtain ⟨s, clock, resolution, rfl⟩ := create_eq created
  apply Nat.pos_of_ne_zero
  intro zero
  simp only [create, bind_ok, mapError_ok] at created
  obtain ⟨_, valid, -⟩ := created
  simp only [Config.validate, show c.speed = 0 from zero, ↓reduceIte] at valid
  split at valid
  · cases valid
  · split at valid
    · cases valid
    · split at valid <;> cases valid

theorem Reached.speed_pos {surface : σ} {c : Config τ} (reached : Reached surface c p) :
    0 < p.speed.value := by
  induction reached with
  | created made => exact create_speed made
  | edited e _ pos => exact edit_speed _ e pos
  | subscribed mask _ pos => exact pos
  | unsubscribed id _ pos => exact pos

theorem Reached.attached {surface : σ} {c : Config τ} (reached : Reached surface c p) :
    p.holdings.Attached [] := by
  induction reached with
  | created made =>
    obtain ⟨s, clock, resolution, rfl⟩ := create_eq made
    exact .empty
  | edited e _ attached => exact (edit_moves _ e).preserve Move.attached attached
  | subscribed mask _ attached => exact attached
  | unsubscribed id _ attached => exact attached

/-- However many frames there are while the clock is stopped: the time stays, and the environment is
stepped in all of them, until a step fails and it is given back. Nothing is as it was but after no
frame at all. -/
theorem stopped_frames {surface : σ} {c : Config τ} (reached : Reached surface c p)
    (visible : p.visible.value = true) (clean : p.dirty.value = false)
    (stopped : p.clock.state = .stopped) (running : p.holdings.slots.environment = some r)
    (elapsed : List τ) :
    ∃ e, p.environmentOf r = .ok e ∧ (elapsed.foldl frame p).clock = p.clock ∧
      ((∀ output ∈ e.outputs (p.speed.value * elapsed.length), output.isOk = true) →
        Stepped p (elapsed.foldl frame p) r e (p.speed.value * elapsed.length) ∧
        (e.after (p.speed.value * elapsed.length)).turtle.step =
          e.turtle.step + p.speed.value * elapsed.length) ∧
      ((∃ output ∈ e.outputs (p.speed.value * elapsed.length), output.isOk = false) →
        (elapsed.foldl frame p).holdings.Gone r.number) ∧
      ((elapsed.foldl frame p).environmentOf r = .ok e ↔ elapsed = []) := by
  have halted : p.Halted r := ⟨reached.attached, visible, clean, stopped, running⟩
  have alive : 0 < p.holdings.engine.environments.refs r.number :=
    halted.attached.account.alive (k := .environment)
      (by simp [Slots.held, running, Handle.reference])
  obtain ⟨e, found⟩ := Table.get_of_alive alive
  refine ⟨e, found, halted.frames_clock elapsed, fun ran => ⟨halted.frames_ran found ran,
    Environment.after_step ran⟩, halted.frames_failed found, ?_, ?_⟩
  · intro same
    by_contra some_frame
    have pos : 0 < p.speed.value * elapsed.length :=
      Nat.mul_pos reached.speed_pos (List.length_pos_iff.mpr some_frame)
    by_cases failed : ∃ output ∈ e.outputs (p.speed.value * elapsed.length), output.isOk = false
    · obtain ⟨m, gone⟩ := (halted.frames_failed found failed).get
      rw [environmentOf, gone] at same
      cases same
    · have ran : ∀ output ∈ e.outputs (p.speed.value * elapsed.length), output.isOk = true := by
        simpa using failed
      have count := Environment.after_step ran
      rw [(halted.frames_ran found ran).environment, Except.ok.injEq] at same
      rw [same] at count
      omega
  · rintro rfl
    exact found

def waiting : Player Float Recording :=
  let start : Player Float Recording := starting { resolution := ⟨512, 512⟩ } Clock.default
  ((start.edit (.setSource "goto(step, 1)\nassert(step < 2)")).2.edit (.refresh 0.0)).2

theorem waiting_reached : Reached { resolution := ⟨512, 512⟩ }
    { Config.default with autoplay := false } waiting :=
  .edited _ (.edited _ (.created (by rfl)))

theorem waiting_halted : waiting.visible.value = true ∧ waiting.dirty.value = false ∧
    waiting.clock.state = .stopped ∧ waiting.holdings.slots.environment = some ⟨1⟩ := by
  decide +kernel

theorem stopped_frames_failing :
    ∃ e, waiting.environmentOf ⟨1⟩ = .ok e ∧ (e.outputs 2).map (·.isOk) = [true, false] ∧
      ([0.0, 16.0].foldl frame waiting).clock = waiting.clock ∧
      ([0.0, 16.0].foldl frame waiting).holdings.Gone 1 ∧
      ([0.0, 16.0].foldl frame waiting).environmentOf ⟨1⟩ ≠ .ok e := by
  obtain ⟨visible, clean, stopped, running⟩ := waiting_halted
  obtain ⟨e, found, clock, -, failed, same⟩ :=
    stopped_frames waiting_reached visible clean stopped running [0.0, 16.0]
  have results : (waiting.environmentOf ⟨1⟩).toOption.map (fun e => (e.outputs 2).map (·.isOk)) =
      some [true, false] := by decide +kernel
  have steps : waiting.speed.value * 2 = 2 := by decide +kernel
  have ended : (e.outputs 2).map (·.isOk) = [true, false] := by
    rw [found] at results
    exact Option.some.inj results
  have bad : false ∈ (e.outputs 2).map (·.isOk) := by
    rw [ended]
    decide
  obtain ⟨output, member, bad⟩ := List.mem_map.mp bad
  refine ⟨e, found, ended, clock, failed ⟨output, ?_, bad⟩, fun kept => ?_⟩
  · rw [List.length_cons, List.length_singleton, steps]
    exact member
  · cases same.mp kept

/-- One more frame: the turtle has gone on and another line is drawn. -/
theorem stopped_frame_draws :
    Reached { resolution := ⟨512, 512⟩ } { Config.default with autoplay := false } waiting ∧
      waiting.visible.value = true ∧ waiting.dirty.value = false ∧
      waiting.clock.state = .stopped ∧ waiting.holdings.slots.environment = some ⟨1⟩ ∧
      (waiting.environmentOf ⟨1⟩).toOption.map (·.turtle.step) = some 1 ∧
      ((waiting.frame 0.0).environmentOf ⟨1⟩).toOption.map (·.turtle.step) = some 2 ∧
      waiting.stats.segments = 1 ∧ (waiting.frame 0.0).stats.segments = 2 := by
  obtain ⟨visible, clean, stopped, running⟩ := waiting_halted
  refine ⟨waiting_reached, visible, clean, stopped, running, ?_⟩
  decide +kernel

end Player

end Session

end TurtlePlayback
