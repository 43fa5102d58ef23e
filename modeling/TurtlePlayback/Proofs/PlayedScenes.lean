import TurtlePlayback.Proofs.RecordedDrawings
import TurtlePlayback.Proofs.StoppedFrames

/-!
Scenes. What frames draw is decided by little: the clock, the pace, the program and its environment.
No number of a handle is among it, nothing that waits to be played and no count of what has gone
before; a player goes from scene to scene without a look at the rest of what it holds.
-/

namespace TurtlePlayback

open Canvas

def StepOutput.drawing (out : StepOutput) : List DrawCmd :=
  out.background.toList.map .fill ++ if out.lines.isEmpty then [] else [.lines out.lines]

namespace Session

open Artifact Playback

structure Scene (τ : Type) where
  clock : Clock τ
  visible : Bool
  speed : Nat
  program : Script.Program
  environment : Option Environment := none
  canvas : List DrawCmd := []

namespace Scene

variable {τ : Type}

def start (s : Scene τ) : Scene τ :=
  match Environment.start s.program with
  | .ok (e, background, _) =>
    { s with environment := some e, canvas := s.canvas ++ [.fill background] }
  | .error _ => s

def ensure (s : Scene τ) : Scene τ :=
  match s.environment with
  | none => s.start
  | some _ => s

def steps (s : Scene τ) : (n : Nat) → Scene τ
  | 0 => s
  | n + 1 =>
    match s.environment with
    | none => s
    | some e =>
      match e.step.1 with
      | .ok out =>
        { s with environment := some e.step.2, canvas := s.canvas ++ out.drawing }.steps n
      | .error _ => { s with environment := none }

def perform (s : Scene τ) (advancing : Bool) : Scene τ :=
  if advancing then s.ensure.steps s.ensure.speed else s.ensure

def frame [Time τ] (s : Scene τ) (elapsed : τ) : Scene τ :=
  if s.visible then
    { s with clock := (s.clock.tick elapsed true).2 }.perform (s.clock.tick elapsed true).1
  else s

end Scene

end Session

namespace Artifact.Holdings

theorem releaseAny_program (h : Holdings) (e : Option Running) :
    (h.releaseAny e).cast.program = h.cast.program := by
  cases e with
  | none => rfl
  | some e => simp only [releaseAny, Option.elim_some, release_cast]

theorem setEnvironment_of_idle {h : Holdings} (idle : h.slots.environment = none) (e : Running) :
    h.setEnvironment e = { h with slots.environment := some e } := by
  simp [setEnvironment, idle, releaseAny]

theorem start_program (h : Holdings) (image : Image) :
    (h.start image).2.cast.program = h.cast.program := by
  rw [start_eq, cast_note (Engine.start_images _ _)]

theorem step_program (h : Holdings) (r : Running) :
    (h.step r).2.cast.program = h.cast.program := by
  rw [step_eq, cast_note (Engine.step_images _ _)]

end Artifact.Holdings

namespace Session.Player

open Artifact Canvas Playback

variable {τ : Type}

structure InScene (p : Player τ Recording) (s : Scene τ) : Prop where
  clock : p.clock = s.clock
  visible : p.visible.value = s.visible
  speed : p.speed.value = s.speed
  program : p.holdings.cast.program = some (.ok s.program)
  environment : p.holdings.slots.environment.map p.environmentOf = s.environment.map .ok
  canvas : p.surface.commands ++ p.draw.toList = s.canvas

variable {p q : Player τ Recording} {s : Scene τ} {r : Running} {e : Environment}

namespace InScene

theorem congr (scene : p.InScene s) (same : q.stage = p.stage) : q.InScene s := by
  constructor
  · exact (congrArg Stage.clock same).trans scene.clock
  · exact (congrArg (·.visible.value) same).trans scene.visible
  · exact (congrArg (·.speed.value) same).trans scene.speed
  · exact (congrArg (·.cast.program) same).trans scene.program
  · have kept := congrArg (fun s : Stage τ Recording =>
      s.cast.environment.map (s.cast.environments.get ·.number)) same
    exact kept.trans scene.environment
  · have kept := congrArg (fun s : Stage τ Recording => s.surface.commands ++ s.draw.toList) same
    exact kept.trans scene.canvas

theorem active (scene : p.InScene s) : ∃ image, p.holdings.slots.active = some image ∧
    p.holdings.engine.images.get image.number = .ok s.program := by
  have program := scene.program
  exact Option.map_eq_some_iff.mp program

theorem idle_or_running (scene : p.InScene s) :
    p.holdings.slots.environment = none ∧ s.environment = none ∨
      ∃ r e, p.holdings.slots.environment = some r ∧ p.environmentOf r = .ok e ∧
        s.environment = some e := by
  have environment := scene.environment
  cases slot : p.holdings.slots.environment with
  | none =>
    rw [slot] at environment
    exact .inl ⟨rfl, Option.map_eq_none_iff.mp environment.symm⟩
  | some r =>
    rw [slot] at environment
    obtain ⟨e, running, found⟩ := Option.map_eq_some_iff.mp environment.symm
    exact .inr ⟨r, e, rfl, found.symm, running⟩

theorem clearEnvironment (scene : p.InScene s) :
    p.clearEnvironment.InScene { s with environment := none } := by
  refine ⟨scene.clock, scene.visible, scene.speed, ?_, ?_, scene.canvas⟩
  · exact (Holdings.releaseAny_program _ _).trans scene.program
  · have emptied : p.clearEnvironment.holdings.slots.environment = none := by
      simp [Player.clearEnvironment, Holdings.clearEnvironment]
    rw [emptied]
    rfl

theorem environment_set {h : Holdings} (idle : h.slots.environment = none)
    (found : h.engine.environments.get r.number = .ok e)
    (held : q.holdings = h.setEnvironment r) :
    q.holdings.slots.environment.map q.environmentOf = some (.ok e) := by
  rw [Holdings.setEnvironment_of_idle idle] at held
  have slot : q.holdings.slots.environment = some r := by rw [held]
  have engine : q.holdings.engine = h.engine := by rw [held]
  rw [slot]
  exact congrArg some (by rw [environmentOf, engine, found])

theorem startEnvironment (scene : p.InScene s) {image : Image}
    (idle : p.holdings.slots.environment = none)
    (found : p.holdings.engine.images.get image.number = .ok s.program) :
    (p.startEnvironment image).InScene s.start := by
  have program := (p.holdings.start_program image).trans scene.program
  cases begun : Environment.start s.program with
  | ok started =>
    obtain ⟨e, background, printed⟩ := started
    obtain ⟨answer, environment⟩ := Engine.start_of_get found begun
    simp only [Scene.start, begun, Player.startEnvironment, Holdings.start_eq]
    rw [show (p.holdings.engine.start image).1 = _ from answer]
    refine ⟨scene.clock, scene.visible, scene.speed, ?_, ?_, ?_⟩
    · exact (Holdings.releaseAny_program _ _).trans program
    · exact environment_set (h := p.holdings.note _ _) idle environment rfl
    · rw [← scene.canvas]
      simp [DrawList.toList_fill]
  | error f =>
    have failed : p.holdings.engine.start image = (.error f, p.holdings.engine) := by
      simp [Engine.start, found, begun]
    simp only [Scene.start, begun, Player.startEnvironment, Holdings.start_eq, failed]
    apply scene.congr
    rw [fail_stage]
    rfl

theorem ensureEnvironment (scene : p.InScene s) : p.ensureEnvironment.InScene s.ensure := by
  obtain ⟨image, active, found⟩ := scene.active
  rcases scene.idle_or_running with ⟨idle, none_there⟩ | ⟨r, e, running, -, there⟩
  · simp only [Player.ensureEnvironment, idle, active, Scene.ensure, none_there]
    exact scene.startEnvironment idle found
  · simp only [Player.ensureEnvironment, running, active, Scene.ensure, there]
    exact scene

theorem stepOf (scene : p.InScene s) (running : p.holdings.slots.environment = some r)
    (found : p.environmentOf r = .ok e) :
    (p.stepOf r).InScene { s with environment := some e.step.2 } := by
  refine ⟨scene.clock, scene.visible, scene.speed, ?_, ?_, scene.canvas⟩
  · exact (p.holdings.step_program r).trans scene.program
  · have slot : (p.stepOf r).holdings.slots.environment = some r := running
    rw [slot]
    exact congrArg some (stepOf_environmentOf found)

theorem drawStep (scene : p.InScene s) (out : StepOutput) :
    (p.drawStep out).InScene { s with canvas := s.canvas ++ out.drawing } := by
  refine ⟨scene.clock, scene.visible, scene.speed, scene.program, scene.environment, ?_⟩
  simp only [Player.drawStep, DrawList.toList_lines, DrawList.toList_painted, ← scene.canvas,
    StepOutput.drawing, List.append_assoc]

theorem fail (scene : p.InScene s) (stats : Stats) (f : Failure) :
    ({ p with stats }.fail f).InScene s := by
  have counted : ({ p with stats } : Player τ Recording).InScene s :=
    ⟨scene.clock, scene.visible, scene.speed, scene.program, scene.environment, scene.canvas⟩
  exact counted.congr (fail_stage _ f)

theorem runSteps (scene : p.InScene s) (n : Nat) : (p.runSteps n).InScene (s.steps n) := by
  induction n generalizing p s with
  | zero => exact scene
  | succ n ih =>
    rcases scene.idle_or_running with ⟨idle, none_there⟩ | ⟨r, e, running, found, there⟩
    · simp only [Player.runSteps, idle, Scene.steps, none_there]
      exact scene
    · rw [runSteps_succ running found]
      simp only [Scene.steps, there]
      cases output : e.step.1 with
      | ok out => exact ih ((scene.stepOf running found).drawStep out)
      | error f => exact ((scene.stepOf running found).fail _ f).clearEnvironment

theorem flush (scene : p.InScene s) : p.flush.InScene s := by
  simp only [Player.flush]
  split
  · exact scene
  · refine ⟨scene.clock, scene.visible, scene.speed, scene.program, scene.environment, ?_⟩
    simp [Surface.render, Recording.commands_render, scene.canvas]

theorem perform (scene : p.InScene s) (advancing : Bool) :
    (p.perform advancing).InScene (s.perform advancing) := by
  have started := scene.ensureEnvironment
  apply flush
  cases advancing with
  | false => exact started
  | true =>
    simp only [↓reduceIte, started.speed]
    exact started.runSteps _

theorem steady (scene : p.InScene s) (account : p.holdings.Accounted []) : p.Steady := by
  obtain ⟨image, active, -⟩ := scene.active
  exact ⟨account, by rw [active]; rfl⟩

variable [Time τ]

theorem tick (scene : p.InScene s) (elapsed : τ) :
    (p.tick elapsed).2.InScene { s with clock := (s.clock.tick elapsed true).2 } := by
  have moved : (p.clock.tick elapsed true).2 = (s.clock.tick elapsed true).2 := by
    rw [scene.clock]
  simp only [Player.tick]
  split
  · exact ⟨moved, scene.visible, scene.speed, scene.program, scene.environment, scene.canvas⟩
  · exact ⟨moved, scene.visible, scene.speed, scene.program, scene.environment, scene.canvas⟩

theorem runFrame (scene : p.InScene s) (account : p.holdings.Accounted []) (elapsed : τ) :
    (p.runFrame elapsed).InScene (s.frame elapsed) := by
  cases visible : s.visible with
  | false =>
    simp only [Player.runFrame, scene.visible, Scene.frame, visible]
    exact scene
  | true =>
    obtain ⟨r, stage, performs⟩ :=
      runFrame_performs (scene.steady account) (scene.visible.trans visible) elapsed
    have counted : ({ p with stats.frames := p.stats.frames + 1 } : Player τ Recording).InScene s :=
      ⟨scene.clock, scene.visible, scene.speed, scene.program, scene.environment, scene.canvas⟩
    -- A text that is compiled in between changes nothing in the scene.
    have begun := ((counted.tick elapsed).congr stage).perform (p.clock.tick elapsed true).1
    rw [performs, Scene.frame, if_pos visible, ← scene.clock]
    rw [← scene.clock] at begun
    exact begun

theorem frame (scene : p.InScene s) (account : p.holdings.Accounted []) (elapsed : τ) :
    (p.frame elapsed).InScene (s.frame elapsed) := by
  have opened := scene.congr (openBatch_brackets p).stage
  exact (opened.runFrame account elapsed).congr (update_brackets p (·.runFrame elapsed)).stage

theorem frames (scene : p.InScene s) (account : p.holdings.Accounted []) (elapsed : List τ) :
    (elapsed.foldl Player.frame p).InScene (elapsed.foldl Scene.frame s) := by
  induction elapsed generalizing p s with
  | nil => exact scene
  | cons ms elapsed ih => exact ih (scene.frame account ms) ((frame_moves p ms).accounted account)

end InScene

theorem perform_paints (p : Player τ Recording) (advancing : Bool) :
    Paints p (p.perform advancing) := by
  refine ((ensureEnvironment_paints p).trans ?_).trans (flush_paints _)
  split
  · exact runSteps_paints _ _
  · exact .refl _

variable [Time τ]

theorem Steady.frame_clears (steady : p.Steady) (elapsed : τ) :
    (p.frame elapsed).surface.clears = p.surface.clears := by
  have opened : p.openBatch.Steady := ⟨steady.account, steady.active⟩
  have framed := congrArg (·.surface.clears) (update_brackets p (·.runFrame elapsed)).stage
  refine framed.trans ?_
  by_cases visible : p.visible.value = true
  · obtain ⟨r, stage, performs⟩ := runFrame_performs opened visible elapsed
    obtain ⟨_, -, -, clears, -⟩ := perform_paints r (p.clock.tick elapsed true).1
    have ticked : (Player.tick { p.openBatch with
        stats.frames := p.openBatch.stats.frames + 1 } elapsed).2.surface = p.surface := by
      simp only [tick]
      split <;> rfl
    have begun : r.surface = p.surface := (congrArg Stage.surface stage).trans ticked
    rw [performs]
    exact clears.trans (congrArg Recording.clears begun)
  · simp only [runFrame]
    rw [if_neg (show ¬ p.openBatch.visible.value = true from visible)]
    rfl

theorem InScene.frames_clears (scene : p.InScene s) (account : p.holdings.Accounted [])
    (elapsed : List τ) : (elapsed.foldl Player.frame p).surface.clears = p.surface.clears := by
  induction elapsed generalizing p s with
  | nil => rfl
  | cons ms elapsed ih =>
    have later := ih (scene.frame account ms) ((frame_moves p ms).accounted account)
    exact later.trans ((scene.steady account).frame_clears ms)

end Session.Player

end TurtlePlayback
