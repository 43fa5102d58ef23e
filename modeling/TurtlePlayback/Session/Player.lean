import TurtlePlayback.Artifact.Slots
import TurtlePlayback.Canvas.PixelSurface
import TurtlePlayback.Json.Value
import TurtlePlayback.Playback.Observers
import TurtlePlayback.Playback.Scheduler
import TurtlePlayback.Playback.Watched
import TurtlePlayback.Session.Config
import TurtlePlayback.Session.Output

/-!
The player: it plays one script on a surface, driven by a clock and a scheduler.

Everything that changes a player runs as a batch. When the outermost batch closes and something
watched has changed, the player asks for a frame and tells its subscribers, once for the whole
batch. A frame is such a batch too, so what it changes asks for the next frame.
-/

namespace TurtlePlayback.Session

open Artifact Canvas Playback

inductive Evaluation
  | unknown
  | success
  | failed
  deriving DecidableEq, Repr

structure Stats where
  frames : Nat := 0
  compiles : Nat := 0
  compileErrors : Nat := 0
  starts : Nat := 0
  steps : Nat := 0
  stepErrors : Nat := 0
  segments : Nat := 0
  deriving DecidableEq, Repr

def Stats.describe (s : Stats) : String :=
  s!"FrameStats \x7b frames: {s.frames}, compiles: {s.compiles}, " ++
    s!"compile_errors: {s.compileErrors}, starts: {s.starts}, steps: {s.steps}, " ++
    s!"step_errors: {s.stepErrors}, segments: {s.segments} \x7d"

def Stats.toJson (s : Stats) : Json.Value :=
  .object [
    ("frames", .nat s.frames), ("compiles", .nat s.compiles),
    ("compile_errors", .nat s.compileErrors), ("starts", .nat s.starts), ("steps", .nat s.steps),
    ("step_errors", .nat s.stepErrors), ("segments", .nat s.segments)]

def Evaluation.describe : Evaluation → String
  | unknown => "Unknown"
  | success => "Success"
  | failed => "EvaluationError"

structure Player (τ σ : Type) where
  holdings : Holdings := {}
  surface : σ
  scheduler : Scheduler τ := {}
  observers : Observers := {}
  clock : Clock τ
  before : Snapshot τ
  source : String := ""
  dirty : Watched Bool := ⟨false⟩
  visible : Watched Bool
  speed : Watched Nat
  resolution : Watched Resolution
  viewport : Viewport
  evaluation : Evaluation := .unknown
  output : Output := {}
  draw : DrawList := #[]
  stats : Stats := {}

namespace Player

variable {τ σ : Type} [Time τ] [Surface σ]

def create (surface : σ) (c : Config τ) : Except Failure (Player τ σ) := do
  c.validate.mapError ConfigFault.failure
  let resolution ← c.viewport.resolution.mapError ViewportFault.failure
  let surface ←
    if Surface.resolution surface = resolution then pure surface
    else
      match Surface.resize surface resolution with
      | (.ok (), surface) => pure surface
      | (.error f, _) => .error f
  let clock ← (Clock.create c.loopStart c.loopEnd c.loopMode).mapError BoundsFault.failure
  let clock := if c.autoplay then clock.play else clock
  return {
    surface, clock, before := clock.snapshot, visible := ⟨c.visible⟩, speed := ⟨c.speed⟩,
    resolution := ⟨resolution⟩, viewport := c.viewport }

def createOnPixels (c : Config τ) : Except Failure (Player τ PixelSurface) := do
  c.validate.mapError ConfigFault.failure
  let resolution ← c.viewport.resolution.mapError ViewportFault.failure
  let surface ← (PixelSurface.create resolution).mapError PixelSurfaceFault.failure
  create surface c

def mark (p : Player τ σ) (happened : Bool) (s : Signal) : Player τ σ :=
  { p with observers := p.observers.markIf happened s }

def markClock (p : Player τ σ) : Player τ σ :=
  let now := p.clock.snapshot
  (p.mark (now.stateDiffers p.before) .clockState).mark (now.timeDiffers p.before) .clockTime

def schedule (p : Player τ σ) : Player τ σ :=
  { p with scheduler := p.scheduler.schedule.2 }

def closeBatch (p : Player τ σ) : Player τ σ :=
  match p.observers.endBatch with
  | .ok (some changes, observers) =>
    if changes.isEmpty then { p with observers }
    else { p.schedule with observers := observers.notify changes }
  | .ok (none, observers) => { p with observers }
  | .error _ => p

def openBatch (p : Player τ σ) : Player τ σ :=
  { p with
    before := if p.observers.inBatch then p.before else p.clock.snapshot
    observers := p.observers.beginBatch }

def batch {α : Type} (p : Player τ σ) (f : Player τ σ → α × Player τ σ) : α × Player τ σ :=
  let (a, q) := f p.openBatch
  (a, (if p.observers.inBatch then q else q.markClock).closeBatch)

def update (p : Player τ σ) (f : Player τ σ → Player τ σ) : Player τ σ :=
  (p.batch fun p => ((), f p)).2

def setDirty (p : Player τ σ) (dirty : Bool) : Player τ σ :=
  let (changed, cell) := p.dirty.set dirty
  { p with dirty := cell }.mark changed .scriptDirty

def setClock (p : Player τ σ) (c : Clock τ) : Player τ σ :=
  { p with clock := c }

def clearCanvas (p : Player τ σ) : Player τ σ :=
  { p with surface := Surface.clear p.surface, holdings := p.holdings.noteClear }

def clearEnvironment (p : Player τ σ) : Player τ σ :=
  { p with holdings := p.holdings.clearEnvironment.2 }

def promote (p : Player τ σ) : Player τ σ :=
  { p with holdings := (p.holdings.promote .share).2 }

/-- Starts over with the active image, on an empty canvas. The frame is asked for directly, since
nothing watched need have changed. -/
def resetEnvironment (p : Player τ σ) : Player τ σ :=
  p.clearEnvironment.clearCanvas.schedule

/-- Reports a failure. A message that is the last line already is not repeated. -/
def fail (p : Player τ σ) (f : Failure) : Player τ σ :=
  let p := { p with evaluation := .failed }
  if p.output.last? = some ⟨f.message, true⟩ then p
  else { p with output := p.output.printError f.message }

def tick (p : Player τ σ) (elapsed : τ) : Bool × Player τ σ :=
  let (advancing, clock) := p.clock.tick elapsed true
  let p := p.setClock clock
  (advancing, if clock.isPlaying then p.schedule else p)

def recompile (p : Player τ σ) : Player τ σ :=
  let (result, holdings) := p.holdings.compile p.source
  let p := { p with
    output := p.output.clear, holdings, stats.compiles := p.stats.compiles + 1 }.setDirty false
  match result with
  | .ok image => { p with holdings := p.holdings.storeCompiled image, evaluation := .success }
  | .error f =>
    { p with
      stats.compileErrors := p.stats.compileErrors + 1
      holdings := p.holdings.clearPending }.fail f

def promoteFirst (p : Player τ σ) : Player τ σ :=
  if p.holdings.slots.active.isNone && p.holdings.slots.pending.isSome then
    p.promote.clearEnvironment.clearCanvas
  else p

def startEnvironment (p : Player τ σ) (image : Image) : Player τ σ :=
  match p.holdings.start image with
  | (.ok started, holdings) =>
    { p with
      stats.starts := p.stats.starts + 1
      holdings := holdings.setEnvironment started.environment
      draw := p.draw.fill started.background
      output := p.output.printAll started.printed }
  | (.error f, holdings) => { p with holdings }.fail f

def ensureEnvironment (p : Player τ σ) : Player τ σ :=
  match p.holdings.slots.environment, p.holdings.slots.active with
  | none, some image => p.startEnvironment image
  | _, _ => p

def drawStep (p : Player τ σ) (out : StepOutput) : Player τ σ :=
  { p with
    stats.steps := p.stats.steps + 1
    stats.segments := p.stats.segments + out.lines.size
    draw := (out.background.elim p.draw p.draw.fill).lines out.lines
    output := p.output.printAll out.printed }

def runSteps (p : Player τ σ) : (n : Nat) → Player τ σ
  | 0 => p
  | n + 1 =>
    match p.holdings.slots.environment with
    | none => p
    | some e =>
      match p.holdings.step e with
      | (.ok out, holdings) => ({ p with holdings }.drawStep out).runSteps n
      | (.error f, holdings) =>
        ({ p with holdings, stats.stepErrors := p.stats.stepErrors + 1 }.fail f).clearEnvironment

def flush (p : Player τ σ) : Player τ σ :=
  if p.draw.isEmpty then p
  else
    let (result, surface) := Surface.render p.surface p.draw p.viewport.ratio
    let output :=
      match result with
      | .ok () => p.output
      | .error f => p.output.printError f.text
    { p with surface, output, draw := #[] }

/-- What a frame does to a player that is visible: the clock moves, a changed source is compiled,
an image is promoted and started where one is missing, and steps are run and drawn. -/
def runFrame (p : Player τ σ) (elapsed : τ) : Player τ σ :=
  if p.visible.value then
    let p := { p with stats.frames := p.stats.frames + 1 }
    let (advancing, p) := p.tick elapsed
    let p := if p.dirty.value then p.recompile else p
    let p := p.promoteFirst.ensureEnvironment
    let p := if advancing then p.runSteps p.speed.value else p
    p.flush
  else p

def frame (p : Player τ σ) (elapsed : τ) : Player τ σ :=
  p.update (·.runFrame elapsed)

def refresh (p : Player τ σ) (now : τ) : Bool × Player τ σ :=
  match p.scheduler.beginFrame now with
  | (none, scheduler) => (false, { p with scheduler })
  | (some elapsed, scheduler) =>
    let p := { p with scheduler }.frame elapsed
    (true, { p with scheduler := p.scheduler.finishFrame })

def setSource (p : Player τ σ) (source : String) : Player τ σ :=
  p.update fun p => { p with source }.setDirty true

def switchScript (p : Player τ σ) (source : String) : Player τ σ :=
  p.update fun p =>
    let p := { p with holdings := p.holdings.clearActive.2.clearPending }.clearCanvas
    { p with source }.setDirty true

def setVisible (p : Player τ σ) (visible : Bool) : Player τ σ :=
  p.update fun p =>
    let (changed, cell) := p.visible.set visible
    { p with visible := cell }.mark changed .visibility

def applyViewport (p : Player τ σ) (v : Viewport) (r : Resolution) :
    Except Failure Unit × Player τ σ :=
  let (changed, cell) := p.resolution.set r
  let p := { p with viewport := v, resolution := cell }
  if changed then
    match Surface.resize p.surface r with
    | (.ok (), surface) => (.ok (), { p with surface }.mark true .resolution)
    | (.error f, surface) => (.error f, { p with surface })
  else (.ok (), p)

def setViewport (p : Player τ σ) (v : Viewport) : Except Failure Unit × Player τ σ :=
  match v.validate, v.resolution with
  | .error f, _ => (.error f.failure, p)
  | _, .error f => (.error f.failure, p)
  | .ok (), .ok r => p.batch (·.applyViewport v r)

def setSpeed (p : Player τ σ) (speed : Nat) : Except Failure Unit × Player τ σ :=
  if speed = 0 then (.error ⟨.validation, "playback speed must be >= 1"⟩, p)
  else
    (.ok (), p.update fun p =>
      let (changed, cell) := p.speed.set speed
      { p with speed := cell }.mark changed .playbackSpeed)

def play (p : Player τ σ) : Player τ σ :=
  p.update fun p => p.setClock p.clock.play

def pause (p : Player τ σ) : Player τ σ :=
  p.update fun p => p.setClock p.clock.pause

def playPause (p : Player τ σ) : Player τ σ :=
  p.update fun p => p.setClock p.clock.playPause

def stop (p : Player τ σ) : Player τ σ :=
  p.update fun p => (p.setClock p.clock.stop).resetEnvironment

def restart (p : Player τ σ) : Player τ σ :=
  p.update fun p => (p.setClock p.clock.rewind).resetEnvironment

def load (p : Player τ σ) : Bool × Player τ σ :=
  p.batch fun p =>
    if p.holdings.slots.canLoad then (true, p.promote.resetEnvironment) else (false, p)

def setBounds (p : Player τ σ) (start stop : τ) : Except Failure Unit × Player τ σ :=
  p.batch fun p =>
    match p.clock.setBounds start stop with
    | .ok clock => (.ok (), p.setClock clock)
    | .error f => (.error f.failure, p)

def setMode (p : Player τ σ) (mode : LoopMode) : Player τ σ :=
  p.update fun p => p.setClock (p.clock.setMode mode)

/-- What a player leaves behind when it goes: all its references are given back. -/
def drop (p : Player τ σ) : Holdings :=
  p.holdings.teardown

def teardown (p : Player τ σ) : Player τ σ :=
  { p with holdings := p.holdings.teardown }

def subscribe (p : Player τ σ) (mask : ChangeSet) : Nat × Player τ σ :=
  let (id, observers) := p.observers.subscribe mask
  (id, { p with observers })

def unsubscribe (p : Player τ σ) (id : Nat) : Bool × Player τ σ :=
  let (found, observers) := p.observers.unsubscribe id
  (found, { p with observers })

def describe (p : Player Float σ) : String :=
  s!"Player \x7b clock: {p.clock.describe}, script_dirty: {p.dirty.value}, " ++
    s!"visible: {p.visible.value}, evaluation: {p.evaluation.describe}, " ++
    s!"slots: {p.holdings.slots.describe}, stats: {p.stats.describe}, .. \x7d"

end Player

end TurtlePlayback.Session
