import TurtlePlayback.Command.Arguments
import TurtlePlayback.Command.FileSystem
import TurtlePlayback.Session.ConfigJson
import TurtlePlayback.Session.Display

namespace TurtlePlayback.Command

open Artifact Canvas Session

structure Trouble where
  message : String
  cause : Option String := none

def Trouble.ofFailure (f : Failure) : Trouble :=
  ⟨f.text, none⟩

def Trouble.lines (t : Trouble) : List String :=
  ("Error: " ++ t.message) ::
    match t.cause with
    | some cause => ["", "Caused by:", "    " ++ cause]
    | none => []

structure Report where
  code : Nat := 0
  stdout : Array String := #[]
  stderr : Array String := #[]

/-- What a command does with files in `m`. Lines printed before it fails stay printed. -/
abbrev Job (m : Type → Type) := ExceptT Trouble (StateT Report m)

variable {m : Type → Type} [Monad m]

namespace Job

def say (line : String) : Job m Unit :=
  modify fun r => { r with stdout := r.stdout.push line }

def note (line : String) : Job m Unit :=
  modify fun r => { r with stderr := r.stderr.push line }

def expect {ε α : Type} (trouble : ε → Trouble) : Except ε α → Job m α
  | .ok a => pure a
  | .error e => throw (trouble e)

def onFiles {α : Type} (trouble : PathFault → Trouble) (effect : m (Except PathFault α)) :
    Job m α := do
  expect trouble (← (effect : Job m (Except PathFault α)))

def report (command : Job m Unit) : m Report := do
  match ← StateT.run (ExceptT.run command) {} with
  | (.ok (), r) => pure r
  | (.error t, r) => pure { r with code := 1, stderr := r.stderr ++ t.lines.toArray }

end Job

open Job

variable [FileSystem m]

def readScript (path : String) : Job m String :=
  onFiles (fun f => ⟨s!"read script '{path}'", some f.message⟩) (FileSystem.read path)

def compileScript (path source : String) : Except Trouble (Image × Engine) :=
  match ({} : Engine).compile source with
  | (.ok image, g) => .ok (image, g)
  | (.error f, _) => .error ⟨s!"{path}:{f.message}", none⟩

def check (script : String) : Job m Unit := do
  let source ← readScript script
  let _ ← expect id (compileScript script source)
  note s!"ok {script}"

def colorJson (c : Color) : Json.Value :=
  .object [("a", .real c.a), ("b", .real c.b), ("g", .real c.g), ("r", .real c.r)]

def pointJson (p : Point) : Json.Value :=
  .object [("x", .real p.x), ("y", .real p.y)]

def lineJson (l : Line) : Json.Value :=
  .object [
    ("color", colorJson l.color), ("end", pointJson l.stop), ("start", pointJson l.start),
    ("width", .real l.width)]

def textsJson (texts : Array String) : Json.Value :=
  .array (texts.toList.map .string)

def startedJson (s : Started) : Json.Value :=
  .object [("setup", .object [
    ("background", colorJson s.background), ("output", textsJson s.printed)])]

def stepJson (n : Nat) (out : StepOutput) : Json.Value :=
  .object [
    ("output", .object ([
      ("background", out.background.elim .null colorJson),
      ("lines", .array (out.lines.toList.map lineJson))] ++
      if out.printed.isEmpty then [] else [("output", textsJson out.printed)])),
    ("step", .nat n)]

def dumpSteps (e : Running) (g : Engine) (n : Nat) : (count : Nat) → Job m Unit
  | 0 => pure ()
  | count + 1 =>
    match g.step e with
    | (.ok out, g) => do
      say (stepJson n out).compact
      dumpSteps e g (n + 1) count
    | (.error f, _) => throw ⟨s!"step {n}", some f.text⟩

def dump (script : String) (o : DumpOptions) : Job m Unit := do
  let source ← readScript script
  let (image, g) ← expect id (compileScript script source)
  match g.start image with
  | (.error f, _) => throw (.ofFailure f)
  | (.ok s, g) =>
    say (startedJson s).compact
    dumpSteps s.environment g 0 o.count

def readConfig : Option String → Job m (Config Float)
  | none => pure .default
  | some path => do
    let text ← onFiles (fun f => .ofFailure ⟨.validation, s!"read {path}: {f.message}"⟩)
      (FileSystem.read path)
    expect .ofFailure (Config.parse text)

def RunOptions.apply (o : RunOptions) (c : Config Float) : Config Float :=
  { c with
    speed := o.speed.getD c.speed
    loopMode := o.loopMode.getD c.loopMode
    viewport := {
      width := o.width.getD c.viewport.width
      height := o.height.getD c.viewport.height
      ratio := o.ratio.getD c.viewport.ratio } }

def evaluationName : Evaluation → String
  | .unknown => "unknown"
  | .success => "success"
  | .failed => "evaluation_error"

def statsJson (s : Stats) : Json.Value :=
  .object [
    ("compile_errors", .nat s.compileErrors), ("compiles", .nat s.compiles),
    ("frames", .nat s.frames), ("segments", .nat s.segments), ("starts", .nat s.starts),
    ("step_errors", .nat s.stepErrors), ("steps", .nat s.steps)]

def summaryJson (s : RunSummary Float) : Json.Value :=
  .object [
    ("frames", .nat s.frames), ("idle_at_ms", s.idleAt.elim .null .real),
    ("refreshes", .nat s.refreshes)]

def runJson (s : RunSummary Float) (p : Player Float PixelSurface) : Json.Value :=
  .object [
    ("evaluation", .string (evaluationName p.evaluation)), ("frames", statsJson p.stats),
    ("run", summaryJson s), ("t", .real p.clock.t)]

def writeShown (path : String) (s : PixelSurface) : Job m Unit := do
  match Path.parent? path with
  | some d =>
    onFiles (fun f => ⟨s!"create output dir '{d}'", some f.message⟩) (FileSystem.makeDirectory d)
  | none => pure ()
  onFiles (fun f => .ofFailure ⟨.render, s!"write {path}: {f.message}"⟩)
    (FileSystem.writePicture path s.snapshot.straight)
  note s!"wrote {path}"

def play (script : String) (o : RunOptions) : Job m Unit := do
  let source ← readScript script
  let c := o.apply (← readConfig o.config)
  expect .ofFailure (c.validate.mapError ConfigFault.failure)
  let d ← expect .ofFailure ((Display.create o.rate).mapError DisplayFault.failure)
  let p ← expect .ofFailure (Player.createOnPixels c)
  let (summary, _, p) := d.runFor (p.setSource source) o.duration
  for l in p.output.lines do
    let label := if l.isError then "error" else "out"
    note s!"{script}: {label}: {l.text}"
  match o.out with
  | some path => writeShown path p.surface
  | none => pure ()
  say (runJson summary p).pretty

def versionText : String :=
  "toodle 0.1.0"

def execute (args : List String) : m Report :=
  match Request.parse args with
  | none => pure { code := 2, stderr := Topic.program.page.lines.toArray.take 1 }
  | some .version => report (say versionText)
  | some (.help topic) => report (topic.page.lines.forM say)
  | some (.check script) => report (check script)
  | some (.run script o) => report (play script o)
  | some (.dump script o) => report (dump script o)

end TurtlePlayback.Command
