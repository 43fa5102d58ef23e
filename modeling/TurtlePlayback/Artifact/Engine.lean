import TurtlePlayback.Artifact.Table
import TurtlePlayback.Turtle.Environment

namespace TurtlePlayback.Artifact

open Canvas

structure Handle (kind : ResourceKind) where
  number : Nat
  deriving DecidableEq

def Handle.describe {kind : ResourceKind} (h : Handle kind) : String :=
  s!"{kind.name}(#{h.number})"

abbrev Image :=
  Handle .image

abbrev Running :=
  Handle .environment

structure Engine where
  images : Table Script.Program := ⟨.image, #[]⟩
  environments : Table Environment := ⟨.environment, #[]⟩
  compiles : Nat := 0
  steps : Nat := 0

structure Started where
  environment : Running
  background : Color
  printed : Array String

namespace Engine

def compile (g : Engine) (source : String) : Except Failure Image × Engine :=
  let g := { g with compiles := g.compiles + 1 }
  match Script.Program.compile source with
  | .error e => (.error ⟨.compile, e.render source⟩, g)
  | .ok p =>
    let (h, images) := g.images.insert p
    (.ok ⟨h⟩, { g with images })

def start (g : Engine) (image : Image) : Except Failure Started × Engine :=
  match g.images.get image.number with
  | .error m => (.error m.failure, g)
  | .ok p =>
    match Environment.start p with
    | .error f => (.error f, g)
    | .ok (e, background, printed) =>
      let (h, environments) := g.environments.insert e
      (.ok ⟨⟨h⟩, background, printed⟩, { g with environments })

def step (g : Engine) (running : Running) : Except Failure StepOutput × Engine :=
  let g := { g with steps := g.steps + 1 }
  match g.environments.get running.number with
  | .error m => (.error m.failure, g)
  | .ok e =>
    let (result, e) := e.step
    match g.environments.set running.number e with
    | .ok (_, environments) => (result, { g with environments })
    | .error _ => (result, g)

def retain (g : Engine) (kind : ResourceKind) (h : Nat) : Except Misuse Engine :=
  match kind with
  | .image => (g.images.retain h).map fun images => { g with images }
  | .environment => (g.environments.retain h).map fun environments => { g with environments }

def release (g : Engine) (kind : ResourceKind) (h : Nat) : Except Misuse Engine :=
  match kind with
  | .image => (g.images.release h).map fun (_, images) => { g with images }
  | .environment => (g.environments.release h).map fun (_, environments) => { g with environments }

def refs (g : Engine) (kind : ResourceKind) (h : Nat) : Nat :=
  match kind with
  | .image => g.images.refs h
  | .environment => g.environments.refs h

end Engine

end TurtlePlayback.Artifact
