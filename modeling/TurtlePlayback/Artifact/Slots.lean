import TurtlePlayback.Artifact.Engine

/-!
The slots of a player and the references they own. A filled slot owns one reference to its handle:
the newest image waits in `pending`, `active` is the image that is played, and `environment` was
started from it. `Holdings` are the slots together with the engine and a journal of all that the
engine was asked for and of the times the canvas was cleared.
-/

namespace TurtlePlayback.Artifact

structure Slots where
  pending : Option Image := none
  active : Option Image := none
  environment : Option Running := none
  deriving DecidableEq

namespace Slots

def hasActive (s : Slots) : Bool :=
  s.active.isSome

def hasEnvironment (s : Slots) : Bool :=
  s.environment.isSome

def canLoad (s : Slots) : Bool :=
  s.pending.isSome && s.pending != s.active

def describe (s : Slots) : String :=
  let slot {k : ResourceKind} (h : Option (Handle k)) : String :=
    match h with
    | some h => s!"Some({h.describe})"
    | none => "None"
  s!"ArtifactSlots \x7b pending: {slot s.pending}, active: {slot s.active}, environment: {slot s.environment} \x7d"

end Slots

inductive Event
  | compile (source : String) (image : Option Image)
  | start (image : Image) (environment : Option Running)
  | step (environment : Running)
  | retain (kind : ResourceKind) (handle : Nat)
  | release (kind : ResourceKind) (handle : Nat)
  | clearCanvas
  deriving DecidableEq

structure Record where
  event : Event
  slots : Slots
  deriving DecidableEq

structure Holdings where
  engine : Engine := {}
  slots : Slots := {}
  journal : Array Record := #[]

inductive Promotion
  | share
  | move
  deriving DecidableEq, Repr

namespace Holdings

def note (h : Holdings) (e : Event) (g : Engine) : Holdings :=
  { h with engine := g, journal := h.journal.push ⟨e, h.slots⟩ }

def noteClear (h : Holdings) : Holdings :=
  h.note .clearCanvas h.engine

def compile (h : Holdings) (source : String) : Except Failure Image × Holdings :=
  let (result, g) := h.engine.compile source
  (result, h.note (.compile source result.toOption) g)

def start (h : Holdings) (image : Image) : Except Failure Started × Holdings :=
  let (result, g) := h.engine.start image
  (result, h.note (.start image (result.toOption.map (·.environment))) g)

def step (h : Holdings) (e : Running) : Except Failure StepOutput × Holdings :=
  let (result, g) := h.engine.step e
  (result, h.note (.step e) g)

def retain {k : ResourceKind} (h : Holdings) (r : Handle k) : Holdings :=
  h.note (.retain k r.number) ((h.engine.retain k r.number).toOption.getD h.engine)

def release {k : ResourceKind} (h : Holdings) (r : Handle k) : Holdings :=
  h.note (.release k r.number) ((h.engine.release k r.number).toOption.getD h.engine)

def releaseAny {k : ResourceKind} (h : Holdings) (r : Option (Handle k)) : Holdings :=
  r.elim h h.release

/-- Fills the pending slot with an owned image and gives the reference to the one before back. An
image that is there already is given back instead. -/
def assignPending (h : Holdings) (image : Option Image) : Holdings :=
  let before := h.slots.pending
  if before.isSome ∧ before = image then h.releaseAny image
  else { h with slots := { h.slots with pending := image } }.releaseAny before

def assignActive (h : Holdings) (image : Option Image) : Bool × Holdings :=
  let before := h.slots.active
  if before.isSome ∧ before = image then (false, h.releaseAny image)
  else
    (before.isSome || image.isSome,
      { h with slots := { h.slots with active := image } }.releaseAny before)

def clearEnvironment (h : Holdings) : Bool × Holdings :=
  let before := h.slots.environment
  (before.isSome, { h with slots := { h.slots with environment := none } }.releaseAny before)

def setEnvironment (h : Holdings) (e : Running) : Holdings :=
  let before := h.slots.environment
  { h with slots := { h.slots with environment := some e } }.releaseAny before

def setActive (h : Holdings) (image : Option Image) : Bool × Holdings :=
  if h.slots.active = image then h.assignActive image
  else h.clearEnvironment.2.assignActive image

def clearActive (h : Holdings) : Bool × Holdings :=
  h.setActive none

def storeCompiled (h : Holdings) (image : Image) : Holdings :=
  h.assignPending (some image)

def clearPending (h : Holdings) : Holdings :=
  h.assignPending none

def promote (h : Holdings) (how : Promotion) : Bool × Holdings :=
  match h.slots.pending with
  | none => (false, h)
  | some image =>
    match how with
    | .share => (h.retain image).setActive (some image)
    | .move => { h with slots := { h.slots with pending := none } }.setActive (some image)

def teardown (h : Holdings) : Holdings :=
  (h.clearEnvironment.2.assignActive none).2.assignPending none

end Holdings

end TurtlePlayback.Artifact
