namespace TurtlePlayback.Playback

inductive Signal
  | visibility
  | scriptDirty
  | clockState
  | clockTime
  | playbackSpeed
  | resolution
  deriving DecidableEq, Repr

namespace Signal

def all : List Signal :=
  [visibility, scriptDirty, clockState, clockTime, playbackSpeed, resolution]

def index : Signal → Nat
  | visibility => 0
  | scriptDirty => 1
  | clockState => 2
  | clockTime => 3
  | playbackSpeed => 4
  | resolution => 5

def name : Signal → String
  | visibility => "Visibility"
  | scriptDirty => "ScriptDirty"
  | clockState => "ClockState"
  | clockTime => "ClockTime"
  | playbackSpeed => "PlaybackSpeed"
  | resolution => "Resolution"

end Signal

/-- A set of signals: bit `s.index` tells whether `s` is in it. -/
structure ChangeSet where
  bits : BitVec 6
  deriving DecidableEq, Repr

namespace ChangeSet

def empty : ChangeSet :=
  ⟨0⟩

def insert (c : ChangeSet) (s : Signal) : ChangeSet :=
  ⟨c.bits ||| BitVec.twoPow 6 s.index⟩

def contains (c : ChangeSet) (s : Signal) : Bool :=
  c.bits.getLsbD s.index

def isEmpty (c : ChangeSet) : Bool :=
  c.bits == 0

def intersects (c d : ChangeSet) : Bool :=
  c.bits &&& d.bits != 0

def toList (c : ChangeSet) : List Signal :=
  Signal.all.filter c.contains

def ofList (l : List Signal) : ChangeSet :=
  l.foldl insert empty

def all : ChangeSet :=
  ofList Signal.all

def describe (c : ChangeSet) : String :=
  s!"ChangeSet({c.bits.toNat})"

end ChangeSet

end TurtlePlayback.Playback
