import TurtlePlayback.Failure
import TurtlePlayback.Playback.Time

namespace TurtlePlayback.Playback

inductive LoopMode
  | noLoop
  | wrap
  | reverse
  deriving DecidableEq, Repr

inductive PlaybackState
  | stopped
  | paused
  | playing
  deriving DecidableEq, Repr

inductive Direction
  | forward
  | backward
  deriving DecidableEq, Repr

def Direction.sign {τ : Type} [Time τ] : Direction → τ
  | forward => Time.ofNat 1
  | backward => Time.zero - Time.ofNat 1

structure Clock (τ : Type) where
  state : PlaybackState
  t : τ
  direction : Direction
  loopStart : τ
  loopEnd : τ
  mode : LoopMode

structure Snapshot (τ : Type) where
  state : PlaybackState
  t : τ

inductive BoundsFault
  | notFinite
  | negativeStart
  | endBeforeStart
  deriving DecidableEq, Repr

def BoundsFault.message : BoundsFault → String
  | notFinite => "loop bounds must be finite"
  | negativeStart => "loop start must be >= 0"
  | endBeforeStart => "loop end must be >= loop start"

def BoundsFault.failure (f : BoundsFault) : Failure :=
  ⟨.validation, f.message⟩

namespace Clock

variable {τ : Type} [Time τ]

open Time

def checkBounds (start stop : τ) : Except BoundsFault Unit :=
  if !isFinite start || !isFinite stop then .error .notFinite
  else if start < zero then .error .negativeStart
  else if stop < start then .error .endBeforeStart
  else .ok ()

def create (start stop : τ) (mode : LoopMode) : Except BoundsFault (Clock τ) :=
  (checkBounds start stop).map fun _ => ⟨.stopped, start, .forward, start, stop, mode⟩

def default : Clock τ :=
  ⟨.stopped, zero, .forward, zero, ofNat 10, .wrap⟩

def isPlaying (c : Clock τ) : Bool :=
  c.state == .playing

def snapshot (c : Clock τ) : Snapshot τ :=
  ⟨c.state, c.t⟩

def rewind (c : Clock τ) : Clock τ :=
  { c with t := c.loopStart, direction := .forward }

def play (c : Clock τ) : Clock τ :=
  if c.state = .stopped then { c.rewind with state := .playing } else { c with state := .playing }

def pause (c : Clock τ) : Clock τ :=
  if c.state = .playing then { c with state := .paused } else c

def playPause (c : Clock τ) : Clock τ :=
  if c.state = .playing then c.pause else c.play

def stop (c : Clock τ) : Clock τ :=
  { c.rewind with state := .stopped }

def setBounds (c : Clock τ) (start stop : τ) : Except BoundsFault (Clock τ) :=
  (checkBounds start stop).map fun _ =>
    { c with loopStart := start, loopEnd := stop, t := clamp c.t start stop }

def setMode (c : Clock τ) (mode : LoopMode) : Clock τ :=
  { c with mode, direction := if mode = .reverse then c.direction else .forward }

def advanceOnce (c : Clock τ) (dt : τ) : Clock τ :=
  let next := c.t + dt
  if c.loopEnd ≤ next then { c with t := c.loopEnd, state := .paused }
  else if next < c.loopStart then { c with t := c.loopStart, state := .paused }
  else { c with t := next }

def advanceWrapping (c : Clock τ) (dt : τ) : Clock τ :=
  let len := c.loopEnd - c.loopStart
  let offset := Time.wrap (c.t + dt - c.loopStart) len
  { c with t := c.loopStart + if len ≤ offset then zero else offset }

def advanceReversing (c : Clock τ) (dt : τ) : Clock τ :=
  let len := c.loopEnd - c.loopStart
  let period := ofNat 2 * len
  let position := clamp (c.t - c.loopStart) zero len
  let phase :=
    match c.direction with
    | .forward => position
    | .backward => period - position
  let next := Time.wrap (phase + Time.abs dt) period
  let next := if period ≤ next then zero else next
  let (position, direction) : τ × Direction :=
    if next ≤ len then (next, .forward) else (period - next, .backward)
  { c with t := clamp (c.loopStart + position) c.loopStart c.loopEnd, direction }

def advance (c : Clock τ) (elapsed : τ) : Clock τ :=
  let elapsed := if isFinite elapsed then nonneg elapsed else zero
  if c.loopEnd - c.loopStart ≤ zero then
    { c with t := c.loopStart, state := if zero < elapsed then .paused else c.state }
  else
    let dt := ofMillis (c.direction.sign * elapsed)
    match c.mode with
    | .noLoop => c.advanceOnce dt
    | .wrap => c.advanceWrapping dt
    | .reverse => c.advanceReversing dt

/-- Lets milliseconds pass. Tells whether a frame goes on: always when playing, never when paused,
and when stopped if the caller wishes so. -/
def tick (c : Clock τ) (elapsed : τ) (whenStopped : Bool) : Bool × Clock τ :=
  match c.state with
  | .paused => (false, c)
  | .stopped => (whenStopped, c)
  | .playing => (true, c.advance elapsed)

end Clock

namespace Snapshot

variable {τ : Type} [Time τ]

/-- Whether the times or the states differ; a time that is NaN differs from itself. -/
def stateDiffers (a b : Snapshot τ) : Bool :=
  a.state != b.state

def timeDiffers (a b : Snapshot τ) : Bool :=
  a.t != b.t

def differs (a b : Snapshot τ) : Bool :=
  a.stateDiffers b || a.timeDiffers b

end Snapshot

def PlaybackState.describe : PlaybackState → String
  | stopped => "Stopped"
  | paused => "Paused"
  | playing => "Playing"

def Direction.describe : Direction → String
  | forward => "Forward"
  | backward => "Backward"

def LoopMode.describe : LoopMode → String
  | noLoop => "NoLoop"
  | wrap => "Wrap"
  | reverse => "Reverse"

def Clock.describe (c : Clock Float) : String :=
  let seconds (x : Float) : String := "Seconds(" ++ Decimal.Layout.exact.write x ++ ")"
  s!"Clock \x7b state: {c.state.describe}, t: {seconds c.t}, direction: {c.direction.describe}, " ++
    s!"loop_start: {seconds c.loopStart}, loop_end: {seconds c.loopEnd}, " ++
    s!"loop_mode: {c.mode.describe} \x7d"

end TurtlePlayback.Playback
