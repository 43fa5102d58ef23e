import TurtlePlayback.Canvas.Resolution
import TurtlePlayback.Playback.Clock

namespace TurtlePlayback.Session

open Canvas Playback

structure Config (τ : Type) where
  loopStart : τ
  loopEnd : τ
  loopMode : LoopMode
  speed : Nat
  autoplay : Bool
  visible : Bool
  viewport : Viewport

inductive ConfigFault (τ : Type)
  | boundsNotFinite
  | negativeStart
  | endBeforeStart (stop start : τ)
  | zeroSpeed
  | viewport (fault : ViewportFault)

variable {τ : Type} [Time τ]

def ConfigFault.message : ConfigFault τ → String
  | boundsNotFinite => "loop bounds must be finite"
  | negativeStart => "loop_start must be >= 0"
  | endBeforeStart stop start =>
    s!"loop_end ({Time.text stop}) must be >= loop_start ({Time.text start})"
  | zeroSpeed => "playback_speed must be >= 1"
  | viewport fault => fault.message

def ConfigFault.failure (f : ConfigFault τ) : Failure :=
  ⟨.validation, f.message⟩

namespace Config

def default : Config τ :=
  ⟨Time.zero, Time.ofNat 10, .wrap, 1, true, true, {}⟩

def validate (c : Config τ) : Except (ConfigFault τ) Unit :=
  if !Time.isFinite c.loopStart || !Time.isFinite c.loopEnd then .error .boundsNotFinite
  else if c.loopStart < Time.zero then .error .negativeStart
  else if c.loopEnd < c.loopStart then .error (.endBeforeStart c.loopEnd c.loopStart)
  else if c.speed = 0 then .error .zeroSpeed
  else c.viewport.validate.mapError .viewport

end Config

end TurtlePlayback.Session
