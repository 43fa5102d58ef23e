import TurtlePlayback.Canvas.DrawList
import TurtlePlayback.Canvas.Picture
import TurtlePlayback.Canvas.Resolution

/-!
Surfaces that frames are drawn on. What is drawn stays until the surface is cleared. A surface that
refuses a request may have changed nonetheless, so every operation returns one.
-/

namespace TurtlePlayback.Canvas

class Surface (σ : Type) where
  resolution : σ → Resolution
  resize : σ → Resolution → Except Failure Unit × σ
  clear : σ → σ
  render : σ → DrawList → Float → Except Failure Unit × σ
  snapshot : σ → Option Picture

/-- A surface that keeps the lists drawn on it since it was cleared, and no pixels. -/
structure Recording where
  resolution : Resolution
  frames : Array DrawList := #[]
  clears : Nat := 0
  resizes : Array Resolution := #[]

namespace Recording

def resize (s : Recording) (r : Resolution) : Recording :=
  { s with resolution := r, resizes := s.resizes.push r }

def clear (s : Recording) : Recording :=
  { s with frames := #[], clears := s.clears + 1 }

def render (s : Recording) (l : DrawList) : Recording :=
  if l.isEmpty then s else { s with frames := s.frames.push l }

def commands (s : Recording) : List DrawCmd :=
  s.frames.toList.flatMap (·.toList)

end Recording

instance : Surface Recording where
  resolution s := s.resolution
  resize s r := (.ok (), s.resize r)
  clear := Recording.clear
  render s l _ := (.ok (), s.render l)
  snapshot _ := none

end TurtlePlayback.Canvas
