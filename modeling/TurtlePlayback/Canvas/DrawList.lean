import TurtlePlayback.Canvas.Color

namespace TurtlePlayback.Canvas

structure Point where
  x : Float
  y : Float
  deriving DecidableEq

def Point.origin : Point :=
  ⟨0.0, 0.0⟩

def Point.isFinite (p : Point) : Bool :=
  p.x.isFinite && p.y.isFinite

structure Line where
  start : Point
  stop : Point
  color : Color
  width : Float
  deriving DecidableEq

inductive DrawCmd
  | fill (color : Color)
  | lines (batch : Array Line)
  deriving DecidableEq

def DrawCmd.segmentCount : DrawCmd → Nat
  | fill _ => 0
  | lines batch => batch.size

abbrev DrawList :=
  Array DrawCmd

namespace DrawList

def fill (l : DrawList) (c : Color) : DrawList :=
  l.push (.fill c)

def lines (l : DrawList) (batch : Array Line) : DrawList :=
  if batch.isEmpty then l else l.push (.lines batch)

def segmentCount (l : DrawList) : Nat :=
  l.foldl (fun n cmd => n + cmd.segmentCount) 0

end DrawList

end TurtlePlayback.Canvas
