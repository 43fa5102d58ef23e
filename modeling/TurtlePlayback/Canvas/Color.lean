import TurtlePlayback.Canvas.Pixel

namespace TurtlePlayback.Canvas

structure Color where
  r : Float
  g : Float
  b : Float
  a : Float
  deriving DecidableEq

namespace Color

def black : Color :=
  ⟨0.0, 0.0, 0.0, 1.0⟩

def white : Color :=
  ⟨1.0, 1.0, 1.0, 1.0⟩

def isFinite (c : Color) : Bool :=
  c.r.isFinite && c.g.isFinite && c.b.isFinite && c.a.isFinite

/-- A channel in 255 steps: moved between zero and one, then rounded. NaN is zero. -/
def quantize (x : Float) : UInt8 :=
  let x := if x < 0.0 then 0.0 else x
  let x := if 1.0 < x then 1.0 else x
  (x * 255.0).round.toUInt8

def straight (c : Color) : Pixel :=
  ⟨quantize c.r, quantize c.g, quantize c.b, quantize c.a⟩

def premultiplied (c : Color) : Pixel :=
  c.straight.premultiply

end Color

end TurtlePlayback.Canvas
