import TurtlePlayback.Canvas.Stroke
import TurtlePlayback.Canvas.Surface

/-!
A surface of pixels. Each draw list becomes a layer of its own, which is then put over what the
surface shows already.
-/

namespace TurtlePlayback.Canvas

structure PixelSurface where
  resolution : Resolution
  pixels : Layer

inductive PixelSurfaceFault
  | width
  | height
  | zero
  | ratio
  | layer (fault : LayerFault)
  deriving DecidableEq, Repr

def PixelSurfaceFault.message : PixelSurfaceFault → String
  | width => "surface width exceeds u16"
  | height => "surface height exceeds u16"
  | zero => "surface size must be non-zero"
  | ratio => "pixel ratio must be finite and > 0"
  | layer fault => fault.message

def PixelSurfaceFault.failure (f : PixelSurfaceFault) : Failure :=
  ⟨.render, f.message⟩

namespace PixelSurface

def checkSize (r : Resolution) : Except PixelSurfaceFault Unit :=
  if 65535 < r.width then .error .width
  else if 65535 < r.height then .error .height
  else if r.width = 0 ∨ r.height = 0 then .error .zero
  else .ok ()

def blank (r : Resolution) : PixelSurface :=
  ⟨r, Array.replicate r.pixelCount .clear⟩

def create (r : Resolution) : Except PixelSurfaceFault PixelSurface :=
  (checkSize r).map fun _ => blank r

def resize (s : PixelSurface) (r : Resolution) : Except PixelSurfaceFault PixelSurface :=
  (checkSize r).map fun _ => if r = s.resolution then s else blank r

def clear (s : PixelSurface) : PixelSurface :=
  { s with pixels := s.pixels.map fun _ => .clear }

def compose (s : PixelSurface) (layer : Layer) : Except LayerFault PixelSurface :=
  if s.pixels.size = layer.size then
    .ok { s with pixels := Array.zipWith Pixel.under s.pixels layer }
  else .error .sizeMismatch

def render (raster : Rasterizer) (s : PixelSurface) (l : DrawList) (ratio : Float) :
    Except PixelSurfaceFault PixelSurface :=
  if l.isEmpty then .ok s
  else if Viewport.isPositive ratio then
    (s.compose (raster s.resolution ratio l)).mapError .layer
  else .error .ratio

def snapshot (s : PixelSurface) : Picture where
  width := s.resolution.width
  height := s.resolution.height
  data := bytesOf s.pixels
  premultiplied := true

def describe (s : PixelSurface) : String :=
  s!"CpuSurface \x7b width: {s.resolution.width}, height: {s.resolution.height}, .. \x7d"

end PixelSurface

def settle {σ : Type} (s : σ) : Except PixelSurfaceFault σ → Except Failure Unit × σ
  | .ok s => (.ok (), s)
  | .error f => (.error f.failure, s)

/-- Players draw by the plain rasterizer. Which one draws is open in `PixelSurface.render`, and
nothing that is stated of surfaces of pixels depends on the pixels of lines that are drawn here. -/
instance : Surface PixelSurface where
  resolution s := s.resolution
  resize s r := settle s (s.resize r)
  clear := PixelSurface.clear
  render s l ratio := settle s (s.render Layer.ofDrawList l ratio)
  snapshot s := some s.snapshot

end TurtlePlayback.Canvas
