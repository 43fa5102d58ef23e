import TurtlePlayback.Failure

namespace TurtlePlayback.Canvas

inductive ResolutionFault
  | zero
  | tooLarge
  deriving DecidableEq, Repr

def ResolutionFault.message : ResolutionFault → String
  | zero => "Resolution must be non-zero"
  | tooLarge => "Resolution must fit in u16"

structure Resolution where
  width : Nat
  height : Nat
  deriving DecidableEq, Repr

namespace Resolution

def checked (width height : Nat) : Except ResolutionFault Resolution :=
  if width = 0 ∨ height = 0 then .error .zero
  else if 65535 < width ∨ 65535 < height then .error .tooLarge
  else .ok ⟨width, height⟩

def pixelCount (r : Resolution) : Nat :=
  r.width * r.height

end Resolution

inductive ViewportFault
  | ratio
  | resolution (fault : ResolutionFault)
  deriving DecidableEq, Repr

def ViewportFault.message : ViewportFault → String
  | ratio => "Viewport pixel_ratio must be finite and > 0"
  | resolution fault => fault.message

def ViewportFault.failure (f : ViewportFault) : Failure :=
  ⟨.validation, f.message⟩

/-- A size in logical units, and how many pixels a unit takes. -/
structure Viewport where
  width : Nat := 512
  height : Nat := 512
  ratio : Float := 1.0
  deriving DecidableEq

namespace Viewport

/-- A length in pixels: rounded, a half upwards, and moved into the range of 32-bit words. -/
def pixels (length : Nat) (ratio : Float) : Nat :=
  let x := Float.ofNat length * ratio
  let whole := x.toUInt32.toNat
  if 0.5 ≤ x - Float.ofNat whole then min (whole + 1) 4294967295 else whole

def resolution (v : Viewport) : Except ViewportFault Resolution :=
  (Resolution.checked (pixels v.width v.ratio) (pixels v.height v.ratio)).mapError .resolution

def isPositive (x : Float) : Bool :=
  x.isFinite && 0.0 < x

def validate (v : Viewport) : Except ViewportFault Unit :=
  if isPositive v.ratio then v.resolution.map fun _ => () else .error .ratio

end Viewport

end TurtlePlayback.Canvas
