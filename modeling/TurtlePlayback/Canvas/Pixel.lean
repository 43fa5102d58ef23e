namespace TurtlePlayback.Canvas

structure Pixel where
  r : UInt8
  g : UInt8
  b : UInt8
  a : UInt8
  deriving DecidableEq, Repr, Inhabited

namespace Pixel

def clear : Pixel :=
  ⟨0, 0, 0, 0⟩

def bytes (p : Pixel) : List UInt8 :=
  [p.r, p.g, p.b, p.a]

/-- The part `y / 255` of `x`, rounded to the nearest. -/
def scale (x y : Nat) : Nat :=
  (x * y + 127) / 255

def addChannels (x y : Nat) : UInt8 :=
  .ofNat (min (x + y) 255)

def under (dst src : Pixel) : Pixel :=
  if src.a = 0 then dst
  else if src.a = 255 then src
  else
    let rest := 255 - src.a.toNat
    let mix (d s : UInt8) : UInt8 := addChannels s.toNat (scale d.toNat rest)
    ⟨mix dst.r src.r, mix dst.g src.g, mix dst.b src.b, mix dst.a src.a⟩

def premultiply (p : Pixel) : Pixel :=
  let down (c : UInt8) : UInt8 := .ofNat (scale c.toNat p.a.toNat)
  ⟨down p.r, down p.g, down p.b, p.a⟩

def unpremultiply (p : Pixel) : Pixel :=
  if p.a = 0 then clear
  else if p.a = 255 then p
  else
    let a := p.a.toNat
    let up (c : UInt8) : UInt8 := .ofNat (min ((c.toNat * 255 + a / 2) / a) 255)
    ⟨up p.r, up p.g, up p.b, p.a⟩

end Pixel

def bytesOf (pixels : Array Pixel) : ByteArray :=
  pixels.foldl (fun bytes p => (((bytes.push p.r).push p.g).push p.b).push p.a) .empty

inductive LayerFault
  | sizeMismatch
  deriving DecidableEq, Repr

def LayerFault.message : LayerFault → String
  | sizeMismatch => "over_in_place expects equal-length rgba8 buffers"

/-- Groups bytes into pixels; up to three bytes at the end are left out. -/
def pixelsOf : List UInt8 → List Pixel
  | r :: g :: b :: a :: rest => ⟨r, g, b, a⟩ :: pixelsOf rest
  | _ => []

def overBytes (dst src : List UInt8) : Except LayerFault (List UInt8) :=
  if dst.length ≠ src.length ∨ dst.length % 4 ≠ 0 then .error .sizeMismatch
  else .ok ((List.zipWith Pixel.under (pixelsOf dst) (pixelsOf src)).flatMap Pixel.bytes)

end TurtlePlayback.Canvas
