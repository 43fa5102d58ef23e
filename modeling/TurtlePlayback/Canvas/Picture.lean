import TurtlePlayback.Canvas.Pixel

namespace TurtlePlayback.Canvas

structure Picture where
  width : Nat
  height : Nat
  data : ByteArray
  premultiplied : Bool

inductive PositionOverflow
  | product
  | sum
  deriving DecidableEq, Repr

def PositionOverflow.message : PositionOverflow → String
  | product => "attempt to multiply with overflow"
  | sum => "attempt to add with overflow"

namespace Picture

def pixelAt? (p : Picture) (i : Nat) : Option Pixel :=
  match p.data[i]?, p.data[i + 1]?, p.data[i + 2]?, p.data[i + 3]? with
  | some r, some g, some b, some a => some ⟨r, g, b, a⟩
  | _, _, _, _ => none

/-- The pixel in column `x` of row `y`; `none` outside the picture or its bytes. -/
def pixel (p : Picture) (x y : Nat) : Except PositionOverflow (Option Pixel) :=
  if p.width ≤ x ∨ p.height ≤ y then .ok none
  else
    let i := (y * p.width + x) * 4
    if 1 <<< 64 ≤ i then .error .product
    else if 1 <<< 64 ≤ i + 4 then .error .sum
    else .ok (p.pixelAt? i)

def pixels (p : Picture) : Array Pixel :=
  Array.ofFn fun i : Fin (p.data.size / 4) =>
    ⟨p.data[4 * i.val], p.data[4 * i.val + 1], p.data[4 * i.val + 2], p.data[4 * i.val + 3]⟩

def straight (p : Picture) : Picture :=
  if p.premultiplied then
    { p with data := bytesOf (p.pixels.map Pixel.unpremultiply), premultiplied := false }
  else p

end Picture

end TurtlePlayback.Canvas
