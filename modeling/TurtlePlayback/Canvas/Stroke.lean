import TurtlePlayback.Canvas.DrawList
import TurtlePlayback.Canvas.Resolution

/-!
Draw lists as layers of pixels. A line covers the pixels whose center is no farther from its
segment than half its width. Pixel coordinates start at the top left corner, `y` pointing down.
-/

namespace TurtlePlayback.Canvas

/-- Premultiplied pixels, row after row. -/
abbrev Layer :=
  Array Pixel

/-- How a draw list becomes a layer, from the pixels to a unit and the size of the layer. -/
abbrev Rasterizer :=
  Resolution → Float → DrawList → Layer

namespace Point

def wayTo (p q : Point) : Point :=
  ⟨q.x - p.x, q.y - p.y⟩

def dot (p q : Point) : Float :=
  p.x * q.x + p.y * q.y

def cross (p q : Point) : Float :=
  p.x * q.y - p.y * q.x

def direction (p : Point) : Point :=
  let size := if p.x.abs < p.y.abs then p.y.abs else p.x.abs
  ⟨p.x / size, p.y / size⟩

end Point

structure Stroke where
  a : Point
  b : Point
  radius : Float

namespace Stroke

/-- Whether a point is within the radius: of the end that it lies behind, or of the line through
both ends. Its distance from that line is taken from the nearer end, so that the other may be far
off. -/
def covers (s : Stroke) (p : Point) : Bool :=
  let along := (s.a.wayTo s.b).direction
  let a := s.a.wayTo p
  let b := s.b.wayTo p
  if a.dot along < 0.0 then a.dot a ≤ s.radius * s.radius
  else if 0.0 < b.dot along then b.dot b ≤ s.radius * s.radius
  else
    let near := if a.dot a ≤ b.dot b then a else b
    (near.cross along).abs ≤ s.radius * (along.dot along).sqrt

def index (x : Float) (size : Nat) : Nat :=
  if x < Float.ofNat size then x.floor.toUInt32.toNat else if x.isNaN then 0 else size

def ordered (x y : Float) : Float × Float :=
  if x < y then (x, y) else (y, x)

def span (low high : Float) (size : Nat) : Nat × Nat :=
  (index (low - 1.0) size, index (high + 2.0) size)

def crossing (s : Stroke) (y : Float) : Float × Float :=
  let along := (s.a.wayTo s.b).direction
  let (left, right) := ordered s.a.x s.b.x
  let (left, right) := (left - s.radius, right + s.radius)
  if along.y == 0.0 then (left, right)
  else
    let near := if s.a.dot s.a ≤ s.b.dot s.b then s.a else s.b
    let reach := s.radius * (along.dot along).sqrt
    let middle := (y - near.y) * along.x
    let (first, last) :=
      ordered (near.x + (middle - reach) / along.y) (near.x + (middle + reach) / along.y)
    (if first < left then left else first, if right < last then right else last)

def paint (s : Stroke) (r : Resolution) (paint : Pixel) (layer : Layer) : Layer :=
  let (top, bottom) := ordered s.a.y s.b.y
  let (y₀, y₁) := span (top - s.radius) (bottom + s.radius) r.height
  Nat.fold (y₁ - y₀) (fun j _ layer =>
    let y := y₀ + j
    let center := Float.ofNat y + 0.5
    let (left, right) := s.crossing center
    let (x₀, x₁) := span left right r.width
    Nat.fold (x₁ - x₀) (fun i _ layer =>
      let x := x₀ + i
      if s.covers ⟨Float.ofNat x + 0.5, center⟩ then
        layer.modify (y * r.width + x) (·.under paint)
      else layer) layer) layer

def ofLine? (r : Resolution) (ratio : Float) (l : Line) : Option Stroke :=
  let width := l.width * ratio
  if width ≤ 0.0 then none
  else
    let place (p : Point) : Point :=
      ⟨Float.ofNat r.width / 2.0 + p.x * ratio, Float.ofNat r.height / 2.0 - p.y * ratio⟩
    let a := place l.start
    let b := place l.stop
    if !width.isFinite || !a.isFinite || !b.isFinite || (a.x == b.x && a.y == b.y) then none
    else some ⟨a, b, width / 2.0⟩

end Stroke

def Layer.draw (r : Resolution) (ratio : Float) (layer : Layer) : DrawCmd → Layer
  | .fill c =>
    let paint := c.premultiplied
    layer.map (·.under paint)
  | .lines batch => batch.foldl (fun layer l =>
      if l.color.a ≤ 0.0 then layer
      else
        match Stroke.ofLine? r ratio l with
        | some s => s.paint r l.color.premultiplied layer
        | none => layer) layer

/-- A plain rasterizer with hard edges, in the place of whichever draws. A smoother one gives other
pixels along the edges of lines; fills are the same. -/
def Layer.ofDrawList : Rasterizer := fun r ratio l =>
  l.foldl (Layer.draw r ratio) (Array.replicate r.pixelCount .clear)

end TurtlePlayback.Canvas
