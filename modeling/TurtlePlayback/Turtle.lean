import TurtlePlayback.Canvas.DrawList
import TurtlePlayback.Script.Machine

namespace TurtlePlayback

open Script Canvas

def maxLines : Nat := 10000

def maxPrints : Nat := 256

structure Turtle where
  position : Point := .origin
  heading : Float := 0.0
  color : Color := .white
  width : Float := 1.0
  penDown : Bool := true
  step : Nat := 0
  lines : Array Line := #[]
  background : Option Color := none
  printed : Array String := #[]

namespace Turtle

inductive Fault
  | positionNotFinite
  | tooManyLines
  | headingNotFinite
  | colorNotFinite
  | badWidth (width : Float)
  | assertionFailed
  | tooManyPrints
  | type (fault : TypeFault)
  | missingArgument

def Fault.message : Fault → String
  | positionNotFinite => "turtle position is not finite"
  | tooManyLines => s!"more than {maxLines} segments in one step"
  | headingNotFinite => "turtle heading is not finite"
  | colorNotFinite => "color channels must be finite"
  | badWidth w => s!"width must be finite and >= 0, got {Decimal.Layout.plain.write w}"
  | assertionFailed => "assertion failed"
  | tooManyPrints => s!"more than {maxPrints} prints in one step"
  | type fault => fault.message
  | missingArgument => "missing argument"

def numberArg (args : List Value) (i : Nat) : Except Fault Float :=
  match args[i]? with
  | some v => v.asNumber.mapError .type
  | none => .error .missingArgument

def truthArg (args : List Value) (i : Nat) : Except Fault Bool :=
  match args[i]? with
  | some v => v.asTruth.mapError .type
  | none => .error .missingArgument

def colorArg (args : List Value) : Except Fault Color := do
  let r ← numberArg args 0
  let g ← numberArg args 1
  let b ← numberArg args 2
  let a ← if args.length ≤ 3 then pure 1.0 else numberArg args 3
  let c : Color := ⟨r, g, b, a⟩
  if c.isFinite then return c else .error .colorNotFinite

inductive Effect
  | move (target : Point)
  | head (degrees : Float)
  | color (color : Color)
  | width (width : Float)
  | pen (down : Bool)
  | paint (background : Color)
  | say (text : String)
  | nothing

def moveTo (t : Turtle) (p : Point) : Except Fault Effect :=
  if !p.isFinite then .error .positionNotFinite
  else if t.penDown && maxLines ≤ t.lines.size then .error .tooManyLines
  else .ok (.move p)

def headTo (degrees : Float) : Except Fault Effect :=
  if degrees.isFinite then .ok (.head (Binary64.remainderUp degrees 360.0))
  else .error .headingNotFinite

def radians (degrees : Float) : Float :=
  degrees * (Constant.pi.value / 180.0)

def effect (t : Turtle) (args : List Value) : Command → Except Fault Effect
  | .forward => do
    let d ← numberArg args 0
    let r := radians t.heading
    t.moveTo ⟨t.position.x + d * r.cos, t.position.y + d * r.sin⟩
  | .turn => do headTo (t.heading + (← numberArg args 0))
  | .goto => do
    let x ← numberArg args 0
    let y ← numberArg args 1
    t.moveTo ⟨x, y⟩
  | .heading => do headTo (← numberArg args 0)
  | .color => do return .color (← colorArg args)
  | .width => do
    let w ← numberArg args 0
    if !w.isFinite || w < 0.0 then .error (.badWidth w) else return .width w
  | .penUp => .ok (.pen false)
  | .penDown => .ok (.pen true)
  | .background => do return .paint (← colorArg args)
  | .assert => do
    if ← truthArg args 0 then return .nothing else .error .assertionFailed
  | .print =>
    if maxPrints ≤ t.printed.size then .error .tooManyPrints
    else .ok (.say (" ".intercalate (args.map Value.text)))

def apply (t : Turtle) : Effect → Turtle
  | .move p =>
    if t.penDown then
      { t with position := p, lines := t.lines.push ⟨t.position, p, t.color, t.width⟩ }
    else { t with position := p }
  | .head degrees => { t with heading := degrees }
  | .color c => { t with color := c }
  | .width w => { t with width := w }
  | .pen down => { t with penDown := down }
  | .paint c => { t with background := some c }
  | .say text => { t with printed := t.printed.push text }
  | .nothing => t

def read (t : Turtle) : Reading → Float
  | .step => Float.ofNat t.step
  | .x => t.position.x
  | .y => t.position.y
  | .dir => t.heading

def collected (t : Turtle) : Turtle :=
  { t with lines := #[], background := none, printed := #[] }

end Turtle

instance : Host Turtle Turtle.Fault where
  read := Turtle.read
  perform t c args :=
    match t.effect args c with
    | .ok e => (.ok (), t.apply e)
    | .error f => (.error ⟨f, none⟩, t)

end TurtlePlayback
