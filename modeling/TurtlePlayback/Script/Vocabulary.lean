namespace TurtlePlayback.Script

inductive Reading
  | step
  | x
  | y
  | dir
  deriving DecidableEq, Repr

namespace Reading

def all : List Reading :=
  [step, x, y, dir]

def name : Reading → String
  | step => "step"
  | x => "x"
  | y => "y"
  | dir => "dir"

def ofName? (n : String) : Option Reading :=
  all.find? (·.name == n)

end Reading

inductive Constant
  | pi
  | tau
  deriving DecidableEq, Repr

namespace Constant

def all : List Constant :=
  [pi, tau]

def name : Constant → String
  | pi => "pi"
  | tau => "tau"

def value : Constant → Float
  | pi => 3.141592653589793
  | tau => 6.283185307179586

def ofName? (n : String) : Option Constant :=
  all.find? (·.name == n)

end Constant

inductive Function
  | min
  | max
  | clamp
  | abs
  | sin
  | cos
  | sqrt
  | floor
  | lerp
  deriving DecidableEq, Repr

namespace Function

def all : List Function :=
  [min, max, clamp, abs, sin, cos, sqrt, floor, lerp]

def name : Function → String
  | min => "min"
  | max => "max"
  | clamp => "clamp"
  | abs => "abs"
  | sin => "sin"
  | cos => "cos"
  | sqrt => "sqrt"
  | floor => "floor"
  | lerp => "lerp"

def arity : Function → Nat
  | min | max => 2
  | clamp | lerp => 3
  | abs | sin | cos | sqrt | floor => 1

def ofName? (n : String) : Option Function :=
  all.find? (·.name == n)

end Function

inductive Command
  | forward
  | turn
  | goto
  | heading
  | color
  | width
  | penUp
  | penDown
  | background
  | assert
  | print
  deriving DecidableEq, Repr

namespace Command

def all : List Command :=
  [forward, turn, goto, heading, color, width, penUp, penDown, background, assert, print]

def name : Command → String
  | forward => "forward"
  | turn => "turn"
  | goto => "goto"
  | heading => "heading"
  | color => "color"
  | width => "width"
  | penUp => "pen_up"
  | penDown => "pen_down"
  | background => "background"
  | assert => "assert"
  | print => "print"

def arity : Command → Nat × Nat
  | forward | turn | heading | width | assert => (1, 1)
  | goto => (2, 2)
  | color | background => (3, 4)
  | penUp | penDown => (0, 0)
  | print => (1, 16)

def ofName? (n : String) : Option Command :=
  all.find? (·.name == n)

end Command

def isReserved (n : String) : Bool :=
  (Reading.ofName? n).isSome || (Function.ofName? n).isSome || (Command.ofName? n).isSome ||
    (Constant.ofName? n).isSome

end TurtlePlayback.Script
