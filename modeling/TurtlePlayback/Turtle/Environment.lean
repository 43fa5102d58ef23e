import TurtlePlayback.Failure
import TurtlePlayback.Script.Code.Lowering
import TurtlePlayback.Script.Location
import TurtlePlayback.Turtle

namespace TurtlePlayback

open Script Canvas

def Script.Error.render (e : Error) (source : String) : String :=
  match Location.ofOffset? source e.offset with
  | some l => l.render e.complaint.message
  | none => e.complaint.message

structure Environment where
  program : Program
  vars : Array Value
  turtle : Turtle

structure StepOutput where
  lines : Array Line
  background : Option Color
  printed : Array String

namespace Environment

def fresh (p : Program) : Environment :=
  ⟨p, Array.replicate p.variableCount .unset, {}⟩

def failure (p : Program) (t : Trap Turtle.Fault) : Failure :=
  let message := t.fault.message Turtle.Fault.message
  match t.offset.bind (Location.ofOffset? p.source) with
  | some l => ⟨.step, l.render message⟩
  | none => ⟨.step, message⟩

def run (e : Environment) (c : Code) : Except Failure Unit × Environment :=
  match Run.code c (Machine.mk e.vars [] e.turtle) with
  | .ok () m => (.ok (), { e with vars := m.vars, turtle := m.host })
  | .error t m => (.error (failure e.program t), { e with vars := m.vars, turtle := m.host })

/-- Runs the setup of a program. The environment comes with the background that the setup asked
for, which is black by default, and with what it printed; lines stay for the first step. -/
def start (p : Program) : Except Failure (Environment × Color × Array String) :=
  match (fresh p).run p.setup with
  | (.error f, _) => .error f
  | (.ok (), e) =>
    .ok ({ e with turtle := { e.turtle with background := none, printed := #[] } },
      e.turtle.background.getD .black, e.turtle.printed)

/-- Runs a step. What a failed step has drawn, painted and printed is dropped, and it does not
count. -/
def step (e : Environment) : Except Failure StepOutput × Environment :=
  match e.run e.program.step with
  | (.error f, e) => (.error f, { e with turtle := e.turtle.collected })
  | (.ok (), e) =>
    (.ok ⟨e.turtle.lines, e.turtle.background, e.turtle.printed⟩,
      { e with turtle := { e.turtle.collected with step := e.turtle.step + 1 } })

end Environment

end TurtlePlayback
