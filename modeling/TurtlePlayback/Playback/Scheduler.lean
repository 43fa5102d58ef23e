import TurtlePlayback.Playback.Time

/-!
Frames on demand. A scheduler asks its host for one refresh at a time and is silent until somebody
asks for a frame again. The time since the frame before counts only while frames ask for their
successors; after a gap a frame starts at zero.
-/

namespace TurtlePlayback.Playback

structure Host where
  requested : Bool := false
  total : Nat := 0
  deriving DecidableEq, Repr

namespace Host

def request (h : Host) : Host :=
  ⟨true, h.total + 1⟩

def take (h : Host) : Bool × Host :=
  (h.requested, { h with requested := false })

end Host

structure Scheduler (τ : Type) where
  host : Host := {}
  pending : Bool := false
  inFrame : Bool := false
  rescheduled : Bool := false
  last : Option τ := none
  requests : Nat := 0
  frames : Nat := 0

namespace Scheduler

variable {τ : Type}

def schedule (s : Scheduler τ) : Bool × Scheduler τ :=
  let s := if s.inFrame then { s with rescheduled := true } else s
  if s.pending then (false, s)
  else (true, { s with pending := true, requests := s.requests + 1, host := s.host.request })

def beginFrame [Time τ] (s : Scheduler τ) (now : τ) : Option τ × Scheduler τ :=
  if s.pending then
    let elapsed := s.last.elim Time.zero fun last => Time.nonneg (now - last)
    (some elapsed, { s with
      pending := false, inFrame := true, rescheduled := false, frames := s.frames + 1,
      last := some now })
  else (none, s)

def finishFrame (s : Scheduler τ) : Scheduler τ :=
  { s with
    inFrame := false
    rescheduled := false
    last := if s.rescheduled then s.last else none }

def onRefresh [Time τ] {α : Type} (s : Scheduler τ) (now : τ)
    (frame : τ → Scheduler τ → α × Scheduler τ) : Option α × Scheduler τ :=
  match s.beginFrame now with
  | (none, s) => (none, s)
  | (some elapsed, s) =>
    let (a, s) := frame elapsed s
    (some a, s.finishFrame)

def describe (s : Scheduler Float) : String :=
  let last := s.last.elim "None" fun x => "Some(" ++ Decimal.Layout.exact.write x ++ ")"
  s!"FrameScheduler \x7b pending: {s.pending}, in_frame: {s.inFrame}, last_frame_ms: {last}, " ++
    s!"requests: {s.requests}, frames: {s.frames}, .. \x7d"

end Scheduler

end TurtlePlayback.Playback
