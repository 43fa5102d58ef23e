import TurtlePlayback.Session.Player

/-!
A display without a window. It refreshes at fixed intervals of its own time, so runs repeat
exactly, and it stops when its player asks for nothing more.
-/

namespace TurtlePlayback.Session

open Canvas Playback

structure Display (τ : Type) where
  interval : τ
  now : τ

structure RunSummary (τ : Type) where
  refreshes : Nat := 0
  frames : Nat := 0
  idleAt : Option τ := none

inductive DisplayFault
  | badRate
  deriving DecidableEq, Repr

def DisplayFault.message : DisplayFault → String
  | badRate => "display fps must be finite and > 0"

def DisplayFault.failure (f : DisplayFault) : Failure :=
  ⟨.validation, f.message⟩

namespace Display

variable {τ σ : Type} [Time τ] [Surface σ]

def create (fps : τ) : Except DisplayFault (Display τ) :=
  if !Time.isFinite fps || fps ≤ Time.zero then .error .badRate
  else .ok ⟨Time.ofNat 1000 / fps, Time.zero⟩

def refresh (d : Display τ) (p : Player τ σ) : Bool × Display τ × Player τ σ :=
  let d := { d with now := d.now + d.interval }
  let (requested, host) := p.scheduler.host.take
  let p := { p with scheduler := { p.scheduler with host } }
  if requested then
    let (ran, p) := p.refresh d.now
    (ran, d, p)
  else (false, d, p)

def runUntil (d : Display τ) (limit : τ) (p : Player τ σ) (s : RunSummary τ) :
    (n : Nat) → RunSummary τ × Display τ × Player τ σ
  | 0 => (s, d, p)
  | n + 1 =>
    if d.now + d.interval ≤ limit then
      if p.scheduler.host.requested then
        let (ran, d, p) := d.refresh p
        let s := { s with
          refreshes := s.refreshes + 1, frames := if ran then s.frames + 1 else s.frames }
        d.runUntil limit p s n
      else ({ s with idleAt := some d.now }, d, p)
    else (s, d, p)

/-- Refreshes for so many seconds, or until the player asks for nothing more. Adding an interval
moves doubles by no less than half of it or not at all, so twice the number of intervals suffices; a
time that does not move ends only with the requests, and a player that does not play makes few. -/
def runFor (d : Display τ) (p : Player τ σ) (seconds : τ) : RunSummary τ × Display τ × Player τ σ :=
  let span := Time.nonneg seconds * Time.ofNat 1000
  d.runUntil (d.now + span) p {} (2 * Time.floor (span / d.interval) + 8)

def runFrames (d : Display τ) (p : Player τ σ) : (count : Nat) → Nat × Display τ × Player τ σ
  | 0 => (0, d, p)
  | n + 1 =>
    if p.scheduler.host.requested then
      match d.refresh p with
      | (true, d, p) =>
        let (frames, d, p) := d.runFrames p n
        (frames + 1, d, p)
      | (false, d, p) => (0, d, p)
    else (0, d, p)

end Display

end TurtlePlayback.Session
