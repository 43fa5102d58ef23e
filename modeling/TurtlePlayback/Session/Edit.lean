import TurtlePlayback.Session.Player

namespace TurtlePlayback.Session

open Canvas Playback

inductive Edit (τ : Type)
  | setSource (source : String)
  | switchScript (source : String)
  | setVisible (visible : Bool)
  | setViewport (viewport : Viewport)
  | setSpeed (speed : Nat)
  | play
  | pause
  | playPause
  | stop
  | restart
  | load
  | setBounds (start stop : τ)
  | setMode (mode : LoopMode)
  | teardown
  | frame (elapsed : τ)
  | refresh (now : τ)
  | batch (edits : List (Edit τ))

inductive Reply
  | done
  | answer (yes : Bool)
  | refused (failure : Failure)
  | accepted
  | all (replies : List Reply)

namespace Player

variable {τ σ : Type} [Time τ] [Surface σ]

def replyOf : Except Failure Unit → Reply
  | .ok () => .accepted
  | .error f => .refused f

mutual

def edit (p : Player τ σ) : Edit τ → Reply × Player τ σ
  | .setSource s => (.done, p.setSource s)
  | .switchScript s => (.done, p.switchScript s)
  | .setVisible b => (.done, p.setVisible b)
  | .setViewport v =>
    let (r, p) := p.setViewport v
    (replyOf r, p)
  | .setSpeed n =>
    let (r, p) := p.setSpeed n
    (replyOf r, p)
  | .play => (.done, p.play)
  | .pause => (.done, p.pause)
  | .playPause => (.done, p.playPause)
  | .stop => (.done, p.stop)
  | .restart => (.done, p.restart)
  | .load =>
    let (loaded, p) := p.load
    (.answer loaded, p)
  | .setBounds a b =>
    let (r, p) := p.setBounds a b
    (replyOf r, p)
  | .setMode m => (.done, p.setMode m)
  | .teardown => (.done, p.teardown)
  | .frame elapsed => (.done, p.frame elapsed)
  | .refresh now =>
    let (ran, p) := p.refresh now
    (.answer ran, p)
  | .batch edits =>
    let (rs, p) := p.batch fun p => p.editAll edits
    (.all rs, p)

def editAll (p : Player τ σ) : List (Edit τ) → List Reply × Player τ σ
  | [] => ([], p)
  | e :: es =>
    let (r, p) := p.edit e
    let (rs, p) := p.editAll es
    (r :: rs, p)

end

end Player

end TurtlePlayback.Session
