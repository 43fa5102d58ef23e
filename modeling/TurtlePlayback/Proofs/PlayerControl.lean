import TurtlePlayback.Proofs.FrameParts

namespace TurtlePlayback.Session

open Artifact Canvas Playback

structure Control (τ : Type) where
  scheduler : Scheduler τ
  observers : Observers
  clock : Clock τ
  before : Snapshot τ
  dirty : Watched Bool
  visible : Watched Bool

namespace Player

variable {τ σ : Type}

def control (p : Player τ σ) : Control τ :=
  ⟨p.scheduler, p.observers, p.clock, p.before, p.dirty, p.visible⟩

theorem Draws.control {p q : Player τ σ} (h : Draws p q) : q.control = p.control := by
  obtain ⟨_, _, _, _, _, _, rfl⟩ := h
  rfl

theorem runFrame_control [Time τ] [Surface σ] {p : Player τ σ} (visible : p.visible.value = true)
    (elapsed : τ) :
    (p.runFrame elapsed).control = ((p.tick elapsed).2.setDirty false).control :=
  (runFrame_draws visible elapsed).control

end Player

end TurtlePlayback.Session
