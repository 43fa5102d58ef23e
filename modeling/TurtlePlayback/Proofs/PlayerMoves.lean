import TurtlePlayback.Proofs.PlayerParts

namespace TurtlePlayback.Session

open Artifact Canvas Playback

inductive Move : Holdings → Holdings → Prop
  | clearCanvas (h : Holdings) : Move h h.noteClear
  | clearEnvironment (h : Holdings) : Move h h.clearEnvironment.2
  | clearActive (h : Holdings) : Move h h.clearActive.2
  | clearPending (h : Holdings) : Move h h.clearPending
  | promote (h : Holdings) : Move h (h.promote .share).2
  | teardown (h : Holdings) : Move h h.teardown
  | compiled {h h' : Holdings} {source : String} {image : Image}
      (done : h.compile source = (.ok image, h')) : Move h (h'.storeCompiled image)
  | rejected {h h' : Holdings} {source : String} {f : Failure}
      (failed : h.compile source = (.error f, h')) : Move h h'.clearPending
  | started {h h' : Holdings} {image : Image} {s : Started}
      (idle : h.slots.environment = none) (active : h.slots.active = some image)
      (done : h.start image = (.ok s, h')) : Move h (h'.setEnvironment s.environment)
  | notStarted {h h' : Holdings} {image : Image} {f : Failure}
      (idle : h.slots.environment = none) (active : h.slots.active = some image)
      (failed : h.start image = (.error f, h')) : Move h h'
  | stepped {h : Holdings} {e : Running} (running : h.slots.environment = some e) :
      Move h (h.step e).2

abbrev Moves :=
  Relation.ReflTransGen Move

theorem Moves.preserve {I : Holdings → Prop} (step : ∀ {h h'}, Move h h' → I h → I h')
    {h h' : Holdings} (moves : Moves h h') (start : I h) : I h' := by
  induction moves with
  | refl => exact start
  | tail _ move ih => exact step move ih

namespace Player

variable {τ σ : Type}

@[simp] theorem fail_holdings (p : Player τ σ) (f : Failure) :
    (p.fail f).holdings = p.holdings := by
  simp only [fail]
  split <;> rfl

@[simp] theorem tick_holdings [Time τ] (p : Player τ σ) (elapsed : τ) :
    (p.tick elapsed).2.holdings = p.holdings := by
  simp only [tick]
  split <;> rfl

theorem recompile_moves (p : Player τ σ) : Moves p.holdings p.recompile.holdings := by
  rcases hc : p.holdings.compile p.source with ⟨result, h⟩
  cases result with
  | ok image =>
    simp only [recompile, hc]
    exact .single (.compiled hc)
  | error f =>
    simp only [recompile, hc, fail_holdings]
    exact .single (.rejected hc)

theorem startEnvironment_moves {p : Player τ σ} {image : Image}
    (idle : p.holdings.slots.environment = none) (active : p.holdings.slots.active = some image) :
    Moves p.holdings (p.startEnvironment image).holdings := by
  rcases hs : p.holdings.start image with ⟨result, h⟩
  cases result with
  | ok s =>
    simp only [startEnvironment, hs]
    exact .single (.started idle active hs)
  | error f =>
    simp only [startEnvironment, hs, fail_holdings]
    exact .single (.notStarted idle active hs)

theorem step_moves {p : Player τ σ} {e : Running}
    (running : p.holdings.slots.environment = some e) :
    Moves p.holdings (p.runSteps 1).holdings := by
  have move : Move p.holdings (p.holdings.step e).2 := .stepped running
  simp only [runSteps, running]
  split
  · next out h hs =>
    rw [hs] at move
    exact .single move
  · next f h hs =>
    rw [hs] at move
    simp only [clearEnvironment, fail_holdings]
    exact (Relation.ReflTransGen.single move).tail (.clearEnvironment _)

variable [Surface σ]

theorem Part.moves {p q : Player τ σ} (part : Part p q) : Moves p.holdings q.holdings := by
  cases part with
  | clearCanvas => exact .single (.clearCanvas _)
  | clearEnvironment => exact .single (.clearEnvironment _)
  | clearImages => exact (Relation.ReflTransGen.single (.clearActive _)).tail (.clearPending _)
  | promote => exact .single (.promote _)
  | teardown => exact .single (.teardown _)
  | recompile _ => exact recompile_moves p
  | start idle active => exact startEnvironment_moves idle active
  | step running => exact step_moves running
  | flush =>
    simp only [Player.flush]
    split <;> exact .refl
  | _ => exact .refl

theorem applyViewport_holdings (p : Player τ σ) (v : Viewport) (r : Resolution) :
    (p.applyViewport v r).2.holdings = p.holdings := by
  simp only [applyViewport]
  split
  · split <;> rfl
  · rfl

theorem moves_kept (h : Holdings) : Kept fun q : Player τ σ => Moves h q.holdings where
  part part moves := moves.trans part.moves
  size _ moves := by
    rw [applyViewport_holdings]
    exact moves

variable [Time τ]

theorem frame_moves (p : Player τ σ) (elapsed : τ) :
    Moves p.holdings (p.frame elapsed).holdings :=
  (frame_parts p elapsed).preserve (moves_kept p.holdings).part .refl

theorem edit_moves (p : Player τ σ) (e : Edit τ) : Moves p.holdings (p.edit e).2.holdings :=
  (moves_kept p.holdings).edit e .refl

theorem visited_moves {p q : Player τ σ} {es : List (Edit τ)} (visited : q ∈ p.visitsAll es) :
    Moves p.holdings q.holdings :=
  (moves_kept p.holdings).visited .refl (List.mem_cons_of_mem _ visited)

end Player

end TurtlePlayback.Session
