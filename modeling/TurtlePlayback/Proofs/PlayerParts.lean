import Mathlib.Logic.Relation
import TurtlePlayback.Proofs.FrameParts
import TurtlePlayback.Proofs.PlayerRuns

/-!
Operations taken apart. Whatever a player does is a chain of few parts, apart from the sizes that it
is given, so what the parts and the sizes keep holds in every state of every run, in the middle of
batches too.
-/

namespace TurtlePlayback.Session

open Artifact Canvas Playback

variable {τ σ : Type}

def Edit.isPlain : Edit τ → Bool
  | .setViewport _ => false
  | .batch _ => false
  | _ => true

namespace Player

variable {p q : Player τ σ}

theorem runSteps_idle (idle : p.holdings.slots.environment = none) (n : Nat) : p.runSteps n = p := by
  cases n with
  | zero => rfl
  | succ n => simp only [runSteps, idle]

theorem clearEnvironment_idle (p : Player τ σ) :
    p.clearEnvironment.holdings.slots.environment = none := by
  simp only [clearEnvironment, Holdings.clearEnvironment]
  cases p.holdings.slots.environment <;> rfl

theorem runSteps_once (p : Player τ σ) (n : Nat) : p.runSteps (n + 1) = (p.runSteps 1).runSteps n := by
  cases running : p.holdings.slots.environment with
  | none => rw [runSteps_idle running, runSteps_idle running, runSteps_idle running]
  | some e =>
    simp only [runSteps, running]
    rcases p.holdings.step e with ⟨_ | _, h⟩
    · exact (runSteps_idle (clearEnvironment_idle _) n).symm
    · rfl

variable [Surface σ]

inductive Part : Player τ σ → Player τ σ → Prop
  /-- All that decides when frames run, how far they go and who is told. -/
  | govern (p : Player τ σ) (scheduler : Scheduler τ) (observers : Observers) (clock : Clock τ)
    (before : Snapshot τ) (visible : Watched Bool) (speed : Watched Nat) :
    Part p { p with scheduler, observers, clock, before, visible, speed }
  | rewrite (p : Player τ σ) (source : String) : Part p ({ p with source }.setDirty true)
  | count (p : Player τ σ) : Part p { p with stats.frames := p.stats.frames + 1 }
  | clearCanvas (p : Player τ σ) : Part p p.clearCanvas
  | clearEnvironment (p : Player τ σ) : Part p p.clearEnvironment
  | clearImages (p : Player τ σ) :
    Part p { p with holdings := p.holdings.clearActive.2.clearPending }
  | promote (p : Player τ σ) : Part p p.promote
  | teardown (p : Player τ σ) : Part p p.teardown
  | recompile {p : Player τ σ} (dirty : p.dirty.value = true) : Part p p.recompile
  | start {p : Player τ σ} {image : Image} (idle : p.holdings.slots.environment = none)
    (active : p.holdings.slots.active = some image) : Part p (p.startEnvironment image)
  | step {p : Player τ σ} {e : Running} (running : p.holdings.slots.environment = some e) :
    Part p (p.runSteps 1)
  | flush (p : Player τ σ) : Part p p.flush

abbrev Parts : Player τ σ → Player τ σ → Prop :=
  Relation.ReflTransGen Part

theorem Brackets.part (h : Brackets p q) : Part p q := by
  obtain ⟨scheduler, observers, before, rfl⟩ := h
  exact .govern p scheduler observers p.clock before p.visible p.speed

theorem runSteps_parts (p : Player τ σ) (n : Nat) : Parts p (p.runSteps n) := by
  induction n generalizing p with
  | zero => exact .refl
  | succ n ih =>
    rw [runSteps_once]
    cases running : p.holdings.slots.environment with
    | none =>
      rw [runSteps_idle running]
      exact ih p
    | some e => exact .head (.step running) (ih _)

theorem resetEnvironment_parts (p : Player τ σ) : Parts p p.resetEnvironment := by
  have emptied : Parts p p.clearEnvironment.clearCanvas :=
    (Relation.ReflTransGen.single (.clearEnvironment p)).tail (.clearCanvas _)
  exact emptied.tail (Brackets.part ⟨_, _, _, rfl⟩)

theorem promoteFirst_parts (p : Player τ σ) : Parts p p.promoteFirst := by
  simp only [promoteFirst]
  split
  · exact ((Relation.ReflTransGen.single (.promote p)).tail (.clearEnvironment _)).tail
      (.clearCanvas _)
  · exact .refl

theorem ensureEnvironment_parts (p : Player τ σ) : Parts p p.ensureEnvironment := by
  simp only [ensureEnvironment]
  split
  · next idle active => exact .single (.start idle active)
  · exact .refl

variable [Time τ]

theorem tick_part (p : Player τ σ) (elapsed : τ) : Part p (p.tick elapsed).2 := by
  simp only [tick]
  split <;> exact .govern p _ _ _ _ _ _

theorem runFrame_parts (p : Player τ σ) (elapsed : τ) : Parts p (p.runFrame elapsed) := by
  simp only [runFrame]
  split
  · have counted : Parts p { p with stats.frames := p.stats.frames + 1 } := .single (.count p)
    have ticked := counted.tail (tick_part _ elapsed)
    refine Relation.ReflTransGen.tail ?_ (.flush _)
    generalize (tick { p with stats.frames := p.stats.frames + 1 } elapsed).2 = ticking at ticked
    have compiled : Parts p (if ticking.dirty.value then ticking.recompile else ticking) := by
      split
      · next dirty => exact ticked.tail (.recompile dirty)
      · exact ticked
    have started := (compiled.trans (promoteFirst_parts _)).trans (ensureEnvironment_parts _)
    split
    · exact started.trans (runSteps_parts _ _)
    · exact started
  · exact .refl

theorem batch_parts {α : Type} {f : Player τ σ → α × Player τ σ}
    (body : Parts p.openBatch (f p.openBatch).2) : Parts p (p.batch f).2 :=
  .head (openBatch_brackets p).part (body.tail (batch_brackets p f).part)

theorem update_parts {f : Player τ σ → Player τ σ} (body : Parts p.openBatch (f p.openBatch)) :
    Parts p (p.update f) :=
  batch_parts (f := fun p => ((), f p)) body

omit [Time τ] in
theorem setClock_part (p : Player τ σ) (c : Clock τ) : Part p (p.setClock c) :=
  .govern p _ _ c _ _ _

theorem frame_parts (p : Player τ σ) (elapsed : τ) : Parts p (p.frame elapsed) :=
  update_parts (runFrame_parts _ elapsed)

theorem refresh_parts (p : Player τ σ) (now : τ) : Parts p (p.refresh now).2 := by
  simp only [refresh]
  split
  · exact .single (Brackets.part ⟨_, _, _, rfl⟩)
  · next elapsed scheduler _ =>
    let q : Player τ σ := { p with scheduler }
    exact .head (Brackets.part (q := q) ⟨_, _, _, rfl⟩)
      ((frame_parts q elapsed).tail (Brackets.part ⟨_, _, _, rfl⟩))

theorem edit_parts (p : Player τ σ) (e : Edit τ) (plain : e.isPlain = true) :
    Parts p (p.edit e).2 := by
  cases e with
  | setSource s =>
    simp only [edit, setSource]
    exact update_parts (.single (.rewrite _ s))
  | switchScript s =>
    simp only [edit, switchScript]
    apply update_parts
    exact ((Relation.ReflTransGen.single (.clearImages _)).tail (.clearCanvas _)).tail (.rewrite _ s)
  | setVisible b =>
    simp only [edit, setVisible]
    exact update_parts (.single (.govern _ _ _ _ _ _ _))
  | setViewport v => cases plain
  | setSpeed n =>
    simp only [edit, setSpeed]
    split
    · exact .refl
    · dsimp only
      exact update_parts (.single (.govern _ _ _ _ _ _ _))
  | play =>
    simp only [edit, play]
    exact update_parts (.single (setClock_part _ _))
  | pause =>
    simp only [edit, pause]
    exact update_parts (.single (setClock_part _ _))
  | playPause =>
    simp only [edit, playPause]
    exact update_parts (.single (setClock_part _ _))
  | stop =>
    simp only [edit, stop]
    exact update_parts (.head (setClock_part _ _) (resetEnvironment_parts _))
  | restart =>
    simp only [edit, restart]
    exact update_parts (.head (setClock_part _ _) (resetEnvironment_parts _))
  | load =>
    simp only [edit, load]
    apply batch_parts
    split
    · exact .head (.promote _) (resetEnvironment_parts _)
    · exact .refl
  | setBounds a b =>
    simp only [edit, setBounds]
    apply batch_parts
    split
    · exact .single (setClock_part _ _)
    · exact .refl
  | setMode m =>
    simp only [edit, setMode]
    exact update_parts (.single (setClock_part _ _))
  | teardown => exact .single (.teardown p)
  | frame elapsed => exact frame_parts p elapsed
  | refresh now => exact refresh_parts p now
  | batch es => cases plain

omit [Time τ] in
theorem Parts.preserve {I : Player τ σ → Prop} (step : ∀ {p q}, Part p q → I p → I q)
    (parts : Parts p q) (start : I p) : I q := by
  induction parts with
  | refl => exact start
  | tail _ part ih => exact step part ih

omit [Time τ] in
/-- What every part keeps, and every size that is asked for, whether it is taken or not. -/
structure Kept (I : Player τ σ → Prop) : Prop where
  part : ∀ {p q}, Part p q → I p → I q
  size : ∀ {p v r}, v.resolution = .ok r → I p → I (p.applyViewport v r).2

variable {I : Player τ σ → Prop}

theorem Kept.setViewport (kept : Kept I) (v : Viewport) (start : I p) : I (p.setViewport v).2 := by
  simp only [Player.setViewport]
  split
  · exact start
  · exact start
  · next found =>
    have opened := kept.part (openBatch_brackets p).part start
    exact kept.part (batch_brackets p _).part (kept.size found opened)

mutual

theorem Kept.edit (kept : Kept I) {p : Player τ σ} (e : Edit τ) (start : I p) : I (p.edit e).2 := by
  cases e with
  | setViewport v => exact kept.setViewport v start
  | batch es =>
    have opened := kept.part (openBatch_brackets p).part start
    have closed := (batch_brackets p fun p => p.editAll es).part
    exact kept.part closed (kept.editAll es opened)
  | _ => exact (edit_parts p _ rfl).preserve kept.part start

theorem Kept.editAll (kept : Kept I) {p : Player τ σ} (es : List (Edit τ)) (start : I p) :
    I (p.editAll es).2 := by
  cases es with
  | nil => exact start
  | cons e es => exact kept.editAll es (kept.edit e start)

end

theorem Kept.visited (kept : Kept I) {es : List (Edit τ)} (start : I p)
    (visited : q ∈ p :: p.visitsAll es) : I q := by
  rcases List.mem_cons.mp visited with rfl | later
  · exact start
  · exact visitsAll_preserve (fun r => kept.part (openBatch_brackets r).part)
      (fun _ e => kept.edit e) es start later

end Player

end TurtlePlayback.Session
