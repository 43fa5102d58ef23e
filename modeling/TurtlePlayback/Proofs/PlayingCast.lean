import TurtlePlayback.Proofs.LivingImages

namespace TurtlePlayback.Artifact

namespace Engine

variable {g g' : Engine}

theorem start_images (g : Engine) (image : Image) : (g.start image).2.images = g.images := by
  simp only [start]
  split
  · rfl
  · split <;> rfl

theorem step_images (g : Engine) (e : Running) : (g.step e).2.images = g.images := by
  simp only [step]
  split
  · rfl
  · split <;> rfl

theorem start_congr {image : Image}
    (program : g'.images.get image.number = g.images.get image.number)
    (environments : g'.environments = g.environments) (steps : g'.steps = g.steps) :
    (g'.start image).1 = (g.start image).1 ∧
      (g'.start image).2.environments = (g.start image).2.environments ∧
      (g'.start image).2.steps = (g.start image).2.steps := by
  simp only [start, program, environments]
  split
  · exact ⟨rfl, environments, steps⟩
  · split
    · exact ⟨rfl, environments, steps⟩
    · exact ⟨rfl, rfl, steps⟩

theorem step_congr (environments : g'.environments = g.environments) (steps : g'.steps = g.steps)
    (e : Running) : (g'.step e).1 = (g.step e).1 ∧
      (g'.step e).2.environments = (g.step e).2.environments ∧
      (g'.step e).2.steps = (g.step e).2.steps := by
  simp only [step, environments, steps]
  split
  · exact ⟨rfl, rfl, rfl⟩
  · split <;> exact ⟨rfl, rfl, rfl⟩

end Engine

structure Cast where
  active : Option Image
  program : Option (Except Misuse Script.Program)
  environment : Option Running
  environments : Table Environment
  steps : Nat

namespace Holdings

def cast (h : Holdings) : Cast where
  active := h.slots.active
  program := h.slots.active.map (h.engine.images.get ·.number)
  environment := h.slots.environment
  environments := h.engine.environments
  steps := h.engine.steps

variable {h h' : Holdings}

theorem cast_note {g : Engine} (images : g.images = h.engine.images) (e : Event) :
    (h.note e g).cast = { h.cast with environments := g.environments, steps := g.steps } := by
  simp only [cast, note, images]

theorem release_cast (h : Holdings) (e : Running) : (h.release e).cast = { h.cast with
    environments := (h.cast.environments.release e.number).toOption.elim h.cast.environments (·.2) } := by
  simp only [release, Engine.release, cast]
  cases h.engine.environments.release e.number <;> rfl

theorem releaseAny_cast (same : h'.cast = h.cast) (e : Option Running) :
    (h'.releaseAny e).cast = (h.releaseAny e).cast := by
  cases e with
  | none => exact same
  | some e =>
    have released := release_cast h' e
    rw [same, ← release_cast h e] at released
    exact released

theorem clearEnvironment_cast (same : h'.cast = h.cast) :
    h'.clearEnvironment.2.cast = h.clearEnvironment.2.cast := by
  have before : h'.slots.environment = h.slots.environment := congrArg Cast.environment same
  simp only [clearEnvironment, before]
  apply releaseAny_cast
  exact congrArg (fun c => { c with environment := none }) same

theorem setEnvironment_cast (same : h'.cast = h.cast) (e : Running) :
    (h'.setEnvironment e).cast = (h.setEnvironment e).cast := by
  have before : h'.slots.environment = h.slots.environment := congrArg Cast.environment same
  simp only [setEnvironment, before]
  apply releaseAny_cast
  exact congrArg (fun c => { c with environment := some e }) same

theorem start_cast (same : h'.cast = h.cast) {image : Image}
    (active : h.slots.active = some image) :
    (h'.start image).1 = (h.start image).1 ∧ (h'.start image).2.cast = (h.start image).2.cast := by
  obtain ⟨active', program, -, environments, steps⟩ := Cast.mk.inj same
  rw [active', active, Option.map_some, Option.map_some, Option.some.injEq] at program
  obtain ⟨answer, started, counted⟩ := Engine.start_congr program environments steps
  rw [start_eq, start_eq, cast_note (Engine.start_images _ _), cast_note (Engine.start_images _ _),
    same, started, counted]
  exact ⟨answer, rfl⟩

theorem step_cast (same : h'.cast = h.cast) (e : Running) :
    (h'.step e).1 = (h.step e).1 ∧ (h'.step e).2.cast = (h.step e).2.cast := by
  obtain ⟨-, -, -, environments, steps⟩ := Cast.mk.inj same
  obtain ⟨answer, stepped, counted⟩ := Engine.step_congr environments steps e
  rw [step_eq, step_eq, cast_note (Engine.step_images _ _), cast_note (Engine.step_images _ _),
    same, stepped, counted]
  exact ⟨answer, rfl⟩

structure Backstage (h h' : Holdings) : Prop where
  silent : h.Silent h'
  slots : { h'.slots with pending := none } = { h.slots with pending := none }
  environments : h'.engine.environments = h.engine.environments
  steps : h'.engine.steps = h.engine.steps

namespace Backstage

theorem trans {h'' : Holdings} (first : h.Backstage h') (second : h'.Backstage h'') :
    h.Backstage h'' :=
  ⟨first.silent.trans second.silent, second.slots.trans first.slots,
    second.environments.trans first.environments, second.steps.trans first.steps⟩

theorem compile (h : Holdings) (source : String) : h.Backstage (h.compile source).2 := by
  refine ⟨.compile h source, rfl, Engine.compile_environments _ _, ?_⟩
  simp only [compile_eq, note, Engine.compile]
  split <;> rfl

theorem assignPending (h : Holdings) (image : Option Image) :
    h.Backstage (h.assignPending image) := by
  have released (h : Holdings) (i : Option Image) :
      (h.releaseAny i).engine.environments = h.engine.environments ∧
        (h.releaseAny i).engine.steps = h.engine.steps := by
    cases i with
    | none => exact ⟨rfl, rfl⟩
    | some i =>
      simp only [releaseAny, Option.elim_some, release, note, Engine.release]
      cases h.engine.images.release i.number <;> exact ⟨rfl, rfl⟩
  have slots : { (h.assignPending image).slots with pending := none } =
      { h.slots with pending := none } := by
    rw [assignPending_slots]
  refine ⟨.assignPending h image, slots, ?_, ?_⟩
  · simp only [Holdings.assignPending]
    split <;> exact (released _ _).1
  · simp only [Holdings.assignPending]
    split <;> exact (released _ _).2

theorem cast (behind : h.Backstage h') (before : h.Accounted []) (after : h'.Accounted []) :
    h'.cast = h.cast := by
  obtain ⟨-, active, environment⟩ := Slots.mk.inj behind.slots
  have kept : ∀ image ∈ h.slots.active,
      h'.engine.images.get image.number = h.engine.images.get image.number := by
    intro image filled
    rw [Option.mem_def] at filled
    rw [filled] at active
    exact behind.silent.image_eq before after (by simp [Slots.held, filled])
      (by simp [Slots.held, active])
  simp only [Holdings.cast, active, environment, behind.environments, behind.steps,
    Option.map_congr kept]

end Backstage

end Holdings

end TurtlePlayback.Artifact
