import TurtlePlayback.Proofs.PlayedScenes

namespace TurtlePlayback

namespace Artifact.Engine

theorem Calls.compiled_once {g : Engine} {events : List Event} {source : String} {image : Image}
    (calls : Calls {} events g) (member : .compile source (some image) ∈ events) :
    image.number ≤ g.images.issued ∧ ∃ p, Script.Program.compile source = .ok p ∧
      ∀ q, g.images.get image.number = .ok q → q = p := by
  induction calls with
  | nil => cases member
  | @snoc events g g' e calls call ih =>
    rw [List.mem_append, List.mem_singleton] at member
    rcases member with before | here
    · obtain ⟨issued, p, compiled, only⟩ := ih before
      have continued := g.images_after e
      rw [call.after_eq] at continued
      refine ⟨issued.trans continued.issued, p, compiled, ?_⟩
      intro q found
      rcases continued.old_or_new found with old | new
      · exact only q old
      · exact absurd new (Nat.not_lt.mpr issued)
    · cases call with
      | compile text =>
        obtain ⟨rfl, answer⟩ := Event.compile.inj here
        cases compiled : Script.Program.compile source with
        | error f => simp [compile, compiled, Except.toOption] at answer
        | ok p =>
          obtain ⟨given, found⟩ := compile_ok g compiled
          have issued : (g.compile source).2.images.issued = g.images.issued + 1 := by
            simp [compile, compiled, Table.insert, Table.issued]
          rw [given] at answer
          obtain rfl : image = ⟨g.images.issued + 1⟩ := Option.some.inj answer
          refine ⟨issued.ge, p, rfl, ?_⟩
          intro q again
          exact Except.ok.inj (again.symm.trans found)
      | _ => cases here

end Artifact.Engine

namespace Playback.Clock

variable {τ : Type} {c d : Clock τ}

theorem rewind_eq (state : d.state = c.state) (mode : d.mode = c.mode)
    (start : d.loopStart = c.loopStart) (stop : d.loopEnd = c.loopEnd) : d.rewind = c.rewind := by
  simp only [rewind, state, mode, start, stop]

end Playback.Clock

namespace Session.Player

open Artifact Canvas Playback

variable {τ : Type} [Time τ]

def Attained (surface : Recording) (c : Config τ) (p : Player τ Recording) : Prop :=
  ∃ start es, Reached surface c start ∧ p ∈ start :: start.visitsAll es

def PlaysText {σ : Type} (p : Player τ σ) (source : String) : Prop :=
  ∃ image, p.holdings.slots.active = some image ∧
    .compile source (some image) ∈ p.holdings.events

variable {surface : Recording} {c : Config τ} {p q : Player τ Recording} {source : String}

theorem Reached.editAll (reached : Reached surface c p) (es : List (Edit τ)) :
    Reached surface c (p.editAll es).2 := by
  induction es generalizing p with
  | nil => exact reached
  | cons e es ih => exact ih (.edited e reached)

theorem Attained.accounted (attained : p.Attained surface c) : p.holdings.Accounted [] := by
  obtain ⟨start, es, reached, visited⟩ := attained
  rcases List.mem_cons.mp visited with rfl | inside
  · exact reached.accounted
  · exact (visited_moves inside).accounted reached.accounted

theorem Attained.shown (attained : p.Attained surface c) : p.Shown surface := by
  obtain ⟨start, es, reached, visited⟩ := attained
  rcases List.mem_cons.mp visited with rfl | inside
  · exact reached.shown
  · exact visitsAll_preserve (I := (·.Shown surface))
      (fun r shown => shown.brackets (openBatch_brackets r)) (fun _ e shown => shown.edit e) es
      reached.shown inside

omit [Time τ] in
theorem PlaysText.program {σ : Type} {p : Player τ σ} (plays : p.PlaysText source)
    (account : p.holdings.Accounted []) :
    ∃ program, Script.Program.compile source = .ok program ∧
      p.holdings.cast.program = some (.ok program) := by
  obtain ⟨image, active, compiled⟩ := plays
  obtain ⟨-, program, built, only⟩ := account.calls.compiled_once compiled
  have alive : 0 < p.holdings.engine.images.refs image.number :=
    account.alive (k := .image) (by simp [Slots.held, active, Handle.reference])
  obtain ⟨found, get⟩ := Table.get_of_alive alive
  obtain rfl := only found get
  refine ⟨found, built, ?_⟩
  simp only [Holdings.cast, active, Option.map_some, get]

theorem restart_stage (p : Player τ Recording) :
    p.restart.stage = ((p.setClock p.clock.rewind).resetEnvironment).stage := by
  have body : Plays fun p : Player τ Recording => (p.setClock p.clock.rewind).resetEnvironment :=
    Plays.resetEnvironment.comp (.setClock Clock.rewind)
  exact (update_brackets p _).stage.trans (body.stage (openBatch_brackets p).stage)

theorem restart_inScene (shown : p.Shown surface) {program : Script.Program}
    (playing : p.holdings.cast.program = some (.ok program)) :
    p.restart.InScene
      { clock := p.clock.rewind, visible := p.visible.value, speed := p.speed.value, program } := by
  have reset : (p.setClock p.clock.rewind).resetEnvironment.InScene
      { clock := p.clock.rewind, visible := p.visible.value, speed := p.speed.value, program } := by
    refine ⟨rfl, rfl, rfl, ?_, ?_, ?_⟩
    · exact (Holdings.releaseAny_program _ _).trans playing
    · have emptied : (p.setClock p.clock.rewind).resetEnvironment.holdings.slots.environment =
          none := congrArg Slots.environment (Holdings.clearEnvironment_slots p.holdings)
      rw [emptied]
      rfl
    -- A restart does not empty the draw list: it is empty, since every frame shows all of it.
    · change (Recording.clear p.surface).commands ++ p.draw.toList = []
      rw [shown.flushed]
      rfl
  exact reset.congr p.restart_stage

theorem restart_clears (p : Player τ Recording) :
    p.restart.surface.clears = p.surface.clears + 1 :=
  congrArg (·.surface.clears) p.restart_stage

theorem Shown.frames (shown : p.Shown surface) (elapsed : List τ) :
    (elapsed.foldl frame p).Shown surface := by
  induction elapsed generalizing p with
  | nil => exact shown
  | cons ms elapsed ih => exact ih (shown.edit (.frame ms))

theorem Attained.restarted (attained : p.Attained surface c) {program : Script.Program}
    (playing : p.holdings.cast.program = some (.ok program)) (elapsed : List τ) :
    let scene : Scene τ := elapsed.foldl Scene.frame
      { clock := p.clock.rewind, visible := p.visible.value, speed := p.speed.value, program }
    (elapsed.foldl frame p.restart).surface.clears = p.surface.clears + 1 ∧
      (elapsed.foldl frame p.restart).surface.commands = scene.canvas ∧
      (elapsed.foldl frame p.restart).clock = scene.clock := by
  have account := (edit_moves p .restart).accounted attained.accounted
  have start := restart_inScene attained.shown playing
  have later := start.frames account elapsed
  have flushed := ((attained.shown.edit .restart).frames elapsed).flushed
  refine ⟨?_, ?_, later.clock⟩
  · exact (start.frames_clears account elapsed).trans p.restart_clears
  · have canvas := later.canvas
    rwa [show (elapsed.foldl frame p.restart).draw = #[] from flushed, Array.toList_empty,
      List.append_nil] at canvas

/-- Two players that play the same text at the same pace, whatever each of them has been through,
start over alike: in any frames that follow they show the same, and their clocks agree. -/
theorem restart_forgets {surface' : Recording} {c' : Config τ} (attained : p.Attained surface c)
    (attained' : q.Attained surface' c') (plays : p.PlaysText source) (plays' : q.PlaysText source)
    (state : q.clock.state = p.clock.state) (mode : q.clock.mode = p.clock.mode)
    (start : q.clock.loopStart = p.clock.loopStart) (stop : q.clock.loopEnd = p.clock.loopEnd)
    (speed : q.speed.value = p.speed.value) (visible : q.visible.value = p.visible.value)
    (elapsed : List τ) :
    let left := elapsed.foldl frame p.restart
    let right := elapsed.foldl frame q.restart
    left.surface.clears = p.surface.clears + 1 ∧ right.surface.clears = q.surface.clears + 1 ∧
      right.surface.commands = left.surface.commands ∧ right.clock = left.clock := by
  intro left right
  obtain ⟨program, compiled, playing⟩ := plays.program attained.accounted
  obtain ⟨program', compiled', playing'⟩ := plays'.program attained'.accounted
  obtain rfl : program = program' := Except.ok.inj (compiled.symm.trans compiled')
  obtain ⟨clears, shown, clock⟩ := attained.restarted playing elapsed
  obtain ⟨clears', shown', clock'⟩ := attained'.restarted playing' elapsed
  rw [Clock.rewind_eq state mode start stop, speed, visible] at shown' clock'
  exact ⟨clears, clears', shown'.trans shown.symm, clock'.trans clock.symm⟩

theorem restart_forgets_failing :
    ∃ p q : Player Float Recording,
      p.Attained { resolution := ⟨512, 512⟩ } Config.default ∧
      q.Attained { resolution := ⟨512, 512⟩ } Config.default ∧
      p.PlaysText "goto(10, 0)\nassert(step < 1)" ∧ q.PlaysText "goto(10, 0)\nassert(step < 1)" ∧
      p.holdings.slots.active ≠ q.holdings.slots.active ∧
      p.clock.direction = .forward ∧ q.clock.direction = .backward ∧
      p.stats.stepErrors = 1 ∧ q.stats.stepErrors = 0 ∧ p.dirty.value = true ∧
      let left := [16.0, 16.0, 16.0].foldl frame p.restart
      let right := [16.0, 16.0, 16.0].foldl frame q.restart
      left.surface.commands.length = 4 ∧ right.surface.commands = left.surface.commands ∧
      right.clock = left.clock := by
  let text := "goto(10, 0)\nassert(step < 1)"
  let start : Player Float Recording := opening { resolution := ⟨512, 512⟩ }
  let es : List (Edit Float) := [.setMode .reverse, .setSource text, .refresh 0.0, .refresh 16.0,
    .setSource "goto("]
  let fs : List (Edit Float) := [.setMode .reverse, .setSource "print(true)", .refresh 0.0,
    .setSource text, .refresh 15000.0, .load]
  let p := (start.editAll es).2
  let q := (start.editAll fs).2
  have created : Player.create { resolution := ⟨512, 512⟩ } Config.default = .ok start :=
    create_opening rfl
  have reached := Reached.created created
  have attained : p.Attained { resolution := ⟨512, 512⟩ } Config.default :=
    ⟨p, [], reached.editAll es, List.mem_cons_self⟩
  have attained' : q.Attained { resolution := ⟨512, 512⟩ } Config.default :=
    ⟨q, [], reached.editAll fs, List.mem_cons_self⟩
  have plays : p.PlaysText text := ⟨⟨1⟩, by decide +kernel, by decide +kernel⟩
  have plays' : q.PlaysText text := ⟨⟨2⟩, by decide +kernel, by decide +kernel⟩
  have past : p.holdings.slots.active ≠ q.holdings.slots.active ∧
      p.clock.direction = .forward ∧ q.clock.direction = .backward ∧
      p.stats.stepErrors = 1 ∧ q.stats.stepErrors = 0 ∧ p.dirty.value = true := by
    decide +kernel
  have pace : q.clock.state = p.clock.state ∧ q.clock.mode = p.clock.mode ∧
      q.clock.loopStart = p.clock.loopStart ∧ q.clock.loopEnd = p.clock.loopEnd ∧
      q.speed.value = p.speed.value ∧ q.visible.value = p.visible.value := by
    decide +kernel
  have length : ([16.0, 16.0, 16.0].foldl frame p.restart).surface.commands.length = 4 := by
    decide +kernel
  obtain ⟨state, mode, first, last, speed, visible⟩ := pace
  obtain ⟨-, -, shown, clock⟩ := restart_forgets attained attained' plays plays' state mode
    first last speed visible [16.0, 16.0, 16.0]
  exact ⟨p, q, attained, attained', plays, plays', past.1, past.2.1, past.2.2.1,
    past.2.2.2.1, past.2.2.2.2.1, past.2.2.2.2.2, length, shown, clock⟩

end Session.Player

end TurtlePlayback
