import TurtlePlayback.Proofs.ChangeNotices
import TurtlePlayback.Proofs.PlayerReferences
import TurtlePlayback.Proofs.PlayingCast

namespace TurtlePlayback.Session

open Artifact Canvas Playback

/-- What a player shows, and what that depends on. -/
structure Stage (τ σ : Type) where
  clock : Clock τ
  visible : Watched Bool
  speed : Watched Nat
  resolution : Watched Resolution
  viewport : Viewport
  surface : σ
  draw : DrawList
  cast : Cast
  stats : Stats

mutual

/-- Whether an operation is about how a script is played, and not about which. -/
def Edit.isPlayback {τ : Type} : Edit τ → Bool
  | .setSource _ => false
  | .switchScript _ => false
  | .load => false
  | .teardown => false
  | .refresh _ => false
  | .batch es => Edit.arePlayback es
  | _ => true

def Edit.arePlayback {τ : Type} : List (Edit τ) → Bool
  | [] => true
  | e :: es => e.isPlayback && Edit.arePlayback es

end

namespace Player

variable {τ σ : Type}

def stage (p : Player τ σ) : Stage τ σ where
  clock := p.clock
  visible := p.visible
  speed := p.speed
  resolution := p.resolution
  viewport := p.viewport
  surface := p.surface
  draw := p.draw
  cast := p.holdings.cast
  stats := { p.stats with compiles := 0, compileErrors := 0 }

variable {p q : Player τ σ}

theorem Brackets.stage (h : Brackets p q) : q.stage = p.stage := by
  obtain ⟨_, _, _, rfl⟩ := h
  rfl

theorem fail_stage (p : Player τ σ) (f : Failure) : (p.fail f).stage = p.stage := by
  simp only [fail]
  split <;> rfl

theorem stage_congr {h h' : Holdings} (same : q.stage = p.stage) (cast : h'.cast = h.cast) :
    ({ q with holdings := h' } : Player τ σ).stage = ({ p with holdings := h } : Player τ σ).stage :=
  congrArg₂ (fun (s : Stage τ σ) c => { s with cast := c }) same cast

structure Plays (f : Player τ σ → Player τ σ) : Prop where
  active (p : Player τ σ) : (f p).stage.cast.active = p.stage.cast.active
  stage {p q : Player τ σ} : q.stage = p.stage → (f q).stage = (f p).stage

namespace Plays

variable {f g : Player τ σ → Player τ σ}

theorem id : Plays (fun p : Player τ σ => p) :=
  ⟨fun _ => rfl, fun same => same⟩

theorem of_eq (act : Stage τ σ → Stage τ σ) (acts : ∀ p, (f p).stage = act p.stage)
    (keeps : ∀ s, (act s).cast.active = s.cast.active) : Plays f where
  active p := by rw [acts, keeps]
  stage same := by rw [acts, acts, same]

theorem comp (second : Plays g) (first : Plays f) : Plays fun p => g (f p) where
  active p := (second.active _).trans (first.active p)
  stage same := second.stage (first.stage same)

theorem setClock (change : Clock τ → Clock τ) :
    Plays fun p : Player τ σ => p.setClock (change p.clock) :=
  .of_eq (fun s => { s with clock := change s.clock }) (fun _ => rfl) fun _ => rfl

theorem batch {α : Type} [Time τ] {f : Player τ σ → α × Player τ σ}
    (body : Plays fun p => (f p).2) : Plays fun p => (p.batch f).2 where
  active p := by
    rw [(batch_brackets p f).stage]
    exact (body.active p.openBatch).trans (congrArg (·.cast.active) (openBatch_brackets p).stage)
  stage {p q} same := by
    rw [(batch_brackets p f).stage, (batch_brackets q f).stage]
    apply body.stage
    rw [(openBatch_brackets p).stage, (openBatch_brackets q).stage, same]

theorem update [Time τ] (body : Plays f) : Plays (·.update f) :=
  batch (f := fun p => ((), f p)) body

theorem setVisible [Time τ] (b : Bool) : Plays fun p : Player τ σ => p.setVisible b :=
  .update (.of_eq (fun s => { s with visible := (s.visible.set b).2 }) (fun _ => rfl) fun _ => rfl)

theorem setSpeed [Time τ] (n : Nat) : Plays fun p : Player τ σ => (p.setSpeed n).2 := by
  simp only [Player.setSpeed]
  split
  · exact id
  · dsimp only
    apply update
    exact .of_eq (fun s => { s with speed := (s.speed.set n).2 }) (fun _ => rfl) fun _ => rfl

theorem setBounds [Time τ] (a b : τ) : Plays fun p : Player τ σ => (p.setBounds a b).2 := by
  refine batch (.of_eq (fun s => { s with
    clock := (s.clock.setBounds a b).toOption.getD s.clock }) ?_ fun _ => rfl)
  intro p
  simp only [Player.stage]
  cases p.clock.setBounds a b <;> rfl

theorem clearEnvironment : Plays (fun p : Player τ σ => p.clearEnvironment) where
  active p := by
    change p.holdings.clearEnvironment.2.slots.active = p.holdings.slots.active
    rw [Holdings.clearEnvironment_slots]
  stage same := stage_congr same (Holdings.clearEnvironment_cast (congrArg Stage.cast same))

theorem startEnvironment_active (p : Player τ σ) (image : Image) :
    (p.startEnvironment image).stage.cast.active = p.stage.cast.active := by
  have slots : (p.holdings.start image).2.slots = p.holdings.slots := rfl
  simp only [startEnvironment]
  split
  · next s h started =>
    rw [started] at slots
    change (h.setEnvironment s.environment).slots.active = p.holdings.slots.active
    simp [Holdings.setEnvironment, ← slots]
  · next f h failed =>
    rw [failed] at slots
    rw [fail_stage]
    exact congrArg Slots.active slots

theorem startEnvironment_stage (same : q.stage = p.stage) {image : Image}
    (active : p.holdings.slots.active = some image) :
    (q.startEnvironment image).stage = (p.startEnvironment image).stage := by
  obtain ⟨answer, cast⟩ := Holdings.start_cast (congrArg Stage.cast same) active
  rcases started : p.holdings.start image with ⟨result, h⟩
  rcases started' : q.holdings.start image with ⟨result', h'⟩
  rw [started, started'] at answer cast
  obtain rfl : result' = result := answer
  simp only [startEnvironment, started, started']
  cases result' with
  | ok answer =>
    have filled := Holdings.setEnvironment_cast cast answer.environment
    exact congrArg₂ (fun (s : Stage τ σ) c => { s with
      cast := c, draw := s.draw.fill answer.background
      stats.starts := s.stats.starts + 1 }) same filled
  | error f =>
    rw [fail_stage, fail_stage]
    exact stage_congr same cast

theorem ensureEnvironment : Plays (fun p : Player τ σ => p.ensureEnvironment) where
  active p := by
    simp only [Player.ensureEnvironment]
    split
    · exact startEnvironment_active p _
    · rfl
  stage {p q} same := by
    have active : q.holdings.slots.active = p.holdings.slots.active :=
      congrArg (·.cast.active) same
    have environment : q.holdings.slots.environment = p.holdings.slots.environment :=
      congrArg (·.cast.environment) same
    simp only [Player.ensureEnvironment, active, environment]
    split
    · next filled => exact startEnvironment_stage same filled
    · exact same

theorem runSteps (n : Nat) : Plays (fun p : Player τ σ => p.runSteps n) := by
  induction n with
  | zero => exact id
  | succ n ih =>
    constructor
    · intro p
      simp only [Player.runSteps]
      split
      · rfl
      · next e _ =>
        have slots : (p.holdings.step e).2.slots = p.holdings.slots := rfl
        split
        · next out h stepped =>
          rw [stepped] at slots
          exact (ih.active _).trans (congrArg Slots.active slots)
        · next f h failed =>
          rw [failed] at slots
          rw [clearEnvironment.active, fail_stage]
          exact congrArg Slots.active slots
    · intro p q same
      have environment : q.holdings.slots.environment = p.holdings.slots.environment :=
        congrArg (·.cast.environment) same
      simp only [Player.runSteps, environment]
      cases p.holdings.slots.environment with
      | none => exact same
      | some e =>
        obtain ⟨answer, cast⟩ := Holdings.step_cast (congrArg Stage.cast same) e
        rcases stepped : p.holdings.step e with ⟨result, h⟩
        rcases stepped' : q.holdings.step e with ⟨result', h'⟩
        rw [stepped, stepped'] at answer cast
        obtain rfl : result' = result := answer
        simp only [stepped, stepped']
        cases result' with
        | ok out =>
          apply ih.stage
          exact congrArg₂ (fun (s : Stage τ σ) c => { s with
            cast := c, draw := (out.background.elim s.draw s.draw.fill).lines out.lines
            stats.steps := s.stats.steps + 1
            stats.segments := s.stats.segments + out.lines.size }) same cast
        | error f =>
          apply clearEnvironment.stage
          rw [fail_stage, fail_stage]
          exact congrArg₂ (fun (s : Stage τ σ) c => { s with
            cast := c, stats.stepErrors := s.stats.stepErrors + 1 }) same cast

theorem tick [Time τ] (elapsed : τ) : Plays (fun p : Player τ σ => (p.tick elapsed).2) := by
  refine .of_eq (fun s => { s with clock := (s.clock.tick elapsed true).2 }) ?_ fun _ => rfl
  intro p
  simp only [Player.tick]
  split <;> rfl

end Plays

section

variable [Surface σ]

def perform (p : Player τ σ) (advancing : Bool) : Player τ σ :=
  let p := p.ensureEnvironment
  (if advancing then p.runSteps p.speed.value else p).flush

namespace Plays

theorem flush : Plays (fun p : Player τ σ => p.flush) := by
  refine .of_eq (fun s => if s.draw.isEmpty then s else { s with
    surface := (Surface.render s.surface s.draw s.viewport.ratio).2, draw := #[] }) ?_ ?_
  · intro p
    simp only [Player.flush, apply_ite Player.stage]
    rfl
  · intro s
    split <;> rfl

theorem resetEnvironment : Plays (fun p : Player τ σ => p.resetEnvironment) := by
  have cleared : Plays fun p : Player τ σ => p.clearCanvas.schedule :=
    .of_eq (fun s => { s with surface := Surface.clear s.surface }) (fun _ => rfl) fun _ => rfl
  exact cleared.comp clearEnvironment

theorem applyViewport (v : Viewport) (r : Resolution) :
    Plays (fun p : Player τ σ => (p.applyViewport v r).2) := by
  refine .of_eq (fun s => { s with
    viewport := v, resolution := (s.resolution.set r).2
    surface := if (s.resolution.set r).1 then (Surface.resize s.surface r).2 else s.surface })
    ?_ fun _ => rfl
  intro p
  simp only [Player.applyViewport, Player.stage]
  split
  · split <;> simp_all [mark]
  · simp_all

theorem setViewport [Time τ] (v : Viewport) : Plays fun p : Player τ σ => (p.setViewport v).2 := by
  simp only [Player.setViewport]
  split
  · exact id
  · exact id
  · exact batch (applyViewport v _)

theorem perform (advancing : Bool) : Plays (fun p : Player τ σ => p.perform advancing) := by
  refine flush.comp ?_
  cases advancing with
  | false => exact ensureEnvironment
  | true =>
    constructor
    · intro p
      exact ((runSteps _).active _).trans (ensureEnvironment.active p)
    · intro p q same
      have started := ensureEnvironment.stage same
      have speed : q.ensureEnvironment.speed = p.ensureEnvironment.speed :=
        congrArg Stage.speed started
      simp only [↓reduceIte, speed]
      exact (runSteps _).stage started

end Plays

end

structure Steady (p : Player τ σ) : Prop where
  account : p.holdings.Accounted []
  active : p.holdings.slots.active.isSome = true

/-- Two players that show the same, and play `image`. -/
structure Alike (image : Image) (p q : Player τ σ) : Prop where
  stage : q.stage = p.stage
  active : p.stage.cast.active = some image

namespace Alike

variable {image : Image}

theorem plays {f : Player τ σ → Player τ σ} (alike : Alike image p q) (plays : Plays f) :
    Alike image (f p) (f q) :=
  ⟨plays.stage alike.stage, (plays.active p).trans alike.active⟩

theorem brackets {p' q' : Player τ σ} (alike : Alike image p q) (left : Brackets p p')
    (right : Brackets q q') : Alike image p' q' :=
  ⟨by rw [left.stage, right.stage, alike.stage], by rw [left.stage, alike.active]⟩

theorem steady (alike : Alike image p q) (left : p.holdings.Accounted [])
    (right : q.holdings.Accounted []) : p.Steady ∧ q.Steady := by
  have active : p.holdings.slots.active = some image := alike.active
  have active' : q.holdings.slots.active = some image :=
    (congrArg (·.cast.active) alike.stage).trans alike.active
  exact ⟨⟨left, by rw [active]; rfl⟩, ⟨right, by rw [active']; rfl⟩⟩

end Alike

theorem recompile_stage (steady : p.Steady) : p.recompile.stage = p.stage := by
  have account := (recompile_moves p).accounted steady.account
  have behind := (Holdings.Backstage.compile p.holdings p.source).trans
    (.assignPending _ (p.holdings.compile p.source).1.toOption)
  obtain ⟨_, _, _, _, _, _, compiled⟩ := recompile_eq p
  rw [compiled] at account ⊢
  have cast := behind.cast steady.account account
  exact congrArg (fun c => { p.stage with cast := c }) cast

variable [Surface σ]

theorem promoteFirst_of_active (active : p.holdings.slots.active.isSome = true) :
    p.promoteFirst = p := by
  obtain ⟨image, filled⟩ := Option.isSome_iff_exists.mp active
  simp [promoteFirst, filled]

variable [Time τ]

theorem runFrame_performs (steady : p.Steady) (visible : p.visible.value = true) (elapsed : τ) :
    ∃ r : Player τ σ,
      r.stage = (tick { p with stats.frames := p.stats.frames + 1 } elapsed).2.stage ∧
      p.runFrame elapsed = r.perform (p.clock.tick elapsed true).1 := by
  let counted : Player τ σ := { p with stats.frames := p.stats.frames + 1 }
  let ticked := (counted.tick elapsed).2
  have holdings : ticked.holdings = p.holdings := tick_holdings counted elapsed
  have steady' : ticked.Steady := ⟨holdings ▸ steady.account, holdings ▸ steady.active⟩
  let compiled := if ticked.dirty.value then ticked.recompile else ticked
  have stage : compiled.stage = ticked.stage := by
    simp only [compiled]
    split
    · exact recompile_stage steady'
    · rfl
  have active : compiled.holdings.slots.active.isSome = true := by
    have same : compiled.holdings.slots.active = ticked.holdings.slots.active :=
      congrArg (·.cast.active) stage
    rw [same]
    exact steady'.active
  refine ⟨compiled, stage, ?_⟩
  simp only [runFrame, visible, ↓reduceIte]
  change flush (if _ then runSteps (ensureEnvironment compiled.promoteFirst) _
    else ensureEnvironment compiled.promoteFirst) = _
  rw [promoteFirst_of_active active]
  rfl

namespace Alike

variable {image : Image}

theorem runFrame (alike : Alike image p q) (left : p.holdings.Accounted [])
    (right : q.holdings.Accounted []) (elapsed : τ) :
    Alike image (p.runFrame elapsed) (q.runFrame elapsed) := by
  obtain ⟨steady, steady'⟩ := alike.steady left right
  have visible : q.visible.value = p.visible.value := congrArg (·.visible.value) alike.stage
  cases shown : p.visible.value with
  | false =>
    simp only [Player.runFrame, shown, visible.trans shown]
    exact alike
  | true =>
    obtain ⟨r, stage, performs⟩ := runFrame_performs steady shown elapsed
    obtain ⟨r', stage', performs'⟩ := runFrame_performs steady' (visible.trans shown) elapsed
    have counted : Plays fun p : Player τ σ =>
        { p with stats.frames := p.stats.frames + 1 } :=
      .of_eq (fun s => { s with stats.frames := s.stats.frames + 1 }) (fun _ => rfl) fun _ => rfl
    have ticked := alike.plays ((Plays.tick elapsed).comp counted)
    have begun : Alike image r r' :=
      ⟨by rw [stage, stage', ticked.stage], by rw [stage, ticked.active]⟩
    have clock : q.clock = p.clock := congrArg Stage.clock alike.stage
    rw [performs, performs', clock]
    exact begun.plays (.perform _)

mutual

theorem edit {p q : Player τ σ} (alike : Alike image p q) (left : p.holdings.Accounted [])
    (right : q.holdings.Accounted []) (e : Edit τ) (allowed : e.isPlayback = true) :
    Alike image (p.edit e).2 (q.edit e).2 := by
  have opened : Alike image p.openBatch q.openBatch :=
    alike.brackets (openBatch_brackets p) (openBatch_brackets q)
  cases e with
  | setVisible b => exact alike.plays (.setVisible b)
  | setViewport v => exact alike.plays (.setViewport v)
  | setSpeed n => exact alike.plays (.setSpeed n)
  | play => exact alike.plays (.update (.setClock Clock.play))
  | pause => exact alike.plays (.update (.setClock Clock.pause))
  | playPause => exact alike.plays (.update (.setClock Clock.playPause))
  | stop => exact alike.plays (.update (Plays.resetEnvironment.comp (.setClock Clock.stop)))
  | restart => exact alike.plays (.update (Plays.resetEnvironment.comp (.setClock Clock.rewind)))
  | setBounds a b => exact alike.plays (.setBounds a b)
  | setMode m => exact alike.plays (.update (.setClock (Clock.setMode · m)))
  | frame elapsed =>
    have framed := opened.runFrame left right elapsed
    exact framed.brackets (update_brackets p _) (update_brackets q _)
  | batch es =>
    have edited := editAll opened left right es allowed
    exact edited.brackets (batch_brackets p (·.editAll es)) (batch_brackets q (·.editAll es))
  | _ => cases allowed

theorem editAll {p q : Player τ σ} (alike : Alike image p q) (left : p.holdings.Accounted [])
    (right : q.holdings.Accounted []) (es : List (Edit τ)) (allowed : Edit.arePlayback es = true) :
    Alike image (p.editAll es).2 (q.editAll es).2 := by
  cases es with
  | nil => exact alike
  | cons e es =>
    rw [Edit.arePlayback, Bool.and_eq_true] at allowed
    have first := edit alike left right e allowed.1
    exact editAll first ((edit_moves p e).accounted left) ((edit_moves q e).accounted right) es
      allowed.2

end

mutual

theorem visits {p q : Player τ σ} (alike : Alike image p q) (left : p.holdings.Accounted [])
    (right : q.holdings.Accounted []) (e : Edit τ) (allowed : e.isPlayback = true) :
    (q.visits e).map Player.stage = (p.visits e).map Player.stage := by
  have edited := alike.edit left right e allowed
  cases e with
  | batch es =>
    have opened : Alike image p.openBatch q.openBatch :=
      alike.brackets (openBatch_brackets p) (openBatch_brackets q)
    have inside := visitsAll opened left right es allowed
    simp only [Player.visits, List.map_append, List.map_singleton, inside, edited.stage]
  | _ => simp only [Player.visits, List.map_singleton, edited.stage]

theorem visitsAll {p q : Player τ σ} (alike : Alike image p q) (left : p.holdings.Accounted [])
    (right : q.holdings.Accounted []) (es : List (Edit τ)) (allowed : Edit.arePlayback es = true) :
    (q.visitsAll es).map Player.stage = (p.visitsAll es).map Player.stage := by
  cases es with
  | nil => rfl
  | cons e es =>
    rw [Edit.arePlayback, Bool.and_eq_true] at allowed
    have first := visits alike left right e allowed.1
    have later := visitsAll (alike.edit left right e allowed.1)
      ((edit_moves p e).accounted left) ((edit_moves q e).accounted right) es allowed.2
    simp only [Player.visitsAll, List.map_append, first, later]

end

end Alike

theorem Reached.accounted {surface : σ} {c : Config τ} (reached : Reached surface c p) :
    p.holdings.Accounted [] := by
  induction reached with
  | created made =>
    obtain ⟨s, clock, r, rfl⟩ := create_eq made
    exact .empty
  | edited e _ account => exact (edit_moves _ e).accounted account
  | subscribed mask _ account => exact account
  | unsubscribed id _ account => exact account

/-- With an image active a new text changes nothing on stage, neither at once nor in any operation
of the playback that follows. -/
theorem edit_undisturbing {surface : σ} {c : Config τ} {es : List (Edit τ)}
    (reached : Reached surface c p) (visited : q ∈ p :: p.visitsAll es)
    (active : q.holdings.slots.active.isSome = true) (source : String) {later : List (Edit τ)}
    (allowed : Edit.arePlayback later = true) :
    (q.setSource source :: (q.setSource source).visitsAll later).map stage =
      (q :: q.visitsAll later).map stage := by
  have account : q.holdings.Accounted [] := by
    rcases List.mem_cons.mp visited with rfl | inside
    · exact reached.accounted
    · exact (visited_moves inside).accounted reached.accounted
  obtain ⟨image, filled⟩ := Option.isSome_iff_exists.mp active
  have edited : (q.setSource source).stage = q.stage := by
    rw [setSource, (update_brackets q _).stage]
    rfl
  have alike : Alike image q (q.setSource source) := ⟨edited, filled⟩
  have account' := (edit_moves q (.setSource source)).accounted account
  rw [List.map_cons, List.map_cons, edited, alike.visitsAll account account' later allowed]

theorem edit_undisturbing_failing :
    ∃ (p : Player Float Recording) (later : List (Edit Float)),
      Reached { resolution := ⟨512, 512⟩ } Config.default p ∧
      p.holdings.slots.active.isSome = true ∧ Edit.arePlayback later = true ∧
      (p.editAll later).2.stats.stepErrors = 3 ∧ (p.editAll later).2.stats.starts = 3 ∧
      (p.editAll later).2.stats.compileErrors = 0 ∧
      ((p.setSource "goto(").editAll later).2.stats.compileErrors = 1 ∧
      (p.setSource "goto(" :: (p.setSource "goto(").visitsAll later).map stage =
        (p :: p.visitsAll later).map stage := by
  let start : Player Float Recording := opening { resolution := ⟨512, 512⟩ }
  let p := ((start.edit (.setSource "goto(10, 0)\nassert(step < 1)")).2.edit (.refresh 0.0)).2
  let later : List (Edit Float) := [.frame 16.0, .restart, .setSpeed 2, .batch [.frame 16.0, .stop],
    .frame 16.0]
  have created : Player.create { resolution := ⟨512, 512⟩ } Config.default = .ok start :=
    create_opening rfl
  have reached : Reached { resolution := ⟨512, 512⟩ } Config.default p :=
    .edited _ (.edited _ (.created created))
  have active : p.holdings.slots.active.isSome = true := by decide +kernel
  have allowed : Edit.arePlayback later = true := by decide
  have counts : (p.editAll later).2.stats.stepErrors = 3 ∧ (p.editAll later).2.stats.starts = 3 ∧
      (p.editAll later).2.stats.compileErrors = 0 ∧
      ((p.setSource "goto(").editAll later).2.stats.compileErrors = 1 := by
    decide +kernel
  have same := edit_undisturbing reached (List.mem_cons_self (l := p.visitsAll [])) active "goto("
    allowed
  exact ⟨p, later, reached, active, allowed, counts.1, counts.2.1, counts.2.2.1, counts.2.2.2, same⟩

end Player

end TurtlePlayback.Session
