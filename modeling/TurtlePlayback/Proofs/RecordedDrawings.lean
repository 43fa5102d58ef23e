import TurtlePlayback.Proofs.ChangeNotices
import TurtlePlayback.Proofs.SilentCalls

namespace TurtlePlayback.Artifact

open Canvas

namespace Engine

/-- What a call draws: a start the background that its setup asks for, a step what it paints and
behind it its lines. A call that fails draws nothing. -/
def drawing (g : Engine) : Event → List DrawCmd
  | .start image _ =>
    match (g.start image).1 with
    | .ok s => [.fill s.background]
    | .error _ => []
  | .step e =>
    match (g.step e).1 with
    | .ok out =>
      out.background.toList.map .fill ++ if out.lines.isEmpty then [] else [.lines out.lines]
    | .error _ => []
  | _ => []

def drawings (g : Engine) : List Event → List DrawCmd
  | [] => []
  | e :: calls => g.drawing e ++ (g.after e).drawings calls

theorem drawings_append (g : Engine) (calls later : List Event) :
    g.drawings (calls ++ later) = g.drawings calls ++ (calls.foldl after g).drawings later := by
  induction calls generalizing g with
  | nil => rfl
  | cons e calls ih => simp [drawings, ih]

end Engine

theorem Event.drawing_silent {e : Event} (silent : e.isSilent = true) (g : Engine) :
    g.drawing e = [] := by
  cases e <;> first | rfl | cases silent

theorem Engine.drawings_silent {calls : List Event} (silent : ∀ e ∈ calls, e.isSilent = true)
    (g : Engine) : g.drawings calls = [] := by
  induction calls generalizing g with
  | nil => rfl
  | cons e calls ih =>
    rw [List.forall_mem_cons] at silent
    rw [drawings, Event.drawing_silent silent.1, ih silent.2, List.nil_append]

end TurtlePlayback.Artifact

namespace TurtlePlayback.Canvas

theorem DrawList.toList_fill (l : DrawList) (c : Color) :
    (l.fill c).toList = l.toList ++ [.fill c] :=
  Array.toList_push

theorem DrawList.toList_lines (l : DrawList) (batch : Array Line) :
    (l.lines batch).toList = l.toList ++ if batch.isEmpty then [] else [.lines batch] := by
  simp only [lines]
  split
  · simp
  · exact Array.toList_push

theorem DrawList.toList_painted (l : DrawList) (background : Option Color) :
    (background.elim l l.fill).toList = l.toList ++ background.toList.map .fill := by
  cases background with
  | none => simp
  | some c => exact l.toList_fill c

theorem Recording.commands_render (s : Recording) (l : DrawList) :
    (s.render l).commands = s.commands ++ l.toList := by
  simp only [render]
  split
  · next empty => simp_all
  · simp [commands]

end TurtlePlayback.Canvas

namespace TurtlePlayback.Session.Player

open Artifact Canvas Playback

variable {τ : Type}

/-- `q` comes after `p` by calls that leave the canvas as it is, and behind what `p` shows and is
about to show is what they have drawn. -/
def Paints (p q : Player τ Recording) : Prop :=
  ∃ calls, p.holdings.Extends calls q.holdings ∧ .clearCanvas ∉ calls ∧
    q.surface.clears = p.surface.clears ∧
    q.surface.commands ++ q.draw.toList =
      p.surface.commands ++ p.draw.toList ++ p.holdings.engine.drawings calls

variable {p q r : Player τ Recording}

theorem Paints.trans (first : Paints p q) (second : Paints q r) : Paints p r := by
  obtain ⟨calls, extends₁, open₁, clears₁, shown₁⟩ := first
  obtain ⟨later, extends₂, open₂, clears₂, shown₂⟩ := second
  refine ⟨calls ++ later, extends₁.trans extends₂, by simp [open₁, open₂],
    clears₂.trans clears₁, ?_⟩
  rw [shown₂, shown₁, extends₁.engine, Engine.drawings_append, List.append_assoc]

theorem Paints.of_silent (silent : p.holdings.Silent q.holdings)
    (clears : q.surface.clears = p.surface.clears)
    (shown : q.surface.commands ++ q.draw.toList = p.surface.commands ++ p.draw.toList) :
    Paints p q := by
  obtain ⟨calls, extended, quiet⟩ := silent
  refine ⟨calls, extended, ?_, clears, ?_⟩
  · intro cleared
    cases quiet _ cleared
  · rw [shown, Engine.drawings_silent quiet, List.append_nil]

theorem Paints.refl (p : Player τ Recording) : Paints p p :=
  .of_silent (.of_eq rfl rfl) rfl rfl

theorem Brackets.paints (h : Brackets p q) : Paints p q := by
  obtain ⟨_, _, _, rfl⟩ := h
  exact .of_silent (.of_eq rfl rfl) rfl rfl

theorem fail_paints (p : Player τ Recording) (f : Failure) : Paints p (p.fail f) := by
  simp only [fail]
  split <;> exact .of_silent (.of_eq rfl rfl) rfl rfl

theorem clearEnvironment_paints (p : Player τ Recording) : Paints p p.clearEnvironment :=
  .of_silent (.clearEnvironment _) rfl rfl

theorem promote_paints (p : Player τ Recording) : Paints p p.promote :=
  .of_silent (.promote _) rfl rfl

theorem recompile_paints (p : Player τ Recording) : Paints p p.recompile := by
  obtain ⟨_, _, _, _, _, _, compiled⟩ := recompile_eq p
  rw [compiled]
  exact .of_silent ((Holdings.Silent.compile _ _).trans (.assignPending _ _)) rfl rfl

theorem startEnvironment_paints (p : Player τ Recording) (image : Image) :
    Paints p (p.startEnvironment image) := by
  let called : Event := .start image ((p.holdings.start image).1.toOption.map (·.environment))
  have extended := Holdings.note_extends p.holdings called
  rcases started : p.holdings.start image with ⟨result, h⟩
  have noted : p.holdings.note called (p.holdings.engine.after called) = h := by
    exact congrArg Prod.snd started
  have answer : (p.holdings.engine.start image).1 = result := congrArg Prod.fst started
  rw [noted] at extended
  simp only [startEnvironment, started]
  cases result with
  | ok s =>
    obtain ⟨calls, extended', silent⟩ := Holdings.Silent.setEnvironment h s.environment
    refine ⟨[called] ++ calls, extended.trans extended', ?_, rfl, ?_⟩
    · intro cleared
      rcases List.mem_append.mp cleared with first | later
      · have same : Event.clearCanvas = .start image _ := List.mem_singleton.mp first
        cases same
      · cases silent _ later
    · rw [Engine.drawings_append, Engine.drawings_silent silent]
      simp [Engine.drawings, Engine.drawing, called, answer, DrawList.toList_fill]
  | error f =>
    refine Paints.trans ?_ (fail_paints _ f)
    refine ⟨[called], extended, by simp [called], rfl, ?_⟩
    simp [Engine.drawings, Engine.drawing, called, answer]

theorem ensureEnvironment_paints (p : Player τ Recording) : Paints p p.ensureEnvironment := by
  simp only [ensureEnvironment]
  split
  · exact startEnvironment_paints p _
  · exact .refl p

theorem runSteps_paints (p : Player τ Recording) (n : Nat) : Paints p (p.runSteps n) := by
  induction n generalizing p with
  | zero => exact .refl p
  | succ n ih =>
    simp only [runSteps]
    split
    · exact .refl p
    · next e _ =>
      have extended := Holdings.note_extends p.holdings (.step e)
      rcases stepped : p.holdings.step e with ⟨result, h⟩
      have noted : p.holdings.note (.step e) (p.holdings.engine.after (.step e)) = h :=
        congrArg Prod.snd stepped
      have answer : (p.holdings.engine.step e).1 = result := congrArg Prod.fst stepped
      rw [noted] at extended
      cases result with
      | ok out =>
        refine Paints.trans ?_ (ih _)
        refine ⟨[.step e], extended, by simp, rfl, ?_⟩
        simp [drawStep, Engine.drawings, Engine.drawing, answer, DrawList.toList_lines,
          DrawList.toList_painted]
      | error f =>
        have failed : Paints p
            { p with holdings := h, stats.stepErrors := p.stats.stepErrors + 1 } := by
          refine ⟨[.step e], extended, by simp, rfl, ?_⟩
          simp [Engine.drawings, Engine.drawing, answer]
        exact (failed.trans (fail_paints _ f)).trans (clearEnvironment_paints _)

theorem flush_paints (p : Player τ Recording) : Paints p p.flush := by
  simp only [flush]
  split
  · exact .refl p
  · refine .of_silent (.of_eq rfl rfl) ?_ ?_
    · simp only [Surface.render, Recording.render]
      split <;> rfl
    · simp [Surface.render, Recording.commands_render]

theorem flush_draw (p : Player τ Recording) : p.flush.draw = #[] := by
  simp only [flush]
  split
  · next empty => exact Array.isEmpty_iff.mp empty
  · rfl

/-- The canvas of a player that began on `surface`: since it was cleared, or at first on what was
there already, the calls have drawn what it shows and what waits. -/
structure Shows (surface : Recording) (p : Player τ Recording) : Prop where
  engine : p.holdings.engine = p.holdings.events.foldl Engine.after {}
  clears : p.surface.clears = surface.clears + p.holdings.events.count .clearCanvas
  drawn : ∃ before since start, p.holdings.events = before ++ since ∧
    (before = [] ∧ start = surface.commands ∨ before.getLast? = some .clearCanvas ∧ start = []) ∧
    .clearCanvas ∉ since ∧ p.surface.commands ++ p.draw.toList =
      start ++ Engine.drawings (before.foldl Engine.after {}) since

structure Shown (surface : Recording) (p : Player τ Recording) : Prop
    extends p.Shows surface where
  flushed : p.draw = #[]

variable {surface : Recording}

theorem Shows.paints (shows : p.Shows surface) (painted : Paints p q) : q.Shows surface := by
  obtain ⟨calls, extended, ordinary, clears, shown⟩ := painted
  obtain ⟨before, since, start, split, fresh, untouched, drawn⟩ := shows.drawn
  have replayed : since.foldl Engine.after (before.foldl Engine.after {}) = p.holdings.engine := by
    rw [shows.engine, split, List.foldl_append]
  constructor
  · rw [extended.engine, extended.events, List.foldl_append, shows.engine]
  · rw [clears, shows.clears, extended.events, List.count_append, List.count_eq_zero.mpr ordinary]
    rfl
  · refine ⟨before, since ++ calls, start, ?_, fresh, by simp [untouched, ordinary], ?_⟩
    · rw [extended.events, split, List.append_assoc]
    · rw [shown, drawn, Engine.drawings_append, replayed, List.append_assoc]

theorem Shown.clearCanvas (shown : p.Shown surface) : p.clearCanvas.Shown surface := by
  have events : p.clearCanvas.holdings.events = p.holdings.events ++ [.clearCanvas] :=
    Holdings.events_note _ _ _
  have flushed : p.clearCanvas.draw = #[] := shown.flushed
  refine ⟨⟨?_, ?_, ?_⟩, flushed⟩
  · rw [events, List.foldl_append, ← shown.engine]
    rfl
  · rw [events, List.count_append, List.count_singleton_self, ← Nat.add_assoc, ← shown.clears]
    rfl
  · refine ⟨p.holdings.events ++ [.clearCanvas], [], [], by rw [events, List.append_nil],
      .inr ⟨List.getLast?_concat, rfl⟩, nofun, ?_⟩
    rw [flushed]
    rfl

theorem Shown.paints (shown : p.Shown surface) (painted : Paints p q) (flushed : q.draw = #[]) :
    q.Shown surface :=
  ⟨shown.toShows.paints painted, flushed⟩

theorem Shown.brackets (shown : p.Shown surface) (h : Brackets p q) : q.Shown surface := by
  refine shown.paints h.paints ?_
  obtain ⟨_, _, _, rfl⟩ := h
  exact shown.flushed

theorem Shown.congr (shown : p.Shown surface) (holdings : q.holdings = p.holdings)
    (clears : q.surface.clears = p.surface.clears) (frames : q.surface.frames = p.surface.frames)
    (draw : q.draw = p.draw) : q.Shown surface := by
  refine shown.paints ?_ (draw.trans shown.flushed)
  refine .of_silent (by rw [holdings]; exact .of_eq rfl rfl) clears ?_
  simp only [Recording.commands, frames, draw]

theorem Shown.resetEnvironment (shown : p.Shown surface) : p.resetEnvironment.Shown surface := by
  have idle : p.clearEnvironment.Shown surface :=
    shown.paints (clearEnvironment_paints p) shown.flushed
  exact idle.clearCanvas.brackets ⟨_, _, _, rfl⟩

theorem Shown.promoteFirst (shown : p.Shown surface) : p.promoteFirst.Shown surface := by
  simp only [Player.promoteFirst]
  split
  · have promoted : p.promote.clearEnvironment.Shown surface :=
      shown.paints ((promote_paints p).trans (clearEnvironment_paints _)) shown.flushed
    exact promoted.clearCanvas
  · exact shown

theorem Shown.recompile (shown : p.Shown surface) : p.recompile.Shown surface := by
  refine shown.paints (recompile_paints p) ?_
  obtain ⟨_, _, _, _, _, _, compiled⟩ := recompile_eq p
  rw [compiled]
  exact shown.flushed

section

variable [Time τ]

theorem Shown.tick (shown : p.Shown surface) (elapsed : τ) :
    (p.tick elapsed).2.Shown surface := by
  simp only [Player.tick]
  split <;> exact shown.congr rfl rfl rfl rfl

theorem Shown.runFrame (shown : p.Shown surface) (elapsed : τ) :
    (p.runFrame elapsed).Shown surface := by
  simp only [Player.runFrame]
  split
  · let counted : Player τ Recording := { p with stats.frames := p.stats.frames + 1 }
    have ticked : (counted.tick elapsed).2.Shown surface :=
      (shown.congr (q := counted) rfl rfl rfl rfl).tick elapsed
    generalize (counted.tick elapsed).2 = ticking at ticked
    have compiled : (if ticking.dirty.value then ticking.recompile else ticking).Shown surface := by
      split
      · exact ticked.recompile
      · exact ticked
    generalize (if ticking.dirty.value then ticking.recompile else ticking) = idle at compiled
    have started := compiled.promoteFirst.toShows.paints (ensureEnvironment_paints _)
    refine ⟨Shows.paints ?_ (flush_paints _), flush_draw _⟩
    split
    · exact started.paints (runSteps_paints _ _)
    · exact started
  · exact shown

theorem Shown.batch {α : Type} {f : Player τ Recording → α × Player τ Recording}
    (shown : (f p.openBatch).2.Shown surface) : (p.batch f).2.Shown surface :=
  shown.brackets (batch_brackets p f)

theorem Shown.update {f : Player τ Recording → Player τ Recording}
    (shown : (f p.openBatch).Shown surface) : (p.update f).Shown surface :=
  shown.brackets (update_brackets p f)

theorem Shown.refresh (shown : p.Shown surface) (now : τ) :
    (p.refresh now).2.Shown surface := by
  simp only [Player.refresh]
  split
  · exact shown.brackets ⟨_, _, _, rfl⟩
  · next elapsed scheduler _ =>
    let q : Player τ Recording := { p with scheduler }
    have opened : q.openBatch.Shown surface := shown.brackets ⟨_, _, _, rfl⟩
    have framed : (q.frame elapsed).Shown surface := .update (opened.runFrame elapsed)
    exact framed.brackets ⟨_, _, _, rfl⟩

omit [Time τ] in
theorem Shown.applyViewport (shown : p.Shown surface) (v : Viewport) (r : Resolution) :
    (p.applyViewport v r).2.Shown surface := by
  simp only [Player.applyViewport]
  split <;> exact shown.congr rfl rfl rfl rfl

mutual

theorem Shown.edit {p : Player τ Recording} (shown : p.Shown surface) (e : Edit τ) :
    (p.edit e).2.Shown surface := by
  have opened : p.openBatch.Shown surface := shown.brackets (openBatch_brackets p)
  cases e with
  | setSource s =>
    simp only [Player.edit, setSource]
    apply Shown.update
    exact opened.congr rfl rfl rfl rfl
  | switchScript s =>
    simp only [Player.edit, switchScript]
    apply Shown.update
    let idle : Player τ Recording := { p.openBatch with
      holdings := p.openBatch.holdings.clearActive.2.clearPending }
    have silent : p.openBatch.holdings.Silent idle.holdings :=
      (Holdings.Silent.setActive _ none).trans (.assignPending _ none)
    have emptied : idle.Shown surface :=
      opened.paints (.of_silent silent rfl rfl) opened.flushed
    exact emptied.clearCanvas.congr rfl rfl rfl rfl
  | setVisible b =>
    simp only [Player.edit, setVisible]
    apply Shown.update
    exact opened.congr rfl rfl rfl rfl
  | setViewport v =>
    simp only [Player.edit, setViewport]
    split
    · exact shown
    · exact shown
    · apply Shown.batch
      exact opened.applyViewport v _
  | setSpeed n =>
    simp only [Player.edit, setSpeed]
    split
    · exact shown
    · dsimp only
      apply Shown.update
      exact opened.congr rfl rfl rfl rfl
  | play =>
    simp only [Player.edit, play]
    apply Shown.update
    exact opened.congr rfl rfl rfl rfl
  | pause =>
    simp only [Player.edit, pause]
    apply Shown.update
    exact opened.congr rfl rfl rfl rfl
  | playPause =>
    simp only [Player.edit, playPause]
    apply Shown.update
    exact opened.congr rfl rfl rfl rfl
  | stop =>
    simp only [Player.edit, stop]
    apply Shown.update
    apply Shown.resetEnvironment
    exact opened.congr rfl rfl rfl rfl
  | restart =>
    simp only [Player.edit, restart]
    apply Shown.update
    apply Shown.resetEnvironment
    exact opened.congr rfl rfl rfl rfl
  | load =>
    simp only [Player.edit, load]
    apply Shown.batch
    split
    · apply Shown.resetEnvironment
      exact opened.paints (promote_paints _) opened.flushed
    · exact opened
  | setBounds a b =>
    simp only [Player.edit, setBounds]
    apply Shown.batch
    split
    · exact opened.congr rfl rfl rfl rfl
    · exact opened
  | setMode m =>
    simp only [Player.edit, setMode]
    apply Shown.update
    exact opened.congr rfl rfl rfl rfl
  | teardown => exact shown.paints (.of_silent (.teardown _) rfl rfl) shown.flushed
  | frame elapsed =>
    simp only [Player.edit, frame]
    apply Shown.update
    exact opened.runFrame elapsed
  | refresh now => exact shown.refresh now
  | batch es =>
    simp only [Player.edit]
    apply Shown.batch
    exact opened.editAll es

theorem Shown.editAll {p : Player τ Recording} (shown : p.Shown surface) (es : List (Edit τ)) :
    (p.editAll es).2.Shown surface := by
  cases es with
  | nil => exact shown
  | cons e es => exact (shown.edit e).editAll es

end

theorem create_shown {c : Config τ} (created : Player.create surface c = .ok p) :
    p.Shown surface := by
  obtain ⟨s, clock, r, ⟨-, origin⟩, -, rfl⟩ := create_made created
  have kept : s.frames = surface.frames ∧ s.clears = surface.clears := by
    rcases origin with ⟨rfl, -⟩ | sized
    · exact ⟨rfl, rfl⟩
    · obtain rfl : surface.resize r = s := congrArg Prod.snd sized
      exact ⟨rfl, rfl⟩
  refine ⟨⟨rfl, kept.2, [], [], surface.commands, rfl, .inl ⟨rfl, rfl⟩, nofun, ?_⟩, rfl⟩
  have commands : s.commands = surface.commands := by rw [Recording.commands, kept.1]; rfl
  rw [commands]
  rfl

theorem Reached.shown {c : Config τ} (reached : Reached surface c p) : p.Shown surface := by
  induction reached with
  | created made => exact create_shown made
  | edited e _ shown => exact shown.edit e
  | subscribed mask _ shown => exact shown.brackets ⟨_, _, _, rfl⟩
  | unsubscribed id _ shown => exact shown.brackets ⟨_, _, _, rfl⟩

/-- The commands on a recording are those that the calls since its last clearing have drawn, in
their order; and no draw list is left over from an operation. -/
theorem commands_since_clear {c : Config τ} {es : List (Edit τ)} (reached : Reached surface c p)
    (visited : q ∈ p :: p.visitsAll es) :
    q.draw = #[] ∧
    q.surface.clears = surface.clears + q.holdings.events.count .clearCanvas ∧
    ∃ before since start, q.holdings.events = before ++ since ∧
      (before = [] ∧ start = surface.commands ∨ before.getLast? = some .clearCanvas ∧ start = []) ∧
      .clearCanvas ∉ since ∧
      q.surface.commands = start ++ Engine.drawings (before.foldl Engine.after {}) since := by
  have shown : q.Shown surface := by
    rcases List.mem_cons.mp visited with rfl | later
    · exact reached.shown
    · exact visitsAll_preserve (I := (·.Shown surface))
        (fun r shown => shown.brackets (openBatch_brackets r)) (fun _ e shown => shown.edit e) es
        reached.shown later
  obtain ⟨before, since, start, split, fresh, untouched, drawn⟩ := shown.drawn
  rw [shown.flushed, Array.toList_empty, List.append_nil] at drawn
  exact ⟨shown.flushed, shown.clears, before, since, start, split, fresh, untouched, drawn⟩

end

theorem commands_since_clear_failing :
    ∃ (p : Player Float Recording) (es : List (Edit Float)) (q : Player Float Recording),
      Reached { resolution := ⟨512, 512⟩ } Config.default p ∧ q ∈ p :: p.visitsAll es ∧
      q.stats.stepErrors = 2 ∧ q.stats.starts = 2 ∧ q.surface.clears = 2 ∧
      q.surface.commands.length = 2 ∧ q.draw = #[] ∧
      ∃ before since start, q.holdings.events = before ++ since ∧
        before.getLast? = some .clearCanvas ∧ .clearCanvas ∉ since ∧
        q.surface.commands = start ++ Engine.drawings (before.foldl Engine.after {}) since := by
  let p : Player Float Recording := opening { resolution := ⟨512, 512⟩ }
  let es : List (Edit Float) := [.setSource "goto(10, 0)\nassert(step < 1)", .setSpeed 2,
    .batch [.refresh 0.0, .restart], .refresh 16.0]
  let q := (p.editAll es).2
  have created : Player.create { resolution := ⟨512, 512⟩ } Config.default = .ok p :=
    create_opening rfl
  have visited : q ∈ p :: p.visitsAll es := by simp [visitsAll, visits, q, es, editAll]
  obtain ⟨flushed, clears, before, since, start, split, fresh, untouched, drawn⟩ :=
    commands_since_clear (.created created) visited
  have counts : q.stats.stepErrors = 2 ∧ q.stats.starts = 2 ∧ q.surface.clears = 2 ∧
      q.surface.commands.length = 2 := by
    decide +kernel
  have cleared : before.getLast? = some .clearCanvas := by
    rcases fresh with ⟨rfl, -⟩ | ⟨last, -⟩
    · rw [split, List.nil_append, List.count_eq_zero.mpr untouched] at clears
      exact absurd (clears.symm.trans counts.2.2.1) (by decide)
    · exact last
  exact ⟨p, es, q, .created created, visited, counts.1, counts.2.1, counts.2.2.1, counts.2.2.2,
    flushed, before, since, start, split, cleared, untouched, drawn⟩

end TurtlePlayback.Session.Player
