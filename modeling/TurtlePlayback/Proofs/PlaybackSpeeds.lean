import TurtlePlayback.Proofs.AnswerReports
import TurtlePlayback.Proofs.RecordedDrawings
import TurtlePlayback.Proofs.StoppedFrames

namespace TurtlePlayback

namespace Artifact

def Engine.Answer.failed : Engine.Answer → Bool
  | .started (.error _) => true
  | .stepped (.error _) => true
  | _ => false

namespace Holdings

variable {h h' h'' : Holdings} {calls later : List Event}

/-- What the engine has answered from `h` to `h'`. -/
def answersUntil (h h' : Holdings) : List Engine.Answer :=
  h.engine.answers (h'.events.drop h.events.length)

def Unfailing (h h' : Holdings) : Prop :=
  ∀ a ∈ h.answersUntil h', a.failed = false

instance (h h' : Holdings) : Decidable (h.Unfailing h') :=
  inferInstanceAs (Decidable (∀ a ∈ h.answersUntil h', a.failed = false))

theorem Extends.answersUntil (extended : h.Extends calls h') :
    h.answersUntil h' = h.engine.answers calls := by
  rw [Holdings.answersUntil, extended.events, List.drop_left]

theorem Unfailing.split (unfailing : h.Unfailing h'') (first : h.Extends calls h')
    (second : h'.Extends later h'') : h.Unfailing h' ∧ h'.Unfailing h'' := by
  rw [Unfailing, (first.trans second).answersUntil, Engine.answers_append,
    List.forall_mem_append, ← first.engine] at unfailing
  rw [Unfailing, Unfailing, first.answersUntil, second.answersUntil]
  exact unfailing

structure Calls (h : Holdings) (a : Engine.Answer) (h' : Holdings) : Prop where
  slots : h'.slots = h.slots
  called : ∃ e, h.Extends [e] h' ∧ h.engine.answer? e = some a

theorem Calls.not_failed {a : Engine.Answer} (calls : h.Calls a h') (unfailing : h.Unfailing h') :
    a.failed = false := by
  obtain ⟨e, extended, answered⟩ := calls.called
  rw [Unfailing, extended.answersUntil, Engine.answers_single, answered] at unfailing
  exact unfailing a (List.mem_singleton.mpr rfl)

theorem start_calls {image : Image} {result : Except Failure Started}
    (started : h.start image = (result, h')) : h.Calls (.started result) h' := by
  obtain rfl : (h.start image).1 = result := congrArg Prod.fst started
  obtain rfl : (h.start image).2 = h' := congrArg Prod.snd started
  exact ⟨rfl, _, note_extends h (.start image _), rfl⟩

theorem step_calls {r : Running} {result : Except Failure StepOutput}
    (stepped : h.step r = (result, h')) : h.Calls (.stepped result) h' := by
  obtain rfl : (h.step r).1 = result := congrArg Prod.fst stepped
  obtain rfl : (h.step r).2 = h' := congrArg Prod.snd stepped
  exact ⟨rfl, _, note_extends h (.step r), rfl⟩

end Holdings

end Artifact

namespace Session

open Artifact Canvas Playback

theorem Output.printAll_append (o : Output) (early late : Array String) :
    o.printAll (early ++ late) = (o.printAll early).printAll late :=
  Array.foldl_append

/-- What a player has called, drawn and printed, whether its surface shows it already or not, and
what it has counted but for the frames. -/
structure Course where
  holdings : Holdings
  drawn : List DrawCmd
  output : Output
  stats : Stats

namespace Player

variable {τ : Type} {p q : Player τ Recording}

def course (p : Player τ Recording) : Course :=
  ⟨p.holdings, p.surface.commands ++ p.draw.toList, p.output, p.stats.answered⟩

theorem Brackets.course (h : Brackets p q) : q.course = p.course := by
  obtain ⟨_, _, _, rfl⟩ := h
  rfl

theorem fail_course (p : Player τ Recording) (f : Failure) : (p.fail f).course =
    { p.course with output := p.course.output.hear (.failed f.message) } := by
  rw [fail_eq]
  rfl

theorem flush_course (p : Player τ Recording) : p.flush.course = p.course := by
  simp only [flush]
  split
  · rfl
  · simp [course, Surface.render, Recording.commands_render]

theorem startEnvironment_course (same : q.course = p.course) (image : Image) :
    (q.startEnvironment image).course = (p.startEnvironment image).course := by
  have holdings : q.holdings = p.holdings := congrArg Course.holdings same
  simp only [startEnvironment, holdings]
  rcases p.holdings.start image with ⟨f | s, h⟩
  · simp only [fail_course]
    exact congrArg (fun c : Course =>
      { c with holdings := h, output := c.output.hear (.failed f.message) }) same
  · simp only [course, DrawList.toList_fill, ← List.append_assoc]
    exact congrArg (fun c : Course => (⟨h.setEnvironment s.environment,
      c.drawn ++ [.fill s.background], c.output.printAll s.printed,
      { c.stats with starts := c.stats.starts + 1 }⟩ : Course)) same

theorem ensureEnvironment_course (same : q.course = p.course) :
    q.ensureEnvironment.course = p.ensureEnvironment.course := by
  have holdings : q.holdings = p.holdings := congrArg Course.holdings same
  simp only [ensureEnvironment, holdings]
  split
  · exact startEnvironment_course same _
  · exact same

theorem drawStep_course (same : q.course = p.course) (out : StepOutput) :
    (q.drawStep out).course = (p.drawStep out).course := by
  simp only [course, drawStep, DrawList.toList_lines, DrawList.toList_painted, ← List.append_assoc]
  exact congrArg (fun c : Course => (⟨c.holdings, c.drawn ++ out.background.toList.map .fill ++
    if out.lines.isEmpty then [] else [.lines out.lines], c.output.printAll out.printed,
    { c.stats with
      steps := c.stats.steps + 1, segments := c.stats.segments + out.lines.size }⟩ : Course)) same

theorem runSteps_course (same : q.course = p.course) (n : Nat) :
    (q.runSteps n).course = (p.runSteps n).course := by
  induction n generalizing p q with
  | zero => exact same
  | succ n ih =>
    have holdings : q.holdings = p.holdings := congrArg Course.holdings same
    simp only [runSteps, holdings]
    split
    · exact same
    · next e _ =>
      rcases p.holdings.step e with ⟨f | out, h⟩
      · have failed (r : Player τ Recording) : ({ r with
            holdings := h, stats.stepErrors := r.stats.stepErrors + 1 }.fail f).clearEnvironment.course =
            ⟨h.clearEnvironment.2, r.course.drawn, r.course.output.hear (.failed f.message),
              { r.course.stats with stepErrors := r.course.stats.stepErrors + 1 }⟩ := by
          rw [fail_eq]
          rfl
        rw [failed, failed, same]
      · exact ih (drawStep_course (congrArg (fun c : Course => { c with holdings := h }) same) out)

theorem runSteps_add (p : Player τ Recording) (m n : Nat) :
    p.runSteps (m + n) = (p.runSteps m).runSteps n := by
  induction m generalizing p with
  | zero => rw [Nat.zero_add, runSteps]
  | succ m ih => rw [Nat.add_right_comm, runSteps_once, ih, ← runSteps_once]

structure GoesOn (p q : Player τ Recording) : Prop where
  active : q.holdings.slots.active = p.holdings.slots.active
  running : q.holdings.slots.environment.isSome = true
  output : ∃ printed, q.output = p.output.printAll printed

theorem ensureEnvironment_running (running : p.holdings.slots.environment.isSome = true) :
    p.ensureEnvironment = p := by
  obtain ⟨e, slot⟩ := Option.isSome_iff_exists.mp running
  simp only [ensureEnvironment, slot]

theorem startEnvironment_goesOn {image : Image}
    (unfailing : p.holdings.Unfailing (p.startEnvironment image).holdings) :
    GoesOn p (p.startEnvironment image) := by
  rcases started : p.holdings.start image with ⟨f | s, h⟩
  · simp only [startEnvironment, started, fail_eq] at unfailing
    cases (Holdings.start_calls started).not_failed unfailing
  · have slots := (Holdings.start_calls started).slots
    simp only [startEnvironment, started]
    exact ⟨by simp [Holdings.setEnvironment, slots], by simp [Holdings.setEnvironment], _, rfl⟩

theorem ensureEnvironment_goesOn (active : p.holdings.slots.active.isSome = true)
    (unfailing : p.holdings.Unfailing p.ensureEnvironment.holdings) :
    GoesOn p p.ensureEnvironment := by
  obtain ⟨image, filled⟩ := Option.isSome_iff_exists.mp active
  cases slot : p.holdings.slots.environment with
  | none =>
    simp only [ensureEnvironment, slot, filled] at unfailing ⊢
    exact startEnvironment_goesOn unfailing
  | some e =>
    have running : p.holdings.slots.environment.isSome = true := by rw [slot]; rfl
    rw [ensureEnvironment_running running]
    exact ⟨rfl, running, #[], rfl⟩

theorem GoesOn.trans {r : Player τ Recording} (first : GoesOn p q) (second : GoesOn q r) :
    GoesOn p r := by
  obtain ⟨early, printed⟩ := first.output
  obtain ⟨late, printed'⟩ := second.output
  refine ⟨second.active.trans first.active, second.running, early ++ late, ?_⟩
  rw [printed', printed, Output.printAll_append]

theorem runSteps_goesOn {n : Nat} (running : p.holdings.slots.environment.isSome = true)
    (unfailing : p.holdings.Unfailing (p.runSteps n).holdings) : GoesOn p (p.runSteps n) := by
  induction n generalizing p with
  | zero => exact ⟨rfl, running, #[], rfl⟩
  | succ n ih =>
    obtain ⟨e, slot⟩ := Option.isSome_iff_exists.mp running
    rcases stepped : p.holdings.step e with ⟨f | out, h⟩
    · have call := Holdings.step_calls stepped
      obtain ⟨_, called, -⟩ := call.called
      obtain ⟨_, cleared, -⟩ := Holdings.Silent.clearEnvironment h
      simp only [runSteps, slot, stepped, fail_eq] at unfailing
      cases call.not_failed (unfailing.split called cleared).1
    · have call := Holdings.step_calls stepped
      obtain ⟨_, called, -⟩ := call.called
      let q := ({ p with holdings := h } : Player τ Recording).drawStep out
      have slots : q.holdings.slots = p.holdings.slots := call.slots
      have once : GoesOn p q := ⟨congrArg Slots.active slots, by rw [slots, running], _, rfl⟩
      obtain ⟨_, rest, -⟩ := runSteps_paints q n
      simp only [runSteps, slot, stepped] at unfailing ⊢
      exact once.trans (ih once.running (unfailing.split called rest).2)

structure Performing (p : Player τ Recording) : Prop where
  visible : p.visible.value = true
  clean : p.dirty.value = false
  active : p.holdings.slots.active.isSome = true

variable [Time τ]

theorem frame_flushed (visible : p.visible.value = true) (elapsed : τ) :
    (p.frame elapsed).draw = #[] := by
  obtain ⟨_, _, _, closed⟩ := update_brackets p (·.runFrame elapsed)
  rw [frame, closed]
  have opened : p.openBatch.visible.value = true := visible
  simp only [runFrame, opened, ↓reduceIte]
  exact flush_draw _

theorem tick_course (p : Player τ Recording) (elapsed : τ) :
    (p.tick elapsed).2.course = p.course := by
  simp only [tick]
  split <;> rfl

theorem tick_playing (playing : p.clock.state = .playing) (elapsed : τ) :
    (p.tick elapsed).1 = true := by
  simp only [tick, Clock.tick, playing]

theorem Performing.runFrame_course (performing : p.Performing) (playing : p.clock.state = .playing)
    (elapsed : τ) :
    (p.runFrame elapsed).course = (p.ensureEnvironment.runSteps p.speed.value).course := by
  let q := (p.countFrame.tick elapsed).2
  have advancing : (p.countFrame.tick elapsed).1 = true := tick_playing playing elapsed
  have course : q.course = p.course := tick_course p.countFrame elapsed
  have same : q.dirty = p.dirty ∧ q.speed = p.speed := by
    simp only [q, tick]
    split <;> exact ⟨rfl, rfl⟩
  have clean : ¬ q.dirty.value = true := by simp [same.1, performing.clean]
  have active : q.holdings.slots.active.isSome = true := by
    rw [tick_holdings p.countFrame elapsed]
    exact performing.active
  have speed : q.ensureEnvironment.speed = p.speed :=
    (ensureEnvironment_draws q).same.2.2.2.trans same.2
  have framed : p.runFrame elapsed = (q.ensureEnvironment.runSteps p.speed.value).flush := by
    simp only [runFrame, performing.visible, ↓reduceIte]
    change perform (promoteFirst (if q.dirty.value = true then q.recompile else q))
      (p.countFrame.tick elapsed).1 = _
    rw [if_neg clean, promoteFirst_of_active active, advancing, perform, if_pos rfl, speed]
  rw [framed, flush_course]
  exact runSteps_course (ensureEnvironment_course course) _

theorem Performing.frame_course (performing : p.Performing) (playing : p.clock.state = .playing)
    (elapsed : τ) :
    (p.frame elapsed).course = (p.ensureEnvironment.runSteps p.speed.value).course := by
  have opened : p.openBatch.Performing := ⟨performing.visible, performing.clean, performing.active⟩
  rw [frame, (update_brackets p (·.runFrame elapsed)).course,
    opened.runFrame_course playing]
  exact runSteps_course (ensureEnvironment_course (openBatch_brackets p).course) _

def PlaysIn (p : Player τ Recording) : List τ → Prop
  | [] => True
  | ms :: later => p.clock.state = .playing ∧ (p.frame ms).PlaysIn later

instance decidablePlaysIn (p : Player τ Recording) (elapsed : List τ) :
    Decidable (p.PlaysIn elapsed) :=
  match elapsed with
  | [] => .isTrue trivial
  | ms :: later =>
    have := decidablePlaysIn (p.frame ms) later
    inferInstanceAs (Decidable (_ ∧ _))

theorem frames_extends (p : Player τ Recording) (elapsed : List τ) :
    ∃ calls, p.holdings.Extends calls (elapsed.foldl frame p).holdings := by
  induction elapsed generalizing p with
  | nil => exact ⟨[], .of_eq rfl rfl⟩
  | cons ms later ih =>
    obtain ⟨calls, first⟩ := (frame_moves p ms).extended
    obtain ⟨calls', rest⟩ := ih (p.frame ms)
    exact ⟨calls ++ calls', first.trans rest⟩

theorem Performing.frame_goesOn (performing : p.Performing) (playing : p.clock.state = .playing)
    {elapsed : τ} (unfailing : p.holdings.Unfailing (p.frame elapsed).holdings) :
    GoesOn p (p.frame elapsed) := by
  have course := performing.frame_course playing elapsed
  have holdings : (p.frame elapsed).holdings =
      (p.ensureEnvironment.runSteps p.speed.value).holdings := congrArg Course.holdings course
  have output : (p.frame elapsed).output =
      (p.ensureEnvironment.runSteps p.speed.value).output := congrArg Course.output course
  rw [holdings] at unfailing
  obtain ⟨_, start, -⟩ := ensureEnvironment_paints p
  obtain ⟨_, steps, -⟩ := runSteps_paints p.ensureEnvironment p.speed.value
  obtain ⟨started, stepped⟩ := unfailing.split start steps
  have begun := ensureEnvironment_goesOn performing.active started
  have done := begun.trans (runSteps_goesOn begun.running stepped)
  exact ⟨by rw [holdings, done.active], by rw [holdings, done.running], by
    rw [output]
    exact done.output⟩

theorem Performing.after (performing : p.Performing) (playing : p.clock.state = .playing)
    {elapsed : τ} (unfailing : p.holdings.Unfailing (p.frame elapsed).holdings) :
    (p.frame elapsed).Performing := by
  have active := (performing.frame_goesOn playing unfailing).active
  have opened : p.openBatch.visible.value = true := performing.visible
  obtain ⟨-, visible, dirty, -⟩ := (runFrame_draws opened elapsed).same
  obtain ⟨_, _, _, closed⟩ := update_brackets p (·.runFrame elapsed)
  refine ⟨?_, ?_, by rw [active, performing.active]⟩
  · rw [Player.frame, closed, visible]
    simp only [tick]
    split <;> exact performing.visible
  · rw [Player.frame, closed, dirty]
    exact Watched.set_value _ _

theorem frames_flushed (flushed : p.draw = #[]) (elapsed : List τ) :
    (elapsed.foldl frame p).draw = #[] := by
  induction elapsed generalizing p with
  | nil => exact flushed
  | cons ms later ih =>
    refine ih ?_
    by_cases visible : p.visible.value = true
    · exact frame_flushed visible ms
    · obtain ⟨_, _, _, closed⟩ := update_brackets p (·.runFrame ms)
      have hidden : ¬ p.openBatch.visible.value = true := visible
      rw [frame, closed]
      simp only [runFrame, hidden]
      exact flushed

theorem Performing.frames_course (performing : p.Performing) {ms : τ} {later : List τ}
    (plays : p.PlaysIn (ms :: later))
    (unfailing : p.holdings.Unfailing ((ms :: later).foldl Player.frame p).holdings) :
    ((ms :: later).foldl Player.frame p).course =
      (p.ensureEnvironment.runSteps (p.speed.value * (ms :: later).length)).course := by
  induction later generalizing p ms with
  | nil =>
    rw [List.length_singleton, Nat.mul_one]
    exact performing.frame_course plays.1 ms
  | cons ms' later ih =>
    obtain ⟨playing, plays⟩ := plays
    obtain ⟨_, first⟩ := (frame_moves p ms).extended
    obtain ⟨_, rest⟩ := frames_extends (p.frame ms) (ms' :: later)
    obtain ⟨now, next⟩ := unfailing.split first rest
    have running := (performing.frame_goesOn playing now).running
    rw [List.foldl_cons, ih (performing.after playing now) plays next,
      ensureEnvironment_running running, frame_speed, steps_cons p.speed.value ms, runSteps_add]
    exact runSteps_course (performing.frame_course playing ms) _

theorem setSpeed_brackets {n : Nat} (positive : 0 < n) (p : Player τ Recording) :
    Brackets { p with speed := ⟨n⟩ } (p.setSpeed n).2 := by
  have cell : (p.speed.set n).2 = ⟨n⟩ := congrArg Watched.mk (Watched.set_value p.speed n)
  rw [setSpeed, if_neg (by omega)]
  dsimp only
  refine Brackets.trans ?_ (update_brackets p _)
  rw [← cell]
  exact ⟨_, _, _, rfl⟩

theorem Performing.setSpeed {n : Nat} (performing : p.Performing) (positive : 0 < n) :
    (p.setSpeed n).2.Performing ∧ (p.setSpeed n).2.course = p.course ∧
      (p.setSpeed n).2.speed.value = n := by
  obtain ⟨_, _, _, set⟩ := setSpeed_brackets positive p
  rw [set]
  exact ⟨⟨performing.visible, performing.clean, performing.active⟩, rfl, rfl⟩

def atSpeed (p : Player τ Recording) (n : Nat) (elapsed : List τ) : Player τ Recording :=
  elapsed.foldl frame (p.setSpeed n).2

structure Runs (p : Player τ Recording) (n : Nat) (elapsed : List τ) : Prop where
  plays : (p.setSpeed n).2.PlaysIn elapsed
  unfailing : p.holdings.Unfailing (p.atSpeed n elapsed).holdings

theorem Runs.course {n : Nat} {elapsed : List τ} (runs : p.Runs n elapsed)
    (performing : p.Performing) (positive : 0 < n) (some_frame : 0 < elapsed.length) :
    (p.atSpeed n elapsed).course = (p.ensureEnvironment.runSteps (n * elapsed.length)).course := by
  obtain ⟨set, course, speed⟩ := performing.setSpeed positive
  have holdings : (p.setSpeed n).2.holdings = p.holdings := congrArg Course.holdings course
  have unfailing := runs.unfailing
  rw [← holdings] at unfailing
  cases elapsed with
  | nil => cases some_frame
  | cons ms later =>
    rw [atSpeed, set.frames_course runs.plays unfailing, speed]
    exact runSteps_course (ensureEnvironment_course course) _

theorem atSpeed_flushed {n : Nat} {elapsed : List τ} (performing : p.Performing) (positive : 0 < n)
    (some_frame : 0 < elapsed.length) : (p.atSpeed n elapsed).draw = #[] := by
  cases elapsed with
  | nil => cases some_frame
  | cons ms later =>
    exact frames_flushed (frame_flushed (performing.setSpeed positive).1.visible ms) later

theorem Runs.shown {n : Nat} {elapsed : List τ} (runs : p.Runs n elapsed)
    (performing : p.Performing) (positive : 0 < n) (some_frame : 0 < elapsed.length) :
    (∃ drawn, (p.atSpeed n elapsed).surface.commands = p.surface.commands ++ drawn) ∧
    ∃ printed, (p.atSpeed n elapsed).output = p.output.printAll printed := by
  have course := runs.course performing positive some_frame
  have unfailing := runs.unfailing
  rw [show (p.atSpeed n elapsed).holdings = _ from congrArg Course.holdings course] at unfailing
  have started := ensureEnvironment_paints p
  have stepped := runSteps_paints p.ensureEnvironment (n * elapsed.length)
  constructor
  · obtain ⟨calls, -, -, -, painted⟩ := started.trans stepped
    refine ⟨p.draw.toList ++ p.holdings.engine.drawings calls, ?_⟩
    have drawn : (p.atSpeed n elapsed).course.drawn = _ := congrArg Course.drawn course
    rw [← List.append_assoc, ← painted]
    simpa [Player.course, atSpeed_flushed performing positive some_frame] using drawn
  · obtain ⟨_, first, -⟩ := started
    obtain ⟨_, rest, -⟩ := stepped
    obtain ⟨begun, gone_on⟩ := unfailing.split first rest
    have goesOn := ensureEnvironment_goesOn performing.active begun
    obtain ⟨printed, output⟩ := (goesOn.trans (runSteps_goesOn goesOn.running gone_on)).output
    exact ⟨printed, (congrArg Course.output course).trans output⟩

/-- How many steps are run in a frame does not show in what is played: only their number does. -/
theorem speed_batches {n k : Nat} {quick slow : List τ} (performing : p.Performing)
    (positive : 0 < n) (some_frame : 0 < k) (frames : quick.length = k)
    (single : slow.length = n * k) (quickly : p.Runs n quick) (slowly : p.Runs 1 slow) :
    (p.atSpeed 1 slow).holdings = (p.atSpeed n quick).holdings ∧
    (∃ drawn : List DrawCmd,
      (p.atSpeed n quick).surface.commands = p.surface.commands ++ drawn ∧
      (p.atSpeed 1 slow).surface.commands = p.surface.commands ++ drawn) ∧
    (∃ printed : Array String,
      (p.atSpeed n quick).output = p.output.printAll printed ∧
      (p.atSpeed 1 slow).output = p.output.printAll printed) ∧
    (p.atSpeed 1 slow).stats.answered = (p.atSpeed n quick).stats.answered := by
  have some_quick : 0 < quick.length := by omega
  have some_slow : 0 < slow.length := by
    rw [single]
    exact Nat.mul_pos positive some_frame
  have same : (p.atSpeed 1 slow).course = (p.atSpeed n quick).course := by
    rw [quickly.course performing positive some_quick,
      slowly.course performing Nat.one_pos some_slow, frames, single, Nat.one_mul]
  have drawn_same : (p.atSpeed 1 slow).surface.commands = (p.atSpeed n quick).surface.commands := by
    have all : (p.atSpeed 1 slow).course.drawn = (p.atSpeed n quick).course.drawn :=
      congrArg Course.drawn same
    simpa [Player.course, atSpeed_flushed performing positive some_quick,
      atSpeed_flushed performing Nat.one_pos some_slow] using all
  obtain ⟨⟨drawn, shown⟩, printed, output⟩ := quickly.shown performing positive some_quick
  exact ⟨congrArg Course.holdings same, ⟨drawn, shown, drawn_same.trans shown⟩,
    ⟨printed, output, (congrArg Course.output same).trans output⟩, congrArg Course.stats same⟩

theorem speed_batches_twice :
    ∃ (p : Player Float Recording) (quick slow : List Float),
      Reached { resolution := ⟨512, 512⟩ } Config.default p ∧
      quick.length = 2 ∧ slow.length = 2 * 2 ∧ p.Performing ∧ p.Runs 2 quick ∧ p.Runs 1 slow ∧
      (p.atSpeed 1 slow).holdings = (p.atSpeed 2 quick).holdings ∧
      (p.atSpeed 2 quick).surface.frames.size = p.surface.frames.size + 2 ∧
      (p.atSpeed 1 slow).surface.frames.size = p.surface.frames.size + 4 ∧
      (p.atSpeed 1 slow).surface.commands = (p.atSpeed 2 quick).surface.commands ∧
      (p.atSpeed 1 slow).output.lines = (p.atSpeed 2 quick).output.lines ∧
      (p.atSpeed 2 quick).output.lines.length = p.output.lines.length + 4 := by
  let start : Player Float Recording := opening { resolution := ⟨512, 512⟩ }
  let p := ((start.edit (.setSource "goto(step, 1)\nprint(step)")).2.edit (.frame 16.0)).2
  let quick : List Float := [16.0, 16.0]
  let slow : List Float := [16.0, 8.0, 0.0, 16.0]
  have performing : p.Performing := by
    constructor <;> decide +kernel
  have quickly : p.Runs 2 quick := by
    constructor <;> decide +kernel
  have slowly : p.Runs 1 slow := by
    constructor <;> decide +kernel
  obtain ⟨holdings, ⟨drawn, shown, shown'⟩, ⟨printed, output, output'⟩, -⟩ :=
    speed_batches performing (by decide) (by decide) rfl rfl quickly slowly
  refine ⟨p, quick, slow, .edited _ (.edited _ (.created (create_opening rfl))), rfl, rfl,
    performing, quickly, slowly, holdings, by decide +kernel, by decide +kernel,
    shown'.trans shown.symm, ?_, by decide +kernel⟩
  rw [output, output']

end Player

end Session

end TurtlePlayback
