import TurtlePlayback.Proofs.ChangeNotices
import TurtlePlayback.Proofs.IsolatedEnvironments
import TurtlePlayback.Proofs.PlayerMoves
import TurtlePlayback.Proofs.SilentCalls

/-!
What the answers of the engine leave behind. A player counts them, and all that its output says
comes from them; only a surface that refuses what is drawn is heard beside them.
-/

namespace TurtlePlayback

namespace Artifact.Engine

def answer? (g : Engine) : Event → Option Answer
  | .compile source _ => some (.compiled (g.compile source).1)
  | .start image _ => some (.started (g.start image).1)
  | .step e => some (.stepped (g.step e).1)
  | _ => none

def answers (g : Engine) : List Event → List Answer
  | [] => []
  | e :: calls => (g.answer? e).toList ++ (g.after e).answers calls

theorem answers_append (g : Engine) (calls later : List Event) :
    g.answers (calls ++ later) = g.answers calls ++ (calls.foldl after g).answers later := by
  induction calls generalizing g with
  | nil => rfl
  | cons e calls ih => simp [answers, ih]

theorem answers_single (g : Engine) (e : Event) : g.answers [e] = (g.answer? e).toList :=
  List.append_nil _

theorem answers_upkeep {calls : List Event} (upkeep : ∀ e ∈ calls, e.isUpkeep = true)
    (g : Engine) : g.answers calls = [] := by
  induction calls generalizing g with
  | nil => rfl
  | cons e calls ih =>
    rw [List.forall_mem_cons] at upkeep
    have unheard : g.answer? e = none := by
      cases e <;> first | rfl | cases upkeep.1
    rw [answers, unheard, ih upkeep.2]
    rfl

end Artifact.Engine

namespace Session

open Artifact Canvas Playback

def Stats.note (s : Stats) : Engine.Answer → Stats
  | .compiled (.ok _) => { s with compiles := s.compiles + 1 }
  | .compiled (.error _) =>
    { s with compiles := s.compiles + 1, compileErrors := s.compileErrors + 1 }
  | .started (.ok _) => { s with starts := s.starts + 1 }
  | .started (.error _) => s
  | .stepped (.ok out) => { s with steps := s.steps + 1, segments := s.segments + out.lines.size }
  | .stepped (.error _) => { s with stepErrors := s.stepErrors + 1 }
  | .counted _ => s

def Stats.answered (s : Stats) : Stats :=
  { s with frames := 0 }

inductive Utterance
  | cleared
  | line (text : String)
  | failed (message : String)
  | refused (text : String)
  deriving DecidableEq

namespace Utterance

def isRefusal : Utterance → Bool
  | refused _ => true
  | _ => false

def ofAnswer : Engine.Answer → List Utterance
  | .compiled (.ok _) => [cleared]
  | .compiled (.error f) => [cleared, failed f.message]
  | .started (.ok s) => s.printed.toList.map line
  | .started (.error f) => [failed f.message]
  | .stepped (.ok out) => out.printed.toList.map line
  | .stepped (.error f) => [failed f.message]
  | .counted _ => []

theorem not_refusal_ofAnswer {a : Engine.Answer} {u : Utterance} (said : u ∈ ofAnswer a) :
    u.isRefusal = false := by
  rcases a with (_ | _) | (_ | _) | (_ | _) | _ <;> simp only [ofAnswer, List.mem_map] at said
  all_goals first | grind [isRefusal]

end Utterance

namespace Output

/-- A failure is not told again as long as the output ends with it. -/
def hear (o : Output) : Utterance → Output
  | .cleared => o.clear
  | .line text => o.print text false
  | .failed message => if o.last? = some ⟨message, true⟩ then o else o.printError message
  | .refused text => o.printError text

theorem printAll_eq (o : Output) (texts : Array String) :
    o.printAll texts = (texts.toList.map .line).foldl hear o := by
  rw [printAll, List.foldl_map, ← Array.foldl_toList]
  rfl

end Output

namespace Player

variable {τ σ : Type}

theorem fail_eq (p : Player τ σ) (f : Failure) : p.fail f =
    { p with evaluation := .failed, output := p.output.hear (.failed f.message) } := by
  simp only [fail, Output.hear]
  split <;> rfl

variable [Surface σ]

/-- `q` comes after `p` by these calls. Their answers have been counted, and they are what the
output has been told, but for what a surface has refused. -/
structure Reports (p : Player τ σ) (calls : List Event) (us : List Utterance) (q : Player τ σ) :
    Prop where
  extended : p.holdings.Extends calls q.holdings
  counted : q.stats.answered =
    (p.holdings.engine.answers calls).foldl Stats.note p.stats.answered
  heard : q.output = us.foldl Output.hear p.output
  source : us.filter (!·.isRefusal) =
    (p.holdings.engine.answers calls).flatMap Utterance.ofAnswer
  refusals : ∀ text, .refused text ∈ us → ∃ (s : σ) (l : DrawList) (ratio : Float) (f : Failure),
    (Surface.render s l ratio).1 = .error f ∧ f.text = text

namespace Reports

variable {p q r : Player τ σ} {calls later : List Event} {us vs : List Utterance}

theorem refl (p : Player τ σ) : Reports p [] [] p :=
  ⟨.of_eq rfl rfl, rfl, rfl, rfl, nofun⟩

theorem trans (first : Reports p calls us q) (second : Reports q later vs r) :
    Reports p (calls ++ later) (us ++ vs) r where
  extended := first.extended.trans second.extended
  counted := by
    rw [second.counted, first.counted, first.extended.engine, Engine.answers_append,
      List.foldl_append]
  heard := by rw [second.heard, first.heard, List.foldl_append]
  source := by
    rw [List.filter_append, first.source, second.source, first.extended.engine,
      Engine.answers_append, List.flatMap_append]
  refusals := by
    intro text said
    exact (List.mem_append.mp said).elim (first.refusals text) (second.refusals text)

theorem of_upkeep (upkeep : p.holdings.Upkeep q.holdings)
    (stats : q.stats.answered = p.stats.answered) (output : q.output = p.output) :
    ∃ calls, Reports p calls [] q := by
  obtain ⟨calls, extended, all⟩ := upkeep
  have unheard := Engine.answers_upkeep all p.holdings.engine
  refine ⟨calls, extended, ?_, output, ?_, nofun⟩
  · rw [unheard]
    exact stats
  · rw [unheard]
    rfl

theorem of_call {e : Event} {a : Engine.Answer} (answered : p.holdings.engine.answer? e = some a)
    (called : q.holdings = p.holdings.note e (p.holdings.engine.after e))
    (counted : q.stats.answered = p.stats.answered.note a)
    (heard : q.output = (Utterance.ofAnswer a).foldl Output.hear p.output) :
    Reports p [e] (Utterance.ofAnswer a) q where
  extended := by
    rw [called]
    exact Holdings.note_extends _ e
  counted := by
    rw [counted, Engine.answers_single, answered]
    rfl
  heard := heard
  source := by
    rw [Engine.answers_single, answered, List.filter_eq_self.mpr]
    · exact (List.append_nil _).symm
    · intro u said
      rw [Utterance.not_refusal_ofAnswer said]
      rfl
  refusals := by
    intro text said
    cases Utterance.not_refusal_ofAnswer said

end Reports

abbrev Reported (p q : Player τ σ) : Prop :=
  ∃ calls us, Reports p calls us q

theorem Reported.trans {p q r : Player τ σ} (first : Reported p q) (second : Reported q r) :
    Reported p r := by
  obtain ⟨calls, us, reports₁⟩ := first
  obtain ⟨later, vs, reports₂⟩ := second
  exact ⟨_, _, reports₁.trans reports₂⟩

theorem Reported.of_upkeep {p q : Player τ σ} (upkeep : p.holdings.Upkeep q.holdings)
    (stats : q.stats.answered = p.stats.answered) (output : q.output = p.output) :
    Reported p q := by
  obtain ⟨calls, reports⟩ := Reports.of_upkeep upkeep stats output
  exact ⟨calls, [], reports⟩

theorem clearEnvironment_reported (p : Player τ σ) : Reported p p.clearEnvironment :=
  .of_upkeep (.clearEnvironment _) rfl rfl

theorem recompile_reported (p : Player τ σ) : Reported p p.recompile := by
  let e : Event := .compile p.source (p.holdings.compile p.source).1.toOption
  rcases compiled : p.holdings.compile p.source with ⟨result, h⟩
  have answered : p.holdings.engine.answer? e = some (.compiled result) :=
    congrArg (some ∘ Engine.Answer.compiled ∘ Prod.fst) compiled
  have noted : h = p.holdings.note e (p.holdings.engine.after e) := (congrArg Prod.snd compiled).symm
  simp only [recompile, compiled]
  cases result with
  | ok image =>
    let q : Player τ σ :=
      { p with output := p.output.clear, holdings := h, stats.compiles := p.stats.compiles + 1 }
    have told : Reports p [e] _ q := .of_call answered noted rfl rfl
    exact Reported.trans ⟨_, _, told⟩ (.of_upkeep (.assignPending _ _) rfl rfl)
  | error f =>
    let q : Player τ σ := { p with
      output := p.output.clear.hear (.failed f.message), holdings := h
      stats.compiles := p.stats.compiles + 1, stats.compileErrors := p.stats.compileErrors + 1 }
    have told : Reports p [e] _ q := .of_call answered noted rfl rfl
    simp only [fail_eq]
    exact Reported.trans ⟨_, _, told⟩ (.of_upkeep (.assignPending _ _) rfl rfl)

theorem startEnvironment_reported (p : Player τ σ) (image : Image) :
    Reported p (p.startEnvironment image) := by
  let e : Event := .start image ((p.holdings.start image).1.toOption.map (·.environment))
  rcases started : p.holdings.start image with ⟨result, h⟩
  have answered : p.holdings.engine.answer? e = some (.started result) :=
    congrArg (some ∘ Engine.Answer.started ∘ Prod.fst) started
  have noted : h = p.holdings.note e (p.holdings.engine.after e) := (congrArg Prod.snd started).symm
  simp only [startEnvironment, started]
  cases result with
  | ok s =>
    let q : Player τ σ := { p with
      stats.starts := p.stats.starts + 1, holdings := h, output := p.output.printAll s.printed }
    have told : Reports p [e] _ q := .of_call answered noted rfl (Output.printAll_eq _ _)
    exact Reported.trans ⟨_, _, told⟩ (.of_upkeep (.setEnvironment _ _) rfl rfl)
  | error f =>
    simp only [fail_eq]
    exact ⟨[e], _, .of_call answered noted rfl rfl⟩

theorem step_reported {p : Player τ σ} {e : Running}
    (running : p.holdings.slots.environment = some e) : Reported p (p.runSteps 1) := by
  rcases stepped : p.holdings.step e with ⟨result, h⟩
  have answered : p.holdings.engine.answer? (.step e) = some (.stepped result) :=
    congrArg (some ∘ Engine.Answer.stepped ∘ Prod.fst) stepped
  have noted : h = p.holdings.note (.step e) (p.holdings.engine.after (.step e)) :=
    (congrArg Prod.snd stepped).symm
  simp only [runSteps, running, stepped]
  cases result with
  | ok out => exact ⟨[.step e], _, .of_call answered noted rfl (Output.printAll_eq _ _)⟩
  | error f =>
    let q : Player τ σ := { p with holdings := h, stats.stepErrors := p.stats.stepErrors + 1 }
    have told : Reports p [.step e] [.failed f.message] (q.fail f) := by
      rw [fail_eq]
      exact .of_call answered noted rfl rfl
    exact Reported.trans ⟨_, _, told⟩ (clearEnvironment_reported _)

theorem flush_reported (p : Player τ σ) : Reported p p.flush := by
  simp only [flush]
  split
  · exact .of_upkeep (.of_eq rfl rfl) rfl rfl
  · rcases drawn : Surface.render p.surface p.draw p.viewport.ratio with ⟨f | _, surface⟩
    · refine ⟨[], [.refused f.text], .of_eq rfl rfl, rfl, rfl, rfl, fun text said => ?_⟩
      cases List.mem_singleton.mp said
      exact ⟨_, _, _, f, congrArg Prod.fst drawn, rfl⟩
    · exact .of_upkeep (.of_eq rfl rfl) rfl rfl

theorem clearCanvas_reported (p : Player τ σ) : Reported p p.clearCanvas :=
  ⟨[.clearCanvas], [], Holdings.note_extends _ _, rfl, rfl, rfl, nofun⟩

theorem Part.reported {p q : Player τ σ} (part : Part p q) : Reported p q := by
  cases part with
  | clearCanvas => exact clearCanvas_reported p
  | clearEnvironment => exact clearEnvironment_reported p
  | clearImages =>
    exact .of_upkeep ((Holdings.Upkeep.setActive _ none).trans (.assignPending _ none)) rfl rfl
  | promote => exact .of_upkeep (.promote _) rfl rfl
  | teardown => exact .of_upkeep (.teardown _) rfl rfl
  | recompile _ => exact recompile_reported p
  | start _ _ => exact startEnvironment_reported p _
  | step running => exact step_reported running
  | flush => exact flush_reported p
  | _ => exact .of_upkeep (.of_eq rfl rfl) rfl rfl

theorem applyViewport_reported (p : Player τ σ) (v : Viewport) (r : Resolution) :
    Reported p (p.applyViewport v r).2 := by
  simp only [applyViewport]
  split
  · split <;> exact .of_upkeep (.of_eq rfl rfl) rfl rfl
  · exact .of_upkeep (.of_eq rfl rfl) rfl rfl

theorem reported_kept (p : Player τ σ) : Kept fun q : Player τ σ => Reported p q where
  part part reported := reported.trans part.reported
  size _ reported := reported.trans (applyViewport_reported _ _ _)

end Player

end Session

end TurtlePlayback
