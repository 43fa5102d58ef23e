import TurtlePlayback.Proofs.EnvironmentSafety
import TurtlePlayback.Proofs.TurtleDeeds

namespace TurtlePlayback

open Script Canvas Turtle

namespace Turtle

/-- Moves on from a point, each where the one before it ended. -/
inductive Travels : Point → List Deed → Point → Prop
  | stay (p : Point) : Travels p [] p
  | act {d : Deed} {ds : List Deed} {p : Point} (rest : Travels d.after.position ds p) :
      Travels d.before.position (d :: ds) p

variable {p q r : Point} {ds ds' : List Deed} {t t' : Turtle}

theorem Leads.travels (leads : Leads t ds t') : Travels t.position ds t'.position := by
  induction leads with
  | stay => exact .stay _
  | act _ _ ih => exact .act ih

theorem travels_append : Travels p (ds ++ ds') r ↔ ∃ q, Travels p ds q ∧ Travels q ds' r := by
  constructor
  · intro travels
    induction ds generalizing p with
    | nil => exact ⟨p, .stay p, travels⟩
    | cons d ds ih =>
      cases travels with
      | act rest =>
        obtain ⟨q, first, second⟩ := ih rest
        exact ⟨q, .act first, second⟩
  · rintro ⟨q, first, second⟩
    induction first with
    | stay => exact second
    | act _ ih => exact .act (ih second)

theorem Travels.stays (travels : Travels p ds q) (still : ∀ d ∈ ds, d.isMove = false) : q = p := by
  induction travels with
  | stay => rfl
  | @act d _ _ _ ih =>
    rw [List.forall_mem_cons] at still
    rw [ih still.2, d.after_position still.1]

end Turtle

namespace Environment

variable {program : Program} {e : Environment} {background : Color} {printed : Array String}
  {held : List Deed}

def setupDeeds (p : Program) : List Deed :=
  Run.deeds p.setup (fresh p).machine

/-- What the commands of the next step do, as far as it comes. -/
def deeds (e : Environment) : List Deed :=
  Run.deeds e.program.step e.machine

theorem run_leads (e : Environment) (c : Code) :
    Leads e.turtle (Run.deeds c e.machine) (e.run c).2.turtle := by
  have leads := Run.code_leads c e.machine
  rw [run_eq]
  cases ran : Run.code c e.machine with
  | ok _ m =>
    rw [ran] at leads
    exact leads
  | error t m =>
    rw [ran] at leads
    exact leads

theorem start_leads (started : start program = .ok (e, background, printed)) :
    e.program = program ∧ ∃ t, Leads {} (setupDeeds program) t ∧
      e.turtle = { t with background := none, printed := #[] } ∧
      background = t.background.getD .black ∧ printed = t.printed := by
  have leads := run_leads (fresh program) program.setup
  have same : ((fresh program).run program.setup).2.program = program := by
    rw [run_eq]
    split <;> rfl
  rw [start] at started
  rcases ran : (fresh program).run program.setup with ⟨result, e'⟩
  rw [ran] at started leads same
  cases result with
  | error f => cases started
  | ok _ =>
    cases started
    exact ⟨same, _, leads, rfl, rfl, rfl⟩

theorem step_leads (e : Environment) : e.step.2.program = e.program ∧ ∃ t, Leads e.turtle e.deeds t ∧
    e.step.2.turtle = { t.collected with step := t.step + if e.step.1.isOk then 1 else 0 } ∧
    ∀ output, e.step.1 = .ok output → output = ⟨t.lines, t.background, t.printed⟩ := by
  have leads := run_leads e e.program.step
  have same : (e.run e.program.step).2.program = e.program := by
    rw [run_eq]
    split <;> rfl
  rcases ran : e.run e.program.step with ⟨result, e'⟩
  rw [ran] at leads same
  simp only [step, ran]
  cases result with
  | error f =>
    refine ⟨same, _, leads, rfl, ?_⟩
    rintro _ ⟨⟩
  | ok _ =>
    refine ⟨same, _, leads, rfl, ?_⟩
    rintro _ ⟨⟩
    rfl

/-- Where a step begins: with the lines of the deeds that are held back, and nothing else to give
out. -/
structure Begins (e : Environment) (held : List Deed) : Prop where
  within : e.turtle.WithinBounds
  lines : e.turtle.lines.toList = held.filterMap Deed.line?
  background : e.turtle.background = none
  printed : e.turtle.printed = #[]

theorem start_begins (started : start program = .ok (e, background, printed)) :
    e.Begins (setupDeeds program) ∧ background.isFinite ∧ printed.size ≤ maxPrints := by
  obtain ⟨-, t, leads, turtle, rfl, rfl⟩ := start_leads started
  have within := leads.withinBounds fresh_withinBounds
  refine ⟨?_, ?_, within.printed⟩
  · constructor
    · rw [turtle]
      exact { within with background := by simp, printed := Nat.zero_le _ }
    · rw [turtle]
      exact leads.lines
    · rw [turtle]
    · rw [turtle]
  · cases painted : t.background with
    | none => decide +kernel
    | some c => exact within.background c painted

theorem Begins.step (begins : e.Begins held) : e.step.2.Begins [] := by
  obtain ⟨-, t, leads, turtle, -⟩ := e.step_leads
  have within := leads.withinBounds begins.within
  constructor
  · rw [turtle]
    refine { within with lines := Nat.zero_le _, drawable := ?_, background := ?_, printed := ?_ }
    · simp [collected]
    · simp [collected]
    · exact Nat.zero_le _
  · rw [turtle]
    rfl
  · rw [turtle]
    rfl
  · rw [turtle]
    rfl

theorem Begins.output (begins : e.Begins held) {output : StepOutput} (given : e.step.1 = .ok output) :
    (output.lines.size ≤ maxLines ∧ output.printed.size ≤ maxPrints ∧
      (∀ l ∈ output.lines, l.Drawable) ∧ ∀ c ∈ output.background, c.isFinite) ∧
    output.lines.toList = (held ++ e.deeds).filterMap Deed.line? ∧
    output.background = (e.deeds.filterMap Deed.background?).getLast? ∧
    output.printed.toList = e.deeds.filterMap Deed.text? := by
  obtain ⟨-, t, leads, -, output_eq⟩ := e.step_leads
  obtain rfl := output_eq output given
  have within := leads.withinBounds begins.within
  refine ⟨⟨within.lines, within.printed, within.drawable, within.background⟩, ?_, ?_, ?_⟩
  · rw [leads.lines, begins.lines, List.filterMap_append]
  · rw [leads.background, begins.background, Option.or_none]
  · rw [leads.printed, begins.printed]
    rfl

theorem Begins.after (begins : e.Begins held) (k : Nat) :
    (e.after k).Begins (if k = 0 then held else []) := by
  induction k generalizing e held with
  | zero => exact begins
  | succ k ih =>
    have later := ih begins.step
    rw [ite_self] at later
    rw [if_neg k.succ_ne_zero]
    exact later

structure Act where
  deed : Deed
  given : Bool

def Act.line? (a : Act) : Option Line :=
  if a.given then a.deed.line? else none

theorem Act.line?_some {a : Act} {l : Line} (drawn : a.line? = some l) :
    a.given ∧ a.deed.line? = some l := by
  rw [line?] at drawn
  split at drawn
  · next given => exact ⟨given, drawn⟩
  · cases drawn

/-- The life of an environment over so many steps. A step gives out or drops the lines of its own
deeds, and the first one also those that are held back for it. -/
def acts (e : Environment) (held : List Deed) : Nat → List Act
  | 0 => held.map (⟨·, false⟩)
  | k + 1 => (held ++ e.deeds).map (⟨·, e.step.1.isOk⟩) ++ e.step.2.acts [] k

def linesGiven : Except Failure StepOutput → List Line
  | .ok output => output.lines.toList
  | .error _ => []

theorem lines_given (ds : List Deed) : (ds.map (⟨·, true⟩ : Deed → Act)).filterMap Act.line? =
    ds.filterMap Deed.line? := by
  rw [List.filterMap_map]
  rfl

theorem lines_dropped (ds : List Deed) :
    (ds.map (⟨·, false⟩ : Deed → Act)).filterMap Act.line? = [] := by
  rw [List.filterMap_map]
  exact List.filterMap_eq_nil_iff.mpr fun _ _ => rfl

theorem Begins.acts_lines (begins : e.Begins held) (k : Nat) :
    (e.acts held k).filterMap Act.line? = (e.outputs k).flatMap linesGiven := by
  induction k generalizing e held with
  | zero => exact lines_dropped held
  | succ k ih =>
    rw [acts, outputs, List.filterMap_append, List.flatMap_cons, ih begins.step]
    congr 1
    cases given : e.step.1 with
    | error f => exact lines_dropped _
    | ok output =>
      have made := (begins.output given).2.1
      exact (lines_given _).trans made.symm

theorem acts_travel {p : Point} (travels : Travels p held e.turtle.position) (k : Nat) :
    Travels p ((e.acts held k).map Act.deed) (e.after k).turtle.position := by
  induction k generalizing e held p with
  | zero =>
    rw [acts, List.map_map, show Act.deed ∘ (⟨·, false⟩) = id from rfl, List.map_id]
    exact travels
  | succ k ih =>
    obtain ⟨-, t, leads, turtle, -⟩ := e.step_leads
    have here : e.step.2.turtle.position = t.position := by
      rw [turtle]
      rfl
    have rest := ih (.stay e.step.2.turtle.position)
    rw [here] at rest
    rw [acts, List.map_append, List.map_map, show Act.deed ∘ (⟨·, e.step.1.isOk⟩) = id from rfl,
      List.map_id, List.append_assoc]
    exact travels_append.mpr ⟨_, travels, travels_append.mpr ⟨_, leads.travels, rest⟩⟩

theorem next_line {p q : Point} {front middle behind : List Act} {a b : Act} {l l' : Line}
    (travels : Travels p ((front ++ a :: middle ++ b :: behind).map Act.deed) q)
    (drawn : a.line? = some l) (drawn' : b.line? = some l') (next : ∀ c ∈ middle, c.line? = none) :
    l'.start = l.stop ∨ ∃ c ∈ middle, c.deed.isMove ∧
      (c.deed.before.penDown = false ∨ c.deed.line?.isSome ∧ c.given = false) := by
  obtain ⟨-, stop⟩ := Deed.line?_eq_some (Act.line?_some drawn).2
  obtain ⟨start, -⟩ := Deed.line?_eq_some (Act.line?_some drawn').2
  rw [start, stop]
  -- Without moves in between, the turtle stands where the first line stopped.
  by_cases still : ∀ c ∈ middle, c.deed.isMove = false
  · rw [List.map_append, List.map_append, List.map_cons, List.map_cons] at travels
    obtain ⟨x, upTo, from_there⟩ := travels_append.mp travels
    obtain ⟨y, -, from_line⟩ := travels_append.mp upTo
    cases from_line with
    | act between =>
      cases from_there with
      | act _ => exact .inl (between.stays (List.forall_mem_map.mpr still))
  · obtain ⟨c, member, moves⟩ : ∃ c ∈ middle, c.deed.isMove := by simpa using still
    refine .inr ⟨c, member, moves, ?_⟩
    by_cases down : c.deed.before.penDown
    · have made := Deed.isMove_of_line? moves down
      refine .inr ⟨made, Bool.eq_false_iff.mpr fun given => ?_⟩
      have none := next c member
      rw [Act.line?, if_pos given] at none
      rw [none] at made
      cases made
    · exact .inl (Bool.eq_false_iff.mpr down)

theorem lowerName_step {scope : Scope} (free : "step" ∉ scope) (offset : Nat) (code : Code)
    (site : Nat) : lowerName scope offset code "step" site = .ok (code.emit (.sense .step) offset) := by
  simp only [lowerName, Scope.slot?_eq_none.mpr free]
  rfl

/-- In a run of code from a machine, another machine is met. -/
def Meets (c : Code) (m m' : Machine Turtle) : Prop :=
  ∃ n, Run.instrs c 0 (c.instrs.toList.take n) m = .ok () m'

theorem meets_start (c : Code) (m : Machine Turtle) : Meets c m m :=
  ⟨0, rfl⟩

theorem Meets.sense_step {c : Code} {m m' : Machine Turtle} (meets : Meets c m m') :
    Run.instr c.literals (.sense .step) m' =
      .ok () { m' with stack := .number (Float.ofNat m.host.step) :: m'.stack } := by
  obtain ⟨n, ran⟩ := meets
  have kept := Run.KeepsHost.instrs (perform_step m.host.step) c 0 (c.instrs.toList.take n) m rfl
  rw [ran] at kept
  rw [← kept]
  rfl

/-- What an environment gives out is bounded, finite and its own. Its lines join as its turtle
moved, but for moves with the pen up and for lines that a failed step took with it, and the name of
the step stands for the number of steps before that succeeded. -/
theorem outputs_own {source : String} (compiled : Program.compile source = .ok program)
    (started : start program = .ok (e, background, printed)) :
    (background.isFinite ∧ printed.size ≤ 256) ∧
    (∀ k output, (e.after k).step.1 = .ok output →
      (output.lines.size ≤ 10000 ∧ output.printed.size ≤ 256 ∧
        (∀ l ∈ output.lines, l.Drawable) ∧ ∀ c ∈ output.background, c.isFinite) ∧
      output.lines.toList =
        ((if k = 0 then setupDeeds program else []) ++ (e.after k).deeds).filterMap Deed.line? ∧
      output.background = ((e.after k).deeds.filterMap Deed.background?).getLast? ∧
      output.printed.toList = (e.after k).deeds.filterMap Deed.text?) ∧
    (∀ k, (e.acts (setupDeeds program) k).filterMap Act.line? = (e.outputs k).flatMap linesGiven ∧
      Travels .origin ((e.acts (setupDeeds program) k).map Act.deed) (e.after k).turtle.position ∧
      (∀ a ∈ e.acts (setupDeeds program) k, ∀ l, a.line? = some l →
        l.start = a.deed.before.position ∧ l.stop = a.deed.after.position) ∧
      ∀ front a middle b behind l l',
        e.acts (setupDeeds program) k = front ++ a :: middle ++ b :: behind →
        a.line? = some l → b.line? = some l' → (∀ c ∈ middle, c.line? = none) →
        l'.start = l.stop ∨ ∃ c ∈ middle, c.deed.isMove ∧
          (c.deed.before.penDown = false ∨ c.deed.line?.isSome ∧ c.given = false)) ∧
    (∀ scope : Scope, scope.toList <+: program.names.toList → ∀ offset code site,
      lowerName scope offset code "step" site = .ok (code.emit (.sense .step) offset)) ∧
    (∀ m, Meets program.setup (fresh program).machine m →
      Run.instr program.setup.literals (.sense .step) m =
        .ok () { m with stack := .number (Float.ofNat 0) :: m.stack }) ∧
    ∀ k m, Meets program.step (e.after k).machine m →
      Run.instr program.step.literals (.sense .step) m =
        .ok () { m with stack := .number (Float.ofNat ((e.outputs k).countP (·.isOk))) :: m.stack } := by
  obtain ⟨begins, finite, bounded⟩ := start_begins started
  obtain ⟨-, t, leads, turtle, -, -⟩ := start_leads started
  obtain ⟨_, _, -, lowers⟩ := Program.compile_lowers compiled
  refine ⟨⟨finite, bounded⟩, fun k output given => (begins.after k).output given, fun k => ?_, ?_,
    fun m meets => meets.sense_step, fun k m meets => ?_⟩
  · have here : e.turtle.position = t.position := by rw [turtle]
    have travels := acts_travel (here ▸ leads.travels) k
    refine ⟨begins.acts_lines k, travels, ?_, ?_⟩
    · intro a _ l drawn
      exact Deed.line?_eq_some (Act.line?_some drawn).2
    · intro front a middle b behind l l' whole drawn drawn' next
      rw [whole] at travels
      exact next_line travels drawn drawn' next
  · intro scope earlier offset code site
    apply lowerName_step
    intro declared
    have known := Array.mem_toList_iff.mp (earlier.subset (Array.mem_toList_iff.mpr declared))
    exact absurd (lowers.named.unreserved _ known) (by decide)
  · have count := e.after_count k
    rw [turtle, leads.step, Nat.zero_add] at count
    rw [← count]
    exact meets.sense_step

theorem outputs_own_dropped :
    ∃ p e output, Program.compile "goto(step - x, y)\nassert(x == y)" = .ok p ∧
      start p = .ok (e, .black, #[]) ∧ (e.outputs 3).map (·.isOk) = [true, false, true] ∧
      (e.after 2).step.1 = .ok output ∧
      output.lines.toList = [⟨⟨1.0, 0.0⟩, ⟨0.0, 0.0⟩, .white, 1.0⟩] ∧
      Run.instr p.step.literals (.sense .step) (e.after 2).machine =
        .ok () { (e.after 2).machine with stack := [.number (Float.ofNat 1)] } := by
  let p : Program := {
    setup := {}
    step := {
      instrs := #[.sense .step, .sense .x, .binary .sub, .sense .y, .command .goto 2, .sense .x,
        .sense .y, .binary .eq, .command .assert 1]
      literals := #[]
      offsets := #[0, 0, 0, 0, 0, 18, 18, 18, 18] }
    names := #[]
    source := "goto(step - x, y)\nassert(x == y)" }
  let e : Environment := ⟨p, #[], {}⟩
  have compiled : Program.compile "goto(step - x, y)\nassert(x == y)" = .ok p := by
    decide +kernel
  have started : start p = .ok (e, .black, #[]) := by rfl
  have ended : (e.outputs 3).map (·.isOk) = [true, false, true] := by decide +kernel
  obtain ⟨-, outputs, -, -, -, senses⟩ := outputs_own compiled started
  cases given : (e.after 2).step.1 with
  | error f =>
    have ok : (e.after 2).step.1.isOk := by decide +kernel
    rw [given] at ok
    cases ok
  | ok output =>
    obtain ⟨-, lines, -⟩ := outputs 2 output given
    have made : ((if 2 = 0 then setupDeeds p else []) ++ (e.after 2).deeds).filterMap Deed.line? =
        [⟨⟨1.0, 0.0⟩, ⟨0.0, 0.0⟩, .white, 1.0⟩] := by decide +kernel
    have counted : (e.outputs 2).countP (·.isOk) = 1 := by decide +kernel
    have sense := senses 2 (e.after 2).machine (meets_start _ _)
    rw [counted] at sense
    exact ⟨p, e, output, compiled, started, ended, given, lines.trans made, sense⟩

end Environment

end TurtlePlayback
