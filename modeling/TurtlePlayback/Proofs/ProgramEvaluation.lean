import TurtlePlayback.Proofs.ExpressionCode
import TurtlePlayback.Turtle

namespace TurtlePlayback.Script

variable {σ ε α : Type} [Host σ ε]

open Run

namespace Run

def left : EStateM.Result (Trap ε) (Machine σ) Unit → Machine σ
  | .ok _ m => m
  | .error _ m => m

end Run

def Scope.outcome (names : Scope) :
    EStateM.Result (Trap ε) (Machine σ) Unit → Except (Trap ε) Unit × Scene σ
  | .ok () m => (.ok (), names.scene m)
  | .error t m => (.error t, names.scene m)

/-- A run ends as `out` says, and one that ends well leaves the stack of `m`. -/
structure Run.Ends (names : Scope) (m : Machine σ) (out : Except (Trap ε) Unit × Scene σ)
    (r : EStateM.Result (Trap ε) (Machine σ) Unit) : Prop where
  outcome : names.outcome r = out
  sized : (left r).vars.size = m.vars.size
  stack : ∀ m', r = .ok () m' → m'.stack = m.stack

namespace Code

/-- The code that has grown from `c` to `d` changes a scene as `act` does. -/
def Performs (scope : Scope) (c d : Code) (act : Scene σ → Except (Trap ε) Unit × Scene σ) : Prop :=
  ∃ added, c.Grows added d ∧ ∀ literals names (m : Machine σ), Fits scope d literals names m →
    Ends names m (act (names.scene m)) (lines literals added m)

variable {scope scope' : Scope} {offset : Nat} {c d e : Code}

theorem Computes.finish {i : Instr} {top : α → List Value}
    {value : Scene σ → Except (Fault ε) α} (h : Computes scope offset c d top value)
    {act : α → Scene σ → Except (Trap ε) Unit × Scene σ} (grown : scope.toList <+: scope'.toList)
    (step : ∀ literals names (m : Machine σ), Fits scope' d literals names m →
      ∀ a, value (names.scene m) = .ok a → Ends names m (act a (names.scene m))
        (located (some offset) (instr literals i) (holding m (top a)))) :
    Performs scope' c (d.emit i offset) fun scene =>
      scene.after offset (value scene) fun a => act a scene := by
  obtain ⟨a, grows, runs⟩ := h
  have last := emit_grows d i offset
  refine ⟨a ++ [(i, offset)], grows.trans last, ?_⟩
  intro literals names m fits
  have pushed := runs literals names m (fits.earlier last grown)
  rw [lines_append, lines_single]
  beta_reduce
  cases evaluated : value (names.scene m) with
  | error f =>
    rw [evaluated] at pushed
    obtain ⟨stack, ran⟩ := pushed
    rw [bind_trap ran]
    exact ⟨rfl, rfl, fun _ ended => by cases ended⟩
  | ok v =>
    rw [evaluated] at pushed
    rw [bind_run pushed]
    exact step literals names m (fits.earlier last List.prefix_rfl) v evaluated

theorem Computes.store {value : Scene σ → Except (Fault ε) Value} {n : String} {slot : Nat}
    (h : Computes scope offset c d single value) (grown : scope.toList <+: scope'.toList)
    (found : scope'.slot? n = some slot) :
    Performs scope' c (d.emit (.store slot) offset) fun scene : Scene σ =>
      scene.after offset (value scene) fun v => (.ok (), scene.assign n v) := by
  apply h.finish grown
  intro literals names m fits v _
  have slotted := Scope.slot?_of_prefix fits.later found
  obtain ⟨named, -⟩ := Scope.slot?_eq_some.mp slotted
  have bound : slot < m.vars.size := fits.sized ▸ named
  have stored : located (some offset) (instr literals (.store slot)) (holding m (single v)) =
      .ok () { m with vars := m.vars.setIfInBounds slot v } := by
    simp only [located, instr, single, store_holding bound]
  rw [stored]
  refine ⟨?_, by simp [left], ?_⟩
  · simp only [Scope.outcome, Scope.scene, Scope.store_set slotted bound, Scene.assign]
  · intro m' ended
    cases ended
    rfl

theorem Computes.order {values : Scene σ → Except (Fault ε) (List Value)} {command : Command}
    {count : Nat} (h : Computes scope offset c d List.reverse values)
    (counted : ∀ scene vs, values scene = .ok vs → vs.length = count) :
    Performs scope c (d.emit (.command command count) offset) fun scene : Scene σ =>
      scene.after offset (values scene) fun vs => scene.order offset command vs := by
  apply h.finish List.prefix_rfl
  intro literals names m _ vs evaluated
  rw [← counted _ vs evaluated]
  simp only [located, instr, command_holding, Scene.order, Scope.scene]
  rcases Host.perform m.host command vs with ⟨result, host⟩
  cases result with
  | ok _ => exact ⟨rfl, rfl, fun _ ended => by cases ended; rfl⟩
  | error r => exact ⟨rfl, rfl, fun _ ended => by cases ended⟩

theorem Performs.append {first second : Scene σ → Except (Trap ε) Unit × Scene σ}
    (h : Performs scope c d first) (grown : scope.toList <+: scope'.toList)
    (k : Performs scope' d e second) :
    Performs scope' c e fun scene =>
      match first scene with
      | (.ok (), scene) => second scene
      | (.error t, scene) => (.error t, scene) := by
  obtain ⟨a, grows₁, runs₁⟩ := h
  obtain ⟨b, grows₂, runs₂⟩ := k
  refine ⟨a ++ b, grows₁.trans grows₂, ?_⟩
  intro literals names m fits
  obtain ⟨outcome, size, stack⟩ := runs₁ literals names m (fits.earlier grows₂ grown)
  rw [lines_append]
  beta_reduce
  rw [← outcome]
  cases ran : lines (ε := ε) literals a m with
  | error t m' =>
    rw [bind_trap ran]
    rw [ran] at size
    exact ⟨rfl, size, fun _ ended => by cases ended⟩
  | ok _ m' =>
    rw [ran] at size
    have rest := runs₂ literals names m' ⟨fits.kept, fits.later, size.trans fits.sized⟩
    rw [bind_run ran]
    exact ⟨rest.outcome, rest.sized.trans size,
      fun _ ended => (rest.stack _ ended).trans (stack _ ran)⟩

theorem Performs.nil (scope : Scope) (c : Code) :
    Performs scope c c fun scene : Scene σ => (.ok (), scene) := by
  refine ⟨[], .refl c, ?_⟩
  intro literals names m _
  exact ⟨rfl, rfl, fun _ ended => by cases ended; rfl⟩

theorem Performs.later {act : Scene σ → Except (Trap ε) Unit × Scene σ}
    (h : Performs scope c d act) (grown : scope.toList <+: scope'.toList) :
    Performs scope' c d act := by
  obtain ⟨a, grows, runs⟩ := h
  refine ⟨a, grows, ?_⟩
  intro literals names m fits
  exact runs literals names m (fits.earlier (.refl d) grown)

theorem lowerStmt_performs (well : scope.WellNamed) {s : Stmt}
    (lowered : lowerStmt scope c s = .ok (scope', d)) :
    scope.toList <+: scope'.toList ∧ scope'.WellNamed ∧
      Performs scope' c d fun scene : Scene σ => s.run scene := by
  cases lowerStmt_lowers lowered with
  | @declare name value offset inner unreserved computed =>
    have grown := scope.declare_prefix name
    refine ⟨grown, well.declare unreserved, ?_⟩
    exact (lowerExpr_computes well _ computed).store grown (scope.declare_slot? _)
  | assign found computed =>
    refine ⟨List.prefix_rfl, well, ?_⟩
    exact (lowerExpr_computes well _ computed).store List.prefix_rfl found
  | command named computed =>
    refine ⟨List.prefix_rfl, well, ?_⟩
    simp only [Stmt.run, (commandNamed_eq_ok named).1]
    exact (lowerExprs_computes well _ computed).order fun _ _ => values_length

theorem lowerStmts_performs (well : scope.WellNamed) {ss : List Stmt}
    (lowered : lowerStmts scope c ss = .ok (scope', d)) :
    scope.toList <+: scope'.toList ∧ scope'.WellNamed ∧
      Performs scope' c d fun scene : Scene σ => Stmt.runAll scene ss := by
  induction ss generalizing scope c with
  | nil =>
    obtain ⟨rfl, rfl⟩ := Prod.mk.inj (Except.ok.inj lowered)
    exact ⟨List.prefix_rfl, well, .nil scope c⟩
  | cons s ss ih =>
    simp only [lowerStmts] at lowered
    split at lowered
    · next scope₁ inner first =>
      obtain ⟨grown₁, well₁, performs₁⟩ := lowerStmt_performs (σ := σ) well first
      obtain ⟨grown₂, well₂, performs₂⟩ := ih well₁ lowered
      exact ⟨grown₁.trans grown₂, well₂, performs₁.append grown₂ performs₂⟩
    · cases lowered

end Code

/-- A run ends as `out` says: with the variables of its scene, slot by slot, with its host and,
unless it fails, with nothing on the stack. -/
def Run.Finishes (names : Scope) (out : Except (Trap ε) Unit × Scene σ)
    (r : EStateM.Result (Trap ε) (Machine σ) Unit) : Prop :=
  match out with
  | (.ok (), scene) => r = .ok () ⟨names.map scene.store, [], scene.host⟩
  | (.error t, scene) => ∃ stack, r = .error t ⟨names.map scene.store, stack, scene.host⟩

theorem Code.Performs.code {names : Scope} (well : names.WellNamed) {c : Code}
    {act : Scene σ → Except (Trap ε) Unit × Scene σ} (h : Performs names {} c act)
    {m : Machine σ} (sized : m.vars.size = names.size) :
    Finishes names (act (names.scene m)) (Run.code c m) := by
  obtain ⟨a, grows, runs⟩ := h
  have body : Run.instrs (σ := σ) c 0 c.instrs.toList = lines c.literals a := by
    rw [grows.instrs]
    exact instrs_lines c [] (grows.offsets ▸ List.prefix_rfl)
  obtain ⟨outcome, size, stack⟩ := runs c.literals names { m with stack := [] }
    ⟨List.prefix_rfl, List.prefix_rfl, sized⟩
  have entry : Run.code (ε := ε) c m =
      (lines c.literals a >>= fun _ => do
        let m ← get
        unless m.stack.isEmpty do fail (.leftOver m.stack.length)) { m with stack := [] } := by
    rw [← body]
    rfl
  have before : names.scene { m with stack := [] } = names.scene m := rfl
  rw [before] at outcome
  rw [entry, ← outcome]
  cases ran : lines (ε := ε) c.literals a { m with stack := [] } with
  | error t m' =>
    rw [ran] at size
    have vars : m'.vars = names.map (names.store m'.vars) :=
      Scope.vars_eq_store well (size.trans sized)
    rw [bind_trap ran]
    refine ⟨m'.stack, ?_⟩
    simp only [Scope.scene, ← vars]
  | ok _ m' =>
    rw [ran] at size
    have vars : m'.vars = names.map (names.store m'.vars) :=
      Scope.vars_eq_store well (size.trans sized)
    -- Every statement leaves the stack as it was, so nothing is left over at the end.
    have empty : m'.stack = [] := stack m' ran
    have checked : (do
        let m ← get
        unless m.stack.isEmpty do fail (.leftOver m.stack.length) : Run σ ε Unit) m' =
          .ok () m' := by
      change (if m'.stack.isEmpty then pure () else _ : Run σ ε Unit) m' = _
      rw [empty]
      rfl
    rw [bind_run ran, checked]
    simp only [Finishes, Scope.outcome, Scope.scene, ← vars, ← empty]

theorem Tree.lower_performs {t : Tree} {source : String} {p : Program}
    (lowered : t.lower source = .ok p) :
    Scope.WellNamed p.names ∧
      Code.Performs p.names {} p.setup (fun scene : Scene σ => Stmt.runAll scene t.setup) ∧
      Code.Performs p.names {} p.step (fun scene : Scene σ => Stmt.runAll scene t.step) := by
  simp only [Tree.lower, bind_ok] at lowered
  obtain ⟨⟨scope₁, setup⟩, first, ⟨scope₂, step⟩, second, same⟩ := lowered
  obtain rfl := Except.ok.inj same
  obtain ⟨-, well₁, setup_performs⟩ :=
    Code.lowerStmts_performs (σ := σ) Scope.wellNamed_empty first
  obtain ⟨grown, well₂, step_performs⟩ := Code.lowerStmts_performs (σ := σ) well₁ second
  exact ⟨well₂, setup_performs.later grown, step_performs⟩

/-- Running the setup or the step of a compiled text ends as its tree says, whatever the variables
hold, and whatever the host answers and refuses. -/
theorem Program.compile_evaluates {source : String} {p : Program}
    (compiled : Program.compile source = .ok p) :
    ∃ t, Tree.parse source = .ok t ∧
      ∀ m : Machine σ, m.vars.size = p.variableCount →
        Finishes p.names (Stmt.runAll (Scope.scene p.names m) t.setup) (Run.code p.setup m) ∧
        Finishes p.names (Stmt.runAll (Scope.scene p.names m) t.step) (Run.code p.step m) := by
  rw [Program.compile, bind_ok] at compiled
  obtain ⟨t, parsed, lowered⟩ := compiled
  obtain ⟨well, setup, step⟩ := Tree.lower_performs (σ := σ) lowered
  exact ⟨t, parsed, fun m sized => ⟨setup.code well sized, step.code well sized⟩⟩

theorem Program.compile_evaluates_assertion :
    ∃ p t, Program.compile "let a = true\nassert(!a)" = .ok p ∧
      Tree.parse "let a = true\nassert(!a)" = .ok t ∧
      (Stmt.runAll (Scope.scene p.names ⟨#[.unset], [], ({} : Turtle)⟩) t.step).1 =
        .error ⟨.refused .assertionFailed, some 13⟩ := by
  let p : Program := {
    setup := {}
    step := {
      instrs := #[.push 0, .store 0, .load 0, .unary .not, .command .assert 1]
      literals := #[.truth true]
      offsets := #[0, 0, 13, 13, 13] }
    names := #["a"]
    source := "let a = true\nassert(!a)" }
  have compiled : Program.compile "let a = true\nassert(!a)" = .ok p := by
    decide +kernel
  obtain ⟨t, parsed, evaluates⟩ := Program.compile_evaluates (σ := Turtle) compiled
  have finishes := (evaluates ⟨#[.unset], [], {}⟩ rfl).2
  have ran : Run.code p.step ⟨#[.unset], [], ({} : Turtle)⟩ =
      .error ⟨.refused .assertionFailed, some 13⟩ ⟨#[.truth true], [], {}⟩ := by rfl
  refine ⟨p, t, compiled, parsed, ?_⟩
  rcases evaluated : Stmt.runAll (Scope.scene p.names ⟨#[.unset], [], ({} : Turtle)⟩) t.step
    with ⟨result, scene⟩
  rw [evaluated, ran] at finishes
  cases result with
  | ok _ => cases finishes
  | error trap =>
    obtain ⟨stack, same⟩ := finishes
    rw [(EStateM.Result.error.inj same).1]

end TurtlePlayback.Script
