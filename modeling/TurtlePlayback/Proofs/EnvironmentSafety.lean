import TurtlePlayback.Proofs.DefiniteAssignment
import TurtlePlayback.Proofs.StatementStacks
import TurtlePlayback.Turtle.Environment

namespace TurtlePlayback

open Script

namespace Script

variable {names scope scope' : Scope} {c : Code}

theorem Scope.store_map (store : Store) {n : String} (declared : n ∈ names) :
    names.store (names.map store) n = store n := by
  cases found : names.slot? n with
  | none => exact absurd declared (slot?_eq_none.mp found)
  | some i =>
    obtain ⟨bound, rfl, -⟩ := slot?_eq_some.mp found
    simp [Scope.store, found, bound]

structure Machine.Ready (names scope : Scope) (m : Machine Turtle) : Prop where
  sized : m.vars.size = names.size
  assigned : (names.scene m).Assigns scope

theorem Machine.Ready.mono {m : Machine Turtle} (ready : m.Ready names scope')
    (grown : scope.toList <+: scope'.toList) : m.Ready names scope :=
  ⟨ready.sized, ready.assigned.mono grown⟩

theorem Machine.ready_of_store {m : Machine Turtle} {scene : Scene Turtle}
    (vars : m.vars = names.map scene.store) (assigned : scene.Assigns scope)
    (later : scope.toList <+: names.toList) : m.Ready names scope := by
  refine ⟨by simp [vars], fun n declared => ?_⟩
  have known : n ∈ names :=
    Array.mem_toList_iff.mp (later.subset (Array.mem_toList_iff.mpr declared))
  change (names.store m.vars n).IsSet
  rw [vars, Scope.store_map _ known]
  exact assigned n declared

theorem Code.code_keeps (well : scope.WellNamed) {ss : List Stmt}
    (lowered : lowerStmts scope {} ss = .ok (scope', c)) (later : scope'.toList <+: names.toList)
    (named : names.WellNamed) {m : Machine Turtle} (ready : m.Ready names scope) :
    (∀ m', Run.code c m = .ok () m' → m'.Ready names scope') ∧
      ∀ t m', Run.code c m = .error t m' → t.fault.Accounted ∧ m'.Ready names scope := by
  obtain ⟨grown, -, performs⟩ := Code.lowerStmts_performs (σ := Turtle) well lowered
  have finishes := (performs.later later).code named ready.sized
  have keeps := lowerStmts_keeps ready.assigned lowered
  rcases ran : Stmt.runAll (names.scene m) ss with ⟨result, scene⟩
  rw [ran] at finishes keeps
  cases result with
  | ok _ =>
    have finishes : Run.code c m = .ok () ⟨names.map scene.store, [], scene.host⟩ := finishes
    rw [finishes]
    constructor
    · intro m' ended
      cases ended
      exact Machine.ready_of_store rfl (keeps.gained rfl) later
    · intro t m' failed
      cases failed
  | error t =>
    obtain ⟨stack, failed⟩ := finishes
    rw [failed]
    constructor
    · intro m' ended
      cases ended
    · intro t' m' ended
      cases ended
      exact ⟨keeps.accounted t rfl, Machine.ready_of_store rfl keeps.kept (grown.trans later)⟩

structure Program.Lowers (t : Tree) (scope : Scope) (p : Program) : Prop where
  setup : lowerStmts #[] {} t.setup = .ok (scope, p.setup)
  step : lowerStmts scope {} t.step = .ok (p.names, p.step)
  well : scope.WellNamed
  named : Scope.WellNamed p.names
  grown : scope.toList <+: p.names.toList

theorem Program.compile_lowers {source : String} {p : Program}
    (compiled : Program.compile source = .ok p) :
    ∃ t scope, Tree.parse source = .ok t ∧ p.Lowers t scope := by
  rw [Program.compile, bind_ok] at compiled
  obtain ⟨t, parsed, lowered⟩ := compiled
  simp only [Tree.lower, bind_ok] at lowered
  obtain ⟨⟨scope, setup⟩, first, ⟨names, step⟩, second, same⟩ := lowered
  obtain rfl := Except.ok.inj same
  obtain ⟨-, well, -⟩ := Code.lowerStmts_performs (σ := Turtle) Scope.wellNamed_empty first
  obtain ⟨grown, named, -⟩ := Code.lowerStmts_performs (σ := Turtle) well second
  exact ⟨t, scope, parsed, first, second, well, named, grown⟩

theorem Fault.Accounted.not_internal {f : Fault Turtle.Fault} (accounted : f.Accounted) :
    f.isInternal = false ∧ f ≠ .refused .missingArgument := by
  cases f <;> simp_all [Accounted, isOfValues, isInternal]

/-- Wherever the code clamps a number in a run from `m`, the bounds are in order. -/
def Code.ClampsInOrder (c : Code) (m : Machine Turtle) : Prop :=
  ∀ n args m₁ m₂, c.instrs[n]? = some (.call .clamp args) →
    Run.instrs c 0 (c.instrs.toList.take n) m = .ok () m₁ →
    Run.instr c.literals (.call .clamp args) m₁ = .ok () m₂ →
    ∃ x low high rest, m₁.stack = .number high :: .number low :: .number x :: rest ∧
      InOrder low high ∧ m₂.stack = .number (Run.clamp x low high) :: rest

theorem Code.clampsInOrder (c : Code) (m : Machine Turtle) : c.ClampsInOrder m := by
  intro n args m₁ m₂ _ _ called
  simp only [Run.instr, Run.bind_ran] at called
  obtain ⟨_, m, got, called⟩ := called
  cases got
  split at called
  · cases called
  · exact Run.clamp_ran called

end Script

namespace Environment

def machine (e : Environment) : Machine Turtle :=
  ⟨e.vars, [], e.turtle⟩

inductive Reached (p : Program) : Environment → Prop
  | started {e : Environment} {background : Canvas.Color} {printed : Array String} :
    start p = .ok (e, background, printed) → Reached p e
  | stepped {e : Environment} : Reached p e → Reached p e.step.2

inductive Runs (p : Program) : Code → Environment → Prop
  | setup : Runs p p.setup (fresh p)
  | step {e : Environment} : Reached p e → Runs p e.program.step e

variable {p : Program} {t : Tree} {scope : Scope} {c : Code} {e : Environment}

theorem fresh_ready (p : Program) : (fresh p).machine.Ready p.names #[] :=
  ⟨by simp [machine, fresh, Program.variableCount], by simp [Scene.Assigns]⟩

theorem run_eq (e : Environment) (c : Code) :
    e.run c = match Run.code c e.machine with
      | .ok () m => (.ok (), { e with vars := m.vars, turtle := m.host })
      | .error t m => (.error (failure e.program t), { e with vars := m.vars, turtle := m.host }) :=
  rfl

theorem Reached.ready (lowers : p.Lowers t scope) (reached : Reached p e) :
    e.program = p ∧ e.machine.Ready p.names scope := by
  induction reached with
  | @started e background printed begun =>
    have keeps := (Code.code_keeps Scope.wellNamed_empty lowers.setup lowers.grown lowers.named
      (fresh_ready p)).1
    rw [start, run_eq] at begun
    cases ran : Run.code p.setup (fresh p).machine with
    | error trap m =>
      rw [ran] at begun
      cases begun
    | ok _ m =>
      rw [ran] at begun
      cases begun
      have ready := keeps m ran
      exact ⟨rfl, ready.sized, ready.assigned⟩
  | @stepped e _ ih =>
    obtain ⟨rfl, ready⟩ := ih
    obtain ⟨ended, failed⟩ := Code.code_keeps lowers.well lowers.step List.prefix_rfl lowers.named ready
    rw [step, run_eq]
    cases ran : Run.code e.program.step e.machine with
    | error trap m =>
      have ready := (failed trap m ran).2
      exact ⟨rfl, ready.sized, ready.assigned⟩
    | ok _ m =>
      have ready := (ended m ran).mono lowers.grown
      exact ⟨rfl, ready.sized, ready.assigned⟩

/-- A run of a compiled text never fails for a reason that lies in the machine, never looks for an
argument that a command does not have, ends each of its statements with an empty stack, and clamps
numbers only between bounds in order. -/
theorem runs_safely {source : String} (compiled : Program.compile source = .ok p)
    (runs : Runs p c e) :
    (∀ trap m, Run.code c e.machine = .error trap m →
      trap.fault.isInternal = false ∧ trap.fault ≠ .refused .missingArgument) ∧
    c.Clears e.machine ∧ c.ClampsInOrder e.machine ∧
    ∃ t, Tree.parse source = .ok t ∧ p.setup.closings = t.setup.map (·.offset) ∧
      p.step.closings = t.step.map (·.offset) := by
  obtain ⟨t, scope, parsed, lowers⟩ := Program.compile_lowers compiled
  have freshly := fresh_ready p
  have setup_clears := Code.lowerStmts_clears Scope.wellNamed_empty lowers.setup lowers.grown
    freshly.sized
  have step_clears {m : Machine Turtle} (sized : m.vars.size = p.names.size) :=
    Code.lowerStmts_clears lowers.well lowers.step List.prefix_rfl sized
  refine ⟨?_, ?_, c.clampsInOrder e.machine, t, parsed, setup_clears.1,
    (step_clears freshly.sized).1⟩
  · intro trap m failed
    cases runs with
    | setup =>
      have keeps := Code.code_keeps Scope.wellNamed_empty lowers.setup lowers.grown lowers.named
        freshly
      exact (keeps.2 trap m failed).1.not_internal
    | step reached =>
      obtain ⟨rfl, ready⟩ := reached.ready lowers
      have keeps := Code.code_keeps lowers.well lowers.step List.prefix_rfl lowers.named ready
      exact (keeps.2 trap m failed).1.not_internal
  · cases runs with
    | setup => exact setup_clears.2
    | step reached =>
      obtain ⟨rfl, ready⟩ := reached.ready lowers
      exact (step_clears ready.sized).2

theorem runs_safely_assertion :
    ∃ (p : Program) (e : Environment),
      Program.compile "setup { let a = true }\nlet b = !a\nassert(b)" = .ok p ∧ Reached p e ∧
      e.step.2.vars = #[.truth true, .truth false] ∧ p.step.closings = [23, 34] ∧
      (∀ trap m, Run.code e.step.2.program.step e.step.2.machine = .error trap m →
        trap.fault.isInternal = false) ∧
      e.step.2.program.step.Clears e.step.2.machine := by
  let p : Program := {
    setup := { instrs := #[.push 0, .store 0], literals := #[.truth true], offsets := #[8, 8] }
    step := {
      instrs := #[.load 0, .unary .not, .store 1, .load 1, .command .assert 1]
      literals := #[]
      offsets := #[23, 23, 23, 34, 34] }
    names := #["a", "b"]
    source := "setup { let a = true }\nlet b = !a\nassert(b)" }
  let e : Environment := ⟨p, #[.truth true, .unset], {}⟩
  have compiled : Program.compile "setup { let a = true }\nlet b = !a\nassert(b)" = .ok p := by
    decide +kernel
  have started : Environment.start p = .ok (e, .black, #[]) := by rfl
  have reached : Reached p e := .started started
  obtain ⟨faults, clears, -⟩ := runs_safely compiled (.step (.stepped reached))
  exact ⟨p, e, compiled, reached, rfl, rfl, fun trap m failed => (faults trap m failed).1, clears⟩

end Environment

end TurtlePlayback
