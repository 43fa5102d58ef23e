import TurtlePlayback.Proofs.ScopedPrograms

namespace TurtlePlayback.Script

inductive Access (α : Type)
  | load (place : α)
  | store (place : α)
  deriving DecidableEq

inductive Access.For (names : Scope) : Access Nat → Access String → Prop
  | load {slot : Nat} (bound : slot < names.size) : For names (.load slot) (.load names[slot])
  | store {slot : Nat} (bound : slot < names.size) : For names (.store slot) (.store names[slot])

def Instr.access? : Instr → Option (Access Nat)
  | .load slot => some (.load slot)
  | .store slot => some (.store slot)
  | _ => none

def Code.accesses (c : Code) : List (Access Nat) :=
  c.instrs.toList.filterMap Instr.access?

def isVariable (n : String) : Bool :=
  (Reading.ofName? n).isNone && (Constant.ofName? n).isNone

def Stmt.accesses (s : Stmt) : List (Access String) :=
  (s.names.filter isVariable).map .load ++
    match s.action with
    | .declare n _ => [.store n]
    | .assign n _ => [.store n]
    | .command _ _ => []

namespace Code

def Accesses (names : Scope) (c d : Code) (vs : List (Access String)) : Prop :=
  ∃ added, c.Grows added d ∧
    List.Forall₂ (Access.For names) (added.filterMap (·.1.access?)) vs

variable {names scope scope' : Scope} {c d e : Code} {offset : Nat}
  {vs ws : List (Access String)}

theorem Accesses.trans (first : Accesses names c d vs) (second : Accesses names d e ws) :
    Accesses names c e (vs ++ ws) := by
  obtain ⟨a, grows₁, named₁⟩ := first
  obtain ⟨b, grows₂, named₂⟩ := second
  refine ⟨a ++ b, grows₁.trans grows₂, ?_⟩
  rw [List.filterMap_append]
  exact List.rel_append named₁ named₂

theorem Accesses.emit (accesses : Accesses names c d vs) {i : Instr}
    (none : i.access? = none) : Accesses names c (d.emit i offset) vs := by
  have last : Accesses names d (d.emit i offset) [] :=
    ⟨[(i, offset)], emit_grows d i offset, by simp [none]⟩
  rw [← List.append_nil vs]
  exact accesses.trans last

theorem Accesses.refl (names : Scope) (c : Code) : Accesses names c c [] :=
  ⟨[], .refl c, .nil⟩

theorem emitLiteral_accesses (c : Code) (l : Literal) :
    Accesses names c (c.emitLiteral l offset) [] :=
  ⟨_, emitLiteral_grows c l offset, .nil⟩

theorem load_accesses {n : String} {slot : Nat} (found : names.slot? n = some slot) :
    Accesses names c (c.emit (.load slot) offset) [.load n] := by
  obtain ⟨bound, rfl, -⟩ := Scope.slot?_eq_some.mp found
  exact ⟨_, emit_grows c _ offset, .cons (.load bound) .nil⟩

theorem store_accesses {n : String} {slot : Nat} (found : names.slot? n = some slot) :
    Accesses names c (c.emit (.store slot) offset) [.store n] := by
  obtain ⟨bound, rfl, -⟩ := Scope.slot?_eq_some.mp found
  exact ⟨_, emit_grows c _ offset, .cons (.store bound) .nil⟩

theorem lowerName_accesses (well : scope.WellNamed) (later : scope.toList <+: names.toList)
    {n : String} {nameOffset : Nat} (lowered : lowerName scope offset c n nameOffset = .ok d) :
    Accesses names c d (([n].filter isVariable).map .load) := by
  simp only [lowerName] at lowered
  split at lowered
  · next slot found =>
    obtain rfl := Except.ok.inj lowered
    have own : isVariable n = true := by simp [isVariable, well.ofName?_eq_none found]
    rw [List.filter_singleton, own]
    exact load_accesses (Scope.slot?_of_prefix later found)
  · split at lowered
    · next reading known =>
      obtain rfl := Except.ok.inj lowered
      rw [List.filter_singleton, show isVariable n = false by simp [isVariable, known]]
      exact (Accesses.refl names c).emit rfl
    · split at lowered
      · next constant known =>
        obtain rfl := Except.ok.inj lowered
        rw [List.filter_singleton, show isVariable n = false by simp [isVariable, known]]
        exact emitLiteral_accesses c _
      · cases lowered

mutual

theorem lowerExpr_accesses (well : scope.WellNamed) (later : scope.toList <+: names.toList)
    {c d : Code} (e : Expr) (lowered : lowerExpr scope offset c e = .ok d) :
    Accesses names c d ((e.names.filter isVariable).map .load) := by
  cases e with
  | literal l =>
    obtain rfl := Except.ok.inj lowered
    exact emitLiteral_accesses c l
  | name n nameOffset => exact lowerName_accesses well later lowered
  | unary op e =>
    simp only [lowerExpr, bind_ok] at lowered
    obtain ⟨inner, operand, same⟩ := lowered
    obtain rfl := Except.ok.inj same
    exact (lowerExpr_accesses well later e operand).emit rfl
  | binary op l r =>
    simp only [lowerExpr, bind_ok] at lowered
    obtain ⟨left, hl, right, hr, same⟩ := lowered
    obtain rfl := Except.ok.inj same
    rw [Expr.names, List.filter_append, List.map_append]
    have first := lowerExpr_accesses well later l hl
    exact (first.trans (lowerExpr_accesses well later r hr)).emit rfl
  | call f args callOffset =>
    simp only [lowerExpr, bind_ok] at lowered
    obtain ⟨function, -, inner, hargs, same⟩ := lowered
    obtain rfl := Except.ok.inj same
    exact (lowerExprs_accesses well later args hargs).emit rfl

theorem lowerExprs_accesses (well : scope.WellNamed) (later : scope.toList <+: names.toList)
    {c d : Code} (es : List Expr) (lowered : lowerExprs scope offset c es = .ok d) :
    Accesses names c d (((Expr.namesAll es).filter isVariable).map .load) := by
  cases es with
  | nil =>
    obtain rfl := Except.ok.inj lowered
    exact .refl names c
  | cons e es =>
    simp only [lowerExprs, bind_ok] at lowered
    obtain ⟨inner, first, rest⟩ := lowered
    rw [Expr.namesAll, List.filter_append, List.map_append]
    exact (lowerExpr_accesses well later e first).trans (lowerExprs_accesses well later es rest)

end

end Code

theorem Stmt.Lowers.wellNamed {scope scope' : Scope} {c d : Code} {s : Stmt}
    (lowers : s.Lowers scope c scope' d) (well : scope.WellNamed) : scope'.WellNamed := by
  cases lowers with
  | declare unreserved _ => exact well.declare unreserved
  | assign _ _ => exact well
  | command _ _ => exact well

namespace Code

variable {names scope scope' : Scope} {c d : Code}

theorem lowerStmt_accesses (well : scope.WellNamed) {s : Stmt}
    (lowers : s.Lowers scope c scope' d) (later : scope'.toList <+: names.toList) :
    Accesses names c d s.accesses := by
  -- The value is read in the scope before the statement, and its names keep their slots.
  have before := lowers.grown.trans later
  cases lowers with
  | @declare name value offset inner _ computed =>
    have target := Scope.slot?_of_prefix later (scope.declare_slot? name)
    exact (lowerExpr_accesses well before value computed).trans (store_accesses target)
  | @assign name value offset slot inner found computed =>
    have target := Scope.slot?_of_prefix later found
    exact (lowerExpr_accesses well before value computed).trans (store_accesses target)
  | @command name args offset command inner _ computed =>
    rw [Stmt.accesses, List.append_nil]
    exact (lowerExprs_accesses well before args computed).emit rfl

theorem lowerStmts_wellNamed (well : scope.WellNamed) {ss : List Stmt}
    (lowered : lowerStmts scope c ss = .ok (scope', d)) :
    scope'.WellNamed ∧ scope.toList <+: scope'.toList := by
  induction ss generalizing scope c with
  | nil =>
    obtain ⟨rfl, -⟩ := Prod.mk.inj (Except.ok.inj lowered)
    exact ⟨well, List.prefix_rfl⟩
  | cons s ss ih =>
    rw [lowerStmts_cons, bind_ok] at lowered
    obtain ⟨⟨scope₁, inner⟩, first, rest⟩ := lowered
    have lowers := lowerStmt_lowers first
    obtain ⟨well', grown⟩ := ih (lowers.wellNamed well) rest
    exact ⟨well', lowers.grown.trans grown⟩

theorem lowerStmts_accesses (well : scope.WellNamed) {ss : List Stmt}
    (lowered : lowerStmts scope c ss = .ok (scope', d)) (later : scope'.toList <+: names.toList) :
    Accesses names c d (ss.flatMap Stmt.accesses) := by
  induction ss generalizing scope c with
  | nil =>
    obtain ⟨-, rfl⟩ := Prod.mk.inj (Except.ok.inj lowered)
    exact .refl names c
  | cons s ss ih =>
    rw [lowerStmts_cons, bind_ok] at lowered
    obtain ⟨⟨scope₁, inner⟩, first, rest⟩ := lowered
    have lowers := lowerStmt_lowers first
    have well' := lowers.wellNamed well
    have here := (lowerStmts_wellNamed well' rest).2.trans later
    exact (lowerStmt_accesses well lowers here).trans (ih well' rest)

theorem Accesses.all {vs : List (Access String)} (accesses : Accesses names {} c vs) :
    List.Forall₂ (Access.For names) c.accesses vs := by
  obtain ⟨added, grows, named⟩ := accesses
  have whole : c.accesses = added.filterMap (·.1.access?) := by
    rw [Code.accesses, grows.instrs, List.filterMap_append, List.filterMap_map]
    rfl
  rw [whole]
  exact named

end Code

/-- A tree has a program exactly if it is well-scoped. The variables of the program have names of
their own, which are those declared, and its code accesses them where the tree names them. -/
theorem Tree.lower_iff_wellScoped (t : Tree) (source : String) :
    ((∃ p, t.lower source = .ok p) ↔ t.WellScoped) ∧
      ∀ p, t.lower source = .ok p →
        p.names.toList.Nodup ∧ (∀ n ∈ p.names, ¬ Reserved n) ∧
        (∀ n, n ∈ p.names ↔ n ∈ (t.setup ++ t.step).filterMap Stmt.declared?) ∧
        List.Forall₂ (Access.For p.names) p.setup.accesses (t.setup.flatMap Stmt.accesses) ∧
        List.Forall₂ (Access.For p.names) p.step.accesses (t.step.flatMap Stmt.accesses) := by
  refine ⟨Tree.lower_succeeds, fun p lowered => ?_⟩
  simp only [Tree.lower, bind_ok] at lowered
  obtain ⟨⟨scope₁, setup⟩, first, ⟨scope₂, step⟩, second, same⟩ := lowered
  obtain rfl := Except.ok.inj same
  obtain ⟨well₁, -⟩ := Code.lowerStmts_wellNamed Scope.wellNamed_empty first
  obtain ⟨well₂, grown⟩ := Code.lowerStmts_wellNamed well₁ second
  refine ⟨well₂.distinct, fun n declared reserved => ?_, fun n => ?_, ?_, ?_⟩
  · have unreserved := well₂.unreserved n declared
    rw [isReserved_iff.mpr reserved] at unreserved
    cases unreserved
  · rw [← Array.mem_toList_iff, lowerStmts_mem second, List.mem_append, lowerStmts_mem first]
    simp
  · exact (Code.lowerStmts_accesses Scope.wellNamed_empty first grown).all
  · exact (Code.lowerStmts_accesses well₁ second List.prefix_rfl).all

theorem Tree.lower_iff_wellScoped_redeclared :
    ∃ t u p, Tree.parse "setup \x7b let a = step \x7d\nlet b = max(a, x)\nlet a = a + b\nprint(b)" =
        .ok t ∧
      Tree.parse "let b = b" = .ok u ∧ t.lower "" = .ok p ∧ t.WellScoped ∧ ¬ u.WellScoped ∧
      p.names = #["a", "b"] ∧ p.names.toList.Nodup ∧
      p.setup.accesses = [.store 0] ∧
      p.step.accesses = [.load 0, .store 1, .load 0, .load 1, .store 0, .load 1] ∧
      List.Forall₂ (Access.For p.names) p.step.accesses
        [.load "a", .store "b", .load "a", .load "b", .store "a", .load "b"] := by
  let named : List (Access String) :=
    [.load "a", .store "b", .load "a", .load "b", .store "a", .load "b"]
  let p : Program := {
    setup := ⟨#[.sense .step, .store 0], #[], #[8, 8]⟩
    step := ⟨#[.load 0, .sense .x, .call .max 2, .store 1, .load 0, .load 1, .binary .add, .store 0,
        .load 1, .command .print 1], #[], #[23, 23, 23, 23, 41, 41, 41, 41, 55, 55]⟩
    names := #["a", "b"], source := "" }
  have made : (Tree.parse
      "setup \x7b let a = step \x7d\nlet b = max(a, x)\nlet a = a + b\nprint(b)").bind (fun t =>
        (t.lower "").map fun p => (p, t.step.flatMap Stmt.accesses)) = .ok (p, named) := by
    decide +kernel
  obtain ⟨t, parsed, made⟩ := bind_ok.mp made
  obtain ⟨p', lowered, made⟩ := map_ok.mp made
  obtain ⟨rfl, accessed⟩ := Prod.mk.inj made
  have refused : (Tree.parse "let b = b").map (fun u => (u.lower "").isOk) = .ok false := by
    decide +kernel
  obtain ⟨u, parsed', refused⟩ := map_ok.mp refused
  have accepted := (Tree.lower_iff_wellScoped t "").1.mp ⟨p, lowered⟩
  obtain ⟨distinct, -, -, -, step⟩ := (Tree.lower_iff_wellScoped t "").2 p lowered
  rw [accessed] at step
  refine ⟨t, u, p, parsed, parsed', lowered, accepted, fun well => ?_, rfl, distinct, rfl, rfl,
    step⟩
  obtain ⟨q, done⟩ := (Tree.lower_iff_wellScoped u "").1.mpr well
  rw [done] at refused
  cases refused

end TurtlePlayback.Script
