import TurtlePlayback.Proofs.ExpressionCode

namespace TurtlePlayback

variable {ε α β : Type}

def Succeeds (x : Except ε α) : Prop :=
  ∃ a, x = .ok a

theorem succeeds_pure (a : α) : Succeeds (pure a : Except ε α) ↔ True :=
  iff_true_intro ⟨a, rfl⟩

theorem not_succeeds_error (e : ε) : ¬ Succeeds (.error e : Except ε α) := by
  rintro ⟨a, done⟩
  cases done

theorem succeeds_bind {x : Except ε α} {f : α → Except ε β} {P Q : Prop} (first : Succeeds x ↔ P)
    (second : ∀ a, x = .ok a → (Succeeds (f a) ↔ Q)) : Succeeds (x >>= f) ↔ P ∧ Q := by
  constructor
  · rintro ⟨b, done⟩
    obtain ⟨a, found, rest⟩ := bind_ok.mp done
    exact ⟨first.mp ⟨a, found⟩, (second a found).mp ⟨b, rest⟩⟩
  · rintro ⟨holds, rest⟩
    obtain ⟨a, found⟩ := first.mpr holds
    obtain ⟨b, done⟩ := (second a found).mpr rest
    exact ⟨b, bind_ok.mpr ⟨a, found, done⟩⟩

namespace Script

theorem find?_name {all : List α} {name : α → String} (complete : ∀ a, a ∈ all)
    (distinct : (all.map name).Nodup) {n : String} {a : α} :
    all.find? (name · == n) = some a ↔ name a = n := by
  constructor
  · intro found
    have same := List.find?_some found
    exact eq_of_beq same
  · rintro rfl
    cases found : all.find? (name · == name a) with
    | none =>
      have unlike := List.find?_eq_none.mp found a (complete a)
      simp at unlike
    | some b =>
      have same := List.find?_some found
      exact congrArg some
        (List.inj_on_of_nodup_map distinct (complete b) (complete a) (eq_of_beq same))

theorem Reading.ofName?_eq_some {n : String} {r : Reading} : ofName? n = some r ↔ r.name = n :=
  find?_name (by intro r; cases r <;> decide) (by decide)

theorem Constant.ofName?_eq_some {n : String} {c : Constant} : ofName? n = some c ↔ c.name = n :=
  find?_name (by intro c; cases c <;> decide) (by decide)

theorem Function.ofName?_eq_some {n : String} {f : Function} : ofName? n = some f ↔ f.name = n :=
  find?_name (by intro f; cases f <;> decide) (by decide)

theorem Command.ofName?_eq_some {n : String} {c : Command} : ofName? n = some c ↔ c.name = n :=
  find?_name (by intro c; cases c <;> decide) (by decide)

def Reserved (n : String) : Prop :=
  (∃ r : Reading, r.name = n) ∨ (∃ f : Function, f.name = n) ∨ (∃ c : Command, c.name = n) ∨
    ∃ c : Constant, c.name = n

theorem isReserved_iff {n : String} : isReserved n = true ↔ Reserved n := by
  simp only [isReserved, Bool.or_eq_true, Option.isSome_iff_exists, Reading.ofName?_eq_some,
    Function.ofName?_eq_some, Command.ofName?_eq_some, Constant.ofName?_eq_some, Reserved, or_assoc]

mutual

def Expr.names : Expr → List String
  | .literal _ => []
  | .name n _ => [n]
  | .unary _ e => e.names
  | .binary _ l r => l.names ++ r.names
  | .call _ args _ => Expr.namesAll args

def Expr.namesAll : List Expr → List String
  | [] => []
  | e :: es => e.names ++ Expr.namesAll es

end

mutual

def Expr.calls : Expr → List (String × Nat)
  | .literal _ => []
  | .name _ _ => []
  | .unary _ e => e.calls
  | .binary _ l r => l.calls ++ r.calls
  | .call f args _ => (f, args.length) :: Expr.callsAll args

def Expr.callsAll : List Expr → List (String × Nat)
  | [] => []
  | e :: es => e.calls ++ Expr.callsAll es

end

def Stmt.names (s : Stmt) : List String :=
  match s.action with
  | .declare _ value => value.names
  | .assign _ value => value.names
  | .command _ args => Expr.namesAll args

def Stmt.calls (s : Stmt) : List (String × Nat) :=
  match s.action with
  | .declare _ value => value.calls
  | .assign _ value => value.calls
  | .command _ args => Expr.callsAll args

def Stmt.declared? (s : Stmt) : Option String :=
  match s.action with
  | .declare n _ => some n
  | _ => none

def Known (declared : List String) (n : String) : Prop :=
  (∃ r : Reading, r.name = n) ∨ (∃ c : Constant, c.name = n) ∨ n ∈ declared

def Admitted (call : String × Nat) : Prop :=
  ∃ f : Function, f.name = call.1 ∧ call.2 = f.arity

structure Stmt.WellScoped (declared : List String) (s : Stmt) : Prop where
  names : ∀ n ∈ s.names, Known declared n
  calls : ∀ call ∈ s.calls, Admitted call
  declares : ∀ n value, s.action = .declare n value → ¬ Reserved n
  assigns : ∀ n value, s.action = .assign n value → n ∈ declared
  commands : ∀ n args, s.action = .command n args →
    ∃ c : Command, c.name = n ∧ c.arity.1 ≤ args.length ∧ args.length ≤ c.arity.2

/-- Every statement is well-scoped behind the declarations before it. -/
def Tree.WellScoped (t : Tree) : Prop :=
  ∀ before s after, t.setup ++ t.step = before ++ s :: after →
    s.WellScoped (before.filterMap Stmt.declared?)

variable {declared : List String} {name : String} {offset : Nat}

theorem Stmt.wellScoped_declare {value : Expr} :
    (Stmt.mk (.declare name value) offset).WellScoped declared ↔ ¬ Reserved name ∧
      (∀ n ∈ value.names, Known declared n) ∧ ∀ call ∈ value.calls, Admitted call := by
  constructor
  · rintro ⟨names, calls, declares, -, -⟩
    exact ⟨declares name value rfl, names, calls⟩
  · rintro ⟨unreserved, names, calls⟩
    refine ⟨names, calls, ?_, ?_, ?_⟩
    · rintro _ _ ⟨⟩
      exact unreserved
    · rintro _ _ ⟨⟩
    · rintro _ _ ⟨⟩

theorem Stmt.wellScoped_assign {value : Expr} :
    (Stmt.mk (.assign name value) offset).WellScoped declared ↔ name ∈ declared ∧
      (∀ n ∈ value.names, Known declared n) ∧ ∀ call ∈ value.calls, Admitted call := by
  constructor
  · rintro ⟨names, calls, -, assigns, -⟩
    exact ⟨assigns name value rfl, names, calls⟩
  · rintro ⟨there, names, calls⟩
    refine ⟨names, calls, ?_, ?_, ?_⟩
    · rintro _ _ ⟨⟩
    · rintro _ _ ⟨⟩
      exact there
    · rintro _ _ ⟨⟩

theorem Stmt.wellScoped_command {args : List Expr} :
    (Stmt.mk (.command name args) offset).WellScoped declared ↔
      (∃ c : Command, c.name = name ∧ c.arity.1 ≤ args.length ∧ args.length ≤ c.arity.2) ∧
      (∀ n ∈ Expr.namesAll args, Known declared n) ∧
        ∀ call ∈ Expr.callsAll args, Admitted call := by
  constructor
  · rintro ⟨names, calls, -, -, commands⟩
    exact ⟨commands name args rfl, names, calls⟩
  · rintro ⟨there, names, calls⟩
    refine ⟨names, calls, ?_, ?_, ?_⟩
    · rintro _ _ ⟨⟩
    · rintro _ _ ⟨⟩
    · rintro _ _ ⟨⟩
      exact there

variable {scope scope' : Scope} {c d : Code}

theorem Scope.mem_of_slot? {n : String} {slot : Nat} (found : scope.slot? n = some slot) :
    n ∈ scope := by
  by_contra new
  rw [slot?_eq_none.mpr new] at found
  cases found

theorem lowerName_succeeds {n : String} {nameOffset : Nat} :
    Succeeds (lowerName scope offset c n nameOffset) ↔ Known scope.toList n := by
  simp only [lowerName]
  split
  · next slot found =>
    exact iff_of_true ⟨_, rfl⟩ (.inr (.inr (Array.mem_toList_iff.mpr (Scope.mem_of_slot? found))))
  · next new =>
    split
    · next r found => exact iff_of_true ⟨_, rfl⟩ (.inl ⟨r, Reading.ofName?_eq_some.mp found⟩)
    · next unread =>
      split
      · next k found =>
        exact iff_of_true ⟨_, rfl⟩ (.inr (.inl ⟨k, Constant.ofName?_eq_some.mp found⟩))
      · next inconstant =>
        refine iff_of_false (not_succeeds_error _) ?_
        rintro (⟨r, named⟩ | ⟨k, named⟩ | declared)
        · rw [Reading.ofName?_eq_some.mpr named] at unread
          cases unread
        · rw [Constant.ofName?_eq_some.mpr named] at inconstant
          cases inconstant
        · exact Scope.slot?_eq_none.mp new (Array.mem_toList_iff.mp declared)

theorem callee_succeeds {name : String} {args : Nat} :
    Succeeds (callee name args offset) ↔ Admitted (name, args) := by
  constructor
  · rintro ⟨f, named⟩
    obtain ⟨found, arity⟩ := Code.callee_eq_ok named
    exact ⟨f, Function.ofName?_eq_some.mp found, arity⟩
  · rintro ⟨f, named, arity⟩
    have checked : checkArity name f.arity f.arity args offset = .ok () :=
      Code.checkArity_ok.mpr ⟨Nat.le_of_eq arity.symm, Nat.le_of_eq arity⟩
    refine ⟨f, ?_⟩
    simp only [callee, Function.ofName?_eq_some.mpr named, checked]
    rfl

theorem commandNamed_succeeds {name : String} {args : Nat} :
    Succeeds (commandNamed name args offset) ↔
      ∃ c : Command, c.name = name ∧ c.arity.1 ≤ args ∧ args ≤ c.arity.2 := by
  constructor
  · rintro ⟨k, named⟩
    obtain ⟨found, admitted⟩ := Code.commandNamed_eq_ok named
    exact ⟨k, Command.ofName?_eq_some.mp found, admitted⟩
  · rintro ⟨k, named, admitted⟩
    have checked : checkArity name k.arity.1 k.arity.2 args offset = .ok () :=
      Code.checkArity_ok.mpr admitted
    refine ⟨k, ?_⟩
    simp only [commandNamed, Command.ofName?_eq_some.mpr named, checked]
    rfl

mutual

theorem lowerExpr_succeeds {c : Code} (e : Expr) : Succeeds (lowerExpr scope offset c e) ↔
    (∀ n ∈ e.names, Known scope.toList n) ∧ ∀ call ∈ e.calls, Admitted call := by
  cases e with
  | literal l => simp [lowerExpr, Expr.names, Expr.calls, Succeeds]
  | name n nameOffset =>
    rw [lowerExpr, lowerName_succeeds]
    simp [Expr.names, Expr.calls]
  | unary op e =>
    rw [lowerExpr, succeeds_bind (lowerExpr_succeeds e) fun _ _ => succeeds_pure _, and_true]
    rfl
  | binary op l r =>
    rw [lowerExpr, succeeds_bind (lowerExpr_succeeds l) fun _ _ =>
      succeeds_bind (lowerExpr_succeeds r) fun _ _ => succeeds_pure _, and_true]
    simp only [Expr.names, Expr.calls, List.forall_mem_append]
    exact and_and_and_comm
  | call f args callOffset =>
    rw [lowerExpr, succeeds_bind callee_succeeds fun _ _ =>
      succeeds_bind (lowerExprs_succeeds args) fun _ _ => succeeds_pure _, and_true]
    simp only [Expr.names, Expr.calls, List.forall_mem_cons]
    exact and_left_comm

theorem lowerExprs_succeeds {c : Code} (es : List Expr) :
    Succeeds (lowerExprs scope offset c es) ↔
      (∀ n ∈ Expr.namesAll es, Known scope.toList n) ∧
        ∀ call ∈ Expr.callsAll es, Admitted call := by
  cases es with
  | nil => simp [lowerExprs, Expr.namesAll, Expr.callsAll, Succeeds]
  | cons e es =>
    rw [lowerExprs, succeeds_bind (lowerExpr_succeeds e) fun _ _ => lowerExprs_succeeds es]
    simp only [Expr.namesAll, Expr.callsAll, List.forall_mem_append]
    exact and_and_and_comm

end

theorem lowerStmt_succeeds {s : Stmt} :
    Succeeds (lowerStmt scope c s) ↔ s.WellScoped scope.toList := by
  rcases s with ⟨action, offset⟩
  cases action with
  | declare name value =>
    simp only [lowerStmt]
    split
    · next reserved =>
      exact iff_of_false (not_succeeds_error _) fun well =>
        well.declares name value rfl (isReserved_iff.mp reserved)
    · next unreserved =>
      rw [succeeds_bind (lowerExpr_succeeds value) fun _ _ => succeeds_pure _, and_true]
      rw [Stmt.wellScoped_declare, ← isReserved_iff]
      exact (and_iff_right unreserved).symm
  | assign name value =>
    simp only [lowerStmt]
    split
    · next slot found =>
      rw [succeeds_bind (lowerExpr_succeeds value) fun _ _ => succeeds_pure _, and_true]
      have declared := Array.mem_toList_iff.mpr (Scope.mem_of_slot? found)
      rw [Stmt.wellScoped_assign]
      exact (and_iff_right declared).symm
    · next new =>
      refine iff_of_false (not_succeeds_error _) fun well => ?_
      exact Scope.slot?_eq_none.mp new (Array.mem_toList_iff.mp (well.assigns name value rfl))
  | command name args =>
    rw [lowerStmt, succeeds_bind commandNamed_succeeds fun _ _ =>
      succeeds_bind (lowerExprs_succeeds args) fun _ _ => succeeds_pure _, and_true,
      Stmt.wellScoped_command]

theorem Stmt.WellScoped.congr {declared declared' : List String} {s : Stmt}
    (same : ∀ n, n ∈ declared ↔ n ∈ declared') (well : s.WellScoped declared) :
    s.WellScoped declared' where
  names n occurs := (well.names n occurs).imp_right (·.imp_right (same n).mp)
  calls := well.calls
  declares := well.declares
  assigns n value assigned := (same n).mp (well.assigns n value assigned)
  commands := well.commands

theorem Stmt.Lowers.mem {s : Stmt} (lowers : s.Lowers scope c scope' d) (n : String) :
    n ∈ scope'.toList ↔ n ∈ scope.toList ++ s.declared?.toList := by
  cases lowers with
  | @declare name value offset inner _ _ =>
    simp only [Scope.declare]
    split
    · next slot found =>
      have old := Array.mem_toList_iff.mpr (Scope.mem_of_slot? found)
      simp only [List.mem_append, Stmt.declared?, Option.toList_some, List.mem_singleton]
      exact ⟨.inl, fun either => either.elim id fun same => same ▸ old⟩
    · rw [Array.toList_push]
      rfl
  | assign _ _ => simp [Stmt.declared?]
  | command _ _ => simp [Stmt.declared?]

def ScopedBehind (declared : List String) : List Stmt → Prop
  | [] => True
  | s :: ss => s.WellScoped declared ∧ ScopedBehind (declared ++ s.declared?.toList) ss

theorem ScopedBehind.congr {declared declared' : List String} {ss : List Stmt}
    (same : ∀ n, n ∈ declared ↔ n ∈ declared') (behind : ScopedBehind declared ss) :
    ScopedBehind declared' ss := by
  induction ss generalizing declared declared' with
  | nil => trivial
  | cons s ss ih =>
    refine ⟨behind.1.congr same, ih (fun n => ?_) behind.2⟩
    rw [List.mem_append, List.mem_append, same]

theorem filterMap_declared_cons (s : Stmt) (ss : List Stmt) :
    (s :: ss).filterMap Stmt.declared? = s.declared?.toList ++ ss.filterMap Stmt.declared? := by
  rw [List.filterMap_cons]
  cases s.declared? <;> rfl

theorem scopedBehind_append {declared : List String} {ss more : List Stmt} :
    ScopedBehind declared (ss ++ more) ↔
      ScopedBehind declared ss ∧ ScopedBehind (declared ++ ss.filterMap Stmt.declared?) more := by
  induction ss generalizing declared with
  | nil => simp [ScopedBehind]
  | cons s ss ih =>
    rw [List.cons_append, ScopedBehind, ScopedBehind, ih, filterMap_declared_cons,
      List.append_assoc, and_assoc]

theorem scopedBehind_iff {declared : List String} {ss : List Stmt} :
    ScopedBehind declared ss ↔ ∀ before s after, ss = before ++ s :: after →
      s.WellScoped (declared ++ before.filterMap Stmt.declared?) := by
  constructor
  · rintro behind before s after rfl
    exact (scopedBehind_append.mp behind).2.1
  · intro each
    induction ss generalizing declared with
    | nil => trivial
    | cons s ss ih =>
      have first := each [] s ss rfl
      rw [List.filterMap_nil, List.append_nil] at first
      refine ⟨first, ih fun before t after split => ?_⟩
      have later := each (s :: before) t after (by rw [split]; rfl)
      rwa [filterMap_declared_cons, ← List.append_assoc] at later

theorem lowerStmts_cons (scope : Scope) (c : Code) (s : Stmt) (ss : List Stmt) :
    lowerStmts scope c (s :: ss) =
      lowerStmt scope c s >>= fun lowered => lowerStmts lowered.1 lowered.2 ss := by
  rw [lowerStmts]
  cases lowerStmt scope c s <;> rfl

theorem lowerStmts_succeeds {ss : List Stmt} :
    Succeeds (lowerStmts scope c ss) ↔ ScopedBehind scope.toList ss := by
  -- The scope behind a statement may hold a name once where it was declared twice.
  induction ss generalizing scope c with
  | nil => exact iff_of_true ⟨_, rfl⟩ trivial
  | cons s ss ih =>
    rw [lowerStmts_cons, ScopedBehind]
    refine succeeds_bind lowerStmt_succeeds fun lowered found => ih.trans ?_
    have same := (lowerStmt_lowers found).mem
    exact ⟨.congr same, .congr fun n => (same n).symm⟩

theorem lowerStmts_mem {ss : List Stmt} (lowered : lowerStmts scope c ss = .ok (scope', d))
    (n : String) : n ∈ scope'.toList ↔ n ∈ scope.toList ++ ss.filterMap Stmt.declared? := by
  induction ss generalizing scope c with
  | nil =>
    obtain ⟨rfl, -⟩ := Prod.mk.inj (Except.ok.inj lowered)
    simp
  | cons s ss ih =>
    rw [lowerStmts_cons, bind_ok] at lowered
    obtain ⟨⟨scope₁, inner⟩, first, rest⟩ := lowered
    have here := (lowerStmt_lowers first).mem n
    rw [ih rest, filterMap_declared_cons, ← List.append_assoc, List.mem_append, here,
      List.mem_append (s := scope.toList ++ _)]

theorem Tree.lower_succeeds {t : Tree} {source : String} :
    Succeeds (t.lower source) ↔ t.WellScoped := by
  have whole : t.WellScoped ↔ ScopedBehind [] (t.setup ++ t.step) := by
    rw [scopedBehind_iff]
    rfl
  rw [whole, scopedBehind_append, List.nil_append]
  refine succeeds_bind lowerStmts_succeeds fun lowered first => ?_
  have same := lowerStmts_mem first
  rw [succeeds_bind lowerStmts_succeeds fun _ _ => succeeds_pure _, and_true]
  exact ⟨.congr same, .congr fun n => (same n).symm⟩

end Script

end TurtlePlayback
