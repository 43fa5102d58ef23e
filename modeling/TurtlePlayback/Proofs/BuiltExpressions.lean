import TurtlePlayback.Proofs.ParsedStatements

namespace TurtlePlayback.Script

/-- An expression with operators of so many levels outside of parentheses, read in `room`. Behind it
`left` is left for further operators of the loosest of these levels. -/
inductive Built : (room levels left : Nat) → Expr → Prop
  | literal (room : Nat) (v : Literal) : Built room 0 0 (.literal v)
  | name (room : Nat) (n : String) (offset : Nat) : Built room 0 0 (.name n offset)
  | unary {room : Nat} {e : Expr} (op : UnaryOp) (operand : Built room 0 0 e) :
      Built (room + 1) 0 0 (.unary op e)
  | call {room : Nat} {args : List Expr} (f : String) (offset : Nat)
      (each : ∀ e ∈ args, Built room 6 0 e) : Built (room + 1) 0 0 (.call f args offset)
  | parens {room : Nat} {e : Expr} (inner : Built room 6 0 e) : Built (room + 1) 0 0 e
  | operand {room levels : Nat} {e : Expr} (tighter : Built room levels 0 e) :
      Built room (levels + 1) room e
  | operator {room levels left : Nat} {l r : Expr} (op : BinaryOp)
      (before : Built room (levels + 1) (left + 1) l) (behind : Built left levels 0 r) :
      Built room (levels + 1) left (.binary op l r)
  | done {room levels left : Nat} {e : Expr} (open_end : Built room levels left e) :
      Built room levels 0 e

theorem Built.left_le {room levels left : Nat} {e : Expr} (built : Built room levels left e) :
    left ≤ room := by
  induction built with
  | operand => exact Nat.le_refl _
  | operator op before behind ih => exact Nat.le_of_succ_le ih
  | _ => exact Nat.zero_le _

def Yields (p : Parser Expr) (P : Expr → Prop) : Prop :=
  ∀ ts e rest, p ts = .ok (e, rest) → P e

theorem argumentsUpTo_forall {expr : Parser Expr} {P : Expr → Prop} (h : Yields expr P)
    (bound : List Token) {ts rest : List Token} {es : List Expr}
    (read : argumentsUpTo expr bound ts = .ok (es, rest)) : ∀ e ∈ es, P e := by
  induction bound generalizing ts es with
  | nil => cases read
  | cons _ bound ih =>
    simp only [argumentsUpTo, bind_ok, Prod.exists] at read
    obtain ⟨e, ts', first, more⟩ := read
    have first_holds := h ts e ts' first
    split at more
    · simp only [bind_ok, Prod.exists] at more
      obtain ⟨others, ts'', later, same⟩ := more
      cases same
      exact List.forall_mem_cons.mpr ⟨first_holds, ih later⟩
    · simp only [bind_ok] at more
      obtain ⟨_, _, same⟩ := more
      cases same
      simpa using first_holds

theorem arguments_forall {expr : Parser Expr} {P : Expr → Prop} (h : Yields expr P)
    {ts rest : List Token} {es : List Expr} (read : arguments expr ts = .ok (es, rest)) :
    ∀ e ∈ es, P e := by
  simp only [arguments] at read
  split at read
  · cases read
    simp
  · exact argumentsUpTo_forall h ts read

theorem operandOf_built {unary : Parser Expr} {chain : Level → List Level → Expr → Parser Expr}
    {room : Nat} (h : Yields unary (Built room 0 0))
    (k : ∀ l tighter left, Built room (tighter.length + 1) room left →
      Yields (chain l tighter left) (Built room (tighter.length + 1) 0)) (levels : List Level) :
    Yields (operandOf unary chain levels) (Built room levels.length 0) := by
  induction levels with
  | nil => exact h
  | cons l tighter ih =>
    intro ts e rest read
    simp only [operandOf, bind_ok, Prod.exists] at read
    obtain ⟨operand, ts', first, more⟩ := read
    exact k l tighter operand (.operand (ih ts operand ts' first)) ts' e rest more

theorem unaryAt_built {room : Nat}
    (smaller : ∀ r, room = r + 1 → Yields (unaryAt r) (Built r 0 0) ∧
      Yields (operandOf (unaryAt r) (chainAt r) Level.all) (Built r 6 0)) :
    Yields (unaryAt room) (Built room 0 0) := by
  intro ts e rest read
  rw [unaryAt.eq_def] at read
  split at read
  · next op _ =>
    cases room with
    | zero => cases read
    | succ room =>
      simp only [bind_ok, Prod.exists] at read
      obtain ⟨operand, ts', first, same⟩ := read
      cases same
      exact .unary op ((smaller room rfl).1 _ operand _ first)
  · split at read
    · cases read
      exact .literal _ _
    · cases read
      exact .literal _ _
    · split at read
      · cases room with
        | zero => cases read
        | succ room =>
          simp only [bind_ok, Prod.exists] at read
          obtain ⟨args, ts', first, same⟩ := read
          cases same
          exact .call _ _ (arguments_forall (smaller room rfl).2 first)
      · cases read
        exact .name _ _ _
    · cases room with
      | zero => cases read
      | succ room =>
        simp only [bind_ok, Prod.exists] at read
        obtain ⟨inner, ts', first, ts'', _, same⟩ := read
        cases same
        exact .parens ((smaller room rfl).2 _ e ts' first)
    · cases read

theorem chainAt_built {left : Nat}
    (smaller : ∀ r, left = r + 1 → Yields (unaryAt r) (Built r 0 0) ∧
      ∀ room l tighter e, Built room (tighter.length + 1) r e →
        Yields (chainAt r l tighter e) (Built room (tighter.length + 1) 0))
    {room : Nat} (l : Level) (tighter : List Level) {before : Expr}
    (built : Built room (tighter.length + 1) left before) :
    Yields (chainAt left l tighter before) (Built room (tighter.length + 1) 0) := by
  intro ts e rest read
  rw [chainAt.eq_def] at read
  split at read
  · cases read
    exact .done built
  · next op _ =>
    cases left with
    | zero => cases read
    | succ left =>
      simp only [bind_ok, Prod.exists] at read
      obtain ⟨behind, ts', first, more⟩ := read
      obtain ⟨unary, chain⟩ := smaller left rfl
      have operand := operandOf_built unary (chain left) tighter _ behind ts' first
      exact chain room l tighter _ (.operator op built operand) ts' e rest more

theorem unaryAt_chainAt_built (left : Nat) :
    Yields (unaryAt left) (Built left 0 0) ∧
    ∀ room l tighter e, Built room (tighter.length + 1) left e →
      Yields (chainAt left l tighter e) (Built room (tighter.length + 1) 0) := by
  induction left with
  | zero => exact ⟨unaryAt_built (by simp), fun _ l tighter _ => chainAt_built (by simp) l tighter⟩
  | succ left ih =>
    have all := operandOf_built ih.1 (ih.2 left) Level.all
    refine ⟨unaryAt_built ?_, fun _ l tighter _ => chainAt_built ?_ l tighter⟩
    · rintro r ⟨⟩
      exact ⟨ih.1, all⟩
    · rintro r ⟨⟩
      exact ih

theorem expression_built : Yields expression (Built maxNesting 6 0) := by
  obtain ⟨unary, chain⟩ := unaryAt_chainAt_built maxNesting
  exact operandOf_built unary (chain maxNesting) Level.all

def Stmt.expressions (s : Stmt) : List Expr :=
  match s.action with
  | .declare _ value => [value]
  | .assign _ value => [value]
  | .command _ args => args

def Tree.expressions (t : Tree) : List Expr :=
  (t.setup ++ t.step).flatMap Stmt.expressions

theorem statement_built {ts rest : List Token} {s : Stmt} (read : statement ts = .ok (s, rest)) :
    ∀ e ∈ s.expressions, Built maxNesting 6 0 e := by
  simp only [statement] at read
  split at read
  · split at read
    · simp only [bind_ok, Prod.exists] at read
      obtain ⟨_, _, value, ts', first, same⟩ := read
      cases same
      simpa [Stmt.expressions] using expression_built _ value _ first
    · cases read
  · split at read
    · simp only [bind_ok, Prod.exists] at read
      obtain ⟨value, ts', first, same⟩ := read
      cases same
      simpa [Stmt.expressions] using expression_built _ value _ first
    · simp only [bind_ok, Prod.exists] at read
      obtain ⟨args, ts', first, same⟩ := read
      cases same
      exact arguments_forall expression_built first
    · cases read
  · cases read

theorem parse_built {source : String} {t : Tree} (parsed : Tree.parse source = .ok t) :
    ∀ e ∈ t.expressions, Built maxNesting 6 0 e := by
  have each := parse_forall (fun _ _ _ => statement_built) parsed
  intro e member
  obtain ⟨s, inside, part⟩ := List.mem_flatMap.mp member
  exact each s inside e part

end TurtlePlayback.Script
