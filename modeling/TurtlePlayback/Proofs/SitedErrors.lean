import TurtlePlayback.Proofs.BuiltExpressions
import TurtlePlayback.Script.Code.Lowering

/-!
Where errors are. Parsing and lowering take their offsets from tokens, so what holds of the start of
the text and of each token's holds of every offset they put into trees, code and errors.
-/

namespace TurtlePlayback.Script

variable {P : Nat → Prop} {α β : Type}

/-- A computation ends in what is wished for, or in an error at a site. -/
def Sited (P : Nat → Prop) (Q : α → Prop) (x : Except Error α) : Prop :=
  (∀ a, x = .ok a → Q a) ∧ ∀ e, x = .error e → P e.offset

theorem sited_ok {Q : α → Prop} {a : α} (met : Q a) : Sited P Q (.ok a) := by
  constructor
  · rintro _ ⟨⟩
    exact met
  · rintro _ ⟨⟩

theorem sited_error {Q : α → Prop} {e : Error} (site : P e.offset) : Sited P Q (.error e) := by
  constructor
  · rintro _ ⟨⟩
  · rintro _ ⟨⟩
    exact site

theorem Sited.bind {Q : α → Prop} {R : β → Prop} {x : Except Error α} {f : α → Except Error β}
    (first : Sited P Q x) (next : ∀ a, Q a → Sited P R (f a)) : Sited P R (x >>= f) := by
  cases x with
  | error e => exact sited_error (first.2 e rfl)
  | ok a => exact next a (first.1 a rfl)

def Marked (P : Nat → Prop) (ts : List Token) : Prop :=
  ∀ t ∈ ts, P t.start

variable {ts : List Token}

theorem Marked.here (zero : P 0) (marked : Marked P ts) : P (here ts) := by
  cases ts with
  | nil => exact zero
  | cons t ts => exact marked t List.mem_cons_self

theorem Marked.advance (marked : Marked P ts) : Marked P (advance ts) := by
  cases ts with
  | nil => exact marked
  | cons t ts =>
    simp only [Script.advance]
    split
    · exact marked
    · exact fun u member => marked u (List.mem_cons_of_mem t member)

theorem Marked.skipSeparators (marked : Marked P ts) : Marked P (skipSeparators ts) :=
  fun t member => marked t ((List.dropWhile_suffix _).subset member)

theorem Marked.complain {Q : α → Prop} (zero : P 0) (marked : Marked P ts) (c : Complaint) :
    Sited P Q (complain ts c) :=
  sited_error (marked.here zero)

theorem Marked.expect (zero : P 0) (marked : Marked P ts) (k : Kind) :
    Sited P (Marked P) (expect k ts) := by
  simp only [Script.expect]
  split
  · exact sited_ok marked.advance
  · exact marked.complain zero _

inductive Expr.Sites (P : Nat → Prop) : Expr → Prop
  | literal (v : Literal) : Sites P (.literal v)
  | name {offset : Nat} (n : String) (site : P offset) : Sites P (.name n offset)
  | unary {e : Expr} (op : UnaryOp) (operand : Sites P e) : Sites P (.unary op e)
  | binary {l r : Expr} (op : BinaryOp) (left : Sites P l) (right : Sites P r) :
      Sites P (.binary op l r)
  | call {args : List Expr} {offset : Nat} (f : String) (each : ∀ e ∈ args, Sites P e)
      (site : P offset) : Sites P (.call f args offset)

def Parser.Sited (P : Nat → Prop) (Q : α → Prop) (p : Parser α) : Prop :=
  ∀ ts, Marked P ts → Script.Sited P (fun r => Q r.1 ∧ Marked P r.2) (p ts)

section

variable (zero : P 0)

include zero

theorem argumentsUpTo_sited {expr : Parser Expr} (h : expr.Sited P (Expr.Sites P))
    (bound : List Token) :
    (argumentsUpTo expr bound).Sited P fun es => ∀ e ∈ es, e.Sites P := by
  induction bound with
  | nil => exact fun ts marked => marked.complain zero _
  | cons _ bound ih =>
    intro ts marked
    simp only [argumentsUpTo]
    apply (h ts marked).bind
    rintro ⟨e, ts'⟩ ⟨first, marked'⟩
    dsimp only
    split
    · apply (ih _ marked'.advance).bind
      rintro ⟨es, ts''⟩ ⟨more, marked''⟩
      exact sited_ok ⟨List.forall_mem_cons.mpr ⟨first, more⟩, marked''⟩
    · apply (marked'.expect zero _).bind
      intro ts'' marked''
      exact sited_ok ⟨by simpa using first, marked''⟩

theorem arguments_sited {expr : Parser Expr} (h : expr.Sited P (Expr.Sites P)) :
    (arguments expr).Sited P fun es => ∀ e ∈ es, e.Sites P := by
  intro ts marked
  simp only [arguments]
  split
  · exact sited_ok ⟨by simp, marked.advance⟩
  · exact argumentsUpTo_sited zero h ts ts marked

omit zero in
theorem operandOf_sited {unary : Parser Expr} {chain : Level → List Level → Expr → Parser Expr}
    (h : unary.Sited P (Expr.Sites P))
    (k : ∀ l tighter left, left.Sites P → (chain l tighter left).Sited P (Expr.Sites P))
    (levels : List Level) : (operandOf unary chain levels).Sited P (Expr.Sites P) := by
  induction levels with
  | nil => exact h
  | cons l tighter ih =>
    intro ts marked
    apply (ih ts marked).bind
    rintro ⟨e, ts'⟩ ⟨operand, marked'⟩
    exact k l tighter e operand ts' marked'

theorem unaryAt_sited {room : Nat}
    (smaller : ∀ r, room = r + 1 → (unaryAt r).Sited P (Expr.Sites P) ∧
      (operandOf (unaryAt r) (chainAt r) Level.all).Sited P (Expr.Sites P)) :
    (unaryAt room).Sited P (Expr.Sites P) := by
  intro ts marked
  rw [unaryAt.eq_def]
  split
  · next op _ =>
    cases room with
    | zero => exact marked.advance.complain zero _
    | succ room =>
      apply ((smaller room rfl).1 _ marked.advance).bind
      rintro ⟨e, ts'⟩ ⟨operand, marked'⟩
      exact sited_ok ⟨.unary op operand, marked'⟩
  · split
    · exact sited_ok ⟨.literal _, marked.advance⟩
    · exact sited_ok ⟨.literal _, marked.advance⟩
    · split
      · cases room with
        | zero => exact marked.advance.advance.complain zero _
        | succ room =>
          apply (arguments_sited zero (smaller room rfl).2 _ marked.advance.advance).bind
          rintro ⟨args, ts'⟩ ⟨each, marked'⟩
          exact sited_ok ⟨.call _ each (marked.here zero), marked'⟩
      · exact sited_ok ⟨.name _ (marked.here zero), marked.advance⟩
    · cases room with
      | zero => exact marked.advance.complain zero _
      | succ room =>
        apply ((smaller room rfl).2 _ marked.advance).bind
        rintro ⟨e, ts'⟩ ⟨inner, marked'⟩
        apply (marked'.expect zero _).bind
        intro ts'' marked''
        exact sited_ok ⟨inner, marked''⟩
    · exact marked.complain zero _

theorem chainAt_sited {room : Nat}
    (smaller : ∀ r, room = r + 1 → (unaryAt r).Sited P (Expr.Sites P) ∧
      ∀ l tighter left, left.Sites P → (chainAt r l tighter left).Sited P (Expr.Sites P))
    (l : Level) (tighter : List Level) {left : Expr} (sites : left.Sites P) :
    (chainAt room l tighter left).Sited P (Expr.Sites P) := by
  intro ts marked
  rw [chainAt.eq_def]
  dsimp only
  split
  · exact sited_ok ⟨sites, marked⟩
  · next op _ =>
    cases room with
    | zero => exact marked.advance.complain zero _
    | succ room =>
      obtain ⟨unary, chain⟩ := smaller room rfl
      apply (operandOf_sited unary chain tighter _ marked.advance).bind
      rintro ⟨right, ts'⟩ ⟨operand, marked'⟩
      exact chain l tighter _ (.binary op sites operand) ts' marked'

theorem unaryAt_chainAt_sited (room : Nat) :
    (unaryAt room).Sited P (Expr.Sites P) ∧
    ∀ l tighter left, left.Sites P → (chainAt room l tighter left).Sited P (Expr.Sites P) := by
  -- On the room: an operand and a link of a chain are read with one less, the levels in between
  -- with the same.
  induction room with
  | zero =>
    exact ⟨unaryAt_sited zero (by simp), fun l tighter _ => chainAt_sited zero (by simp) l tighter⟩
  | succ room ih =>
    refine ⟨unaryAt_sited zero ?_, fun l tighter _ => chainAt_sited zero ?_ l tighter⟩
    · rintro r ⟨⟩
      exact ⟨ih.1, operandOf_sited ih.1 ih.2 Level.all⟩
    · rintro r ⟨⟩
      exact ih

theorem expression_sited : expression.Sited P (Expr.Sites P) := by
  obtain ⟨unary, chain⟩ := unaryAt_chainAt_sited zero maxNesting
  exact operandOf_sited unary chain Level.all

omit zero in
def Stmt.Sites (P : Nat → Prop) (s : Stmt) : Prop :=
  P s.offset ∧ ∀ e ∈ s.expressions, e.Sites P

theorem statement_sited : statement.Sited P (Stmt.Sites P) := by
  intro ts marked
  simp only [statement]
  split
  · split
    · apply (marked.advance.advance.expect zero _).bind
      intro ts' marked'
      apply (expression_sited zero ts' marked').bind
      rintro ⟨value, ts''⟩ ⟨sites, marked''⟩
      exact sited_ok ⟨⟨marked.here zero, by simpa [Stmt.expressions] using sites⟩, marked''⟩
    · exact marked.advance.complain zero _
  · split
    · apply (expression_sited zero _ marked.advance.advance).bind
      rintro ⟨value, ts'⟩ ⟨sites, marked'⟩
      exact sited_ok ⟨⟨marked.here zero, by simpa [Stmt.expressions] using sites⟩, marked'⟩
    · apply (arguments_sited zero (expression_sited zero) _ marked.advance.advance).bind
      rintro ⟨args, ts'⟩ ⟨sites, marked'⟩
      exact sited_ok ⟨⟨marked.here zero, sites⟩, marked'⟩
    · exact marked.advance.complain zero _
  · exact marked.complain zero _

theorem statementEnd_sited (marked : Marked P ts) : Sited P (Marked P) (statementEnd ts) := by
  simp only [statementEnd]
  split
  · exact sited_ok marked.advance
  · exact sited_ok marked
  · exact sited_ok marked
  · exact marked.complain zero _

theorem blockBodyUpTo_sited (bound : List Token) {read : Array Stmt} (old : ∀ s ∈ read, s.Sites P) :
    (blockBodyUpTo read bound).Sited P fun body => ∀ s ∈ body, s.Sites P := by
  induction bound generalizing read with
  | nil => exact fun ts marked => marked.complain zero _
  | cons _ bound ih =>
    intro ts marked
    have marked := marked.skipSeparators
    simp only [blockBodyUpTo]
    split
    · exact sited_ok ⟨by simpa using old, marked.advance⟩
    · split
      · exact marked.complain zero _
      · split
        · exact marked.complain zero _
        · apply (statement_sited zero _ marked).bind
          rintro ⟨s, ts'⟩ ⟨sites, marked'⟩
          apply (statementEnd_sited zero marked').bind
          intro ts'' marked''
          refine ih ?_ ts'' marked''
          intro s' member
          rcases Array.mem_push.mp member with member | rfl
          · exact old s' member
          · exact sites

theorem blockBody_sited : blockBody.Sited P fun body => ∀ s ∈ body, s.Sites P :=
  fun ts marked => blockBodyUpTo_sited zero ts (by simp) ts marked

theorem treeUpTo_sited (bound : List Token) {setup : Option (List Stmt)} {step : Array Stmt}
    (old : ∀ s ∈ setup.getD [] ++ step.toList, s.Sites P) (marked : Marked P ts) :
    Sited P (fun t => ∀ s ∈ t.setup ++ t.step, s.Sites P) (treeUpTo setup step bound ts) := by
  induction bound generalizing ts setup step with
  | nil => exact sited_ok old
  | cons _ bound ih =>
    have marked := marked.skipSeparators
    simp only [treeUpTo]
    split
    · exact sited_ok old
    · rw [List.forall_mem_append] at old
      split
      · apply (blockBody_sited zero _ marked.advance.advance).bind
        rintro ⟨body, ts'⟩ ⟨block, marked'⟩
        dsimp only
        split
        · exact marked.complain zero _
        · exact ih (List.forall_mem_append.mpr ⟨block, old.2⟩) marked'
      · apply (blockBody_sited zero _ marked.advance.advance).bind
        rintro ⟨body, ts'⟩ ⟨block, marked'⟩
        refine ih (List.forall_mem_append.mpr ⟨old.1, ?_⟩) marked'
        rw [Array.toList_appendList, List.forall_mem_append]
        exact ⟨old.2, block⟩
      · apply (statement_sited zero _ marked).bind
        rintro ⟨s, ts'⟩ ⟨sites, marked'⟩
        apply (statementEnd_sited zero marked').bind
        intro ts'' marked''
        refine ih (List.forall_mem_append.mpr ⟨old.1, ?_⟩) marked''
        rw [Array.toList_push, List.forall_mem_append]
        exact ⟨old.2, by simpa using sites⟩

theorem parse_sited {source : String} (lexed : Sited P (Marked P) (tokens source)) :
    Sited P (fun t => ∀ s ∈ t.setup ++ t.step, s.Sites P) (Tree.parse source) :=
  lexed.bind fun ts marked => treeUpTo_sited zero ts (by simp) marked

end

def Code.Sites (P : Nat → Prop) (c : Code) : Prop :=
  ∀ offset ∈ c.offsets, P offset

variable {scope : Scope} {code : Code} {offset : Nat}

theorem Code.Sites.emit (sites : code.Sites P) (site : P offset) (i : Instr) :
    (code.emit i offset).Sites P := by
  intro o member
  rcases Array.mem_push.mp member with member | rfl
  · exact sites o member
  · exact site

theorem Code.Sites.emitLiteral (sites : code.Sites P) (site : P offset) (l : Literal) :
    (code.emitLiteral l offset).Sites P := by
  have same : ({ code with literals := code.literals.push l } : Code).Sites P := sites
  exact same.emit site _

theorem lowerName_sited (sites : code.Sites P) (site : P offset) {n : String} {nameOffset : Nat}
    (named : P nameOffset) : Sited P (Code.Sites P) (lowerName scope offset code n nameOffset) := by
  simp only [lowerName]
  split
  · exact sited_ok (sites.emit site _)
  · split
    · exact sited_ok (sites.emit site _)
    · split
      · exact sited_ok (sites.emitLiteral site _)
      · exact sited_error named

theorem checkArity_sited (site : P offset) (n : String) (least most got : Nat) :
    Sited P (fun _ => True) (checkArity n least most got offset) := by
  simp only [checkArity]
  split
  · exact sited_ok trivial
  · exact sited_error site

theorem callee_sited (site : P offset) (n : String) (args : Nat) :
    Sited P (fun _ => True) (callee n args offset) := by
  simp only [callee]
  split
  · exact (checkArity_sited site _ _ _ _).bind fun _ _ => sited_ok trivial
  · exact sited_error site

theorem commandNamed_sited (site : P offset) (n : String) (args : Nat) :
    Sited P (fun _ => True) (commandNamed n args offset) := by
  simp only [commandNamed]
  split
  · exact (checkArity_sited site _ _ _ _).bind fun _ _ => sited_ok trivial
  · exact sited_error site

theorem lowerExprs_sited {es : List Expr} (sites : code.Sites P)
    (each : ∀ e ∈ es, ∀ {code : Code}, code.Sites P →
      Sited P (Code.Sites P) (lowerExpr scope offset code e)) :
    Sited P (Code.Sites P) (lowerExprs scope offset code es) := by
  induction es generalizing code with
  | nil => exact sited_ok sites
  | cons e es ih =>
    rw [List.forall_mem_cons] at each
    exact (each.1 sites).bind fun _ sites' => ih sites' each.2

theorem lowerExpr_sited {e : Expr} (expr : e.Sites P) (site : P offset) (sites : code.Sites P) :
    Sited P (Code.Sites P) (lowerExpr scope offset code e) := by
  induction expr generalizing code with
  | literal v => exact sited_ok (sites.emitLiteral site v)
  | name n named => exact lowerName_sited sites site named
  | unary op _ ih =>
    simp only [lowerExpr]
    exact (ih sites).bind fun _ sites' => sited_ok (sites'.emit site _)
  | binary op _ _ left right =>
    simp only [lowerExpr]
    apply (left sites).bind
    intro code' sites'
    exact (right sites').bind fun _ sites'' => sited_ok (sites''.emit site _)
  | call f _ called each =>
    simp only [lowerExpr]
    apply (callee_sited called f _).bind
    intro function _
    apply (lowerExprs_sited sites fun e member _ => each e member).bind
    intro code' sites'
    exact sited_ok (sites'.emit site _)

theorem lowerStmt_sited {s : Stmt} (stmt : s.Sites P) (sites : code.Sites P) :
    Sited P (fun r => r.2.Sites P) (lowerStmt scope code s) := by
  obtain ⟨action, offset⟩ := s
  obtain ⟨site, exprs⟩ := stmt
  have site : P offset := site
  cases action with
  | declare n value =>
    have expr : value.Sites P := exprs value (List.mem_singleton_self _)
    simp only [lowerStmt]
    split
    · exact sited_error site
    · exact (lowerExpr_sited expr site sites).bind fun _ sites' => sited_ok (sites'.emit site _)
  | assign n value =>
    have expr : value.Sites P := exprs value (List.mem_singleton_self _)
    simp only [lowerStmt]
    split
    · exact (lowerExpr_sited expr site sites).bind fun _ sites' => sited_ok (sites'.emit site _)
    · exact sited_error site
  | command n args =>
    have each : ∀ e ∈ args, e.Sites P := exprs
    simp only [lowerStmt]
    apply (commandNamed_sited site n _).bind
    intro command _
    apply (lowerExprs_sited sites fun e member _ => lowerExpr_sited (each e member) site).bind
    intro code' sites'
    exact sited_ok (sites'.emit site _)

theorem lowerStmts_sited {ss : List Stmt} (stmts : ∀ s ∈ ss, s.Sites P) (sites : code.Sites P) :
    Sited P (fun r => r.2.Sites P) (lowerStmts scope code ss) := by
  induction ss generalizing scope code with
  | nil => exact sited_ok sites
  | cons s ss ih =>
    rw [List.forall_mem_cons] at stmts
    have first : Sited P (fun r => r.2.Sites P) (lowerStmt scope code s) :=
      lowerStmt_sited stmts.1 sites
    simp only [lowerStmts]
    split
    · next scope' code' lowered => exact ih stmts.2 (first.1 _ lowered)
    · next e failed => exact sited_error (first.2 e failed)

theorem lower_sited {t : Tree} (stmts : ∀ s ∈ t.setup ++ t.step, s.Sites P) (source : String) :
    Sited P (fun p => p.setup.Sites P ∧ p.step.Sites P) (t.lower source) := by
  rw [List.forall_mem_append] at stmts
  have none : ({} : Code).Sites P := by simp [Code.Sites]
  simp only [Tree.lower]
  apply (lowerStmts_sited stmts.1 none).bind
  rintro ⟨scope, setup⟩ setup_sites
  apply (lowerStmts_sited stmts.2 none).bind
  rintro ⟨names, step⟩ step_sites
  exact sited_ok ⟨setup_sites, step_sites⟩

theorem compile_sited (zero : P 0) {source : String} (lexed : Sited P (Marked P) (tokens source)) :
    Sited P (fun p => p.setup.Sites P ∧ p.step.Sites P) (Program.compile source) :=
  (parse_sited zero lexed).bind fun _ stmts => lower_sited stmts source

end TurtlePlayback.Script
