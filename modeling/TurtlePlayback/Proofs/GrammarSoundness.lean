import TurtlePlayback.Proofs.ExceptResults
import TurtlePlayback.Proofs.ParserSteps
import TurtlePlayback.Proofs.ScriptGrammar

namespace TurtlePlayback.Script

def Level.operators : Level → List BinaryOp
  | disjunction => [.or]
  | conjunction => [.and]
  | equality => [.eq, .ne]
  | comparison => [.lt, .le, .gt, .ge]
  | sum => [.add, .sub]
  | product => [.mul, .div, .mod]

theorem Level.operator?_iff {l : Level} {k : Kind} {op : BinaryOp} :
    l.operator? k = some op ↔ op ∈ l.operators ∧ k = op.symbol := by
  constructor
  · intro known
    cases l <;> cases k <;> simp only [operator?, reduceCtorEq] at known <;> cases known <;> decide
  · rintro ⟨member, rfl⟩
    cases l <;> cases op <;> first | rfl | (revert member; decide)

theorem unaryOperator?_iff {k : Kind} {op : UnaryOp} :
    unaryOperator? k = some op ↔ k = op.symbol := by
  constructor
  · intro known
    cases k <;> simp only [unaryOperator?, reduceCtorEq] at known <;> cases known <;> rfl
  · rintro rfl
    cases op <;> rfl

def Accepts (p : Parser Expr) (levels : List Level) : Prop :=
  ∀ ts e rest, p ts = .ok (e, rest) →
    ∃ used, ts = used ++ rest ∧ Expr.Derives (levels.map Level.operators) used e

theorem argumentsUpTo_accepts {expr : Parser Expr} (h : Accepts expr Level.all)
    (bound : List Token) {ts rest : List Token} {es : List Expr}
    (read : argumentsUpTo expr bound ts = .ok (es, rest)) :
    ∃ used c part parts, ts = used ++ c :: rest ∧ c.kind = .closeParen ∧
      Commas ((part :: parts).map Prod.fst) used ∧ es = (part :: parts).map Prod.snd ∧
      ∀ p ∈ part :: parts, Expr.Derives operators p.1 p.2 := by
  induction bound generalizing ts es with
  | nil => cases read
  | cons _ bound ih =>
    simp only [argumentsUpTo, bind_ok, Prod.exists] at read
    obtain ⟨e, behind, first, more⟩ := read
    obtain ⟨used, rfl, derives⟩ := h _ e behind first
    have derives : Expr.Derives operators used e := derives
    split at more
    · next comma =>
      obtain ⟨t, us, rfl, kind, passed⟩ := of_peek comma (by simp)
      simp only [passed, bind_ok, Prod.exists] at more
      obtain ⟨others, _, later, same⟩ := more
      cases same
      obtain ⟨used', c, part, parts, rfl, closes, commas, rfl, each⟩ := ih later
      refine ⟨used ++ t :: used', c, (used, e), part :: parts, by simp, closes, ?_, rfl, ?_⟩
      · exact .more used kind commas
      · exact List.forall_mem_cons.mpr ⟨derives, each⟩
    · simp only [bind_ok] at more
      obtain ⟨_, met, same⟩ := more
      cases same
      obtain ⟨c, rfl, closes⟩ := expect_ok (by simp) met
      exact ⟨used, c, (used, e), [], rfl, closes, .one used, rfl, by simpa using derives⟩

theorem arguments_accepts {expr : Parser Expr} (h : Accepts expr Level.all)
    {ts rest : List Token} {es : List Expr} (read : arguments expr ts = .ok (es, rest)) :
    ∃ used c, ts = used ++ c :: rest ∧ c.kind = .closeParen ∧ Arguments used es := by
  simp only [arguments] at read
  split at read
  · next closes =>
    obtain ⟨c, us, rfl, kind, passed⟩ := of_peek closes (by simp)
    rw [passed] at read
    cases read
    exact ⟨[], c, rfl, kind, [], .none, rfl, by simp⟩
  · obtain ⟨used, c, part, parts, rfl, closes, commas, rfl, each⟩ := argumentsUpTo_accepts h ts read
    exact ⟨used, c, rfl, closes, part :: parts, commas, rfl, each⟩

/-- A parser of operators behind a left operand, which goes on with what derives that. -/
def Prolongs (chain : Level → List Level → Expr → Parser Expr) : Prop :=
  ∀ l tighter left before ts e rest,
    Expr.Derives ((l :: tighter).map Level.operators) before left →
    chain l tighter left ts = .ok (e, rest) →
    ∃ used, ts = used ++ rest ∧
      Expr.Derives ((l :: tighter).map Level.operators) (before ++ used) e

theorem operandOf_accepts {unary : Parser Expr} {chain : Level → List Level → Expr → Parser Expr}
    (h : Accepts unary []) (k : Prolongs chain) (levels : List Level) :
    Accepts (operandOf unary chain levels) levels := by
  induction levels with
  | nil => exact h
  | cons l tighter ih =>
    intro ts e rest read
    simp only [operandOf, bind_ok, Prod.exists] at read
    obtain ⟨operand, behind, first, more⟩ := read
    obtain ⟨used, rfl, derives⟩ := ih _ operand behind first
    obtain ⟨used', rfl, derives'⟩ := k l tighter operand used _ e rest (.operand derives) more
    exact ⟨used ++ used', by simp, derives'⟩

theorem unaryAt_accepts {room : Nat}
    (smaller : ∀ r, room = r + 1 → Accepts (unaryAt r) [] ∧ Prolongs (chainAt r)) :
    Accepts (unaryAt room) [] := by
  intro ts e rest read
  rw [unaryAt.eq_def] at read
  split at read
  · next op known =>
    have symbol := unaryOperator?_iff.mp known
    obtain ⟨t, us, rfl, kind, passed⟩ := of_peek symbol op.symbol_ne_finish
    cases room with
    | zero => cases read
    | succ room =>
      simp only [passed, bind_ok, Prod.exists] at read
      obtain ⟨operand, _, first, same⟩ := read
      cases same
      obtain ⟨used, rfl, derives⟩ := (smaller room rfl).1 _ operand _ first
      exact ⟨t :: used, rfl, .unary op kind derives⟩
  · split at read
    · next v first =>
      obtain ⟨t, us, rfl, kind, passed⟩ := of_peek first (by simp)
      rw [passed] at read
      cases read
      exact ⟨[t], rfl, .number kind⟩
    · next b first =>
      obtain ⟨t, us, rfl, kind, passed⟩ := of_peek first (by simp)
      rw [passed] at read
      cases read
      exact ⟨[t], rfl, .truth kind⟩
    · next n first =>
      obtain ⟨t, us, rfl, kind, passed⟩ := of_peek first (by simp)
      rw [passed] at read
      split at read
      · next opens =>
        obtain ⟨o, vs, rfl, opens, passed⟩ := of_peek opens (by simp)
        cases room with
        | zero => cases read
        | succ room =>
          simp only [passed, bind_ok, Prod.exists] at read
          obtain ⟨args, _, inner, same⟩ := read
          cases same
          obtain ⟨unary, chain⟩ := smaller room rfl
          obtain ⟨used, c, rfl, closes, parts, commas, rfl, each⟩ :=
            arguments_accepts (operandOf_accepts unary chain Level.all) inner
          exact ⟨t :: o :: used ++ [c], by simp, .call kind opens commas each closes⟩
      · cases read
        exact ⟨[t], rfl, .name kind⟩
    · next opens =>
      obtain ⟨o, us, rfl, opens, passed⟩ := of_peek opens (by simp)
      cases room with
      | zero => cases read
      | succ room =>
        simp only [passed, bind_ok, Prod.exists] at read
        obtain ⟨inner, _, first, _, met, same⟩ := read
        cases same
        obtain ⟨unary, chain⟩ := smaller room rfl
        obtain ⟨used, rfl, derives⟩ := operandOf_accepts unary chain Level.all _ _ _ first
        obtain ⟨c, rfl, closes⟩ := expect_ok (by simp) met
        exact ⟨o :: used ++ [c], by simp, .parens opens derives closes⟩
    · cases read

theorem chainAt_prolongs {room : Nat}
    (smaller : ∀ r, room = r + 1 → Accepts (unaryAt r) [] ∧ Prolongs (chainAt r)) :
    Prolongs (chainAt room) := by
  intro l tighter left before ts e rest derives read
  rw [chainAt.eq_def] at read
  split at read
  · cases read
    exact ⟨[], rfl, by simpa using derives⟩
  · next op known =>
    obtain ⟨member, symbol⟩ := Level.operator?_iff.mp known
    obtain ⟨t, us, rfl, kind, passed⟩ := of_peek symbol op.symbol_ne_finish
    cases room with
    | zero => cases read
    | succ room =>
      simp only [passed, bind_ok, Prod.exists] at read
      obtain ⟨right, behind, first, more⟩ := read
      obtain ⟨unary, chain⟩ := smaller room rfl
      obtain ⟨used, rfl, derives'⟩ := operandOf_accepts unary chain tighter _ right behind first
      have grouped : Expr.Derives ((l :: tighter).map Level.operators) (before ++ t :: used)
          (.binary op left right) := .binary op member kind derives derives'
      obtain ⟨used', rfl, whole⟩ := chain l tighter _ _ _ e rest grouped more
      exact ⟨t :: used ++ used', by simp, by simpa using whole⟩

theorem unaryAt_chainAt_sound (room : Nat) : Accepts (unaryAt room) [] ∧ Prolongs (chainAt room) := by
  induction room with
  | zero => exact ⟨unaryAt_accepts nofun, chainAt_prolongs nofun⟩
  | succ room ih =>
    have smaller (r : Nat) (same : room + 1 = r + 1) :
      Accepts (unaryAt r) [] ∧ Prolongs (chainAt r) := by
      cases same
      exact ih
    exact ⟨unaryAt_accepts smaller, chainAt_prolongs smaller⟩

theorem expression_accepts : Accepts expression Level.all := by
  obtain ⟨unary, chain⟩ := unaryAt_chainAt_sound maxNesting
  exact operandOf_accepts unary chain Level.all

theorem statement_accepts {ts rest : List Token} {s : Stmt} (read : statement ts = .ok (s, rest)) :
    ∃ used, ts = used ++ rest ∧ s.Derives used := by
  simp only [statement] at read
  split at read
  · next word =>
    obtain ⟨w, us, rfl, word, passed⟩ := of_peek word (by simp)
    rw [passed] at read
    split at read
    · next n first =>
      obtain ⟨t, vs, rfl, kind, passed⟩ := of_peek first (by simp)
      simp only [passed, bind_ok, Prod.exists] at read
      obtain ⟨_, met, value, _, computed, same⟩ := read
      cases same
      obtain ⟨a, rfl, assign⟩ := expect_ok (by simp) met
      obtain ⟨used, rfl, derives⟩ := expression_accepts _ value _ computed
      exact ⟨w :: t :: a :: used, rfl, .declare word kind assign derives⟩
    · cases read
  · next n first =>
    obtain ⟨t, us, rfl, kind, passed⟩ := of_peek first (by simp)
    rw [passed] at read
    split at read
    · next assign =>
      obtain ⟨a, vs, rfl, assign, passed⟩ := of_peek assign (by simp)
      simp only [passed, bind_ok, Prod.exists] at read
      obtain ⟨value, _, computed, same⟩ := read
      cases same
      obtain ⟨used, rfl, derives⟩ := expression_accepts _ value _ computed
      exact ⟨t :: a :: used, rfl, .assign kind assign derives⟩
    · next opens =>
      obtain ⟨o, vs, rfl, opens, passed⟩ := of_peek opens (by simp)
      simp only [passed, bind_ok, Prod.exists] at read
      obtain ⟨args, _, inner, same⟩ := read
      cases same
      obtain ⟨used, c, rfl, closes, arguments⟩ := arguments_accepts expression_accepts inner
      exact ⟨t :: o :: used ++ [c], by simp, .command kind opens arguments closes⟩
    · cases read
  · cases read

theorem blockBodyUpTo_accepts (bound : List Token) {read : Array Stmt} {ts rest : List Token}
    {body : List Stmt} (parsed : blockBodyUpTo read bound ts = .ok (body, rest)) :
    ∃ used c more, ts = used ++ c :: rest ∧ c.kind = .closeBrace ∧ Body used more ∧
      body = read.toList ++ more := by
  induction bound generalizing read ts with
  | nil => cases parsed
  | cons _ bound ih =>
    obtain ⟨separators, split, all⟩ := exists_separators ts
    simp only [blockBodyUpTo] at parsed
    generalize skipSeparators ts = us at split parsed
    subst split
    split at parsed
    · next closes =>
      obtain ⟨c, vs, rfl, closes, passed⟩ := of_peek closes (by simp)
      rw [passed] at parsed
      cases parsed
      refine ⟨separators, c, [], rfl, closes, ?_, by simp⟩
      simpa using Body.empty.separators all
    · split at parsed
      · cases parsed
      · split at parsed
        · cases parsed
        · simp only [bind_ok, Prod.exists] at parsed
          obtain ⟨s, behind, first, vs, ended, more⟩ := parsed
          obtain ⟨used, rfl, derives⟩ := statement_accepts first
          rcases statementEnd_ok ended with ⟨t, rfl, kind⟩ | ⟨rfl, finish | closes⟩
          · obtain ⟨used', c, body', rfl, closes, rest_derives, rfl⟩ := ih more
            refine ⟨separators ++ (used ++ t :: used'), c, s :: body', by simp, closes, ?_, by simp⟩
            exact (Body.statement derives kind rest_derives).separators all
          · rw [blockBodyUpTo_unclosed bound finish] at more
            cases more
          · cases bound with
            | nil => cases more
            | cons b bound =>
              obtain ⟨c, ws, rfl, kind, passed⟩ := of_peek closes (by simp)
              rw [blockBodyUpTo_closes closes, passed] at more
              cases more
              refine ⟨separators ++ used, c, [s], by simp, kind, ?_, by simp⟩
              exact (Body.last derives).separators all

theorem block_accepts {b : Block} {ts rest : List Token} {body : List Stmt}
    (header : blockHeader? ts = some b) (read : blockBody (advance (advance ts)) = .ok (body, rest)) :
    ∃ t o used c, ts = t :: o :: used ++ c :: rest ∧ t.kind = .name b.word ∧ o.kind = .openBrace ∧
      Body used body ∧ c.kind = .closeBrace := by
  obtain ⟨t, o, us, rfl, kind, opens, passed⟩ := blockHeader?_some header
  rw [passed] at read
  obtain ⟨used, c, body, rfl, closes, derives, rfl⟩ := blockBodyUpTo_accepts us read
  exact ⟨t, o, used, c, rfl, kind, opens, derives, closes⟩

theorem Ended.of_peek_finish {ts : List Token} (ended : Ended ts) (finish : peek ts = .finish) :
    ∃ f, ts = [f] ∧ f.kind = .finish := by
  cases ended with
  | finish kind => exact ⟨_, rfl, kind⟩
  | goes_on other _ => exact absurd finish other

def Completes (ts : List Token) (setup : Option (List Stmt)) (step : List Stmt) (t : Tree) : Prop :=
  ∃ used f setup' step', ts = used ++ [f] ∧ f.kind = .finish ∧ Items used setup' step' ∧
    (setup' = none ∨ setup = none) ∧ t = ⟨(setup'.or setup).getD [], step ++ step'⟩

namespace Completes

variable {ts us : List Token} {setup : Option (List Stmt)} {step body : List Stmt} {s : Stmt}
variable {tree : Tree} {t o c f : Token}

theorem finish (kind : f.kind = .finish) : Completes [f] setup step ⟨setup.getD [], step⟩ :=
  ⟨[], f, none, [], rfl, kind, .empty, .inl rfl, by simp⟩

theorem separators {separators : List Token} (all : ∀ t ∈ separators, t.kind = .separator)
    (rest : Completes us setup step tree) : Completes (separators ++ us) setup step tree := by
  obtain ⟨used, f, setup', step', rfl, finish, items, once, rfl⟩ := rest
  exact ⟨separators ++ used, f, setup', step', by simp, finish, items.separators all, once, rfl⟩

theorem last (derives : s.Derives ts) (kind : f.kind = .finish) :
    Completes (ts ++ [f]) setup step ⟨setup.getD [], step ++ [s]⟩ :=
  ⟨ts, f, none, [s], rfl, kind, .last derives, .inl rfl, by simp⟩

theorem statement (derives : s.Derives ts) (kind : t.kind = .separator)
    (rest : Completes us setup (step ++ [s]) tree) : Completes (ts ++ t :: us) setup step tree := by
  obtain ⟨used, f, setup', step', rfl, finish, items, once, rfl⟩ := rest
  exact ⟨ts ++ t :: used, f, setup', s :: step', by simp, finish, .statement derives kind items, once,
    by simp⟩

theorem setupBlock (kind : t.kind = .name "setup") (opens : o.kind = .openBrace)
    (inner : Body ts body) (closes : c.kind = .closeBrace)
    (rest : Completes us (some body) step tree) :
    Completes (t :: o :: ts ++ c :: us) none step tree := by
  obtain ⟨used, f, setup', step', rfl, finish, items, once, rfl⟩ := rest
  obtain rfl : setup' = none := once.resolve_right (by simp)
  exact ⟨t :: o :: ts ++ c :: used, f, some body, step', by simp, finish,
    .setup kind opens inner closes items, .inr rfl, by simp⟩

theorem stepBlock (kind : t.kind = .name "step") (opens : o.kind = .openBrace)
    (inner : Body ts body) (closes : c.kind = .closeBrace)
    (rest : Completes us setup (step ++ body) tree) :
    Completes (t :: o :: ts ++ c :: us) setup step tree := by
  obtain ⟨used, f, setup', step', rfl, finish, items, once, rfl⟩ := rest
  exact ⟨t :: o :: ts ++ c :: used, f, setup', body ++ step', by simp, finish,
    .step kind opens inner closes items, once, by simp⟩

end Completes

theorem treeUpTo_brace {setup : Option (List Stmt)} {step : Array Stmt} {bound ts : List Token}
    (ended : Ended ts) (closes : peek ts = .closeBrace) (enough : ts.length ≤ bound.length + 1)
    {t : Tree} : treeUpTo setup step bound ts ≠ .ok t := by
  intro parsed
  cases bound with
  | nil =>
    obtain ⟨c, us, rfl, kind, -⟩ := of_peek closes (by simp)
    obtain rfl : us = [] := List.length_eq_zero_iff.mp (by simpa using enough)
    cases ended.tail (by simp [kind])
  | cons b bound =>
    rw [treeUpTo_closeBrace closes] at parsed
    cases parsed

theorem treeUpTo_accepts (bound : List Token) {setup : Option (List Stmt)} {step : Array Stmt}
    {ts : List Token} {t : Tree} (ended : Ended ts) (enough : ts.length ≤ bound.length)
    (parsed : treeUpTo setup step bound ts = .ok t) : Completes ts setup step.toList t := by
  induction bound generalizing setup step ts with
  | nil =>
    obtain rfl := List.length_eq_zero_iff.mp (Nat.le_zero.mp enough)
    cases ended
  | cons _ bound ih =>
    obtain ⟨separators, split, all⟩ := exists_separators ts
    simp only [treeUpTo] at parsed
    generalize skipSeparators ts = us at split parsed
    subst split
    have ended : Ended us := ended.behind fun t there => by simp [all t there]
    have enough : us.length ≤ bound.length + 1 := by
      rw [List.length_append, List.length_cons] at enough
      omega
    apply Completes.separators all
    split at parsed
    · next finish =>
      obtain ⟨f, rfl, kind⟩ := ended.of_peek_finish finish
      cases parsed
      exact .finish kind
    · split at parsed
      · next header =>
        simp only [bind_ok, Prod.exists] at parsed
        obtain ⟨body, rest, inner, more⟩ := parsed
        obtain ⟨n, o, used, c, rfl, kind, opens, derives, closes⟩ := block_accepts header inner
        split at more
        · cases more
        · next first =>
          obtain rfl : setup = none := by simpa using first
          have ended := ended.behind_block kind opens derives closes
          exact .setupBlock kind opens derives closes (ih ended (by simp at enough; omega) more)
      · next header =>
        simp only [bind_ok, Prod.exists] at parsed
        obtain ⟨body, rest, inner, more⟩ := parsed
        obtain ⟨n, o, used, c, rfl, kind, opens, derives, closes⟩ := block_accepts header inner
        have ended := ended.behind_block kind opens derives closes
        have completes := ih ended (by simp at enough; omega) more
        rw [Array.toList_appendList] at completes
        exact .stepBlock kind opens derives closes completes
      · simp only [bind_ok, Prod.exists] at parsed
        obtain ⟨s, behind, first, vs, terminated, more⟩ := parsed
        obtain ⟨used, rfl, derives⟩ := statement_accepts first
        have ended := ended.behind derives.unfinished
        rcases statementEnd_ok terminated with ⟨t, rfl, kind⟩ | ⟨rfl, finish | closes⟩
        · have completes := ih (ended.tail (by simp [kind])) (by simp at enough; omega) more
          rw [Array.toList_push] at completes
          exact .statement derives kind completes
        · obtain ⟨f, rfl, kind⟩ := ended.of_peek_finish finish
          rw [treeUpTo_finishes bound finish, Array.toList_push] at more
          cases more
          exact .last derives kind
        · have shorter := derives.length_pos
          rw [List.length_append] at enough
          exact absurd more (treeUpTo_brace ended closes (by omega))

theorem ofTokens_accepts {ts : List Token} {t : Tree} (ended : Ended ts)
    (parsed : Tree.ofTokens ts = .ok t) : t.Derives ts := by
  obtain ⟨used, f, setup, step, rfl, finish, items, -, rfl⟩ :=
    treeUpTo_accepts ts ended (Nat.le_refl _) parsed
  simpa using Tree.Derives.script items finish

end TurtlePlayback.Script
