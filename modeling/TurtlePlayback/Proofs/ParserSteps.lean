import TurtlePlayback.Script.Tree.Parsing

namespace TurtlePlayback.Script

variable {ts us : List Token} {t : Token} {k : Kind}

theorem peek_cons (t : Token) (us : List Token) : peek (t :: us) = t.kind :=
  rfl

theorem advance_cons (kind : t.kind = k) (goes_on : k ≠ .finish) : advance (t :: us) = us := by
  subst kind
  exact if_neg goes_on

theorem of_peek (first : peek ts = k) (goes_on : k ≠ .finish) :
    ∃ t us, ts = t :: us ∧ t.kind = k ∧ advance ts = us := by
  cases ts with
  | nil => exact absurd first.symm goes_on
  | cons t us =>
    have kind : t.kind = k := first
    exact ⟨t, us, rfl, kind, advance_cons kind goes_on⟩

theorem expect_ok (goes_on : k ≠ .finish) (met : expect k ts = .ok us) :
    ∃ t, ts = t :: us ∧ t.kind = k := by
  simp only [expect] at met
  split at met
  · next first =>
    obtain ⟨t, us, rfl, kind, behind⟩ := of_peek first goes_on
    rw [behind] at met
    cases met
    exact ⟨t, rfl, kind⟩
  · cases met

theorem expect_cons (kind : t.kind = k) (goes_on : k ≠ .finish) : expect k (t :: us) = .ok us := by
  rw [expect, if_pos (show peek (t :: us) = k from kind), advance_cons kind goes_on]

theorem skipSeparators_of_peek (first : peek ts ≠ .separator) : skipSeparators ts = ts := by
  cases ts with
  | nil => rfl
  | cons t ts =>
    have stays : decide (t.kind = .separator) = false := decide_eq_false first
    rw [skipSeparators, List.dropWhile_cons_of_neg (by simp [stays])]

theorem skipSeparators_cons (kind : t.kind = .separator) :
    skipSeparators (t :: us) = skipSeparators us := by
  rw [skipSeparators, List.dropWhile_cons_of_pos (by simp [kind])]
  rfl

theorem exists_separators (ts : List Token) :
    ∃ separators, ts = separators ++ skipSeparators ts ∧
      ∀ t ∈ separators, t.kind = .separator := by
  refine ⟨ts.takeWhile (·.kind = .separator), List.takeWhile_append_dropWhile.symm, ?_⟩
  intro t there
  simpa using List.all_eq_true.mp List.all_takeWhile t there

theorem statementEnd_ok (ended : statementEnd ts = .ok us) :
    (∃ t, ts = t :: us ∧ t.kind = .separator) ∨
      us = ts ∧ (peek ts = .finish ∨ peek ts = .closeBrace) := by
  simp only [statementEnd] at ended
  split at ended
  · next first =>
    obtain ⟨t, us, rfl, kind, passed⟩ := of_peek first (by simp)
    rw [passed] at ended
    cases ended
    exact .inl ⟨t, rfl, kind⟩
  · next first =>
    cases ended
    exact .inr ⟨rfl, .inl first⟩
  · next first =>
    cases ended
    exact .inr ⟨rfl, .inr first⟩
  · cases ended

theorem blockBodyUpTo_closes {read : Array Stmt} {b : Token} {bound : List Token}
    (closes : peek ts = .closeBrace) :
    blockBodyUpTo read (b :: bound) ts = .ok (read.toList, advance ts) := by
  rw [blockBodyUpTo]
  simp only [skipSeparators_of_peek (show peek ts ≠ .separator by simp [closes]), closes, ↓reduceIte]

theorem blockBodyUpTo_unclosed {read : Array Stmt} (bound : List Token)
    (finish : peek ts = .finish) : blockBodyUpTo read bound ts = complain ts .unclosedBlock := by
  cases bound with
  | nil => rfl
  | cons b bound =>
    rw [blockBodyUpTo]
    simp only [skipSeparators_of_peek (show peek ts ≠ .separator by simp [finish]), finish, ↓reduceIte,
      reduceCtorEq]

theorem treeUpTo_finishes {setup : Option (List Stmt)} {step : Array Stmt} (bound : List Token)
    (finish : peek ts = .finish) :
    treeUpTo setup step bound ts = .ok ⟨setup.getD [], step.toList⟩ := by
  cases bound with
  | nil => rfl
  | cons b bound =>
    rw [treeUpTo]
    simp only [skipSeparators_of_peek (show peek ts ≠ .separator by simp [finish]), finish, ↓reduceIte]

theorem treeUpTo_closeBrace {setup : Option (List Stmt)} {step : Array Stmt} {b : Token}
    {bound : List Token} (closes : peek ts = .closeBrace) :
    treeUpTo setup step (b :: bound) ts = complain ts (.expectedStatement .closeBrace) := by
  have loose : blockHeader? ts = none := by simp [blockHeader?, closes]
  rw [treeUpTo]
  simp only [skipSeparators_of_peek (show peek ts ≠ .separator by simp [closes]), closes, loose,
    ↓reduceIte, reduceCtorEq, statement]
  rfl

def Block.word : Block → String
  | setup => "setup"
  | step => "step"

theorem blockHeader?_some {b : Block} (header : blockHeader? ts = some b) :
    ∃ t o us, ts = t :: o :: us ∧ t.kind = .name b.word ∧ o.kind = .openBrace ∧
      advance (advance ts) = us := by
  have first : peek ts = .name b.word ∧ peek (advance ts) = .openBrace := by
    simp only [blockHeader?] at header
    split at header <;> cases header <;> exact ⟨‹_›, ‹_›⟩
  obtain ⟨first, second⟩ := first
  obtain ⟨t, vs, rfl, kind, passed⟩ := of_peek first (by simp)
  rw [passed] at second ⊢
  obtain ⟨o, us, rfl, opens, passed⟩ := of_peek second (by simp)
  exact ⟨t, o, us, rfl, kind, opens, passed⟩

theorem blockHeader?_cons {b : Block} {o : Token} (kind : t.kind = .name b.word)
    (opens : o.kind = .openBrace) : blockHeader? (t :: o :: us) = some b := by
  simp only [blockHeader?, peek_cons, kind, advance_cons kind (by simp), opens]
  cases b <;> rfl

structure Stops (levels : List Level) (k : Kind) : Prop where
  name : k ≠ .openParen
  operator : ∀ l ∈ levels, l.operator? k = none

theorem Stops.tighter {l : Level} {tighter : List Level} (h : Stops (l :: tighter) k) :
    Stops tighter k :=
  ⟨h.name, fun t member => h.operator t (List.mem_cons_of_mem l member)⟩

theorem stops_comma {levels : List Level} : Stops levels .comma :=
  ⟨by simp, fun l _ => by cases l <;> rfl⟩

theorem stops_closeParen {levels : List Level} : Stops levels .closeParen :=
  ⟨by simp, fun l _ => by cases l <;> rfl⟩

theorem chainAt_stops {room : Nat} {l : Level} {tighter : List Level} {left : Expr}
    (stops : l.operator? (peek ts) = none) : chainAt room l tighter left ts = .ok (left, ts) := by
  rw [chainAt.eq_def]
  simp [stops]

end TurtlePlayback.Script
