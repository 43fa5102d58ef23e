import TurtlePlayback.Proofs.ProgramEvaluation

namespace TurtlePlayback.Script

open Run

def Instr.endsStatement : Instr → Bool
  | .store _ => true
  | .command _ _ => true
  | _ => false

namespace Code

def closings (c : Code) : List Nat :=
  ((c.instrs.toList.zip c.offsets.toList).filter (·.1.endsStatement)).map Prod.snd

theorem Grows.unique {c d : Code} {a b : List Emitted} (h : c.Grows a d) (k : c.Grows b d) :
    a = b := by
  have instrs := List.append_cancel_left (h.instrs.symm.trans k.instrs)
  have offsets := List.append_cancel_left (h.offsets.symm.trans k.offsets)
  exact (List.zip_of_prod instrs offsets).trans (List.zip_of_prod rfl rfl).symm

theorem Grows.closings {c : Code} {a : List Emitted} (h : Grows {} a c) :
    c.closings = (a.filter (·.1.endsStatement)).map Prod.snd := by
  have whole : c.instrs.toList.zip c.offsets.toList = a := by
    rw [h.instrs, h.offsets]
    exact (List.zip_of_prod rfl rfl).symm
  rw [Code.closings, whole]

def Continues (c d : Code) : Prop :=
  ∃ added, c.Grows added d ∧ ∀ l ∈ added, l.1.endsStatement = false

variable {scope scope' : Scope} {offset : Nat} {c d e : Code}

theorem Continues.trans (h : Continues c d) (k : Continues d e) : Continues c e := by
  obtain ⟨a, grows₁, open₁⟩ := h
  obtain ⟨b, grows₂, open₂⟩ := k
  exact ⟨a ++ b, grows₁.trans grows₂, List.forall_mem_append.mpr ⟨open₁, open₂⟩⟩

theorem continues_single {i : Instr} (grows : c.Grows [(i, offset)] d)
    (inner : i.endsStatement = false) : Continues c d :=
  ⟨_, grows, by simpa using inner⟩

theorem lowerName_continues {n : String} {nameOffset : Nat}
    (lowered : lowerName scope offset c n nameOffset = .ok d) : Continues c d := by
  simp only [lowerName] at lowered
  split at lowered
  · obtain rfl := Except.ok.inj lowered
    exact continues_single (emit_grows c _ offset) rfl
  · split at lowered
    · obtain rfl := Except.ok.inj lowered
      exact continues_single (emit_grows c _ offset) rfl
    · split at lowered
      · obtain rfl := Except.ok.inj lowered
        exact continues_single (emitLiteral_grows c _ offset) rfl
      · cases lowered

mutual

theorem lowerExpr_continues {c d : Code} (e : Expr)
    (lowered : lowerExpr scope offset c e = .ok d) : Continues c d := by
  cases e with
  | literal l =>
    obtain rfl := Except.ok.inj lowered
    exact continues_single (emitLiteral_grows c _ offset) rfl
  | name n nameOffset => exact lowerName_continues lowered
  | unary op e =>
    simp only [lowerExpr, bind_ok] at lowered
    obtain ⟨inner, operand, same⟩ := lowered
    obtain rfl := Except.ok.inj same
    exact (lowerExpr_continues e operand).trans (continues_single (emit_grows inner _ offset) rfl)
  | binary op l r =>
    simp only [lowerExpr, bind_ok] at lowered
    obtain ⟨left, hl, right, hr, same⟩ := lowered
    obtain rfl := Except.ok.inj same
    have operands := (lowerExpr_continues l hl).trans (lowerExpr_continues r hr)
    exact operands.trans (continues_single (emit_grows right _ offset) rfl)
  | call f args callOffset =>
    simp only [lowerExpr, bind_ok] at lowered
    obtain ⟨function, _, inner, hargs, same⟩ := lowered
    obtain rfl := Except.ok.inj same
    exact (lowerExprs_continues args hargs).trans (continues_single (emit_grows inner _ offset) rfl)

theorem lowerExprs_continues {c d : Code} (es : List Expr)
    (lowered : lowerExprs scope offset c es = .ok d) : Continues c d := by
  cases es with
  | nil =>
    obtain rfl := Except.ok.inj lowered
    exact ⟨[], .refl c, by simp⟩
  | cons e es =>
    simp only [lowerExprs, bind_ok] at lowered
    obtain ⟨inner, first, rest⟩ := lowered
    exact (lowerExpr_continues e first).trans (lowerExprs_continues es rest)

end

theorem lowerStmt_closes {s : Stmt} (lowered : lowerStmt scope c s = .ok (scope', d)) :
    ∃ a i, c.Grows (a ++ [(i, s.offset)]) d ∧ (∀ l ∈ a, l.1.endsStatement = false) ∧
      i.endsStatement = true := by
  cases lowerStmt_lowers lowered with
  | @declare name value offset inner _ computed =>
    obtain ⟨a, grows, inside⟩ := lowerExpr_continues value computed
    exact ⟨a, _, grows.trans (emit_grows inner _ offset), inside, rfl⟩
  | @assign name value offset slot inner _ computed =>
    obtain ⟨a, grows, inside⟩ := lowerExpr_continues value computed
    exact ⟨a, _, grows.trans (emit_grows inner _ offset), inside, rfl⟩
  | @command name args offset command inner _ computed =>
    obtain ⟨a, grows, inside⟩ := lowerExprs_continues args computed
    exact ⟨a, _, grows.trans (emit_grows inner _ offset), inside, rfl⟩

end Code

theorem Emitted.split {a b front rest : List Emitted} {l k : Emitted}
    (inside : ∀ l ∈ a, l.1.endsStatement = false) (ends : l.1.endsStatement = true)
    (same : a ++ [k] ++ b = front ++ l :: rest) :
    front = a ∧ l = k ∨ ∃ more, front = a ++ [k] ++ more ∧ b = more ++ l :: rest := by
  rcases List.append_eq_append_iff.mp same with ⟨more, rfl, rfl⟩ | ⟨past, early, tail⟩
  · exact .inr ⟨more, rfl, rfl⟩
  · cases past with
    | nil =>
      obtain rfl : front = a ++ [k] := by simpa using early.symm
      exact .inr ⟨[], by simp, tail.symm⟩
    | cons l' past =>
      obtain ⟨rfl, -⟩ := List.cons.inj tail
      rcases past.eq_nil_or_concat with rfl | ⟨init, last, rfl⟩
      · obtain ⟨rfl, one⟩ := List.append_inj' early rfl
        exact .inl ⟨rfl, (List.cons.inj one).1.symm⟩
      -- The end stands in front of the last place, where there are no ends.
      · have earlier : a ++ [k] = front ++ l :: init ++ [last] := by simpa using early
        obtain ⟨rfl, -⟩ := List.append_inj' earlier rfl
        have none := inside l (by simp)
        exact absurd (ends.symm.trans none) Bool.noConfusion

variable {σ ε : Type}

def InOrder (low high : Float) : Prop :=
  low.isNaN = false ∧ high.isNaN = false ∧ ¬ high < low

theorem Run.popNumber_ran {m m' : Machine σ} {x : Float}
    (ran : popNumber (ε := ε) m = .ok x m') : m.stack = .number x :: m'.stack := by
  rcases m with ⟨vars, stack, host⟩
  cases stack with
  | nil => cases ran
  | cons v stack =>
    cases v with
    | number y =>
      cases ran
      rfl
    | _ => cases ran

theorem Run.clamp_ran {m m' : Machine σ} (ran : function (ε := ε) .clamp m = .ok () m') :
    ∃ x low high rest, m.stack = .number high :: .number low :: .number x :: rest ∧
      InOrder low high ∧ m'.stack = .number (clamp x low high) :: rest := by
  simp only [function, bind_ran] at ran
  obtain ⟨high, m₁, first, low, m₂, second, x, m₃, third, last⟩ := ran
  refine ⟨x, low, high, m₃.stack, ?_, ?_⟩
  · rw [popNumber_ran first, popNumber_ran second, popNumber_ran third]
  · split at last
    · cases last
    · next inOrder =>
      cases last
      exact ⟨by simpa [InOrder, and_assoc] using inOrder, rfl⟩

variable [Host σ ε]

namespace Code

variable {scope scope' : Scope} {c d : Code}

theorem lowerStmts_clear (well : scope.WellNamed) {ss : List Stmt}
    (lowered : lowerStmts scope c ss = .ok (scope', d)) :
    ∃ added, c.Grows added d ∧
      (added.filter (·.1.endsStatement)).map Prod.snd = ss.map (·.offset) ∧
      ∀ literals names (m : Machine σ), Fits scope' d literals names m →
        ∀ front l rest, added = front ++ l :: rest → l.1.endsStatement = true →
          ∀ m', lines literals (front ++ [l]) m = .ok () m' → m'.stack = m.stack := by
  induction ss generalizing scope c with
  | nil =>
    obtain ⟨rfl, rfl⟩ := Prod.mk.inj (Except.ok.inj lowered)
    exact ⟨[], .refl c, rfl, by simp⟩
  | cons s ss ih =>
    simp only [lowerStmts] at lowered
    split at lowered
    · next scope₁ inner first =>
      obtain ⟨a, i, grows₁, inside, ends⟩ := lowerStmt_closes first
      obtain ⟨-, well₁, added, grows, performs⟩ := lowerStmt_performs (σ := σ) well first
      obtain rfl := grows.unique grows₁
      obtain ⟨b, grows₂, offsets, clear⟩ := ih well₁ lowered
      have grown := (lowerStmts_performs (σ := σ) well₁ lowered).1
      refine ⟨a ++ [(i, s.offset)] ++ b, grows.trans grows₂, ?_, ?_⟩
      · have none : a.filter (·.1.endsStatement) = [] :=
          List.filter_eq_nil_iff.mpr fun l there => by simp [inside l there]
        simp [List.filter_append, none, ends, offsets]
      · intro literals names m fits front l rest same ends m' ran
        have ended := performs literals names m (fits.earlier grows₂ grown)
        rcases Emitted.split inside ends same with ⟨rfl, rfl⟩ | ⟨more, rfl, rfl⟩
        · exact ended.stack m' ran
        · rw [List.append_assoc, lines_append, bind_ran] at ran
          obtain ⟨_, m₁, before, after⟩ := ran
          have sized : m₁.vars.size = m.vars.size := by simpa [before, left] using ended.sized
          have later := clear literals names m₁ ⟨fits.kept, fits.later, sized.trans fits.sized⟩ more l
            rest rfl ends m' after
          exact later.trans (ended.stack m₁ before)
    · cases lowered

/-- Behind every instruction that ends a statement the stack is that of `m`. -/
def Clears (c : Code) (m : Machine σ) : Prop :=
  ∀ n i m', c.instrs[n]? = some i → i.endsStatement = true →
    Run.instrs c 0 (c.instrs.toList.take (n + 1)) m = .ok () m' → m'.stack = m.stack

theorem Grows.clears {added : List Emitted} (grows : Grows {} added c) {m : Machine σ}
    (clear : ∀ front l rest, added = front ++ l :: rest → l.1.endsStatement = true →
      ∀ m', lines c.literals (front ++ [l]) m = .ok () m' → m'.stack = m.stack) :
    Clears c m := by
  intro n i m' placed ends ran
  have instrs : c.instrs.toList = added.map Prod.fst := by simpa using grows.instrs
  have offsets : c.offsets.toList = added.map Prod.snd := by simpa using grows.offsets
  rw [← Array.getElem?_toList, instrs, List.getElem?_map, Option.map_eq_some_iff] at placed
  obtain ⟨l, there, rfl⟩ := placed
  obtain ⟨bound, rfl⟩ := List.getElem?_eq_some_iff.mp there
  have reached : added.take (n + 1) = added.take n ++ [added[n]] :=
    List.take_succ_eq_append_getElem bound
  have part : [] ++ (added.take (n + 1)).map Prod.snd <+: c.offsets.toList := by
    rw [offsets, List.nil_append, List.map_take]
    exact List.take_prefix _ _
  have same := instrs_lines (σ := σ) c [] part
  rw [instrs, ← List.map_take] at ran
  refine clear (added.take n) added[n] (added.drop (n + 1)) ?_ ends m' ?_
  · simp
  · rw [← reached, ← same]
    exact ran

theorem lowerStmts_clears (well : scope.WellNamed) {ss : List Stmt}
    (lowered : lowerStmts scope {} ss = .ok (scope', c)) {names : Scope}
    (later : scope'.toList <+: names.toList) {m : Machine σ} (sized : m.vars.size = names.size) :
    c.closings = ss.map (·.offset) ∧ Clears c m := by
  obtain ⟨added, grows, offsets, clear⟩ := lowerStmts_clear (σ := σ) well lowered
  exact ⟨grows.closings.trans offsets,
    grows.clears (clear c.literals names m ⟨List.prefix_rfl, later, sized⟩)⟩

end Code

end TurtlePlayback.Script
