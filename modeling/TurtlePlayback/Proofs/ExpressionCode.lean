import TurtlePlayback.Proofs.ExceptResults
import TurtlePlayback.Proofs.InstructionEffects
import TurtlePlayback.Proofs.ScopeStores

/-!
The code of an expression pushes its value. Lowering only appends: what it has emitted for a part of
the tree runs in the same way whatever follows, and whatever is declared later.
-/

namespace TurtlePlayback.Script

abbrev Emitted :=
  Instr × Nat

/-- `d` is `c` with further lines and literals. -/
structure Code.Grows (c : Code) (added : List Emitted) (d : Code) : Prop where
  instrs : d.instrs.toList = c.instrs.toList ++ added.map Prod.fst
  offsets : d.offsets.toList = c.offsets.toList ++ added.map Prod.snd
  literals : c.literals.toList <+: d.literals.toList

namespace Code

variable {c d e : Code} {a b : List Emitted} {i : Instr} {offset : Nat}

theorem Grows.trans (h : c.Grows a d) (k : d.Grows b e) : c.Grows (a ++ b) e where
  instrs := by rw [k.instrs, h.instrs, List.map_append, List.append_assoc]
  offsets := by rw [k.offsets, h.offsets, List.map_append, List.append_assoc]
  literals := h.literals.trans k.literals

theorem Grows.refl (c : Code) : c.Grows [] c :=
  ⟨by simp, by simp, List.prefix_rfl⟩

theorem emit_grows (c : Code) (i : Instr) (offset : Nat) :
    c.Grows [(i, offset)] (c.emit i offset) :=
  ⟨by simp [emit], by simp [emit], List.prefix_rfl⟩

theorem emitLiteral_grows (c : Code) (l : Literal) (offset : Nat) :
    c.Grows [(.push c.literals.size, offset)] (c.emitLiteral l offset) :=
  ⟨by simp [emitLiteral, emit], by simp [emitLiteral, emit], by simp [emitLiteral, emit]⟩

theorem emitLiteral_get {l : Literal} {literals : Array Literal}
    (kept : (c.emitLiteral l offset).literals.toList <+: literals.toList) :
    literals[c.literals.size]? = some l := by
  obtain ⟨more, kept⟩ := kept
  rw [← Array.getElem?_toList, ← kept]
  simp [emitLiteral, emit]

end Code

variable {σ ε α β γ : Type}

def Scope.scene (names : Scope) (m : Machine σ) : Scene σ :=
  ⟨names.store m.vars, m.host⟩

namespace Run

variable [Host σ ε]

def lines (literals : Array Literal) : List Emitted → Run σ ε Unit
  | [] => pure ()
  | (i, offset) :: rest => do
    located (some offset) (instr literals i)
    lines literals rest

theorem lines_append (literals : Array Literal) (a b : List Emitted) :
    lines (σ := σ) literals (a ++ b) = lines literals a >>= fun _ => lines literals b := by
  induction a with
  | nil => simp [lines]
  | cons l a ih => simp [lines, ih]

theorem lines_single (literals : Array Literal) (i : Instr) (offset : Nat) :
    lines (σ := σ) literals [(i, offset)] = located (some offset) (instr literals i) := by
  simp [lines]

theorem instrs_lines (c : Code) (before : List Nat) {a : List Emitted}
    (offsets : before ++ a.map Prod.snd <+: c.offsets.toList) :
    instrs (σ := σ) c before.length (a.map Prod.fst) = lines c.literals a := by
  induction a generalizing before with
  | nil => rfl
  | cons l a ih =>
    have here : c.offsets[before.length]? = some l.2 := by
      obtain ⟨more, offsets⟩ := offsets
      rw [← Array.getElem?_toList, ← offsets]
      simp
    have rest := ih (before ++ [l.2]) (by simpa using offsets)
    rw [List.length_append] at rest
    simp only [List.map_cons, instrs, here, lines]
    rw [← rest]
    rfl

end Run

open Run

variable [Host σ ε]

structure Code.Fits (scope : Scope) (c : Code) (literals : Array Literal) (names : Scope)
    (m : Machine σ) : Prop where
  kept : c.literals.toList <+: literals.toList
  later : scope.toList <+: names.toList
  sized : m.vars.size = names.size

/-- The code that has grown from `c` to `d` pushes a value, however the code and the scope grow. -/
def Code.Computes (scope : Scope) (offset : Nat) (c d : Code) (top : α → List Value)
    (value : Scene σ → Except (Fault ε) α) : Prop :=
  ∃ added, c.Grows added d ∧ ∀ literals names (m : Machine σ), Fits scope d literals names m →
    Pushes m (some offset) top (value (names.scene m)) (lines literals added m)

namespace Code

variable {scope scope' : Scope} {offset : Nat} {c d e : Code}

omit [Host σ ε] in
theorem Fits.earlier {literals : Array Literal} {names : Scope} {m : Machine σ}
    (fits : Fits scope' d literals names m) {added : List Emitted} (grows : c.Grows added d)
    (grown : scope.toList <+: scope'.toList) : Fits scope c literals names m :=
  ⟨grows.literals.trans fits.kept, grown.trans fits.later, fits.sized⟩

theorem computes_single {i : Instr} {top : α → List Value}
    {value : Scene σ → Except (Fault ε) α} (grows : c.Grows [(i, offset)] d)
    (step : ∀ literals names (m : Machine σ), Fits scope d literals names m →
      Pushes m none top (value (names.scene m)) (instr literals i m)) :
    Computes scope offset c d top value := by
  refine ⟨_, grows, ?_⟩
  intro literals names m fits
  rw [lines_single]
  exact (step literals names m fits).located

theorem Computes.append {top₁ : α → List Value} {top₂ : β → List Value} {top : γ → List Value}
    {first : Scene σ → Except (Fault ε) α} {second : Scene σ → Except (Fault ε) β}
    (h : Computes scope offset c d top₁ first) (k : Computes scope offset d e top₂ second)
    {join : α → β → γ} (joined : ∀ a b, top₂ b ++ top₁ a = top (join a b)) :
    Computes scope offset c e top fun scene => do
      let a ← first scene
      let b ← second scene
      return join a b := by
  obtain ⟨a, grows₁, runs₁⟩ := h
  obtain ⟨b, grows₂, runs₂⟩ := k
  refine ⟨a ++ b, grows₁.trans grows₂, ?_⟩
  intro literals names m fits
  rw [lines_append]
  apply Pushes.bind [] (runs₁ literals names m (fits.earlier grows₂ List.prefix_rfl))
  intro va _
  rw [List.append_nil]
  have fits_above : Fits scope e literals names (holding m (top₁ va)) :=
    ⟨fits.kept, fits.later, fits.sized⟩
  exact (runs₂ literals names _ fits_above).map (joined va)

theorem Computes.emit {i : Instr} {top : α → List Value} {top' : β → List Value}
    {value : Scene σ → Except (Fault ε) α} {k : α → Except (Fault ε) β}
    (h : Computes scope offset c d top value)
    (step : ∀ (literals : Array Literal) (scene : Scene σ) (a : α), value scene = .ok a →
      ∀ m : Machine σ, Pushes m none top' (k a) (instr literals i (holding m (top a)))) :
    Computes scope offset c (d.emit i offset) top' fun scene => value scene >>= k := by
  obtain ⟨a, grows, runs⟩ := h
  have last := emit_grows d i offset
  refine ⟨a ++ [(i, offset)], grows.trans last, ?_⟩
  intro literals names m fits
  rw [lines_append]
  apply Pushes.bind [] (runs literals names m (fits.earlier last List.prefix_rfl))
  intro va found
  rw [List.append_nil, lines_single]
  exact (step literals _ va found m).located

theorem lowerName_computes (well : scope.WellNamed) {n : String} {nameOffset : Nat}
    (lowered : lowerName scope offset c n nameOffset = .ok d) :
    Computes scope offset c d single fun scene : Scene σ => scene.value n := by
  simp only [lowerName] at lowered
  split at lowered
  · next slot found =>
    obtain rfl := Except.ok.inj lowered
    apply computes_single (emit_grows c _ offset)
    intro literals names m fits
    have get : m.vars[slot]? = some (names.store m.vars n) :=
      Scope.getElem?_slot fits.sized (Scope.slot?_of_prefix fits.later found)
    have value : (names.scene m).value n = (names.store m.vars n).assigned := by
      simp only [Scene.value, well.ofName?_eq_none found]
      rfl
    rw [value]
    exact load_pushes literals get
  · next undeclared =>
    split at lowered
    · next reading known =>
      obtain rfl := Except.ok.inj lowered
      apply computes_single (emit_grows c _ offset)
      intro literals names m _
      simp only [Scene.value, known]
      rfl
    · next unknown =>
      split at lowered
      · next constant known =>
        obtain rfl := Except.ok.inj lowered
        apply computes_single (emitLiteral_grows c _ offset)
        intro literals names m fits
        simp only [Scene.value, unknown, known, instr, emitLiteral_get fits.kept]
        rfl
      · cases lowered

theorem checkArity_ok {name : String} {least most got offset : Nat} :
    checkArity name least most got offset = .ok () ↔ least ≤ got ∧ got ≤ most := by
  simp only [checkArity]
  split <;> simp_all

theorem callee_eq_ok {name : String} {args offset : Nat} {f : Function}
    (named : callee name args offset = .ok f) : Function.ofName? name = some f ∧ args = f.arity := by
  simp only [callee] at named
  split at named
  · next g found =>
    rw [bind_ok] at named
    obtain ⟨_, checked, same⟩ := named
    obtain rfl := Except.ok.inj same
    obtain ⟨least, most⟩ := checkArity_ok.mp checked
    exact ⟨found, Nat.le_antisymm most least⟩
  · cases named

theorem commandNamed_eq_ok {name : String} {args offset : Nat} {command : Command}
    (named : commandNamed name args offset = .ok command) :
    Command.ofName? name = some command ∧ command.arity.1 ≤ args ∧ args ≤ command.arity.2 := by
  simp only [commandNamed] at named
  split at named
  · next g found =>
    rw [bind_ok] at named
    obtain ⟨_, checked, same⟩ := named
    obtain rfl := Except.ok.inj same
    exact ⟨found, checkArity_ok.mp checked⟩
  · cases named

theorem values_length {scene : Scene σ} {es : List Expr} {vs : List Value}
    (found : Expr.values scene es = .ok vs) : vs.length = es.length := by
  induction es generalizing vs with
  | nil =>
    obtain rfl := Except.ok.inj found
    rfl
  | cons e es ih =>
    simp only [Expr.values, bind_ok] at found
    obtain ⟨v, _, rest, more, same⟩ := found
    obtain rfl := Except.ok.inj same
    rw [List.length_cons, ih more, List.length_cons]

mutual

theorem lowerExpr_computes (well : scope.WellNamed) {c d : Code} (e : Expr)
    (lowered : lowerExpr scope offset c e = .ok d) :
    Computes scope offset c d single fun scene : Scene σ => e.value scene := by
  cases e with
  | literal l =>
    obtain rfl := Except.ok.inj lowered
    apply computes_single (emitLiteral_grows c _ offset)
    intro literals names m fits
    simp only [instr, emitLiteral_get fits.kept]
    cases l <;> rfl
  | name n nameOffset =>
    simp only [Expr.value]
    exact lowerName_computes well lowered
  | unary op e =>
    simp only [lowerExpr, bind_ok] at lowered
    obtain ⟨inner, operand, same⟩ := lowered
    obtain rfl := Except.ok.inj same
    simp only [Expr.value]
    exact (lowerExpr_computes well e operand).emit fun _ _ a _ _ => unary_pushes op a
  | binary op l r =>
    simp only [lowerExpr, bind_ok] at lowered
    obtain ⟨left, hl, right, hr, same⟩ := lowered
    obtain rfl := Except.ok.inj same
    have first : Computes scope offset c left single fun scene : Scene σ => l.value scene :=
      lowerExpr_computes well l hl
    -- Both operands have their values before the operator looks at either, so they form a pair.
    have operands : Computes scope offset c right (fun p : Value × Value => [p.2, p.1])
        fun scene : Scene σ => do return (← l.value scene, ← r.value scene) :=
      first.append (lowerExpr_computes well r hr) fun _ _ => rfl
    have step (literals : Array Literal) (p : Value × Value) (m : Machine σ) :
        Pushes m none single (op.apply p.1 p.2)
          (instr literals (.binary op) (holding m [p.2, p.1])) := binary_pushes op p.1 p.2
    have computed := operands.emit fun literals _ p _ => step literals p
    simpa only [Expr.value, bind_assoc, pure_bind] using computed
  | call f args callOffset =>
    simp only [lowerExpr, bind_ok] at lowered
    obtain ⟨function, named, inner, hargs, same⟩ := lowered
    obtain rfl := Except.ok.inj same
    obtain ⟨found, arity⟩ := callee_eq_ok named
    simp only [Expr.value, found]
    apply (lowerExprs_computes well args hargs).emit
    intro literals scene values evaluated m
    have count := values_length evaluated
    rw [← count]
    exact call_pushes literals function (count.trans arity)

theorem lowerExprs_computes (well : scope.WellNamed) {c d : Code} (es : List Expr)
    (lowered : lowerExprs scope offset c es = .ok d) :
    Computes scope offset c d List.reverse fun scene : Scene σ => Expr.values scene es := by
  cases es with
  | nil =>
    obtain rfl := Except.ok.inj lowered
    refine ⟨[], .refl c, ?_⟩
    intro literals names m _
    simp only [Expr.values]
    rfl
  | cons e es =>
    simp only [lowerExprs, bind_ok] at lowered
    obtain ⟨inner, first, rest⟩ := lowered
    simp only [Expr.values]
    exact (lowerExpr_computes well e first).append (lowerExprs_computes well es rest)
      (by simp [single])

end

end Code

inductive Stmt.Lowers (scope : Scope) (c : Code) : Stmt → Scope → Code → Prop
  | declare {name : String} {value : Expr} {offset : Nat} {inner : Code} :
    isReserved name = false → lowerExpr scope offset c value = .ok inner →
    Lowers scope c ⟨.declare name value, offset⟩ (scope.declare name).1
      (inner.emit (.store (scope.declare name).2) offset)
  | assign {name : String} {value : Expr} {offset slot : Nat} {inner : Code} :
    scope.slot? name = some slot → lowerExpr scope offset c value = .ok inner →
    Lowers scope c ⟨.assign name value, offset⟩ scope (inner.emit (.store slot) offset)
  | command {name : String} {args : List Expr} {offset : Nat} {command : Command} {inner : Code} :
    commandNamed name args.length offset = .ok command →
    lowerExprs scope offset c args = .ok inner →
    Lowers scope c ⟨.command name args, offset⟩ scope
      (inner.emit (.command command args.length) offset)

variable {scope scope' : Scope} {c d : Code} {s : Stmt}

omit [Host σ ε] in
theorem lowerStmt_lowers (lowered : lowerStmt scope c s = .ok (scope', d)) :
    s.Lowers scope c scope' d := by
  rcases s with ⟨action, offset⟩
  cases action with
  | declare name value =>
    simp only [lowerStmt] at lowered
    split at lowered
    · cases lowered
    · next unreserved =>
      obtain ⟨inner, computed, same⟩ := bind_ok.mp lowered
      obtain ⟨rfl, rfl⟩ := Prod.mk.inj (Except.ok.inj same)
      exact .declare (by simpa using unreserved) computed
  | assign name value =>
    simp only [lowerStmt] at lowered
    split at lowered
    · next slot found =>
      obtain ⟨inner, computed, same⟩ := bind_ok.mp lowered
      obtain ⟨rfl, rfl⟩ := Prod.mk.inj (Except.ok.inj same)
      exact .assign found computed
    · cases lowered
  | command name args =>
    simp only [lowerStmt, bind_ok] at lowered
    obtain ⟨command, named, inner, computed, same⟩ := lowered
    obtain ⟨rfl, rfl⟩ := Prod.mk.inj (Except.ok.inj same)
    exact .command named computed

omit [Host σ ε] in
theorem Stmt.Lowers.grown (lowers : s.Lowers scope c scope' d) :
    scope.toList <+: scope'.toList := by
  cases lowers with
  | declare _ _ => exact scope.declare_prefix _
  | assign _ _ => exact List.prefix_rfl
  | command _ _ => exact List.prefix_rfl

end TurtlePlayback.Script
