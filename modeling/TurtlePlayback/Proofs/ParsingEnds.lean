import TurtlePlayback.Proofs.IndexedTokens

namespace TurtlePlayback.Script.Indexed

variable {α β : Type} {source : String} {ts : List Token} {t : Token} {i d : Nat}

def parse (calls : Nat) (source : String) : Except Stop Tree := do
  let ts ← tokens source
  match script ts calls ⟨0, 0⟩ with
  | .ok tree _ => .ok tree
  | .error stop _ => .error stop

/-- The cursor is left on a token, and what stopped a parser is the script or the number of calls.
-/
def Contained (ts : List Token) : EStateM.Result Stop Cursor α → Prop
  | .ok _ c => c.index < ts.length
  | .error stop c => c.index < ts.length ∧ (stop = .calls ∨ ∃ e, stop = .refused e)

/-- From every token on, a parser stays within the list. If it succeeds, it has passed at least one
token and not the end, and it is as deep as it was. -/
structure Proceeds (ts : List Token) (p : Reading α) : Prop where
  contained {c : Cursor} (inside : c.index < ts.length) : Contained ts (p c)
  passes {c c' : Cursor} {a : α} (inside : c.index < ts.length) (read : p c = .ok a c') :
    c.index < c'.index ∧ c'.depth = c.depth ∧
      ∀ k t, c.index ≤ k → k < c'.index → ts[k]? = some t → t.kind ≠ .finish

theorem Agrees.contained {short : Prop} {R : α → Cursor → β → Prop}
    {r : EStateM.Result Stop Cursor α} {q : Except Error β} (agrees : Agrees ts short R r q) :
    Contained ts r := by
  cases r with
  | ok a c =>
    cases q with
    | ok b => exact agrees.1
    | error f => exact agrees.elim
  | error stop c =>
    cases stop with
    | calls => exact ⟨agrees.1, .inl rfl⟩
    | refused e =>
      cases q with
      | ok b => exact agrees.elim
      | error f => exact ⟨agrees.1, .inr ⟨e, rfl⟩⟩
    | _ => cases q <;> exact agrees.elim

theorem Reads.passed {short : Prop} {r : EStateM.Result Stop Cursor α}
    {q : Except Error (α × List Token)} (reads : Reads ts short (Passed i d) r q) {a : α} {c : Cursor}
    (read : r = .ok a c) : c.index < ts.length ∧ i < c.index ∧ c.depth = d := by
  subst read
  cases q with
  | ok b => exact ⟨reads.1, reads.2.2⟩
  | error f => exact reads.elim

theorem proceeds (ended : Ended ts) {p : Reading α}
    (reads : ∀ d i, i < ts.length → ∃ short q, Reads ts short (Passed i d) (p ⟨i, d⟩) q) :
    Proceeds ts p where
  contained inside := by
    obtain ⟨_, _, read⟩ := reads _ _ inside
    exact Agrees.contained read
  passes inside read := by
    obtain ⟨_, _, agrees⟩ := reads _ _ inside
    obtain ⟨within, passed, same⟩ := agrees.passed read
    refine ⟨passed, same, fun k t _ before on => ?_⟩
    exact mt (finish_iff ended on).mp (not_not.mpr (by omega))

theorem primary_operator (ended : Ended ts) (on : ts[i]? = some t) {op : UnaryOp}
    (operator : unaryOperator? t.kind = some op) (calls d : Nat) :
    Reads ts (calls = 0) (Passed i d) (primary ts calls ⟨i, d⟩)
      (.error ⟨t.start, .unexpectedToken t.kind⟩) := by
  cases calls with
  | zero => exact ⟨inside_of_token on, rfl⟩
  | succ calls =>
    have other : t.kind ≠ .finish := fun finish => by
      rw [finish] at operator
      cases operator
    obtain ⟨more, passes⟩ := bump_passes on ended other d
    rw [primary, bind_run passes]
    cases kind : t.kind with
    | minus => exact ⟨more, rfl⟩
    | bang => exact ⟨more, rfl⟩
    | _ =>
      rw [kind] at operator
      cases operator

theorem statement_proceeds (ended : Ended ts) (calls : Nat) : Proceeds ts (statement ts calls) :=
  proceeds ended fun _ _ inside => ⟨_, _, statement_reads ended calls inside⟩

theorem operand_proceeds (ended : Ended ts) (calls : Nat) (ls : List Level) :
    Proceeds ts (operand ts calls ls) :=
  proceeds ended fun _ _ inside => ⟨_, _, (expressions ended calls).operand ls inside⟩

theorem primary_proceeds (ended : Ended ts) (calls : Nat) : Proceeds ts (primary ts calls) := by
  refine proceeds ended fun d i inside => ?_
  obtain ⟨t, on⟩ := exists_token inside
  cases operator : unaryOperator? t.kind with
  | some op => exact ⟨_, _, primary_operator ended on operator calls d⟩
  | none => exact ⟨_, _, (expressions ended calls).primary on operator⟩

theorem parse_eq (source : String) {calls : Nat} (enough : 12 + 9 * maxNesting ≤ calls) :
    parse calls source = (Tree.parse source).mapError .refused := by
  rw [parse, tokens_eq, Tree.parse]
  cases lexed : Script.tokens source with
  | error e => rfl
  | ok ts =>
    have agrees := script_agrees (tokens_ended lexed) calls
    change (match script ts calls ⟨0, 0⟩ with
      | .ok tree _ => .ok tree
      | .error stop _ => .error stop) = (Tree.ofTokens ts).mapError .refused
    cases met : script ts calls ⟨0, 0⟩ with
    | ok tree c =>
      rw [met] at agrees
      cases built : Tree.ofTokens ts with
      | ok other =>
        rw [built] at agrees
        obtain rfl : tree = other := agrees.2
        rfl
      | error e =>
        rw [built] at agrees
        exact agrees.elim
    | error stop c =>
      rw [met] at agrees
      cases stop with
      | calls => exact absurd agrees.2 (Nat.not_lt.mpr enough)
      | refused e =>
        cases built : Tree.ofTokens ts with
        | ok other =>
          rw [built] at agrees
          exact agrees.elim
        | error f =>
          rw [built] at agrees
          obtain rfl : e = f := agrees.2
          rfl
      | _ => cases built : Tree.ofTokens ts <;> rw [built] at agrees <;> exact agrees.elim

/-- Texts and tokens are read to an end. A round in which a text is read passes at least a byte, and
as many rounds as it has bytes, and one, are enough. No parser leaves the list of tokens or goes
round in it more often than it has tokens. A statement or an expression that is read passes a token,
and the depth is then what it was. Each script is read with at most 1164 calls at once. -/
theorem parsing_ends (source : String) :
    tokens source = (Script.tokens source).mapError .refused ∧
    (∀ s : Scan, Placed source s.position → s.position < source.utf8ByteSize →
      match s.round source with
      | .ok next => s.position < next.position ∧ Placed source next.position
      | .error stop => ∃ e, stop = .refused e) ∧
    (∀ calls ≥ 1164, parse calls source = (Tree.parse source).mapError .refused) ∧
    ∀ ts, Script.tokens source = .ok ts → ∀ calls,
      Contained ts (script ts calls ⟨0, 0⟩) ∧ Proceeds ts (statement ts calls) ∧
      (∀ ls, Proceeds ts (operand ts calls ls)) ∧ Proceeds ts (primary ts calls) := by
  refine ⟨tokens_eq source, fun s => Scan.round_advances, fun calls => parse_eq source, ?_⟩
  intro ts lexed calls
  have ended := tokens_ended lexed
  exact ⟨(script_agrees ended calls).contained, statement_proceeds ended calls,
    operand_proceeds ended calls, primary_proceeds ended calls⟩

theorem parsing_ends_nested :
    let source := "a=-(b)"
    let ts : List Token := [⟨.name "a", 0, 1⟩, ⟨.assign, 1, 2⟩, ⟨.minus, 2, 3⟩, ⟨.openParen, 3, 4⟩,
      ⟨.name "b", 4, 5⟩, ⟨.closeParen, 5, 6⟩, ⟨.finish, 6, 6⟩]
    let a : Stmt := ⟨.assign "a" (.unary .neg (.name "b" 4)), 0⟩
    Script.tokens source = .ok ts ∧ statement ts 1162 ⟨0, 0⟩ = .ok a ⟨6, 0⟩ ∧
      (∀ k t, 0 ≤ k → k < 6 → ts[k]? = some t → t.kind ≠ .finish) ∧
      parse 1164 source = (Tree.parse source).mapError .refused ∧
      statement ts 9 ⟨0, 0⟩ = .error .calls ⟨3, 1⟩ := by
  intro source ts a
  have parts : source.toList = ['a'] ++ (['='] ++ (['-'] ++ (['('] ++ (['b'] ++ ([')'] ++ []))))) := by
    decide
  have lexing : Lexing 0 0 source.toList ts := by
    rw [parts]
    exact .token (.of_read rfl) <| .token (.of_read rfl) <| .token (.of_read rfl) <|
      .token (.of_read rfl) <| .token (.of_read rfl) <| .token (.of_read rfl) <| .finish _ _
  have lexed := lexing_iff.mp lexing
  have read : statement ts 1162 ⟨0, 0⟩ = .ok a ⟨6, 0⟩ := rfl
  obtain ⟨-, -, same, ends⟩ := parsing_ends source
  have passed := (ends ts lexed 1162).2.1.passes (by decide) read
  exact ⟨lexed, read, passed.2.2, same 1164 (Nat.le_refl _), rfl⟩

end TurtlePlayback.Script.Indexed
