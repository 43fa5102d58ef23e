import Mathlib.Order.Bounds.Defs
import TurtlePlayback.Proofs.ExpressionHeights
import TurtlePlayback.Proofs.ParserSteps

/-!
A text whose expression is as high as the room allows. In the most room it is a call with as many
operators of each level behind it, the tightest first, as there is room; its argument is the same
with less room.
-/

namespace TurtlePlayback.Script

def Level.kind : Level → Kind
  | disjunction => .either
  | conjunction => .both
  | equality => .equal
  | comparison => .less
  | sum => .plus
  | product => .star

def operatorKinds (l : Level) : Nat → List Kind
  | 0 => []
  | n + 1 => l.kind :: .name "x" :: operatorKinds l n

def tailKinds (room : Nat) : List Level → List Kind
  | [] => []
  | l :: tighter => tailKinds room tighter ++ operatorKinds l room

def highKinds : (room : Nat) → List Kind
  | 0 => [.name "x"]
  | room + 1 =>
    .name "x" :: .openParen :: (highKinds room ++ .closeParen :: tailKinds (room + 1) Level.all)

def next (more : List Kind) : Kind :=
  more.headD .finish

theorem peek_eq_next (ts : List Token) : peek ts = next (ts.map Token.kind) := by
  cases ts <;> rfl

theorem advance_kinds {ts : List Token} {k : Kind} {more : List Kind}
    (kinds : ts.map Token.kind = k :: more) (goes_on : k ≠ .finish) :
    (advance ts).map Token.kind = more := by
  obtain ⟨t, rest, rfl, rfl, rfl⟩ := List.map_eq_cons_iff.mp kinds
  simp [advance, goes_on]

def Reads (p : Parser Expr) (ks : List Kind) (h : Nat) (more : List Kind) : Prop :=
  ∀ ts, ts.map Token.kind = ks ++ more →
    ∃ e rest, p ts = .ok (e, rest) ∧ rest.map Token.kind = more ∧ e.height = h

theorem stops_operators {l : Level} {tighter : List Level} (fresh : l ∉ tighter) {more : List Kind}
    (h : Stops (l :: tighter) (next more)) (n : Nat) :
    Stops tighter (next (operatorKinds l n ++ more)) := by
  cases n with
  | zero => exact h.tighter
  | succ n =>
    refine ⟨by cases l <;> simp [operatorKinds, next, Level.kind], ?_⟩
    intro t member
    have other : t ≠ l := fun same => fresh (same ▸ member)
    cases l <;> cases t <;> first | rfl | exact absurd rfl other

theorem name_reads (room : Nat) {more : List Kind} (follows : next more ≠ .openParen) :
    Reads (unaryAt room) [.name "x"] 0 more := by
  intro ts kinds
  have rest := advance_kinds kinds (by simp)
  have after : peek (advance ts) ≠ .openParen := by rwa [peek_eq_next, rest]
  have first : peek ts = .name "x" := by rw [peek_eq_next, kinds]; rfl
  refine ⟨.name "x" (here ts), advance ts, ?_, rest, rfl⟩
  rw [unaryAt.eq_def]
  simp [first, unaryOperator?, after]

theorem operand_reads (room : Nat) {levels : List Level} {more : List Kind}
    (stops : Stops levels (next more)) :
    Reads (operandOf (unaryAt room) (chainAt room) levels) [.name "x"] 0 more := by
  induction levels with
  | nil => exact name_reads room stops.name
  | cons l tighter ih =>
    intro ts kinds
    obtain ⟨e, rest, read, after, height⟩ := ih stops.tighter ts kinds
    refine ⟨e, rest, ?_, after, height⟩
    have stop : l.operator? (peek rest) = none := by
      rw [peek_eq_next, after]
      exact stops.operator l (List.mem_cons_self ..)
    simp only [operandOf, bind_ok, Prod.exists]
    exact ⟨e, rest, read, chainAt_stops stop⟩

theorem chainAt_reads {room n : Nat} (enough : n ≤ room) {l : Level} {tighter : List Level}
    (fresh : l ∉ tighter) {more : List Kind} (stops : Stops (l :: tighter) (next more))
    (left : Expr) :
    Reads (chainAt room l tighter left) (operatorKinds l n) (left.height + n) more := by
  induction n generalizing room left with
  | zero =>
    intro ts kinds
    have stop : l.operator? (peek ts) = none := by
      rw [peek_eq_next, kinds]
      exact stops.operator l (List.mem_cons_self ..)
    exact ⟨left, ts, chainAt_stops stop, kinds, rfl⟩
  | succ n ih =>
    intro ts kinds
    obtain ⟨smaller, rfl⟩ : ∃ r, room = r + 1 := ⟨room - 1, by omega⟩
    have first : peek ts = l.kind := by rw [peek_eq_next, kinds]; rfl
    obtain ⟨op, known⟩ : ∃ op, l.operator? l.kind = some op := by cases l <;> exact ⟨_, rfl⟩
    have operand : (advance ts).map Token.kind = [.name "x"] ++ (operatorKinds l n ++ more) :=
      advance_kinds kinds (by cases l <;> simp [Level.kind])
    obtain ⟨right, ts', read, after, low⟩ :=
      operand_reads smaller (stops_operators fresh stops n) (advance ts) operand
    have fits : n ≤ smaller := by omega
    obtain ⟨e, rest, chain, behind, height⟩ := ih fits (.binary op left right) ts' after
    refine ⟨e, rest, ?_, behind, ?_⟩
    · rw [chainAt.eq_def]
      simp only [first, known, bind_ok, Prod.exists]
      exact ⟨right, ts', read, chain⟩
    · rw [height, Expr.height, low]
      omega

theorem operandOf_reads {room h : Nat} {core : List Kind}
    (primary : ∀ more, Reads (unaryAt room) core h more) {levels : List Level}
    (distinct : levels.Nodup) {more : List Kind} (stops : Stops levels (next more)) :
    Reads (operandOf (unaryAt room) (chainAt room) levels) (core ++ tailKinds room levels)
      (h + levels.length * room) more := by
  induction levels generalizing more with
  | nil => simpa [operandOf, tailKinds] using primary more
  | cons l tighter ih =>
    intro ts kinds
    rw [List.nodup_cons] at distinct
    have split : ts.map Token.kind =
        (core ++ tailKinds room tighter) ++ (operatorKinds l room ++ more) := by
      rw [kinds, tailKinds, List.append_assoc, List.append_assoc, List.append_assoc]
    obtain ⟨e, ts', read, after, height⟩ :=
      ih distinct.2 (stops_operators distinct.1 stops room) ts split
    obtain ⟨e', rest, chain, behind, height'⟩ :=
      chainAt_reads (Nat.le_refl room) distinct.1 stops e ts' after
    refine ⟨e', rest, ?_, behind, ?_⟩
    · simp only [operandOf, bind_ok, Prod.exists]
      exact ⟨e, ts', read, chain⟩
    · rw [height', height, List.length_cons, Nat.succ_mul, Nat.add_assoc]

theorem arguments_reads {expr : Parser Expr} {inner : List Kind} {h : Nat} {more : List Kind}
    (argument : Reads expr (.name "x" :: inner) h (.closeParen :: more)) {ts : List Token}
    (kinds : ts.map Token.kind = .name "x" :: inner ++ .closeParen :: more) :
    ∃ e rest, arguments expr ts = .ok ([e], rest) ∧ rest.map Token.kind = more ∧ e.height = h := by
  obtain ⟨e, ts', read, after, height⟩ := argument ts kinds
  have some_argument : peek ts ≠ .closeParen := by
    rw [peek_eq_next, kinds]
    simp [next]
  have close : peek ts' = .closeParen := by rw [peek_eq_next, after]; rfl
  obtain ⟨t, more_tokens, rfl, -⟩ := List.map_eq_cons_iff.mp kinds
  refine ⟨e, advance ts', ?_, advance_kinds after (by simp), height⟩
  rw [arguments, if_neg some_argument, argumentsUpTo]
  simp only [bind_ok, Prod.exists]
  have closed : expect .closeParen ts' = .ok (advance ts') := by simp only [expect, close, if_true]
  have last : peek ts' ≠ .comma := by simp [close]
  refine ⟨e, ts', read, ?_⟩
  rw [if_neg last, closed]
  rfl

theorem call_reads {room h : Nat} {inner : List Kind}
    (argument : ∀ more, Reads (operandOf (unaryAt room) (chainAt room) Level.all)
      (.name "x" :: inner) h (.closeParen :: more)) (more : List Kind) :
    Reads (unaryAt (room + 1)) (.name "x" :: .openParen :: .name "x" :: inner ++ [.closeParen])
      (h + 1) more := by
  intro ts kinds
  have first : peek ts = .name "x" := by rw [peek_eq_next, kinds]; rfl
  have behind := advance_kinds kinds (by simp)
  have paren : peek (advance ts) = .openParen := by rw [peek_eq_next, behind]; rfl
  have args : (advance (advance ts)).map Token.kind =
      .name "x" :: inner ++ .closeParen :: more := by
    rw [advance_kinds behind (by simp)]
    simp
  obtain ⟨e, rest, read, after, height⟩ := arguments_reads (argument more) args
  refine ⟨.call "x" [e] (here ts), rest, ?_, after, ?_⟩
  · rw [unaryAt.eq_def]
    simp only [first, unaryOperator?, paren, if_true, bind_ok, Prod.exists]
    exact ⟨[e], rest, read, rfl⟩
  · simp [Expr.height, Expr.heights, height]

theorem highKinds_cons (room : Nat) : ∃ inner, highKinds room = .name "x" :: inner := by
  cases room <;> exact ⟨_, rfl⟩

theorem highKinds_reads (room : Nat) {more : List Kind} (stops : Stops Level.all (next more)) :
    Reads (operandOf (unaryAt room) (chainAt room) Level.all) (highKinds room)
      (chainHeight room 6) more := by
  induction room generalizing more with
  | zero => exact operand_reads 0 stops
  | succ room ih =>
    obtain ⟨inner, head⟩ := highKinds_cons room
    have argument (more : List Kind) : Reads (operandOf (unaryAt room) (chainAt room) Level.all)
        (.name "x" :: inner) (chainHeight room 6) (.closeParen :: more) := by
      rw [← head]
      exact ih stops_closeParen
    have raised := operandOf_reads (call_reads argument) (by decide) stops
    have kinds : highKinds (room + 1) = .name "x" :: .openParen :: .name "x" :: inner ++
        [.closeParen] ++ tailKinds (room + 1) Level.all := by
      simp [highKinds, head]
    rw [kinds]
    exact raised

def Lexes (cs : List Char) (ks : List Kind) : Prop :=
  ∀ offset depth read, ∃ ts, tokensFrom offset depth read cs = .ok (read.toList ++ ts) ∧
    ts.map Token.kind = ks

def Breaks (cs : List Char) : Prop :=
  ∀ c ∈ cs.head?, Lexeme.inName c = false

theorem lexes_nil : Lexes [] [.finish] := by
  intro offset depth read
  rw [tokensFrom]
  exact ⟨[⟨.finish, offset, offset⟩], by simp⟩

theorem lexes_token {c : Char} {cs rest : List Char} {k : Kind} {n : Nat} {ks : List Kind}
    (read : Lexeme.read c cs = .ok (.token k, n)) (behind : cs.drop n = rest)
    (h : Lexes rest ks) : Lexes (c :: cs) (k :: ks) := by
  intro offset depth tokens
  rw [tokensFrom, read]
  simp only [behind]
  generalize offset + byteLength (c :: cs.take n) = stop
  obtain ⟨ts, done, kinds⟩ := h stop (k.nesting depth) (tokens.push ⟨k, offset, stop⟩)
  refine ⟨⟨k, offset, stop⟩ :: ts, ?_, by simp [kinds]⟩
  rw [done]
  simp

theorem lexes_name {cs : List Char} {ks : List Kind} (breaks : Breaks cs) (h : Lexes cs ks) :
    Lexes ('x' :: cs) (.name "x" :: ks) := by
  have alone : cs.takeWhile Lexeme.inName = [] := by
    cases cs with
    | nil => rfl
    | cons c cs => simp [breaks c rfl]
  have read : Lexeme.read 'x' cs = .ok (.token (.name "x"), 0) := by
    have word : Lexeme.word (.ofList ['x']) = .name "x" := by rfl
    change Except.ok (Lexeme.token (Lexeme.word (.ofList ('x' :: cs.takeWhile Lexeme.inName))),
      (cs.takeWhile Lexeme.inName).length) = _
    rw [alone, word]
    rfl
  exact lexes_token read List.drop_zero h

def Level.symbol : Level → List Char
  | disjunction => ['|', '|']
  | conjunction => ['&', '&']
  | equality => ['=', '=']
  | comparison => ['<']
  | sum => ['+']
  | product => ['*']

theorem lexes_symbol (l : Level) {cs : List Char} {ks : List Kind} (h : Lexes ('x' :: cs) ks) :
    Lexes (l.symbol ++ 'x' :: cs) (l.kind :: ks) := by
  cases l with
  | disjunction => exact lexes_token (n := 1) rfl rfl h
  | conjunction => exact lexes_token (n := 1) rfl rfl h
  | equality => exact lexes_token (n := 1) rfl rfl h
  | comparison => exact lexes_token (n := 0) rfl rfl h
  | sum => exact lexes_token (n := 0) rfl rfl h
  | product => exact lexes_token (n := 0) rfl rfl h

theorem lexes_openParen {cs : List Char} {ks : List Kind} (h : Lexes cs ks) :
    Lexes ('(' :: cs) (.openParen :: ks) := by
  have read : Lexeme.read '(' cs = .ok (.token .openParen, 0) := by cases cs <;> rfl
  exact lexes_token read List.drop_zero h

theorem lexes_closeParen {cs : List Char} {ks : List Kind} (h : Lexes cs ks) :
    Lexes (')' :: cs) (.closeParen :: ks) := by
  have read : Lexeme.read ')' cs = .ok (.token .closeParen, 0) := by cases cs <;> rfl
  exact lexes_token read List.drop_zero h

def operatorText (l : Level) : Nat → List Char
  | 0 => []
  | n + 1 => l.symbol ++ 'x' :: operatorText l n

def tailText (room : Nat) : List Level → List Char
  | [] => []
  | l :: tighter => tailText room tighter ++ operatorText l room

def highText : (room : Nat) → List Char
  | 0 => ['x']
  | room + 1 => 'x' :: '(' :: (highText room ++ ')' :: tailText (room + 1) Level.all)

theorem operatorText_breaks (l : Level) (n : Nat) {cs : List Char} (breaks : Breaks cs) :
    Breaks (operatorText l n ++ cs) := by
  cases n with
  | zero => exact breaks
  | succ n =>
    intro c first
    cases l <;> cases first <;> rfl

theorem operatorText_lexes (l : Level) (n : Nat) {cs : List Char} {ks : List Kind}
    (breaks : Breaks cs) (h : Lexes cs ks) :
    Lexes (operatorText l n ++ cs) (operatorKinds l n ++ ks) := by
  induction n with
  | zero => exact h
  | succ n ih =>
    rw [operatorText, List.append_assoc]
    exact lexes_symbol l (lexes_name (operatorText_breaks l n breaks) ih)

theorem tailText_lexes (room : Nat) (levels : List Level) {cs : List Char} {ks : List Kind}
    (breaks : Breaks cs) (h : Lexes cs ks) :
    Breaks (tailText room levels ++ cs) ∧
      Lexes (tailText room levels ++ cs) (tailKinds room levels ++ ks) := by
  induction levels generalizing cs ks with
  | nil => exact ⟨breaks, h⟩
  | cons l tighter ih =>
    rw [tailText, tailKinds, List.append_assoc, List.append_assoc]
    exact ih (operatorText_breaks l room breaks) (operatorText_lexes l room breaks h)

theorem breaks_closeParen (cs : List Char) : Breaks (')' :: cs) := by
  intro c first
  cases first
  rfl

theorem highText_lexes (room : Nat) {cs : List Char} {ks : List Kind} (breaks : Breaks cs)
    (h : Lexes cs ks) : Lexes (highText room ++ cs) (highKinds room ++ ks) := by
  induction room generalizing cs ks with
  | zero => exact lexes_name breaks h
  | succ room ih =>
    obtain ⟨-, behind⟩ := tailText_lexes (room + 1) Level.all breaks h
    have inner := ih (breaks_closeParen _) (lexes_closeParen behind)
    have call := lexes_name (by intro c first; cases first; rfl) (lexes_openParen inner)
    simpa [highText, highKinds] using call

theorem statement_reads {inner : List Kind} {h : Nat} {more : List Kind}
    (argument : Reads expression (.name "x" :: inner) h (.closeParen :: more)) {ts : List Token}
    (kinds : ts.map Token.kind =
      .name "x" :: .openParen :: (.name "x" :: inner ++ .closeParen :: more)) :
    ∃ e rest, statement ts = .ok (⟨.command "x" [e], here ts⟩, rest) ∧
      rest.map Token.kind = more ∧ e.height = h := by
  have first : peek ts = .name "x" := by rw [peek_eq_next, kinds]; rfl
  have behind := advance_kinds kinds (by simp)
  have paren : peek (advance ts) = .openParen := by rw [peek_eq_next, behind]; rfl
  have args := advance_kinds behind (by simp)
  obtain ⟨e, rest, read, after, height⟩ := arguments_reads argument args
  refine ⟨e, rest, ?_, after, height⟩
  simp only [statement, first, paren, bind_ok, Prod.exists]
  exact ⟨[e], rest, read, rfl⟩

theorem ofTokens_command {inner : List Kind} {h : Nat}
    (argument : Reads expression (.name "x" :: inner) h [.closeParen, .finish]) {ts : List Token}
    (kinds : ts.map Token.kind =
      .name "x" :: .openParen :: (.name "x" :: inner ++ [.closeParen, .finish])) :
    ∃ e, Tree.ofTokens ts = .ok ⟨[], [⟨.command "x" [e], here ts⟩]⟩ ∧ e.height = h := by
  obtain ⟨e, rest, read, after, height⟩ := statement_reads argument kinds
  have first : peek ts = .name "x" := by rw [peek_eq_next, kinds]; rfl
  have behind := advance_kinds kinds (by simp)
  have paren : peek (advance ts) = .openParen := by rw [peek_eq_next, behind]; rfl
  have last : peek rest = .finish := by rw [peek_eq_next, after]; rfl
  have start : skipSeparators ts = ts := skipSeparators_of_peek (by simp [first])
  have stop : skipSeparators rest = rest := skipSeparators_of_peek (by simp [last])
  obtain ⟨t, us, same, -, kinds'⟩ := List.map_eq_cons_iff.mp kinds
  obtain ⟨u, vs, same', -, -⟩ := List.map_eq_cons_iff.mp kinds'
  refine ⟨e, ?_, height⟩
  have bound : ts = t :: u :: vs := by rw [same, same']
  have body : treeUpTo none #[] (t :: u :: vs) ts =
      .ok ⟨[], [⟨.command "x" [e], here ts⟩]⟩ := by
    have loose : blockHeader? ts = none := by simp [blockHeader?, first, paren]
    have ended : statementEnd rest = .ok rest := by simp only [statementEnd, last]
    have goes_on : peek ts ≠ .finish := by simp [first]
    rw [treeUpTo]
    simp only [start, if_neg goes_on, loose, read]
    change (statementEnd rest >>= fun r => treeUpTo none _ (u :: vs) r) = _
    rw [ended]
    change treeUpTo none _ (u :: vs) rest = _
    simp only [treeUpTo, stop, last, if_true]
    rfl
  rw [Tree.ofTokens]
  rw [← bound] at body
  exact body

def highest : String :=
  .ofList ('x' :: '(' :: (highText maxNesting ++ [')']))

theorem parse_highest : ∃ t, Tree.parse highest = .ok t ∧
    ∃ e ∈ t.expressions, e.height = chainHeight maxNesting 6 := by
  obtain ⟨inner, head⟩ := highKinds_cons maxNesting
  have text : Lexes (highText maxNesting ++ [')']) (highKinds maxNesting ++ [.closeParen, .finish]) :=
    highText_lexes maxNesting (breaks_closeParen []) (lexes_closeParen lexes_nil)
  have command := lexes_name (by intro c first; cases first; rfl) (lexes_openParen text)
  obtain ⟨ts, lexed, kinds⟩ := command 0 0 #[]
  have argument : Reads expression (.name "x" :: inner) (chainHeight maxNesting 6)
      [.closeParen, .finish] := by
    rw [← head]
    exact highKinds_reads maxNesting stops_closeParen
  obtain ⟨e, parsed, height⟩ := ofTokens_command argument (head ▸ kinds)
  refine ⟨⟨[], [⟨.command "x" [e], here ts⟩]⟩, ?_, e, ?_, height⟩
  · rw [Tree.parse, tokens, highest, String.toList_ofList, lexed]
    exact parsed
  · simp [Tree.expressions, Stmt.expressions]

/-- The greatest height of an expression in a text that is accepted, far beyond the nesting allowed:
every operator of a chain raises what stands before it, and the depth of that is forgotten. -/
theorem parse_greatest_height :
    IsGreatest {h | ∃ source t, Tree.parse source = .ok t ∧ ∃ e ∈ t.expressions, e.height = h}
      (3 * maxNesting ^ 2 + 4 * maxNesting) := by
  rw [← chainHeight_all]
  refine ⟨⟨highest, parse_highest⟩, ?_⟩
  rintro h ⟨source, t, parsed, e, member, rfl⟩
  exact parse_height_le parsed e member

end TurtlePlayback.Script
