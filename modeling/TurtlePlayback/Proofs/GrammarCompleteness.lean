import TurtlePlayback.Proofs.GrammarSoundness

/-!
The parsers return what their tokens derive, unless it is nested too deeply for them. Behind an
operand the tokens that follow decide which parser goes on, so what is read is known up to the
operators of the loosest level.
-/

namespace TurtlePlayback.Script

variable {α β : Type}

/-- The results are the same, unless the first is that something is nested too deeply. -/
def UpTo (x y : Except Error α) : Prop :=
  x = y ∨ ∃ offset, x = .error ⟨offset, .nestedTooDeeply⟩

theorem UpTo.refl (x : Except Error α) : UpTo x x :=
  .inl rfl

theorem UpTo.trans {x y z : Except Error α} (h : UpTo x y) (k : UpTo y z) : UpTo x z := by
  rcases h with rfl | deep
  · exact k
  · exact .inr deep

theorem UpTo.bind {x : Except Error α} {a : α} {k : α → Except Error β} {y : Except Error β}
    (first : UpTo x (.ok a)) (next : UpTo (k a) y) : UpTo (x >>= k) y := by
  rcases first with rfl | ⟨offset, rfl⟩
  · exact next
  · exact .inr ⟨offset, rfl⟩

theorem complain_upTo (ts : List Token) (y : Except Error α) :
    UpTo (complain ts .nestedTooDeeply) y :=
  .inr ⟨here ts, rfl⟩

theorem Level.operator?_symbol_of_ne {l other : Level} {op : BinaryOp} (member : op ∈ l.operators)
    (differs : other ≠ l) : other.operator? op.symbol = none := by
  cases l <;> cases other <;> first
    | exact absurd rfl differs
    | (simp only [operators, List.mem_cons, List.not_mem_nil, or_false] at member
       rcases member with rfl | rfl | rfl | rfl <;> rfl)

theorem stops_symbol {l : Level} {tighter : List Level} {op : BinaryOp} (member : op ∈ l.operators)
    (apart : l ∉ tighter) : Stops tighter op.symbol :=
  ⟨by cases op <;> simp [BinaryOp.symbol], fun _ there =>
    Level.operator?_symbol_of_ne member (ne_of_mem_of_not_mem there apart)⟩

def Reader (expr : Parser Expr) (used : List Token) (e : Expr) : Prop :=
  ∀ rest, Stops Level.all (peek rest) → UpTo (expr (used ++ rest)) (.ok (e, rest))

theorem exists_bound {ts us bound : List Token} {t : Token}
    (enough : (ts ++ t :: us).length ≤ bound.length) :
    ∃ b behind, bound = b :: behind ∧ ts.length + us.length ≤ behind.length := by
  rw [List.length_append, List.length_cons] at enough
  obtain ⟨b, behind, rfl⟩ := List.exists_cons_of_length_pos (show 0 < bound.length by omega)
  rw [List.length_cons] at enough
  exact ⟨b, behind, rfl, by omega⟩

theorem argumentsUpTo_reads {expr : Parser Expr} {part : List Token × Expr}
    {parts : List (List Token × Expr)} {ts : List Token}
    (commas : Commas ((part :: parts).map Prod.fst) ts)
    (each : ∀ p ∈ part :: parts, Reader expr p.1 p.2) {c : Token} (closes : c.kind = .closeParen)
    {rest : List Token} {bound : List Token} (enough : (ts ++ c :: rest).length ≤ bound.length) :
    UpTo (argumentsUpTo expr bound (ts ++ c :: rest)) (.ok ((part :: parts).map Prod.snd, rest)) := by
  induction parts generalizing part ts bound with
  | nil =>
    obtain ⟨b, bound, rfl, -⟩ := exists_bound enough
    cases commas with
    | one =>
      have first : peek (c :: rest) = .closeParen := closes
      rw [argumentsUpTo]
      refine (each part (List.mem_singleton_self _) (c :: rest) (first ▸ stops_closeParen)).bind ?_
      simp only [first, reduceCtorEq, ↓reduceIte, expect_cons closes (by simp)]
      exact .refl _
  | cons next parts ih =>
    cases commas with
    | @more _ t _ _ us comma commas =>
      rw [List.forall_mem_cons] at each
      rw [List.append_assoc, List.cons_append] at enough ⊢
      obtain ⟨b, bound, rfl, shorter⟩ := exists_bound enough
      have first : peek (t :: (us ++ c :: rest)) = .comma := comma
      rw [argumentsUpTo]
      refine (each.1 (t :: (us ++ c :: rest)) (first ▸ stops_comma)).bind ?_
      simp only [first, ↓reduceIte, advance_cons comma (by simp)]
      exact (ih commas each.2 (Nat.le_of_add_left_le shorter)).bind (.refl _)

theorem Expr.Derives.opens {ops : List (List BinaryOp)} {ts : List Token} {e : Expr}
    (derives : Expr.Derives ops ts e) : ∃ t us, ts = t :: us ∧ t.kind ≠ .closeParen := by
  induction derives with
  | number kind => exact ⟨_, _, rfl, by simp [kind]⟩
  | truth kind => exact ⟨_, _, rfl, by simp [kind]⟩
  | name kind => exact ⟨_, _, rfl, by simp [kind]⟩
  | call kind => exact ⟨_, _, rfl, by simp [kind]⟩
  | parens opens => exact ⟨_, _, rfl, by simp [opens]⟩
  | unary op kind => exact ⟨_, _, rfl, by cases op <;> simp [kind, UnaryOp.symbol]⟩
  | operand _ ih => exact ih
  | binary op _ _ _ _ ih _ =>
    obtain ⟨t, us, rfl, other⟩ := ih
    exact ⟨t, _, rfl, other⟩

theorem Commas.starts {ts us : List Token} {parts : List (List Token)}
    (commas : Commas (ts :: parts) us) : ∃ behind, us = ts ++ behind := by
  cases commas with
  | one => exact ⟨[], (List.append_nil _).symm⟩
  | more _ _ _ => exact ⟨_, rfl⟩

theorem Commas.reads {expr : Parser Expr} {parts : List (List Token × Expr)} {ts : List Token}
    (commas : Commas (parts.map Prod.fst) ts)
    (each : ∀ p ∈ parts, Expr.Derives operators p.1 p.2 ∧ Reader expr p.1 p.2) {c : Token}
    (closes : c.kind = .closeParen) (rest : List Token) :
    UpTo (arguments expr (ts ++ c :: rest)) (.ok (parts.map Prod.snd, rest)) := by
  cases parts with
  | nil =>
    cases commas
    have first : peek (c :: rest) = .closeParen := closes
    rw [List.nil_append, arguments, if_pos first, advance_cons closes (by simp)]
    exact .refl _
  | cons part parts =>
    obtain ⟨us, whole⟩ := commas.starts
    obtain ⟨t, vs, head, other⟩ := (each part List.mem_cons_self).1.opens
    have first : peek (ts ++ c :: rest) ≠ .closeParen := by
      rw [whole, head]
      exact other
    rw [arguments, if_neg first]
    exact argumentsUpTo_reads commas (fun p there => (each p there).2) closes (Nat.le_refl _)

/-- The tokens are read as the expression by the parsers for expressions of the given levels. Where
there are operators, what has been read is the left operand of a chain that may go on. -/
def Read (used : List Token) (e : Expr) : List Level → Prop
  | [] => ∀ room rest, peek rest ≠ .openParen → UpTo (unaryAt room (used ++ rest)) (.ok (e, rest))
  | l :: tighter => ∀ room rest, Stops tighter (peek rest) →
      ∃ left, UpTo (operandOf (unaryAt room) (chainAt room) (l :: tighter) (used ++ rest))
        (chainAt left l tighter e rest)

theorem Read.whole {used : List Token} {e : Expr} {levels : List Level} (h : Read used e levels)
    (room : Nat) {rest : List Token} (stops : Stops levels (peek rest)) :
    UpTo (operandOf (unaryAt room) (chainAt room) levels (used ++ rest)) (.ok (e, rest)) := by
  cases levels with
  | nil => exact h room rest stops.name
  | cons l tighter =>
    obtain ⟨left, read⟩ := h room rest stops.tighter
    rwa [chainAt_stops (stops.operator l List.mem_cons_self)] at read

theorem Read.reader {used : List Token} {e : Expr} (h : Read used e Level.all) (room : Nat) :
    Reader (operandOf (unaryAt room) (chainAt room) Level.all) used e :=
  fun _ stops => h.whole room stops

theorem Read.operand {used : List Token} {e : Expr} {tighter : List Level} (h : Read used e tighter)
    (l : Level) : Read used e (l :: tighter) :=
  fun room _ stops => ⟨room, (h.whole room stops).bind (.refl _)⟩

theorem Read.binary {left right : List Token} {t : Token} {a b : Expr} {l : Level}
    {tighter : List Level} {op : BinaryOp} (member : op ∈ l.operators) (apart : l ∉ tighter)
    (kind : t.kind = op.symbol) (before : Read left a (l :: tighter)) (behind : Read right b tighter) :
    Read (left ++ t :: right) (.binary op a b) (l :: tighter) := by
  intro room rest stops
  -- The left operand was read up to this operator, with the room that its chain has left.
  have first : peek (t :: right ++ rest) = op.symbol := kind
  obtain ⟨room, read⟩ := before room (t :: right ++ rest) (first ▸ stops_symbol member apart)
  rw [List.append_assoc]
  rw [chainAt.eq_def] at read
  simp only [first, Level.operator?_iff.mpr ⟨member, rfl⟩] at read
  cases room with
  | zero => exact ⟨0, read.trans (complain_upTo _ _)⟩
  | succ room =>
    refine ⟨room, read.trans ?_⟩
    rw [List.cons_append, advance_cons kind op.symbol_ne_finish]
    exact (behind.whole room stops).bind (.refl _)

theorem Read.unary {t : Token} {ts : List Token} {e : Expr} {op : UnaryOp} (kind : t.kind = op.symbol)
    (h : Read ts e []) : Read (t :: ts) (.unary op e) [] := by
  intro room rest stops
  rw [unaryAt.eq_def]
  simp only [List.cons_append, peek_cons, kind, unaryOperator?_iff.mpr rfl]
  cases room with
  | zero => exact complain_upTo _ _
  | succ room =>
    rw [advance_cons kind op.symbol_ne_finish]
    exact (h room rest stops).bind (.refl _)

theorem Read.call {t o c : Token} {n : String} {parts : List (List Token × Expr)} {ts : List Token}
    (kind : t.kind = .name n) (opens : o.kind = .openParen) (commas : Commas (parts.map Prod.fst) ts)
    (each : ∀ p ∈ parts, Expr.Derives operators p.1 p.2 ∧ Read p.1 p.2 Level.all)
    (closes : c.kind = .closeParen) :
    Read (t :: o :: ts ++ [c]) (.call n (parts.map Prod.snd) t.start) [] := by
  intro room rest _
  rw [unaryAt.eq_def]
  simp only [List.cons_append, List.append_assoc, peek_cons, kind, opens, unaryOperator?, ↓reduceIte,
    advance_cons kind (by simp), advance_cons opens (by simp)]
  cases room with
  | zero => exact complain_upTo _ _
  | succ room =>
    have readers : ∀ p ∈ parts, Expr.Derives operators p.1 p.2 ∧
        Reader (operandOf (unaryAt room) (chainAt room) Level.all) p.1 p.2 :=
      fun p there => ⟨(each p there).1, (each p there).2.reader room⟩
    exact (commas.reads readers closes rest).bind (.refl _)

theorem Read.parens {o c : Token} {ts : List Token} {e : Expr} (opens : o.kind = .openParen)
    (h : Read ts e Level.all) (closes : c.kind = .closeParen) : Read (o :: ts ++ [c]) e [] := by
  intro room rest _
  rw [unaryAt.eq_def]
  simp only [List.cons_append, List.append_assoc, peek_cons, opens, unaryOperator?,
    advance_cons opens (by simp)]
  cases room with
  | zero => exact complain_upTo _ _
  | succ room =>
    have next : peek ([c] ++ rest) = .closeParen := closes
    refine (h.whole room (next ▸ stops_closeParen)).bind ?_
    simp only [expect_cons closes (by simp)]
    exact .refl _

theorem Expr.Derives.read {ops : List (List BinaryOp)} {ts : List Token} {e : Expr}
    (derives : Expr.Derives ops ts e) {levels : List Level} (apart : levels.Nodup)
    (same : levels.map Level.operators = ops) : Read ts e levels := by
  induction derives generalizing levels with
  | number kind =>
    obtain rfl := List.map_eq_nil_iff.mp same
    intro room rest _
    rw [unaryAt.eq_def, List.singleton_append]
    simp only [peek_cons, kind, unaryOperator?, advance_cons kind (by simp)]
    exact .refl _
  | truth kind =>
    obtain rfl := List.map_eq_nil_iff.mp same
    intro room rest _
    rw [unaryAt.eq_def, List.singleton_append]
    simp only [peek_cons, kind, unaryOperator?, advance_cons kind (by simp)]
    exact .refl _
  | name kind =>
    obtain rfl := List.map_eq_nil_iff.mp same
    intro room rest other
    rw [unaryAt.eq_def, List.singleton_append]
    simp only [peek_cons, kind, unaryOperator?, advance_cons kind (by simp), if_neg other]
    exact .refl _
  | call kind opens commas each closes ih =>
    obtain rfl := List.map_eq_nil_iff.mp same
    exact .call kind opens commas (fun p there => ⟨each p there, ih p there (by decide) rfl⟩) closes
  | parens opens _ closes ih =>
    obtain rfl := List.map_eq_nil_iff.mp same
    exact .parens opens (ih (by decide) rfl) closes
  | unary op kind _ ih =>
    obtain rfl := List.map_eq_nil_iff.mp same
    exact .unary kind (ih .nil rfl)
  | operand _ ih =>
    obtain ⟨l, tighter, rfl, rfl, rfl⟩ := List.map_eq_cons_iff.mp same
    exact (ih (List.nodup_cons.mp apart).2 rfl).operand l
  | binary op member kind _ _ before behind =>
    obtain ⟨l, tighter, rfl, rfl, rfl⟩ := List.map_eq_cons_iff.mp same
    obtain ⟨outside, inside⟩ := List.nodup_cons.mp apart
    exact .binary member outside kind (before apart rfl) (behind inside rfl)

theorem Expr.Derives.reads {ts : List Token} {e : Expr} (derives : Expr.Derives operators ts e) :
    Reader expression ts e := by
  have read : Read ts e Level.all := derives.read (by decide) rfl
  exact read.reader maxNesting

theorem Stmt.Derives.reads {ts rest : List Token} {s : Stmt} (derives : s.Derives ts)
    (stops : Stops Level.all (peek rest)) : UpTo (statement (ts ++ rest)) (.ok (s, rest)) := by
  cases derives with
  | declare word kind assign value =>
    rw [statement]
    simp only [List.cons_append, peek_cons, word, kind, advance_cons word (by simp),
      advance_cons kind (by simp), expect_cons assign (by simp)]
    exact (value.reads rest stops).bind (.refl _)
  | assign kind assign value =>
    rw [statement]
    simp only [List.cons_append, peek_cons, kind, assign, advance_cons kind (by simp),
      advance_cons assign (by simp)]
    exact (value.reads rest stops).bind (.refl _)
  | command kind opens arguments closes =>
    obtain ⟨parts, commas, rfl, each⟩ := arguments
    rw [statement]
    simp only [List.cons_append, List.append_assoc, peek_cons, kind, opens,
      advance_cons kind (by simp), advance_cons opens (by simp)]
    have readers (p : List Token × Expr) (there : p ∈ parts) :=
      And.intro (each p there) (each p there).reads
    exact (commas.reads readers closes rest).bind (.refl _)

structure Loose (ts : List Token) : Prop where
  separator : peek ts ≠ .separator
  closeBrace : peek ts ≠ .closeBrace
  finish : peek ts ≠ .finish
  header : blockHeader? ts = none

theorem loose_of_name {ts : List Token} {n : String} (first : peek ts = .name n)
    (second : peek (advance ts) ≠ .openBrace) : Loose ts := by
  have header : blockHeader? ts = none := by
    rw [blockHeader?]
    split
    · exact absurd ‹_› second
    · exact absurd ‹_› second
    · rfl
  constructor <;> simp [first, header]

theorem Stmt.Derives.loose {ts : List Token} {s : Stmt} (derives : s.Derives ts) (rest : List Token) :
    Loose (ts ++ rest) := by
  cases derives with
  | declare word =>
    constructor <;> simp [peek_cons, word, blockHeader?]
  | assign kind assign =>
    exact loose_of_name kind (by simp [advance_cons kind, peek_cons, assign])
  | command kind opens =>
    exact loose_of_name kind (by simp [advance_cons kind, peek_cons, opens])

theorem statementEnd_stops {ts us : List Token} (ended : statementEnd ts = .ok us) :
    Stops Level.all (peek ts) := by
  have other (k : Kind) (known : k = .separator ∨ k = .finish ∨ k = .closeBrace) :
      Stops Level.all k := by
    rcases known with rfl | rfl | rfl <;> exact ⟨by simp, fun l _ => by cases l <;> rfl⟩
  rcases statementEnd_ok ended with ⟨t, rfl, kind⟩ | ⟨-, last⟩
  · exact other _ (.inl kind)
  · exact other _ (.inr last)

theorem blockBodyUpTo_statement {ts rest behind : List Token} {s : Stmt} (derives : s.Derives ts)
    (ended : statementEnd rest = .ok behind) (read : Array Stmt) (b : Token) (bound : List Token) :
    UpTo (blockBodyUpTo read (b :: bound) (ts ++ rest))
      (blockBodyUpTo (read.push s) bound behind) := by
  have loose := derives.loose rest
  rw [blockBodyUpTo]
  simp only [skipSeparators_of_peek loose.separator, loose.closeBrace, loose.finish, loose.header,
    ↓reduceIte, Option.isSome_none, Bool.false_eq_true]
  refine (derives.reads (statementEnd_stops ended)).bind ?_
  simp only [ended]
  exact .refl _

theorem treeUpTo_statement {ts rest behind : List Token} {s : Stmt} (derives : s.Derives ts)
    (ended : statementEnd rest = .ok behind) (setup : Option (List Stmt)) (step : Array Stmt)
    (b : Token) (bound : List Token) :
    UpTo (treeUpTo setup step (b :: bound) (ts ++ rest))
      (treeUpTo setup (step.push s) bound behind) := by
  have loose := derives.loose rest
  rw [treeUpTo]
  simp only [skipSeparators_of_peek loose.separator, loose.finish, loose.header, ↓reduceIte]
  refine (derives.reads (statementEnd_stops ended)).bind ?_
  simp only [ended]
  exact .refl _

theorem statementEnd_separator {t : Token} (kind : t.kind = .separator) (us : List Token) :
    statementEnd (t :: us) = .ok us := by
  simp only [statementEnd, peek_cons, kind, advance_cons kind (by simp)]

theorem statementEnd_closeBrace {ts : List Token} (closes : peek ts = .closeBrace) :
    statementEnd ts = .ok ts := by
  simp only [statementEnd, closes]

theorem statementEnd_finish {ts : List Token} (finish : peek ts = .finish) :
    statementEnd ts = .ok ts := by
  simp only [statementEnd, finish]

theorem Body.reads {ts : List Token} {body : List Stmt} (derives : Body ts body) {c : Token}
    (closes : c.kind = .closeBrace) {rest bound : List Token} (read : Array Stmt)
    (enough : (ts ++ c :: rest).length ≤ bound.length) :
    UpTo (blockBodyUpTo read bound (ts ++ c :: rest)) (.ok (read.toList ++ body, rest)) := by
  have last : peek (c :: rest) = .closeBrace := closes
  induction derives generalizing read bound with
  | empty =>
    obtain ⟨b, bound, rfl, -⟩ := exists_bound enough
    rw [List.nil_append, blockBodyUpTo_closes last, advance_cons closes (by simp), List.append_nil]
    exact .refl _
  | separator kind _ ih =>
    obtain ⟨b, bound, rfl, -⟩ := exists_bound enough
    have behind := ih read (Nat.le_of_succ_le enough)
    rw [blockBodyUpTo] at behind ⊢
    rwa [List.cons_append, skipSeparators_cons kind]
  | last derives =>
    have nonempty := derives.length_pos
    obtain ⟨b, bound, rfl, shorter⟩ := exists_bound enough
    -- The statement had a token at least, so the bound does not end before the brace.
    obtain ⟨b', bound, rfl⟩ := List.exists_cons_of_length_pos (show 0 < bound.length by omega)
    refine (blockBodyUpTo_statement derives (statementEnd_closeBrace last) read b _).trans ?_
    rw [blockBodyUpTo_closes last, advance_cons closes (by simp), Array.toList_push]
    exact .refl _
  | statement derives ends _ ih =>
    rw [List.append_assoc, List.cons_append] at enough ⊢
    obtain ⟨b, bound, rfl, shorter⟩ := exists_bound enough
    refine (blockBodyUpTo_statement derives (statementEnd_separator ends _) read b bound).trans ?_
    simpa using ih (read.push _) (Nat.le_of_add_left_le shorter)

theorem treeUpTo_block (block : Block) {t o c : Token} {ts us : List Token} {body : List Stmt}
    (kind : t.kind = .name block.word) (opens : o.kind = .openBrace) (inner : Body ts body)
    (closes : c.kind = .closeBrace) {setup : Option (List Stmt)}
    (once : block = .setup → setup = none) (step : Array Stmt) (b : Token) (bound : List Token) :
    UpTo (treeUpTo setup step (b :: bound) (t :: o :: (ts ++ c :: us)))
      (match block with
        | .setup => treeUpTo (some body) step bound us
        | .step => treeUpTo setup (step ++ body) bound us) := by
  have stays := @skipSeparators_of_peek (t :: o :: (ts ++ c :: us)) (by simp [peek_cons, kind])
  have read : UpTo (blockBody (ts ++ c :: us)) (.ok (body, us)) :=
    inner.reads closes #[] (Nat.le_refl _)
  rw [treeUpTo]
  simp only [stays, peek_cons, kind, blockHeader?_cons kind opens, reduceCtorEq, ↓reduceIte,
    advance_cons kind (by simp), advance_cons opens (by simp)]
  cases block with
  | setup =>
    obtain rfl := once rfl
    exact read.bind (.refl _)
  | step => exact read.bind (.refl _)

theorem Items.reads {ts : List Token} {setup : Option (List Stmt)} {step : List Stmt}
    (items : Items ts setup step) {f : Token} (finish : f.kind = .finish)
    {before : Option (List Stmt)} (once : setup = none ∨ before = none) (read : Array Stmt)
    {bound : List Token} (enough : (ts ++ [f]).length ≤ bound.length) :
    UpTo (treeUpTo before read bound (ts ++ [f]))
      (.ok ⟨(setup.or before).getD [], read.toList ++ step⟩) := by
  have last : peek [f] = .finish := finish
  induction items generalizing before read bound with
  | empty =>
    rw [List.nil_append, treeUpTo_finishes bound last, List.append_nil]
    exact .refl _
  | separator kind _ ih =>
    obtain ⟨b, bound, rfl, -⟩ := exists_bound enough
    have behind := ih once read (Nat.le_of_succ_le enough)
    rw [treeUpTo] at behind ⊢
    rwa [List.cons_append, skipSeparators_cons kind]
  | last derives =>
    obtain ⟨b, bound, rfl, -⟩ := exists_bound enough
    refine (treeUpTo_statement derives (statementEnd_finish last) before read b bound).trans ?_
    rw [treeUpTo_finishes bound last, Array.toList_push]
    exact .refl _
  | statement derives ends _ ih =>
    rw [List.append_assoc, List.cons_append] at enough ⊢
    obtain ⟨b, bound, rfl, shorter⟩ := exists_bound enough
    refine (treeUpTo_statement derives (statementEnd_separator ends _) before read b bound).trans ?_
    simpa using ih once (read.push _) (Nat.le_of_add_left_le shorter)
  | setup kind opens inner closes _ ih =>
    rw [List.append_assoc, List.cons_append, List.cons_append, List.cons_append] at enough ⊢
    obtain ⟨b, bound, rfl, shorter⟩ := @exists_bound (_ :: _ :: _) _ _ _ enough
    refine (treeUpTo_block .setup kind opens inner closes (fun _ => ?_) read b bound).trans ?_
    · exact once.resolve_left (by simp)
    · exact ih (.inl rfl) read (Nat.le_of_add_left_le shorter)
  | @step t o c ts us setup body step kind opens inner closes _ ih =>
    rw [List.append_assoc, List.cons_append, List.cons_append, List.cons_append] at enough ⊢
    obtain ⟨b, bound, rfl, shorter⟩ := @exists_bound (_ :: _ :: _) _ _ _ enough
    refine (treeUpTo_block .step kind opens inner closes (by simp) read b bound).trans ?_
    have rest := ih once (read ++ body) (Nat.le_of_add_left_le shorter)
    rwa [Array.toList_appendList, List.append_assoc] at rest

theorem Tree.Derives.reads {ts : List Token} {t : Tree} (derives : t.Derives ts) :
    UpTo (Tree.ofTokens ts) (.ok t) := by
  cases derives with
  | script items finish =>
    have read := items.reads finish (.inr rfl) #[] (Nat.le_refl _)
    rwa [Option.or_none, List.nil_append] at read

end TurtlePlayback.Script
