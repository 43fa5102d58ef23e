import TurtlePlayback.Proofs.LexemeTexts
import TurtlePlayback.Proofs.ParsedScripts

namespace TurtlePlayback.Script

variable {source : String} {offset depth n i : Nat} {cs text behind : List Char} {ts : List Token}

def Lexeme.Takes (l : Lexeme) (text behind : List Char) : Prop :=
  ∃ c cs n, read c cs = .ok (l, n) ∧ text = c :: cs.take n ∧ behind = cs.drop n

namespace Lexeme

theorem Takes.ne_nil {l : Lexeme} (takes : l.Takes text behind) : text ≠ [] := by
  obtain ⟨c, cs, n, -, rfl, -⟩ := takes
  exact List.cons_ne_nil _ _

theorem Takes.of_read {c : Char} {l : Lexeme} (met : read c (text ++ behind) = .ok (l, text.length)) :
    l.Takes (c :: text) behind :=
  ⟨c, text ++ behind, text.length, met, by rw [List.take_left], by rw [List.drop_left]⟩

theorem takes_space (behind : List Char) : Takes .blank [' '] behind :=
  ⟨' ', behind, 0, rfl, rfl, rfl⟩

theorem takes_lineEnd (behind : List Char) : Takes .lineEnd ['\n'] behind :=
  ⟨'\n', behind, 0, rfl, rfl, rfl⟩

theorem Takes.token_space {k : Kind} (takes : Takes (.token k) text behind) (more : List Char) :
    Takes (.token k) text (' ' :: more) := by
  obtain ⟨c, cs, n, met, rfl, -⟩ := takes
  obtain ⟨bound, cut⟩ := read_cut more met
  have length : (cs.take n).length = n := List.length_take_of_le bound
  refine ⟨c, cs.take n ++ ' ' :: more, n, cut, ?_, ?_⟩
  · rw [List.take_left' length]
  · rw [List.drop_left' length]

theorem Takes.unfinished {k : Kind} (takes : Takes (.token k) text behind) : k ≠ .finish := by
  obtain ⟨c, cs, n, met, -, -⟩ := takes
  exact read_unfinished met

theorem read_skipped {c : Char} {l : Lexeme} (met : read c cs = .ok (l, n))
    (skipped : ∀ k, l ≠ .token k) :
    c = '#' ∧ l = .blank ∧ n = (cs.takeWhile (· ≠ '\n')).length ∨
    c = '\n' ∧ l = .lineEnd ∧ n = 0 ∨ (isBlank c ∧ c ≠ '\n') ∧ l = .blank ∧ n = 0 := by
  unfold read at met
  split_ifs at met with comment lineEnd blank
  · cases met
    exact .inl ⟨comment, rfl, rfl⟩
  · cases met
    exact .inr (.inl ⟨lineEnd, rfl, rfl⟩)
  · cases met
    exact .inr (.inr ⟨⟨blank, lineEnd⟩, rfl, rfl⟩)
  · simp only [bind_ok, Prod.exists] at met
    obtain ⟨value, length, -, same⟩ := met
    cases same
    exact absurd rfl (skipped _)
  · cases met
    exact absurd rfl (skipped _)
  · split at met
    · cases met
      exact absurd rfl (skipped _)
    · split at met
      · cases met
        exact absurd rfl (skipped _)
      · cases met

theorem Takes.lineEnd (takes : Takes .lineEnd text behind) : text = ['\n'] := by
  obtain ⟨c, cs, n, met, rfl, -⟩ := takes
  rcases read_skipped met (by simp) with ⟨-, other, -⟩ | ⟨rfl, -, rfl⟩ | ⟨-, other, -⟩
  · cases other
  · rfl
  · cases other

theorem Takes.blank (takes : Takes .blank text behind) :
    (∃ c, text = [c] ∧ isBlank c ∧ c ≠ '\n') ∨ ∃ comment, text = '#' :: comment ∧ '\n' ∉ comment := by
  obtain ⟨c, cs, n, met, rfl, -⟩ := takes
  rcases read_skipped met (by simp) with ⟨rfl, -, rfl⟩ | ⟨-, other, -⟩ | ⟨blank, -, rfl⟩
  · refine .inr ⟨_, rfl, fun member => ?_⟩
    rw [← List.prefix_iff_eq_take.mp (List.takeWhile_prefix _)] at member
    simpa using List.mem_takeWhile_imp member
  · cases other
  · exact .inl ⟨c, rfl, blank⟩

end Lexeme

/-- From an offset on, with so many parentheses open, a text is read as tokens. -/
inductive Lexing : (offset depth : Nat) → List Char → List Token → Prop
  | finish (offset depth : Nat) : Lexing offset depth [] [⟨.finish, offset, offset⟩]
  | blank {offset depth : Nat} {text behind : List Char} {ts : List Token}
      (takes : Lexeme.Takes .blank text behind)
      (rest : Lexing (offset + byteLength text) depth behind ts) :
      Lexing offset depth (text ++ behind) ts
  | inside {offset depth : Nat} {text behind : List Char} {ts : List Token}
      (takes : Lexeme.Takes .lineEnd text behind) (inside : 0 < depth)
      (rest : Lexing (offset + byteLength text) depth behind ts) :
      Lexing offset depth (text ++ behind) ts
  | lineEnd {offset : Nat} {text behind : List Char} {ts : List Token}
      (takes : Lexeme.Takes .lineEnd text behind)
      (rest : Lexing (offset + byteLength text) 0 behind ts) :
      Lexing offset 0 (text ++ behind) (⟨.separator, offset, offset + byteLength text⟩ :: ts)
  | token {offset depth : Nat} {text behind : List Char} {ts : List Token} {k : Kind}
      (takes : Lexeme.Takes (.token k) text behind)
      (rest : Lexing (offset + byteLength text) (k.nesting depth) behind ts) :
      Lexing offset depth (text ++ behind) (⟨k, offset, offset + byteLength text⟩ :: ts)

theorem Lexeme.parts (c : Char) (cs : List Char) (n : Nat) :
    c :: cs = (c :: cs.take n) ++ cs.drop n := by
  rw [List.cons_append, List.take_append_drop]

theorem tokensFrom_lexing {read : Array Token} (lexed : tokensFrom offset depth read cs = .ok ts) :
    ∃ us, ts = read.toList ++ us ∧ Lexing offset depth cs us := by
  fun_induction tokensFrom offset depth read cs with
  | case1 offset depth read =>
    cases lexed
    exact ⟨_, Array.toList_push, .finish offset depth⟩
  | case2 => cases lexed
  | case3 offset depth read c cs more stop met ih =>
    obtain ⟨us, whole, rest⟩ := ih lexed
    refine ⟨us, whole, ?_⟩
    rw [Lexeme.parts c cs more]
    exact .blank ⟨c, cs, more, met, rfl, rfl⟩ rest
  | case4 offset read c cs more stop met ih =>
    obtain ⟨us, whole, rest⟩ := ih lexed
    refine ⟨⟨.separator, offset, stop⟩ :: us, by simpa using whole, ?_⟩
    rw [Lexeme.parts c cs more]
    exact .lineEnd ⟨c, cs, more, met, rfl, rfl⟩ rest
  | case5 offset depth read c cs more stop inside met ih =>
    obtain ⟨us, whole, rest⟩ := ih lexed
    refine ⟨us, whole, ?_⟩
    rw [Lexeme.parts c cs more]
    exact .inside ⟨c, cs, more, met, rfl, rfl⟩ (Nat.pos_of_ne_zero inside) rest
  | case6 offset depth read c cs more stop kind met ih =>
    obtain ⟨us, whole, rest⟩ := ih lexed
    refine ⟨⟨kind, offset, stop⟩ :: us, by simpa using whole, ?_⟩
    rw [Lexeme.parts c cs more]
    exact .token ⟨c, cs, more, met, rfl, rfl⟩ rest

theorem Lexing.tokensFrom (lexing : Lexing offset depth cs ts) (read : Array Token) :
    tokensFrom offset depth read cs = .ok (read.toList ++ ts) := by
  induction lexing generalizing read with
  | finish offset depth => simp [Script.tokensFrom]
  | blank takes rest ih =>
    obtain ⟨c, cs, n, met, rfl, rfl⟩ := takes
    rw [← Lexeme.parts, Script.tokensFrom, met]
    exact ih read
  | inside takes inside rest ih =>
    obtain ⟨c, cs, n, met, rfl, rfl⟩ := takes
    rw [← Lexeme.parts, Script.tokensFrom, met]
    simp only [if_neg (Nat.ne_of_gt inside)]
    exact ih read
  | lineEnd takes rest ih =>
    obtain ⟨c, cs, n, met, rfl, rfl⟩ := takes
    rw [← Lexeme.parts, Script.tokensFrom, met]
    simp only [if_true]
    rw [ih]
    simp
  | token takes rest ih =>
    obtain ⟨c, cs, n, met, rfl, rfl⟩ := takes
    rw [← Lexeme.parts, Script.tokensFrom, met]
    simp only
    rw [ih]
    simp

theorem lexing_iff : Lexing 0 0 source.toList ts ↔ tokens source = .ok ts := by
  refine ⟨fun lexing => lexing.tokensFrom #[], fun lexed => ?_⟩
  obtain ⟨us, rfl, lexing⟩ := tokensFrom_lexing lexed
  exact lexing

def Token.Covers (t : Token) (offset : Nat) (cs text : List Char) : Prop :=
  ∃ front behind, cs = front ++ text ++ behind ∧ t.start = offset + byteLength front ∧
    t.stop = t.start + byteLength text

theorem Token.Covers.later {t : Token} {front : List Char}
    (covers : t.Covers (offset + byteLength front) cs text) : t.Covers offset (front ++ cs) text := by
  obtain ⟨before, behind, rfl, start, stop⟩ := covers
  refine ⟨front ++ before, behind, by simp, ?_, stop⟩
  rw [start, byteLength_append, Nat.add_assoc]

def Spanned (offset : Nat) (cs : List Char) (ts : List Token) : Prop :=
  ∃ us, ts = us ++ [⟨.finish, offset + byteLength cs, offset + byteLength cs⟩] ∧
    ∀ t ∈ us, t.kind ≠ .finish ∧ ∃ text, text ≠ [] ∧ t.Covers offset cs text

theorem Spanned.later (spanned : Spanned (offset + byteLength text) cs ts) :
    Spanned offset (text ++ cs) ts := by
  obtain ⟨us, rfl, covered⟩ := spanned
  refine ⟨us, by rw [byteLength_append, Nat.add_assoc], fun t member => ?_⟩
  obtain ⟨other, piece, some_text, covers⟩ := covered t member
  exact ⟨other, piece, some_text, covers.later⟩

theorem Spanned.cons {k : Kind} (other : k ≠ .finish) (some_text : text ≠ [])
    (spanned : Spanned offset (text ++ behind) ts) :
    Spanned offset (text ++ behind) (⟨k, offset, offset + byteLength text⟩ :: ts) := by
  obtain ⟨us, rfl, covered⟩ := spanned
  refine ⟨⟨k, offset, offset + byteLength text⟩ :: us, rfl, ?_⟩
  rw [List.forall_mem_cons]
  exact ⟨⟨other, text, some_text, [], behind, rfl, rfl, rfl⟩, covered⟩

theorem Spanned.start_le (spanned : Spanned offset cs ts) {t : Token} (member : t ∈ ts) :
    offset ≤ t.start ∧ t.start ≤ t.stop := by
  obtain ⟨us, rfl, covered⟩ := spanned
  rcases List.mem_append.mp member with inner | last
  · obtain ⟨-, text, -, front, behind, -, start, stop⟩ := covered t inner
    omega
  · obtain rfl := List.mem_singleton.mp last
    exact ⟨Nat.le_add_right _ _, le_rfl⟩

namespace Lexing

theorem spanned (lexing : Lexing offset depth cs ts) : Spanned offset cs ts := by
  induction lexing with
  | finish offset depth => exact ⟨[], rfl, by simp⟩
  | blank takes rest ih => exact ih.later
  | inside takes inside rest ih => exact ih.later
  | lineEnd takes rest ih => exact ih.later.cons (by simp) takes.ne_nil
  | token takes rest ih => exact ih.later.cons takes.unfinished takes.ne_nil

theorem ordered (lexing : Lexing offset depth cs ts) : ts.Pairwise (·.stop ≤ ·.start) := by
  induction lexing with
  | finish offset depth => exact List.pairwise_singleton _ _
  | blank takes rest ih => exact ih
  | inside takes inside rest ih => exact ih
  | lineEnd takes rest ih =>
    exact List.pairwise_cons.mpr ⟨fun t member => (rest.spanned.start_le member).1, ih⟩
  | token takes rest ih =>
    exact List.pairwise_cons.mpr ⟨fun t member => (rest.spanned.start_le member).1, ih⟩

end Lexing

/-- How many parentheses are open at a byte: those of the tokens that end there or before. -/
def openAt (depth : Nat) (ts : List Token) (i : Nat) : Nat :=
  ((ts.filter (·.stop ≤ i)).map Token.kind).foldl Kind.nesting depth

/-- The character at a byte stands for nothing: it is a blank, belongs to a comment or ends a line
where a parenthesis is open. -/
def Skipped (offset depth : Nat) (cs : List Char) (ts : List Token) (i : Nat) : Prop :=
  ∃ front c behind, cs = front ++ c :: behind ∧ offset + byteLength front ≤ i ∧
    i < offset + byteLength (front ++ [c]) ∧
    (Lexeme.isBlank c ∧ c ≠ '\n' ∨
      (∃ before comment, front ++ [c] = before ++ '#' :: comment ∧ '\n' ∉ comment) ∨
      c = '\n' ∧ 0 < openAt depth ts i)

theorem Skipped.later {depth' : Nat} {us : List Token} (same : openAt depth' us i = openAt depth ts i)
    (skipped : Skipped (offset + byteLength text) depth' cs us i) :
    Skipped offset depth (text ++ cs) ts i := by
  obtain ⟨front, c, behind, rfl, first, last, kind⟩ := skipped
  refine ⟨text ++ front, c, behind, by simp, ?_, ?_, ?_⟩
  · rw [byteLength_append]
    omega
  · rw [List.append_assoc, byteLength_append]
    omega
  · rcases kind with blank | ⟨before, comment, whole, line⟩ | ⟨lineEnd, inside⟩
    · exact .inl blank
    · refine .inr (.inl ⟨text ++ before, comment, ?_, line⟩)
      rw [List.append_assoc, whole, List.append_assoc]
    · exact .inr (.inr ⟨lineEnd, same ▸ inside⟩)

theorem exists_char (first : offset ≤ i) (last : i < offset + byteLength cs) :
    ∃ front c behind, cs = front ++ c :: behind ∧ offset + byteLength front ≤ i ∧
      i < offset + byteLength (front ++ [c]) := by
  induction cs generalizing offset with
  | nil => exact absurd first (Nat.not_le_of_gt last)
  | cons c cs ih =>
    rw [byteLength] at last
    by_cases here : i < offset + c.utf8Size
    · exact ⟨[], c, cs, rfl, first, here⟩
    · have beyond : offset + c.utf8Size ≤ i := Nat.le_of_not_lt here
      obtain ⟨front, d, behind, rfl, first, last⟩ := ih beyond (by omega)
      refine ⟨c :: front, d, behind, rfl, ?_, ?_⟩
      · rw [byteLength]
        omega
      · rw [List.cons_append, byteLength]
        omega

theorem Lexeme.Takes.skipped (takes : Takes .blank text behind) (first : offset ≤ i)
    (last : i < offset + byteLength text) : Skipped offset depth (text ++ behind) ts i := by
  obtain ⟨front, c, rest, rfl, first, last⟩ := exists_char first last
  refine ⟨front, c, rest ++ behind, by simp, first, last, ?_⟩
  rcases takes.blank with ⟨d, whole, blank⟩ | ⟨comment, whole, line⟩
  · obtain ⟨rfl, same⟩ := List.append_eq_singleton_iff.mp whole |>.resolve_right (by simp)
    obtain ⟨rfl, -⟩ := List.cons.inj same
    exact .inl blank
  · refine .inr (.inl ?_)
    cases front with
    | nil =>
      obtain ⟨rfl, -⟩ := List.cons.inj whole
      exact ⟨[], [], rfl, by simp⟩
    | cons d front =>
      rw [List.cons_append] at whole
      obtain ⟨rfl, rfl⟩ := List.cons.inj whole
      refine ⟨[], front ++ [c], rfl, fun member => line ?_⟩
      rw [List.append_cons]
      exact List.mem_append_left _ member

theorem openAt_cons {t : Token} (passed : t.stop ≤ i) :
    openAt depth (t :: ts) i = openAt (t.kind.nesting depth) ts i := by
  rw [openAt, List.filter_cons_of_pos (by simpa using passed)]
  rfl

theorem openAt_ahead (ahead : ∀ t ∈ ts, i < t.stop) : openAt depth ts i = depth := by
  rw [openAt, List.filter_eq_nil_iff.mpr (by simpa using ahead)]
  rfl

theorem Lexing.skipped (lexing : Lexing offset depth cs ts) (first : offset ≤ i)
    (last : i < offset + byteLength cs) (outside : ∀ t ∈ ts, ¬ (t.start ≤ i ∧ i < t.stop)) :
    Skipped offset depth cs ts i := by
  induction lexing with
  | finish offset depth => exact absurd first (Nat.not_le_of_gt last)
  | @blank offset depth text behind ts takes rest ih =>
    rw [byteLength_append, ← Nat.add_assoc] at last
    by_cases here : i < offset + byteLength text
    · exact takes.skipped first here
    · exact (ih (by omega) last outside).later rfl
  | @inside offset depth text behind ts takes inside rest ih =>
    rw [byteLength_append, ← Nat.add_assoc] at last
    by_cases here : i < offset + byteLength text
    -- Each token behind the line end stops later, so what is open at this byte is what is open here.
    · have ahead : openAt depth ts i = depth := by
        refine openAt_ahead fun t member => ?_
        have := rest.spanned.start_le member
        omega
      obtain rfl := takes.lineEnd
      exact ⟨[], '\n', behind, rfl, first, here, .inr (.inr ⟨rfl, ahead.symm ▸ inside⟩)⟩
    · exact (ih (by omega) last outside).later rfl
  | lineEnd takes rest ih =>
    rw [byteLength_append, ← Nat.add_assoc] at last
    rw [List.forall_mem_cons] at outside
    have passed := Nat.le_of_not_lt fun here => outside.1 ⟨first, here⟩
    exact (ih passed last outside.2).later (openAt_cons passed).symm
  | token takes rest ih =>
    rw [byteLength_append, ← Nat.add_assoc] at last
    rw [List.forall_mem_cons] at outside
    have passed := Nat.le_of_not_lt fun here => outside.1 ⟨first, here⟩
    exact (ih passed last outside.2).later (openAt_cons passed).symm

def Token.slice (source : String) (t : Token) : String :=
  String.Pos.Raw.extract source ⟨t.start⟩ ⟨t.stop⟩

theorem Token.Covers.slice {t : Token} (covers : t.Covers 0 source.toList text) :
    t.slice source = .ofList text := by
  obtain ⟨front, behind, whole, start, stop⟩ := covers
  rw [Nat.zero_add] at start
  rw [Token.slice, stop, start, extract_eq whole]

theorem intercalate_cons {xs : List (List Char)} (more : xs ≠ []) :
    [' '].intercalate (text :: xs) = text ++ ' ' :: [' '].intercalate xs := by
  obtain ⟨x, xs, rfl⟩ := List.exists_cons_of_ne_nil more
  rw [List.intercalate_cons_cons]
  simp

theorem Lexing.ne_nil (lexing : Lexing offset depth cs ts) : ts ≠ [] := by
  obtain ⟨us, rfl, -⟩ := lexing.spanned
  simp

theorem Lexing.joined (lexing : Lexing offset depth cs ts) {front : List Char}
    (whole : source.toList = front ++ cs) (before : byteLength front = offset) (offset' : Nat) :
    ∃ us, Lexing offset' depth ([' '].intercalate (ts.map fun t => (t.slice source).toList)) us ∧
      us.map Token.kind = ts.map Token.kind := by
  -- What has been passed is in front, so that slices of the whole text are known by what is left of it.
  induction lexing generalizing front offset' with
  | finish offset depth =>
    subst before
    have whole' : source.toList = front ++ [] ++ [] := by simpa using whole
    have nothing : Token.slice source ⟨.finish, byteLength front, byteLength front⟩ = "" :=
      extract_eq whole'
    rw [List.map_singleton, nothing]
    exact ⟨_, .finish offset' depth, rfl⟩
  | @blank offset depth text behind ts takes rest ih =>
    have whole' : source.toList = (front ++ text) ++ behind := by simpa using whole
    exact ih whole' (by rw [byteLength_append, before]) offset'
  | @inside offset depth text behind ts takes inside rest ih =>
    have whole' : source.toList = (front ++ text) ++ behind := by simpa using whole
    exact ih whole' (by rw [byteLength_append, before]) offset'
  | @lineEnd offset text behind ts takes rest ih =>
    subst before
    have whole' : source.toList = (front ++ text) ++ behind := by simpa using whole
    have slice : Token.slice source ⟨.separator, byteLength front, byteLength front + byteLength text⟩ =
      .ofList text := extract_eq whole'
    obtain ⟨us, joined, kinds⟩ := ih whole' (byteLength_append _ _)
      (offset' + byteLength text + byteLength [' '])
    rw [List.map_cons, slice, intercalate_cons (by simpa using rest.ne_nil), String.toList_ofList,
      takes.lineEnd]
    rw [takes.lineEnd] at joined
    exact ⟨_, .lineEnd (Lexeme.takes_lineEnd _) (.blank (Lexeme.takes_space _) joined),
      congrArg (Kind.separator :: ·) kinds⟩
  | @token offset depth text behind ts k takes rest ih =>
    subst before
    have whole' : source.toList = (front ++ text) ++ behind := by simpa using whole
    have slice : Token.slice source ⟨k, byteLength front, byteLength front + byteLength text⟩ =
      .ofList text := extract_eq whole'
    obtain ⟨us, joined, kinds⟩ := ih whole' (byteLength_append _ _)
      (offset' + byteLength text + byteLength [' '])
    rw [List.map_cons, slice, intercalate_cons (by simpa using rest.ne_nil), String.toList_ofList]
    exact ⟨_, .token (takes.token_space _) (.blank (Lexeme.takes_space _) joined),
      congrArg (k :: ·) kinds⟩

theorem tokens_joined (lexed : tokens source = .ok ts) :
    ∃ us, tokens (" ".intercalate (ts.map (Token.slice source))) = .ok us ∧
      us.map Token.kind = ts.map Token.kind := by
  have whole : source.toList = [] ++ source.toList := rfl
  obtain ⟨us, joined, kinds⟩ := (lexing_iff.mpr lexed).joined whole rfl 0
  refine ⟨us, lexing_iff.mp ?_, kinds⟩
  rw [String.toList_intercalate, List.map_map]
  exact joined

/-- The tokens of a text are its parts, in order and without overlap, up to the mark of its end;
what stands between them is a blank, a comment or a line end within parentheses. Set apart by single
spaces, their texts are read as the same tokens. -/
theorem tokens_faithful (lexed : tokens source = .ok ts) :
    (∃ us, ts = us ++ [⟨.finish, source.utf8ByteSize, source.utf8ByteSize⟩] ∧
      ∀ t ∈ us, t.kind ≠ .finish ∧ t.start < t.stop ∧ Placed source t.start ∧ Placed source t.stop) ∧
    ts.Pairwise (·.stop ≤ ·.start) ∧
    (∀ i < source.utf8ByteSize, (∀ t ∈ ts, ¬ (t.start ≤ i ∧ i < t.stop)) →
      Skipped 0 0 source.toList ts i) ∧
    ∃ us, tokens (" ".intercalate (ts.map (Token.slice source))) = .ok us ∧
      us.map Token.kind = ts.map Token.kind := by
  have lexing := lexing_iff.mpr lexed
  refine ⟨?_, lexing.ordered, fun i inside => ?_, tokens_joined lexed⟩
  · obtain ⟨us, rfl, covered⟩ := lexing.spanned
    rw [Nat.zero_add, byteLength_toList]
    refine ⟨us, rfl, fun t member => ?_⟩
    obtain ⟨other, text, some_text, front, behind, whole, start, stop⟩ := covered t member
    have wide := byteLength_pos some_text
    rw [Nat.zero_add] at start
    refine ⟨other, by omega, start ▸ .of_append (by simpa using whole), ?_⟩
    rw [stop, start, ← byteLength_append]
    exact .of_append whole
  · rw [← byteLength_toList] at inside
    exact lexing.skipped (Nat.zero_le i) (by simpa using inside)

theorem tokens_faithful_call :
    let source := "up(1,\n2)# é\n"
    let ts : List Token :=
      [⟨.name "up", 0, 2⟩, ⟨.openParen, 2, 3⟩, ⟨.number 1.0, 3, 4⟩, ⟨.comma, 4, 5⟩,
        ⟨.number 2.0, 6, 7⟩, ⟨.closeParen, 7, 8⟩, ⟨.separator, 12, 13⟩, ⟨.finish, 13, 13⟩]
    tokens source = .ok ts ∧ Skipped 0 0 source.toList ts 5 ∧ Skipped 0 0 source.toList ts 11 ∧
      ∃ us, tokens (" ".intercalate (ts.map (Token.slice source))) = .ok us ∧
        us.map Token.kind = ts.map Token.kind := by
  intro source ts
  have parts : source.toList =
      ['u', 'p'] ++ (['('] ++ (['1'] ++ ([','] ++ (['\n'] ++ (['2'] ++ ([')'] ++
        (['#', ' ', 'é'] ++ (['\n'] ++ [])))))))) := by
    decide
  have lexing : Lexing 0 0 source.toList ts := by
    rw [parts]
    exact .token (.of_read rfl) <| .token (.of_read rfl) <| .token (.of_read rfl) <|
      .token (.of_read rfl) <| .inside (.of_read rfl) (by decide) <| .token (.of_read rfl) <|
      .token (.of_read rfl) <| .blank (.of_read rfl) <| .lineEnd (.of_read rfl) <| .finish _ _
  have lexed := lexing_iff.mp lexing
  have faithful := tokens_faithful lexed
  exact ⟨lexed, faithful.2.2.1 5 (by decide) (by decide), faithful.2.2.1 11 (by decide) (by decide),
    faithful.2.2.2⟩

end TurtlePlayback.Script
