import Mathlib.Tactic.ByContra
import TurtlePlayback.Proofs.IndexedExpressions

namespace TurtlePlayback.Script.Indexed

variable {ts : List Token} {short : Prop} {t : Token} {i d calls : Nat}

def statementWith (expr : Parser Expr) : Parser Stmt := fun ts =>
  match peek ts with
  | .letWord =>
    match peek (advance ts) with
    | .name text => do
      let rest ← Script.expect .assign (advance (advance ts))
      let (value, rest) ← expr rest
      return (⟨.declare text value, here ts⟩, rest)
    | other => complain (advance ts) (.expectedName other)
  | .name text =>
    match peek (advance ts) with
    | .assign => do
      let (value, rest) ← expr (advance (advance ts))
      return (⟨.assign text value, here ts⟩, rest)
    | .openParen => do
      let (args, rest) ← Script.arguments expr (advance (advance ts))
      return (⟨.command text args, here ts⟩, rest)
    | _ => complain (advance ts) (.expectedCallOrAssignment text)
  | other => complain ts (.expectedStatement other)

theorem statement_eq : Script.statement = statementWith (exprAt 0 Level.all) :=
  rfl

theorem name_met (ended : Ended ts) (on : ts[i]? = some t) {text : String}
    (named : t.kind = .name text) (d : Nat) : name ts ⟨i, d⟩ = .ok text ⟨i + 1, d⟩ := by
  rw [name, bind_run (bump_passes on ended (by simp [named]) d).2, named]
  rfl

theorem name_refused (on : ts[i]? = some t) (other : ∀ text, t.kind ≠ .name text) (d : Nat) :
    ∃ c : Cursor, c.index < ts.length ∧
      name ts ⟨i, d⟩ = .error (.refused ⟨t.start, .expectedName t.kind⟩) c := by
  refine ⟨if i + 1 < ts.length then ⟨i + 1, d⟩ else ⟨i, d⟩, ?_, ?_⟩
  · split
    · next more => exact more
    · exact inside_of_token on
  · rw [name, bind_run (bump_run on d)]
    cases kind : t.kind with
    | name text => exact absurd kind (other text)
    | _ => rfl

theorem statement_reads (ended : Ended ts) (calls : Nat) (inside : i < ts.length) :
    Reads ts (calls < 10 + 9 * (maxNesting - d)) (Passed i d) (statement ts calls ⟨i, d⟩)
      (statementWith (exprAt d Level.all) (ts.drop i)) := by
  cases calls with
  | zero => exact ⟨inside, by omega⟩
  | succ calls =>
    obtain ⟨t, on⟩ := exists_token inside
    have value {j : Nat} (inside : j < ts.length) :
        Reads ts (calls + 1 < 10 + 9 * (maxNesting - d)) (Passed j d)
          (operand ts calls Level.all ⟨j, d⟩) (exprAt d Level.all (ts.drop j)) :=
      ((expressions ended calls).operand Level.all inside).weaken (by simp [Level.all]; omega)
    rw [statement, statementWith, peek_drop on]
    by_cases finish : t.kind = .finish
    · have last := (finish_iff ended on).mp finish
      rw [bind_run (by rw [bump_run on, if_neg last])]
      simp only [finish, complain, here_drop on]
      exact ⟨inside, rfl⟩
    · obtain ⟨more, passes⟩ := bump_passes on ended finish d
      obtain ⟨u, next⟩ := exists_token more
      rw [bind_run passes, advance_drop on finish, here_drop on, peek_drop next]
      cases kind : t.kind with
      | letWord =>
        simp only
        by_cases named : ∃ text, u.kind = .name text
        · obtain ⟨text, named⟩ := named
          have other : u.kind ≠ .finish := by simp [named]
          obtain ⟨more', -⟩ := bump_passes next ended other d
          rw [bind_run (name_met ended next named d), named, advance_drop next other]
          refine (expect_agrees ended more' (by simp) d).bind ?_
          rintro ⟨⟩ c _ there ⟨rfl, rfl⟩
          refine (value there).bind fun e j passed within => ?_
          have passed : i + 1 + 1 + 1 < j := passed
          exact reads_ok within (show i < j by omega)
        · obtain ⟨c, within, refused⟩ := name_refused next (not_exists.mp named) d
          rw [bind_stop refused]
          cases other : u.kind with
          | name text => exact absurd ⟨text, other⟩ named
          | _ =>
            simp only [complain, here_drop next]
            exact ⟨within, rfl⟩
      | name text =>
        simp only
        by_cases assigns : u.kind = .assign
        · obtain ⟨more', consumed, behind⟩ := consume_passes next ended assigns (by simp) d
          rw [bind_run consumed, assigns, behind]
          exact (value more').bind fun e j passed within => reads_ok within (show i < j by omega)
        · rw [bind_run (consume_other next assigns d)]
          by_cases opens : u.kind = .openParen
          · obtain ⟨more', consumed, behind⟩ := consume_passes next ended opens (by simp) d
            simp only [Bool.false_eq_true, ↓reduceIte]
            rw [bind_run consumed, opens, behind]
            have args : Reads ts (calls + 1 < 10 + 9 * (maxNesting - d)) _ _ _ :=
              ((expressions ended calls).arguments (d := d) more').weaken (by omega)
            exact args.bind fun es j passed within => reads_ok within (show i < j by omega)
          · simp only [Bool.false_eq_true, ↓reduceIte]
            rw [bind_run (consume_other next opens d)]
            simp only [Bool.false_eq_true, ↓reduceIte]
            rw [bind_run (current_run next d)]
            cases other : u.kind with
            | assign => exact absurd other assigns
            | openParen => exact absurd other opens
            | _ =>
              simp only [complain, here_drop next]
              exact ⟨more, rfl⟩
      | finish => exact absurd kind finish
      | _ =>
        simp only [complain, here_drop on]
        exact ⟨more, rfl⟩

theorem statementEnd_agrees (ended : Ended ts) (inside : i < ts.length) (d : Nat) :
    Agrees ts short (fun _ c us => us = ts.drop c.index ∧ i ≤ c.index ∧ c.depth = d)
      (statementEnd ts ⟨i, d⟩) (Script.statementEnd (ts.drop i)) := by
  obtain ⟨t, on⟩ := exists_token inside
  rw [statementEnd, bind_run (current_run on d), Script.statementEnd, peek_drop on]
  cases kind : t.kind with
  | separator =>
    have other : t.kind ≠ .finish := by simp [kind]
    obtain ⟨more, passes⟩ := bump_passes on ended other d
    simp only
    rw [bind_run passes, advance_drop on other]
    exact ⟨more, rfl, Nat.le_succ i, rfl⟩
  | finish => exact ⟨inside, rfl, Nat.le_refl i, rfl⟩
  | closeBrace => exact ⟨inside, rfl, Nat.le_refl i, rfl⟩
  | _ =>
    simp only [complain, here_drop on]
    exact ⟨inside, rfl⟩

theorem skipSeparators_run (ended : Ended ts) {rounds : Nat} (inside : i < ts.length)
    (enough : ts.length - i ≤ rounds) (d : Nat) :
    ∃ j, i ≤ j ∧ j < ts.length ∧ skipSeparators ts rounds ⟨i, d⟩ = .ok () ⟨j, d⟩ ∧
      Script.skipSeparators (ts.drop i) = ts.drop j := by
  induction rounds generalizing i with
  | zero => omega
  | succ rounds ih =>
    obtain ⟨t, on⟩ := exists_token inside
    rw [skipSeparators]
    by_cases separates : t.kind = .separator
    · obtain ⟨more, consumed, -⟩ := consume_passes on ended separates (by simp) d
      obtain ⟨j, later, within, skipped, same⟩ := ih more (by omega)
      refine ⟨j, Nat.le_of_succ_le later, within, ?_, ?_⟩
      · rw [bind_run consumed]
        exact skipped
      · rw [drop_token on, skipSeparators_cons separates, same]
    · refine ⟨i, Nat.le_refl i, inside, ?_, ?_⟩
      · rw [bind_run (consume_other on separates d)]
        rfl
      · exact skipSeparators_of_peek (by rwa [peek_drop on])

theorem ahead_run (ended : Ended ts) (on : ts[i]? = some t) (other : t.kind ≠ .finish) (d : Nat) :
    ∃ u, ts[i + 1]? = some u ∧ ahead ts 1 ⟨i, d⟩ = .ok u ⟨i, d⟩ := by
  obtain ⟨more, -⟩ := bump_passes on ended other d
  obtain ⟨u, next⟩ := exists_token more
  refine ⟨u, next, ?_⟩
  have asked : ahead ts 1 ⟨i, d⟩ = (if ts.length = 0 then throw .underflow
      else tokenAt ts (min (i + 1) (ts.length - 1))) (⟨i, d⟩ : Cursor) := by
    rw [ahead]
    split <;> rfl
  have last : min (i + 1) (ts.length - 1) = i + 1 := by omega
  rw [asked, if_neg (by omega), last, tokenAt, next]
  rfl

theorem blockHeader?_run (ended : Ended ts) (on : ts[i]? = some t) (d : Nat) :
    blockHeader? ts ⟨i, d⟩ = .ok (Script.blockHeader? (ts.drop i)) ⟨i, d⟩ := by
  rw [blockHeader?, bind_run (current_run on d), Script.blockHeader?, peek_drop on]
  cases kind : t.kind with
  | name text =>
    have other : t.kind ≠ .finish := by simp [kind]
    obtain ⟨u, next, seen⟩ := ahead_run ended on other d
    simp only
    rw [bind_run seen, advance_drop on other, peek_drop next]
    by_cases opens : u.kind = .openBrace
    · rw [if_pos opens, opens]
      by_cases setup : text = "setup"
      · subst setup
        rfl
      · by_cases step : text = "step"
        · subst step
          rfl
        · simp [setup, step, pure, EStateM.pure]
    · rw [if_neg opens]
      simp [opens, pure, EStateM.pure]
  | _ => rfl

theorem bodyFrom_reads (ended : Ended ts) {rounds : Nat} {bound : List Token} {read : Array Stmt}
    (inside : i < ts.length) (enough : ts.length - i ≤ rounds)
    (bounded : ts.length - i ≤ bound.length) :
    Reads ts (calls < 10 + 9 * maxNesting) (Passed i 0) (bodyFrom ts calls rounds read ⟨i, 0⟩)
      (blockBodyUpTo read bound (ts.drop i)) := by
  induction rounds generalizing i bound read with
  | zero => omega
  | succ rounds ih =>
    cases bound with
    | nil =>
      rw [List.length_nil] at bounded
      omega
    | cons b bound =>
      rw [List.length_cons] at bounded
      obtain ⟨j, later, within, skipped, same⟩ :=
        skipSeparators_run ended inside (Nat.sub_le ts.length i) 0
      obtain ⟨t, on⟩ := exists_token within
      rw [bodyFrom, bind_run skipped, blockBodyUpTo]
      simp only [same, peek_drop on]
      by_cases closes : t.kind = .closeBrace
      · obtain ⟨more, consumed, behind⟩ := consume_passes on ended closes (by simp) 0
        rw [bind_run consumed, if_pos closes, behind]
        exact reads_ok more (Nat.lt_succ_of_le later)
      · rw [bind_run (consume_other on closes 0), if_neg closes]
        simp only [Bool.false_eq_true, ↓reduceIte]
        rw [bind_run (current_run on 0)]
        by_cases finish : t.kind = .finish
        · rw [if_pos finish, if_pos finish, complain, here_drop on]
          exact ⟨within, rfl⟩
        · rw [if_neg finish, if_neg finish, bind_run (blockHeader?_run ended on 0)]
          by_cases header : (Script.blockHeader? (ts.drop j)).isSome = true
          · rw [if_pos header, if_pos header, complain, here_drop on]
            exact ⟨within, rfl⟩
          · rw [if_neg header, if_neg header, statement_eq]
            refine Reads.bind (statement_reads (d := 0) ended calls within) fun s k passed there => ?_
            refine (statementEnd_agrees ended there 0).bind ?_
            rintro ⟨⟩ ⟨m, _⟩ _ here ⟨rfl, last, rfl⟩
            have last : k ≤ m := last
            exact (ih here (by omega) (by omega)).of_passed (by omega)

theorem body_reads (ended : Ended ts) (calls : Nat) (inside : i < ts.length) :
    Reads ts (calls < 11 + 9 * maxNesting) (Passed i 0) (body ts calls ⟨i, 0⟩)
      (blockBody (ts.drop i)) := by
  cases calls with
  | zero => exact ⟨inside, by omega⟩
  | succ calls =>
    have reads : Reads ts (calls < 10 + 9 * maxNesting) (Passed i 0) _
        (blockBodyUpTo #[] (ts.drop i) (ts.drop i)) :=
      bodyFrom_reads ended inside (Nat.sub_le _ _) (Nat.le_of_eq List.length_drop.symm)
    exact reads.weaken (by omega)

theorem header_tokens (on : ts[i]? = some t) {block : Block}
    (header : Script.blockHeader? (ts.drop i) = some block) :
    i + 1 < ts.length ∧ peek (ts.drop (i + 1)) = .openBrace ∧
      advance (advance (ts.drop i)) = ts.drop (i + 1 + 1) := by
  obtain ⟨_, o, us, whole, -, opens, behind⟩ := blockHeader?_some header
  rw [drop_token on] at whole
  obtain ⟨rfl, rest⟩ := List.cons.inj whole
  have later : i + 1 < ts.length := by
    by_contra short
    rw [List.drop_eq_nil_of_le (Nat.le_of_not_lt short)] at rest
    cases rest
  refine ⟨later, ?_, ?_⟩
  · rw [rest]
    exact opens
  · rw [behind, ← List.drop_drop, rest]
    rfl

theorem scriptFrom_agrees (ended : Ended ts) {rounds : Nat} {bound : List Token}
    {setup : Option (List Stmt)} {step : Array Stmt} (inside : i < ts.length)
    (enough : ts.length - i ≤ rounds) (bounded : ts.length - i ≤ bound.length) :
    Agrees ts (calls < 11 + 9 * maxNesting) (fun a _ b => a = b)
      (scriptFrom ts calls rounds setup step ⟨i, 0⟩) (treeUpTo setup step bound (ts.drop i)) := by
  induction rounds generalizing i bound setup step with
  | zero => omega
  | succ rounds ih =>
    cases bound with
    | nil =>
      rw [List.length_nil] at bounded
      omega
    | cons b bound =>
      rw [List.length_cons] at bounded
      obtain ⟨j, later, within, skipped, same⟩ :=
        skipSeparators_run ended inside (Nat.sub_le ts.length i) 0
      obtain ⟨t, on⟩ := exists_token within
      rw [scriptFrom, bind_run skipped, treeUpTo]
      simp only [same, peek_drop on]
      rw [bind_run (current_run on 0)]
      by_cases finish : t.kind = .finish
      · rw [if_pos finish, if_pos finish]
        exact ⟨within, rfl⟩
      · rw [if_neg finish, if_neg finish, bind_run (blockHeader?_run ended on 0)]
        cases header : Script.blockHeader? (ts.drop j) with
        | none =>
          simp only [statement_eq]
          have reads : Reads ts (calls < 11 + 9 * maxNesting) (Passed j 0) _ _ :=
            (statement_reads (d := 0) ended calls within).weaken (by omega)
          refine reads.bind fun s k passed there => ?_
          refine (statementEnd_agrees ended there 0).bind ?_
          rintro ⟨⟩ ⟨m, _⟩ _ here ⟨rfl, last, rfl⟩
          have last : k ≤ m := last
          exact ih here (by omega) (by omega)
        | some block =>
          obtain ⟨more, opens, behind⟩ := header_tokens on header
          obtain ⟨u, next⟩ := exists_token more
          rw [peek_drop next] at opens
          have passes := (bump_passes on ended finish 0).2
          have more' := (bump_passes next ended (by simp [opens]) 0).1
          simp only [bind_run passes]
          rw [bind_run (expect_met next ended opens (by simp) 0)]
          have reads := body_reads ended calls more'
          cases block with
          | setup =>
            simp only [behind]
            refine reads.bind fun statements k passed there => ?_
            by_cases again : setup.isSome = true
            · simp only [again, ↓reduceIte, complain, here_drop on]
              exact ⟨there, rfl⟩
            · simp only [again, Bool.false_eq_true, ↓reduceIte]
              exact ih there (by omega) (by omega)
          | step =>
            simp only [behind]
            exact reads.bind fun statements k passed there => ih there (by omega) (by omega)

theorem script_agrees (ended : Ended ts) (calls : Nat) :
    Agrees ts (calls < 12 + 9 * maxNesting) (fun a _ b => a = b) (script ts calls ⟨0, 0⟩)
      (Tree.ofTokens ts) := by
  have inside : 0 < ts.length := List.length_pos_iff.mpr (ended_ne_nil ended)
  cases calls with
  | zero => exact ⟨inside, by omega⟩
  | succ calls =>
    have agrees : Agrees ts (calls < 11 + 9 * maxNesting) (fun a _ b => a = b) _
        (treeUpTo none #[] ts (ts.drop 0)) :=
      scriptFrom_agrees ended inside (Nat.sub_le _ _) (Nat.le_refl _)
    exact agrees.mono (by omega) (fun _ _ _ => id)

end TurtlePlayback.Script.Indexed
