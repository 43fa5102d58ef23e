import Mathlib.Logic.Basic
import TurtlePlayback.Proofs.IndexedParsers

namespace TurtlePlayback.Script.Indexed

variable {α β γ δ : Type} {ts : List Token} {short : Prop} {t : Token} {k : Kind} {i d : Nat}

/-- A parser by index comes out where one on lists does, with the cursor on a token; or more calls
were active than allowed, and then they were too few. -/
def Agrees (ts : List Token) (short : Prop) (R : α → Cursor → β → Prop) :
    EStateM.Result Stop Cursor α → Except Error β → Prop
  | .ok a c, .ok b => c.index < ts.length ∧ R a c b
  | .error (.refused e) c, .error f => c.index < ts.length ∧ e = f
  | .error .calls c, _ => c.index < ts.length ∧ short
  | _, _ => False

theorem Agrees.mono {short' : Prop} {R R' : α → Cursor → β → Prop}
    {r : EStateM.Result Stop Cursor α} {q : Except Error β} (agrees : Agrees ts short R r q)
    (less : short → short') (kept : ∀ a c b, R a c b → R' a c b) : Agrees ts short' R' r q := by
  cases r with
  | ok a c =>
    cases q with
    | ok b => exact ⟨agrees.1, kept a c b agrees.2⟩
    | error f => exact agrees
  | error stop c =>
    cases stop with
    | calls => exact ⟨agrees.1, less agrees.2⟩
    | refused e =>
      cases q with
      | ok b => exact agrees.elim
      | error f => exact agrees
    | _ => cases q <;> exact agrees.elim

theorem Agrees.bind {R : α → Cursor → β → Prop} {R' : γ → Cursor → δ → Prop} {x : Reading α}
    {q : Except Error β} {f : α → Reading γ} {g : β → Except Error δ} {c : Cursor}
    (first : Agrees ts short R (x c) q)
    (rest : ∀ a c b, c.index < ts.length → R a c b → Agrees ts short R' (f a c) (g b)) :
    Agrees ts short R' ((x >>= f) c) (q >>= g) := by
  change Agrees ts short R' (EStateM.bind x f c) (Except.bind q g)
  rw [EStateM.bind]
  cases met : x c with
  | ok a c =>
    rw [met] at first
    cases q with
    | ok b => exact rest a c b first.1 first.2
    | error f => exact first.elim
  | error stop c =>
    rw [met] at first
    cases stop with
    | calls => exact first
    | refused e =>
      cases q with
      | ok b => exact first.elim
      | error f => exact first
    | _ => cases q <;> exact first.elim

theorem Agrees.after {R : α → Cursor → β → Prop} {R' : γ → Cursor → β → Prop} {x : Reading α}
    {q : Except Error β} {f : α → Reading γ} {c : Cursor} (first : Agrees ts short R (x c) q)
    (rest : ∀ a c b, c.index < ts.length → R a c b → Agrees ts short R' (f a c) (.ok b)) :
    Agrees ts short R' ((x >>= f) c) q := by
  rw [← bind_pure q]
  exact first.bind rest

theorem bind_run {x : Reading α} {f : α → Reading β} {c c' : Cursor} {a : α}
    (met : x c = .ok a c') : (x >>= f) c = f a c' := by
  change EStateM.bind x f c = _
  rw [EStateM.bind, met]

theorem bind_stop {x : Reading α} {f : α → Reading β} {c c' : Cursor} {s : Stop}
    (met : x c = .error s c') : (x >>= f) c = .error s c' := by
  change EStateM.bind x f c = _
  rw [EStateM.bind, met]

theorem get_run (c : Cursor) : (get : Reading Cursor) c = .ok c c :=
  rfl

theorem ended_ne_nil (ended : Ended ts) : ts ≠ [] := by
  cases ended <;> exact List.cons_ne_nil _ _

theorem finish_iff (ended : Ended ts) (on : ts[i]? = some t) :
    t.kind = .finish ↔ ¬ i + 1 < ts.length := by
  induction ended generalizing i with
  | finish kind =>
    obtain ⟨inside, same⟩ := List.getElem?_eq_some_iff.mp on
    obtain rfl : i = 0 := by simpa using inside
    cases same
    exact iff_of_true kind (by simp)
  | goes_on kind rest ih =>
    cases i with
    | zero =>
      cases on
      exact iff_of_false kind (by simpa using ended_ne_nil rest)
    | succ i =>
      rw [ih (by simpa using on)]
      simp

theorem exists_token (inside : i < ts.length) : ∃ t, ts[i]? = some t :=
  ⟨ts[i], List.getElem?_eq_getElem inside⟩

section

variable (on : ts[i]? = some t)

include on

theorem inside_of_token : i < ts.length :=
  (List.getElem?_eq_some_iff.mp on).1

theorem drop_token : ts.drop i = t :: ts.drop (i + 1) := by
  obtain ⟨inside, same⟩ := List.getElem?_eq_some_iff.mp on
  rw [List.drop_eq_getElem_cons inside, same]

theorem peek_drop : peek (ts.drop i) = t.kind := by
  rw [drop_token on, peek_cons]

theorem here_drop : here (ts.drop i) = t.start := by
  rw [drop_token on]
  rfl

theorem advance_drop (other : t.kind ≠ .finish) : advance (ts.drop i) = ts.drop (i + 1) := by
  rw [drop_token on, advance_cons rfl other]

theorem current_run (d : Nat) : current ts ⟨i, d⟩ = .ok t ⟨i, d⟩ := by
  have asked : current ts ⟨i, d⟩ = tokenAt ts i ⟨i, d⟩ := rfl
  rw [asked, tokenAt, on]
  rfl

theorem bump_run (d : Nat) :
    bump ts ⟨i, d⟩ = .ok t (if i + 1 < ts.length then ⟨i + 1, d⟩ else ⟨i, d⟩) := by
  rw [bump, bind_run (current_run on d)]
  rfl

theorem bump_passes (ended : Ended ts) (other : t.kind ≠ .finish) (d : Nat) :
    i + 1 < ts.length ∧ bump ts ⟨i, d⟩ = .ok t ⟨i + 1, d⟩ := by
  have more : i + 1 < ts.length := not_not.mp (mt (finish_iff ended on).mpr other)
  exact ⟨more, by rw [bump_run on, if_pos more]⟩

theorem consume_passes (ended : Ended ts) (kind : t.kind = k) (other : k ≠ .finish) (d : Nat) :
    i + 1 < ts.length ∧ consume ts k ⟨i, d⟩ = .ok true ⟨i + 1, d⟩ ∧
      advance (ts.drop i) = ts.drop (i + 1) := by
  have other' : t.kind ≠ .finish := kind ▸ other
  obtain ⟨more, passes⟩ := bump_passes on ended other' d
  refine ⟨more, ?_, advance_drop on other'⟩
  rw [consume, bind_run (current_run on d), if_pos kind, bind_run passes]
  rfl

theorem consume_other (other : t.kind ≠ k) (d : Nat) :
    consume ts k ⟨i, d⟩ = .ok false ⟨i, d⟩ := by
  rw [consume, bind_run (current_run on d), if_neg other]
  rfl

theorem expect_met (ended : Ended ts) (kind : t.kind = k) (other : k ≠ .finish) (d : Nat) :
    expect ts k ⟨i, d⟩ = .ok () ⟨i + 1, d⟩ := by
  have passes := (bump_passes on ended (kind ▸ other) d).2
  rw [expect, bind_run (current_run on d), if_pos kind, bind_run passes]
  rfl

theorem descend_full (full : maxNesting ≤ d) (f : Unit → Reading α) {R : α → Cursor → β → Prop} :
    Agrees ts short R ((descend ts >>= f) ⟨i, d⟩) (complain (ts.drop i) .nestedTooDeeply) := by
  have refused : descend ts ⟨i, d⟩ = .error (.refused ⟨t.start, .nestedTooDeeply⟩) ⟨i, d + 1⟩ := by
    change (if maxNesting < d + 1 then current ts >>= fun t => refuse t.start .nestedTooDeeply
      else pure ()) (⟨i, d + 1⟩ : Cursor) = _
    rw [if_pos (Nat.lt_succ_of_le full), bind_run (current_run on _)]
    rfl
  rw [bind_stop refused, complain, here_drop on]
  exact ⟨inside_of_token on, rfl⟩

end

theorem descend_free (free : ¬ maxNesting ≤ d) (f : Unit → Reading α) :
    (descend ts >>= f) ⟨i, d⟩ = f () ⟨i, d + 1⟩ := by
  have deeper : descend ts ⟨i, d⟩ = .ok () ⟨i, d + 1⟩ := by
    change (if maxNesting < d + 1 then current ts >>= fun t => refuse t.start .nestedTooDeeply
      else pure ()) (⟨i, d + 1⟩ : Cursor) = _
    rw [if_neg fun less => free (Nat.le_of_lt_succ less)]
    rfl
  rw [bind_run deeper]

def Reads (ts : List Token) (short : Prop) (Q : Cursor → Prop) (r : EStateM.Result Stop Cursor α)
    (q : Except Error (α × List Token)) : Prop :=
  Agrees ts short (fun a c b => b = (a, ts.drop c.index) ∧ Q c) r q

def Passed (i d : Nat) (c : Cursor) : Prop :=
  i < c.index ∧ c.depth = d

theorem Reads.bind {R : γ → Cursor → δ → Prop} {x : Reading α} {q : Except Error (α × List Token)}
    {f : α → Reading γ} {g : α × List Token → Except Error δ} {c : Cursor}
    (first : Reads ts short (Passed i d) (x c) q)
    (rest : ∀ a j, i < j → j < ts.length → Agrees ts short R (f a ⟨j, d⟩) (g (a, ts.drop j))) :
    Agrees ts short R ((x >>= f) c) (q >>= g) := by
  refine Agrees.bind first ?_
  rintro a ⟨j, e⟩ _ inside ⟨rfl, passed, same⟩
  obtain rfl : d = e := same.symm
  exact rest a j passed inside

theorem Reads.of_passed {j : Nat} {r : EStateM.Result Stop Cursor α}
    {q : Except Error (α × List Token)} (reads : Reads ts short (Passed j d) r q) (later : i ≤ j) :
    Reads ts short (Passed i d) r q :=
  Agrees.mono reads id fun _ _ _ met => ⟨met.1, Nat.lt_of_le_of_lt later met.2.1, met.2.2⟩

theorem Reads.weaken {short' : Prop} {Q : Cursor → Prop} {r : EStateM.Result Stop Cursor α}
    {q : Except Error (α × List Token)} (reads : Reads ts short Q r q) (less : short → short') :
    Reads ts short' Q r q :=
  Agrees.mono reads less fun _ _ _ => id

theorem reads_ok {a : α} {j : Nat} (inside : j < ts.length) (passed : i < j) :
    Reads ts short (Passed i d) (.ok a ⟨j, d⟩) (.ok (a, ts.drop j)) :=
  ⟨inside, rfl, passed, rfl⟩

theorem expect_agrees (ended : Ended ts) (inside : i < ts.length) (other : k ≠ .finish) (d : Nat) :
    Agrees ts short (fun _ c us => us = ts.drop c.index ∧ c = ⟨i + 1, d⟩) (expect ts k ⟨i, d⟩)
      (Script.expect k (ts.drop i)) := by
  obtain ⟨t, on⟩ := exists_token inside
  by_cases kind : t.kind = k
  · obtain ⟨more, -⟩ := bump_passes on ended (kind ▸ other) d
    rw [expect_met on ended kind other, Script.expect, peek_drop on, if_pos kind,
      advance_drop on (kind ▸ other)]
    exact ⟨more, rfl, rfl⟩
  · rw [expect, bind_run (current_run on d), Script.expect, peek_drop on, if_neg kind, if_neg kind,
      complain, here_drop on]
    exact ⟨inside, rfl⟩

def exprAt (d : Nat) : List Level → Parser Expr :=
  operandOf (unaryAt (maxNesting - d)) (chainAt (maxNesting - d))

theorem Level.operator?_finish (l : Level) : l.operator? .finish = none := by
  cases l <;> rfl

theorem room_cases (d : Nat) : maxNesting ≤ d ∧ maxNesting - d = 0 ∨
    ¬ maxNesting ≤ d ∧ maxNesting - d = maxNesting - (d + 1) + 1 := by
  omega

theorem chain_reads (ended : Ended ts) {l : Level} {tighter : List Level} {x : Reading Expr}
    {base : Nat} (h : ∀ d ≥ base, ∀ i < ts.length,
      Reads ts short (Passed i d) (x ⟨i, d⟩) (exprAt d tighter (ts.drop i)))
    {rounds : Nat} (left : Expr) (deep : base ≤ d) (inside : i < ts.length)
    (enough : ts.length - i ≤ rounds) :
    Reads ts short (fun c => i ≤ c.index) (chain ts l x rounds left ⟨i, d⟩)
      (chainAt (maxNesting - d) l tighter left (ts.drop i)) := by
  induction rounds generalizing left i d with
  | zero => omega
  | succ rounds ih =>
    obtain ⟨t, on⟩ := exists_token inside
    rw [chain, bind_run (current_run on d), chainAt.eq_def, peek_drop on]
    cases operator : l.operator? t.kind with
    | none => exact ⟨inside, rfl, Nat.le_refl i⟩
    | some op =>
      have other : t.kind ≠ .finish := fun finish => by
        rw [finish, Level.operator?_finish] at operator
        cases operator
      obtain ⟨more, passes⟩ := bump_passes on ended other d
      obtain ⟨u, next⟩ := exists_token more
      simp only [bind_run passes, advance_drop on other]
      rcases room_cases d with ⟨full, room⟩ | ⟨free, room⟩
      · rw [room]
        exact descend_full next full _
      · rw [room, descend_free free]
        refine (h (d + 1) (Nat.le_succ_of_le deep) (i + 1) more).bind fun right j passed within => ?_
        refine (ih (.binary op left right) (by omega) within (by omega)).mono id ?_
        rintro a c b ⟨rest, later⟩
        exact ⟨rest, by omega⟩

theorem argumentsFrom_reads (ended : Ended ts) {x : Reading Expr} {p : Parser Expr}
    (h : ∀ i < ts.length, Reads ts short (Passed i d) (x ⟨i, d⟩) (p (ts.drop i))) {rounds : Nat}
    {bound : List Token} (inside : i < ts.length) (enough : ts.length - i ≤ rounds)
    (bounded : ts.length - i ≤ bound.length) :
    Reads ts short (Passed i d) (argumentsFrom ts x rounds ⟨i, d⟩)
      (argumentsUpTo p bound (ts.drop i)) := by
  induction rounds generalizing i bound with
  | zero => omega
  | succ rounds ih =>
    cases bound with
    | nil =>
      rw [List.length_nil] at bounded
      omega
    | cons b bound =>
      rw [List.length_cons] at bounded
      rw [argumentsFrom, argumentsUpTo]
      refine (h i inside).bind fun e j passed within => ?_
      obtain ⟨t, on⟩ := exists_token within
      simp only [peek_drop on]
      by_cases comma : t.kind = .comma
      · obtain ⟨more, consumed, behind⟩ := consume_passes on ended comma (by simp) d
        rw [bind_run consumed, if_pos comma, behind]
        have rest : Reads ts short (Passed (j + 1) d) _ (argumentsUpTo p bound _) :=
          ih more (by omega) (by omega)
        exact rest.bind fun es k later there => reads_ok there (by omega)
      · rw [bind_run (consume_other on comma d), if_neg comma]
        refine (expect_agrees ended within (by simp) d).bind ?_
        rintro ⟨⟩ c _ there ⟨rfl, rfl⟩
        exact reads_ok there (Nat.lt_succ_of_lt passed)

structure Expressions (ts : List Token) (calls : Nat) : Prop where
  operand {d i : Nat} (ls : List Level) (inside : i < ts.length) :
    Reads ts (calls < ls.length + 2 + 9 * (maxNesting - d)) (Passed i d)
      (operand ts calls ls ⟨i, d⟩) (exprAt d ls (ts.drop i))
  primary {d i : Nat} {t : Token} (on : ts[i]? = some t) (plain : unaryOperator? t.kind = none) :
    Reads ts (calls < 1 + 9 * (maxNesting - d)) (Passed i d)
      (primary ts calls ⟨i, d⟩) (unaryAt (maxNesting - d) (ts.drop i))
  arguments {d i : Nat} (inside : i < ts.length) :
    Reads ts (calls < 9 + 9 * (maxNesting - d)) (Passed i d)
      (arguments ts calls ⟨i, d⟩) (Script.arguments (exprAt d Level.all) (ts.drop i))

theorem expressions_zero (ts : List Token) : Expressions ts 0 where
  operand ls inside := ⟨inside, by omega⟩
  primary on plain := ⟨inside_of_token on, by omega⟩
  arguments inside := ⟨inside, by omega⟩

namespace Expressions

variable {calls : Nat} (ended : Ended ts) (ih : Expressions ts calls)

include ended ih

theorem unary (inside : i < ts.length) :
    Reads ts (calls + 1 < 2 + 9 * (maxNesting - d)) (Passed i d)
      (Indexed.operand ts (calls + 1) [] ⟨i, d⟩) (unaryAt (maxNesting - d) (ts.drop i)) := by
  obtain ⟨t, on⟩ := exists_token inside
  rw [Indexed.operand, bind_run (current_run on d)]
  cases operator : unaryOperator? t.kind with
  | none => exact (ih.primary on operator).weaken (by omega)
  | some op =>
    have other : t.kind ≠ .finish := fun finish => by
      rw [finish] at operator
      cases operator
    obtain ⟨more, passes⟩ := bump_passes on ended other d
    obtain ⟨u, next⟩ := exists_token more
    rw [unaryAt.eq_def, peek_drop on]
    simp only [operator, bind_run passes, advance_drop on other]
    rcases room_cases d with ⟨full, room⟩ | ⟨free, room⟩
    · rw [room]
      exact descend_full next full _
    · rw [room, descend_free free]
      have reads : Reads ts (calls + 1 < 2 + 9 * (maxNesting - (d + 1) + 1)) _ _ _ :=
        (ih.operand (d := d + 1) [] more).weaken (by rw [List.length_nil]; omega)
      exact reads.bind fun e j passed within => reads_ok within (Nat.lt_of_succ_lt passed)

theorem level (l : Level) (tighter : List Level) (inside : i < ts.length) :
    Reads ts (calls + 1 < (l :: tighter).length + 2 + 9 * (maxNesting - d)) (Passed i d)
      (Indexed.operand ts (calls + 1) (l :: tighter) ⟨i, d⟩) (exprAt d (l :: tighter) (ts.drop i)) := by
  rw [Indexed.operand, bind_run (get_run _), exprAt, operandOf]
  have reads (d' : Nat) (deep : d ≤ d') (i' : Nat) (inside : i' < ts.length) :
      Reads ts (calls + 1 < (l :: tighter).length + 2 + 9 * (maxNesting - d)) (Passed i' d')
        (Indexed.operand ts calls tighter ⟨i', d'⟩) (exprAt d' tighter (ts.drop i')) :=
    (ih.operand tighter inside).weaken (by rw [List.length_cons]; omega)
  refine (reads d (Nat.le_refl d) i inside).bind fun left j passed within => ?_
  have chained := chain_reads (l := l) ended reads left (Nat.le_refl d) within (Nat.sub_le _ _)
  refine Agrees.after chained ?_
  rintro e ⟨k, _⟩ _ there ⟨rfl, later⟩
  exact reads_ok there (Nat.lt_of_lt_of_le passed later)

theorem primary_succ (on : ts[i]? = some t) (plain : unaryOperator? t.kind = none) :
    Reads ts (calls + 1 < 1 + 9 * (maxNesting - d)) (Passed i d)
      (Indexed.primary ts (calls + 1) ⟨i, d⟩) (unaryAt (maxNesting - d) (ts.drop i)) := by
  have inside := inside_of_token on
  rw [unaryAt.eq_def, peek_drop on, plain]
  simp only [Indexed.primary]
  by_cases finish : t.kind = .finish
  · have last := (finish_iff ended on).mp finish
    rw [bind_run (by rw [bump_run on, if_neg last])]
    simp only [finish, complain, here_drop on]
    exact ⟨inside, rfl⟩
  · obtain ⟨more, passes⟩ := bump_passes on ended finish d
    obtain ⟨u, next⟩ := exists_token more
    rw [bind_run passes, advance_drop on finish]
    cases kind : t.kind with
    | number value => exact ⟨more, rfl, Nat.lt_succ_self i, rfl⟩
    | truth value => exact ⟨more, rfl, Nat.lt_succ_self i, rfl⟩
    | name text =>
      simp only [peek_drop next]
      by_cases opens : u.kind = .openParen
      · obtain ⟨more', consumed, behind⟩ := consume_passes next ended opens (by simp) d
        obtain ⟨v, next'⟩ := exists_token more'
        rw [bind_run consumed, if_pos opens, behind]
        rcases room_cases d with ⟨full, room⟩ | ⟨free, room⟩
        · simp only [↓reduceIte, room]
          exact descend_full next' full _
        · simp only [↓reduceIte, room]
          rw [descend_free free]
          have reads : Reads ts (calls + 1 < 1 + 9 * (maxNesting - (d + 1) + 1)) _ _ _ :=
            (ih.arguments (d := d + 1) more').weaken (by omega)
          rw [here_drop on]
          exact reads.bind fun args j passed within => reads_ok within (show i < j by omega)
      · rw [bind_run (consume_other next opens d), if_neg opens, here_drop on]
        exact ⟨more, rfl, Nat.lt_succ_self i, rfl⟩
    | openParen =>
      simp only
      rcases room_cases d with ⟨full, room⟩ | ⟨free, room⟩
      · rw [room]
        exact descend_full next full _
      · rw [room, descend_free free]
        have reads : Reads ts (calls + 1 < 1 + 9 * (maxNesting - (d + 1) + 1)) _ _ _ :=
          (ih.operand (d := d + 1) Level.all more).weaken (by simp [Level.all]; omega)
        refine reads.bind fun e j passed within => ?_
        refine (expect_agrees ended within (by simp) (d + 1)).bind ?_
        rintro ⟨⟩ c _ there ⟨rfl, rfl⟩
        exact reads_ok there (show i < j + 1 by omega)
    | finish => exact absurd kind finish
    | _ =>
      simp only [complain, here_drop on]
      exact ⟨more, rfl⟩

theorem arguments_succ (inside : i < ts.length) :
    Reads ts (calls + 1 < 9 + 9 * (maxNesting - d)) (Passed i d)
      (Indexed.arguments ts (calls + 1) ⟨i, d⟩)
      (Script.arguments (exprAt d Level.all) (ts.drop i)) := by
  obtain ⟨t, on⟩ := exists_token inside
  simp only [Indexed.arguments, Script.arguments, peek_drop on]
  by_cases closes : t.kind = .closeParen
  · obtain ⟨more, consumed, behind⟩ := consume_passes on ended closes (by simp) d
    rw [bind_run consumed, if_pos closes, behind]
    exact reads_ok more (Nat.lt_succ_self i)
  · rw [bind_run (consume_other on closes d), if_neg closes]
    have reads (i' : Nat) (inside : i' < ts.length) :
        Reads ts (calls + 1 < 9 + 9 * (maxNesting - d)) (Passed i' d)
          (Indexed.operand ts calls Level.all ⟨i', d⟩) (exprAt d Level.all (ts.drop i')) :=
      (ih.operand Level.all inside).weaken (by simp [Level.all]; omega)
    exact argumentsFrom_reads ended reads inside (Nat.sub_le _ _)
      (Nat.le_of_eq List.length_drop.symm)

theorem succ : Expressions ts (calls + 1) where
  operand ls inside :=
    match ls with
    | [] => (ih.unary ended inside).weaken (by rw [List.length_nil]; omega)
    | l :: tighter => ih.level ended l tighter inside
  primary on plain := ih.primary_succ ended on plain
  arguments inside := ih.arguments_succ ended inside

end Expressions

theorem expressions (ended : Ended ts) (calls : Nat) : Expressions ts calls := by
  induction calls with
  | zero => exact expressions_zero ts
  | succ calls ih => exact ih.succ ended

end TurtlePlayback.Script.Indexed
