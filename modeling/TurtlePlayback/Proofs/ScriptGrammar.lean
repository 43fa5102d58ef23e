import TurtlePlayback.Script.Token
import TurtlePlayback.Script.Tree

namespace TurtlePlayback.Script

def UnaryOp.symbol : UnaryOp → Kind
  | neg => .minus
  | not => .bang

def BinaryOp.symbol : BinaryOp → Kind
  | or => .either
  | and => .both
  | eq => .equal
  | ne => .notEqual
  | lt => .less
  | le => .lessEqual
  | gt => .greater
  | ge => .greaterEqual
  | add => .plus
  | sub => .minus
  | mul => .star
  | div => .slash
  | mod => .percent

def operators : List (List BinaryOp) :=
  [[.or], [.and], [.eq, .ne], [.lt, .le, .gt, .ge], [.add, .sub], [.mul, .div, .mod]]

/-- Parts with commas between them, and none behind the last. -/
inductive Commas : List (List Token) → List Token → Prop
  | none : Commas [] []
  | one (ts : List Token) : Commas [ts] ts
  | more (ts : List Token) {t : Token} {next : List Token} {parts : List (List Token)}
      {us : List Token} (comma : t.kind = .comma) (rest : Commas (next :: parts) us) :
      Commas (ts :: next :: parts) (ts ++ t :: us)

/-- Expressions whose operators outside of parentheses are of the given levels. Operators of one
level group to the left; those of no level are prefixes. -/
inductive Expr.Derives : List (List BinaryOp) → List Token → Expr → Prop
  | number {t : Token} {v : Float} (kind : t.kind = .number v) :
      Derives [] [t] (.literal (.number v))
  | truth {t : Token} {b : Bool} (kind : t.kind = .truth b) : Derives [] [t] (.literal (.truth b))
  | name {t : Token} {n : String} (kind : t.kind = .name n) : Derives [] [t] (.name n t.start)
  | call {t o c : Token} {n : String} {parts : List (List Token × Expr)} {ts : List Token}
      (kind : t.kind = .name n) (opens : o.kind = .openParen)
      (commas : Commas (parts.map Prod.fst) ts) (each : ∀ p ∈ parts, Derives operators p.1 p.2)
      (closes : c.kind = .closeParen) :
      Derives [] (t :: o :: ts ++ [c]) (.call n (parts.map Prod.snd) t.start)
  | parens {o c : Token} {ts : List Token} {e : Expr} (opens : o.kind = .openParen)
      (inner : Derives operators ts e) (closes : c.kind = .closeParen) :
      Derives [] (o :: ts ++ [c]) e
  | unary {t : Token} {ts : List Token} {e : Expr} (op : UnaryOp) (kind : t.kind = op.symbol)
      (operand : Derives [] ts e) : Derives [] (t :: ts) (.unary op e)
  | operand {ops : List BinaryOp} {tighter : List (List BinaryOp)} {ts : List Token} {e : Expr}
      (derives : Derives tighter ts e) : Derives (ops :: tighter) ts e
  | binary {ops : List BinaryOp} {tighter : List (List BinaryOp)} {t : Token}
      {left right : List Token} {a b : Expr} (op : BinaryOp) (level : op ∈ ops)
      (kind : t.kind = op.symbol) (before : Derives (ops :: tighter) left a)
      (behind : Derives tighter right b) :
      Derives (ops :: tighter) (left ++ t :: right) (.binary op a b)

def Arguments (ts : List Token) (es : List Expr) : Prop :=
  ∃ parts : List (List Token × Expr), Commas (parts.map Prod.fst) ts ∧ es = parts.map Prod.snd ∧
    ∀ p ∈ parts, Expr.Derives operators p.1 p.2

inductive Stmt.Derives : List Token → Stmt → Prop
  | declare {w t a : Token} {n : String} {ts : List Token} {e : Expr} (word : w.kind = .letWord)
      (kind : t.kind = .name n) (assign : a.kind = .assign) (value : Expr.Derives operators ts e) :
      Derives (w :: t :: a :: ts) ⟨.declare n e, w.start⟩
  | assign {t a : Token} {n : String} {ts : List Token} {e : Expr} (kind : t.kind = .name n)
      (assign : a.kind = .assign) (value : Expr.Derives operators ts e) :
      Derives (t :: a :: ts) ⟨.assign n e, t.start⟩
  | command {t o c : Token} {n : String} {ts : List Token} {es : List Expr}
      (kind : t.kind = .name n) (opens : o.kind = .openParen) (arguments : Arguments ts es)
      (closes : c.kind = .closeParen) : Derives (t :: o :: ts ++ [c]) ⟨.command n es, t.start⟩

/-- The statements between the braces of a block: a separator ends each but the last, which the
brace may end. -/
inductive Body : List Token → List Stmt → Prop
  | empty : Body [] []
  | separator {t : Token} {ts : List Token} {body : List Stmt} (kind : t.kind = .separator)
      (rest : Body ts body) : Body (t :: ts) body
  | last {ts : List Token} {s : Stmt} (derives : s.Derives ts) : Body ts [s]
  | statement {t : Token} {ts us : List Token} {s : Stmt} {body : List Stmt} (derives : s.Derives ts)
      (ends : t.kind = .separator) (rest : Body us body) : Body (ts ++ t :: us) (s :: body)

/-- The blocks and loose statements of a script up to its end: the statements of its setup block, if
it has one, and those of its step in the order of the text. -/
inductive Items : List Token → Option (List Stmt) → List Stmt → Prop
  | empty : Items [] none []
  | separator {t : Token} {ts : List Token} {setup : Option (List Stmt)} {step : List Stmt}
      (kind : t.kind = .separator) (rest : Items ts setup step) : Items (t :: ts) setup step
  | last {ts : List Token} {s : Stmt} (derives : s.Derives ts) : Items ts none [s]
  | statement {t : Token} {ts us : List Token} {s : Stmt} {setup : Option (List Stmt)}
      {step : List Stmt} (derives : s.Derives ts) (ends : t.kind = .separator)
      (rest : Items us setup step) : Items (ts ++ t :: us) setup (s :: step)
  | setup {t o c : Token} {ts us : List Token} {body step : List Stmt}
      (kind : t.kind = .name "setup") (opens : o.kind = .openBrace) (inner : Body ts body)
      (closes : c.kind = .closeBrace) (rest : Items us none step) :
      Items (t :: o :: ts ++ c :: us) (some body) step
  | step {t o c : Token} {ts us : List Token} {setup : Option (List Stmt)} {body step : List Stmt}
      (kind : t.kind = .name "step") (opens : o.kind = .openBrace) (inner : Body ts body)
      (closes : c.kind = .closeBrace) (rest : Items us setup step) :
      Items (t :: o :: ts ++ c :: us) setup (body ++ step)

inductive Tree.Derives : List Token → Tree → Prop
  | script {f : Token} {ts : List Token} {setup : Option (List Stmt)} {step : List Stmt}
      (items : Items ts setup step) (finish : f.kind = .finish) :
      Derives (ts ++ [f]) ⟨setup.getD [], step⟩

theorem Stmt.Derives.length_pos {ts : List Token} {s : Stmt} (derives : s.Derives ts) :
    0 < ts.length := by
  cases derives <;> simp

theorem Body.separators {separators ts : List Token} {body : List Stmt} (derives : Body ts body)
    (all : ∀ t ∈ separators, t.kind = .separator) : Body (separators ++ ts) body := by
  induction separators with
  | nil => exact derives
  | cons t separators ih =>
    rw [List.forall_mem_cons] at all
    exact .separator all.1 (ih all.2)

theorem Items.separators {separators ts : List Token} {setup : Option (List Stmt)}
    {step : List Stmt} (derives : Items ts setup step)
    (all : ∀ t ∈ separators, t.kind = .separator) : Items (separators ++ ts) setup step := by
  induction separators with
  | nil => exact derives
  | cons t separators ih =>
    rw [List.forall_mem_cons] at all
    exact .separator all.1 (ih all.2)

theorem UnaryOp.symbol_ne_finish (op : UnaryOp) : op.symbol ≠ .finish := by
  cases op <;> simp [symbol]

theorem BinaryOp.symbol_ne_finish (op : BinaryOp) : op.symbol ≠ .finish := by
  cases op <;> simp [symbol]

def Unfinished (ts : List Token) : Prop :=
  ∀ t ∈ ts, t.kind ≠ .finish

theorem unfinished_cons {t : Token} {ts : List Token} {k : Kind} (kind : t.kind = k)
    (goes_on : k ≠ .finish) (rest : Unfinished ts) : Unfinished (t :: ts) :=
  List.forall_mem_cons.mpr ⟨kind ▸ goes_on, rest⟩

theorem unfinished_single {t : Token} {k : Kind} (kind : t.kind = k) (goes_on : k ≠ .finish) :
    Unfinished [t] :=
  unfinished_cons kind goes_on (List.forall_mem_nil _)

theorem unfinished_append {ts us : List Token} (first : Unfinished ts) (rest : Unfinished us) :
    Unfinished (ts ++ us) :=
  List.forall_mem_append.mpr ⟨first, rest⟩

theorem Commas.unfinished {parts : List (List Token)} {ts : List Token} (commas : Commas parts ts)
    (each : ∀ part ∈ parts, Unfinished part) : Unfinished ts := by
  induction commas with
  | none => exact List.forall_mem_nil _
  | one ts => exact each ts (List.mem_singleton_self ts)
  | more ts comma _ ih =>
    rw [List.forall_mem_cons] at each
    exact unfinished_append each.1 (unfinished_cons comma (by simp) (ih each.2))

theorem Expr.Derives.unfinished {ops : List (List BinaryOp)} {ts : List Token} {e : Expr}
    (derives : Expr.Derives ops ts e) : Unfinished ts := by
  induction derives with
  | number kind => exact unfinished_single kind (by simp)
  | truth kind => exact unfinished_single kind (by simp)
  | name kind => exact unfinished_single kind (by simp)
  | call kind opens commas _ closes ih =>
    have inner := commas.unfinished (List.forall_mem_map.mpr ih)
    have closed := unfinished_append inner (unfinished_single closes (by simp))
    exact unfinished_cons kind (by simp) (unfinished_cons opens (by simp) closed)
  | parens opens _ closes ih =>
    have closed := unfinished_append ih (unfinished_single closes (by simp))
    exact unfinished_cons opens (by simp) closed
  | unary op kind _ ih => exact unfinished_cons kind op.symbol_ne_finish ih
  | operand _ ih => exact ih
  | binary op _ kind _ _ left right =>
    have goes_on := unfinished_cons kind op.symbol_ne_finish right
    exact unfinished_append left goes_on

theorem Arguments.unfinished {ts : List Token} {es : List Expr} (arguments : Arguments ts es) :
    Unfinished ts := by
  obtain ⟨parts, commas, -, each⟩ := arguments
  exact commas.unfinished (List.forall_mem_map.mpr fun p there => (each p there).unfinished)

theorem Stmt.Derives.unfinished {ts : List Token} {s : Stmt} (derives : s.Derives ts) :
    Unfinished ts := by
  cases derives with
  | declare word kind assign value =>
    have behind := unfinished_cons assign (by simp) value.unfinished
    exact unfinished_cons word (by simp) (unfinished_cons kind (by simp) behind)
  | assign kind assign value =>
    exact unfinished_cons kind (by simp) (unfinished_cons assign (by simp) value.unfinished)
  | command kind opens arguments closes =>
    have closed := unfinished_append arguments.unfinished (unfinished_single closes (by simp))
    exact unfinished_cons kind (by simp) (unfinished_cons opens (by simp) closed)

theorem Body.unfinished {ts : List Token} {body : List Stmt} (derives : Body ts body) :
    Unfinished ts := by
  induction derives with
  | empty => exact List.forall_mem_nil _
  | separator kind _ ih => exact unfinished_cons kind (by simp) ih
  | last derives => exact derives.unfinished
  | statement derives ends _ ih =>
    exact unfinished_append derives.unfinished (unfinished_cons ends (by simp) ih)

inductive Ended : List Token → Prop
  | finish {f : Token} (kind : f.kind = .finish) : Ended [f]
  | goes_on {t : Token} {ts : List Token} (kind : t.kind ≠ .finish) (rest : Ended ts) :
      Ended (t :: ts)

theorem Ended.tail {t : Token} {ts : List Token} (ended : Ended (t :: ts))
    (other : t.kind ≠ .finish) : Ended ts := by
  cases ended with
  | finish kind => exact absurd kind other
  | goes_on _ rest => exact rest

theorem Ended.behind {ts us : List Token} (ended : Ended (ts ++ us)) (unfinished : Unfinished ts) :
    Ended us := by
  induction ts with
  | nil => exact ended
  | cons t ts ih =>
    obtain ⟨other, unfinished⟩ := List.forall_mem_cons.mp unfinished
    exact ih (ended.tail other) unfinished

theorem Ended.behind_block {t o c : Token} {n : String} {ts us : List Token} {body : List Stmt}
    (ended : Ended (t :: o :: ts ++ c :: us)) (kind : t.kind = .name n) (opens : o.kind = .openBrace)
    (derives : Body ts body) (closes : c.kind = .closeBrace) : Ended us := by
  have inside := (ended.tail (by simp [kind])).tail (by simp [opens])
  exact (inside.behind derives.unfinished).tail (by simp [closes])

end TurtlePlayback.Script
