import TurtlePlayback.Proofs.LexedTexts
import TurtlePlayback.Proofs.RunParts
import TurtlePlayback.Proofs.SitedErrors
import TurtlePlayback.Turtle.Environment

namespace TurtlePlayback

namespace Script

variable {source : String} {offset depth : Nat} {cs : List Char} {ts : List Token}

theorem tokensFrom_error {read : Array Token} {e : Error}
    (failed : tokensFrom offset depth read cs = .error e) :
    ∃ front behind, cs = front ++ behind ∧ e.offset = offset + byteLength front := by
  -- What is at fault behind a lexeme is at fault in the text with the lexeme in front.
  have further {c : Char} {cs : List Char} {offset more : Nat}
      (rest : ∃ front behind, cs.drop more = front ++ behind ∧
        e.offset = offset + byteLength (c :: cs.take more) + byteLength front) :
      ∃ front behind, c :: cs = front ++ behind ∧ e.offset = offset + byteLength front := by
    obtain ⟨front, behind, whole, site⟩ := rest
    refine ⟨(c :: cs.take more) ++ front, behind, ?_, ?_⟩
    · rw [List.append_assoc, ← whole, ← Lexeme.parts]
    · rw [site, byteLength_append, Nat.add_assoc]
  fun_induction tokensFrom offset depth read cs with
  | case1 => cases failed
  | case2 offset depth read c cs skipped complaint met =>
    cases failed
    obtain ⟨front, behind, whole, length⟩ := Lexeme.read_error met
    exact ⟨front, behind, whole, by rw [length]⟩
  | case3 offset depth read c cs more stop met ih => exact further (ih failed)
  | case4 offset read c cs more stop met ih => exact further (ih failed)
  | case5 offset depth read c cs more stop inside met ih => exact further (ih failed)
  | case6 offset depth read c cs more stop kind met ih => exact further (ih failed)

theorem tokens_sited (source : String) :
    Sited (Placed source) (Marked (Placed source)) (tokens source) := by
  constructor
  · intro ts lexed
    obtain ⟨us, rfl, covered⟩ := (lexing_iff.mpr lexed).spanned
    intro t member
    rcases List.mem_append.mp member with inner | last
    · obtain ⟨-, text, -, front, behind, whole, start, -⟩ := covered t inner
      rw [start, Nat.zero_add]
      exact .of_append (by simpa using whole)
    · obtain rfl := List.mem_singleton.mp last
      have whole : source.toList = source.toList ++ [] := (List.append_nil _).symm
      simpa using Placed.of_append whole
  · intro e failed
    obtain ⟨front, behind, whole, site⟩ := tokensFrom_error failed
    rw [site, Nat.zero_add]
    exact .of_append whole

namespace Run

variable {σ ε α β : Type}

theorem bind_error {x : Run σ ε α} {k : α → Run σ ε β} {m m' : Machine σ} {t : Trap ε} :
    (x >>= k) m = .error t m' ↔
      x m = .error t m' ∨ ∃ a m₁, x m = .ok a m₁ ∧ k a m₁ = .error t m' := by
  simp only [Bind.bind, EStateM.bind]
  cases x m <;> simp

def Unplaced (x : Run σ ε α) : Prop :=
  ∀ m t m', x m = .error t m' → t.offset = none

theorem Unplaced.bind {x : Run σ ε α} {f : α → Run σ ε β} (first : Unplaced x)
    (next : ∀ a, Unplaced (f a)) : Unplaced (x >>= f) := by
  intro m t m' failed
  rcases bind_error.mp failed with failed | ⟨a, m₁, -, failed⟩
  · exact first m t m' failed
  · exact next a m₁ t m' failed

theorem Unplaced.fail (f : Fault ε) : Unplaced (Run.fail f : Run σ ε α) := by
  rintro m t m' ⟨⟩
  rfl

theorem Unplaced.pop : Unplaced (Run.pop : Run σ ε Value) := by
  rintro ⟨vars, stack, host⟩ t m' failed
  cases stack with
  | nil =>
    cases failed
    rfl
  | cons v stack => cases failed

theorem Unplaced.inherited : Inherited fun α => Unplaced (σ := σ) (ε := ε) (α := α) where
  bind := .bind
  pure a := by rintro m t m' ⟨⟩
  fail := .fail
  get := by rintro m t m' ⟨⟩
  push v := by rintro m t m' ⟨⟩
  pop := .pop
  store slot := by
    apply Unplaced.pop.bind
    intro v m t m' failed
    dsimp only at failed
    split at failed
    · cases failed
    · cases failed
      rfl

theorem located_error {x : Run σ ε α} (unplaced : Unplaced x) {offset : Option Nat} {m m' : Machine σ}
    {t : Trap ε} (failed : located offset x m = .error t m') : t.offset = offset := by
  simp only [located] at failed
  split at failed
  · cases failed
  · next t' m₁ ran =>
    cases failed
    simp [unplaced m t' _ ran]

variable [Host σ ε]

def Unplacing (σ : Type) {ε : Type} [Host σ ε] : Prop :=
  ∀ (s : σ) c args r s', Host.perform s c args = (.error r, s') → r.offset = none

theorem Unplaced.instr (host : Unplacing σ) (literals : Array Literal) (i : Instr) :
    Unplaced (Run.instr literals i : Run σ ε Unit) := by
  apply Unplaced.inherited.instr
  intro c args _ m t m' failed
  simp only [Run.command] at failed
  split at failed
  · cases failed
    rfl
  · split at failed
    · cases failed
    · next refused =>
      cases failed
      exact host _ _ _ _ _ refused

variable {P : Nat → Prop} {c : Code} {m m' : Machine σ} {t : Trap ε}

theorem instrs_error (host : Unplacing σ) (sites : c.Sites P) {pc : Nat} {is : List Instr}
    (failed : instrs c pc is m = .error t m') : ∀ o ∈ t.offset, P o := by
  induction is generalizing pc m with
  | nil => cases failed
  | cons i is ih =>
    rcases bind_error.mp failed with failed | ⟨_, m₁, -, failed⟩
    · intro o known
      rw [located_error (.instr host _ _) failed] at known
      exact sites o (Array.mem_of_getElem? known)
    · exact ih failed

theorem code_error (host : Unplacing σ) (sites : c.Sites P) (failed : code c m = .error t m') :
    ∀ o ∈ t.offset, P o := by
  have leftOver (m : Machine σ) :
      Unplaced (unless m.stack.isEmpty do Run.fail (.leftOver m.stack.length) : Run σ ε Unit) := by
    split
    · exact Unplaced.inherited.pure ()
    · exact .fail _
  rcases bind_error.mp failed with cleared | ⟨_, m₁, -, failed⟩
  · cases cleared
  · rcases bind_error.mp failed with failed | ⟨_, m₂, -, failed⟩
    · exact instrs_error host sites failed
    · have unplaced := Unplaced.inherited.bind Unplaced.inherited.get leftOver m₂ t m' failed
      simp [unplaced]

end Run

end Script

open Script

theorem Turtle.unplacing : Run.Unplacing Turtle := by
  intro s c args r s' refused
  simp only [Host.perform] at refused
  split at refused
  · cases refused
  · cases refused
    rfl

variable {source : String} {p : Program}

theorem Program.compile_source (compiled : Program.compile source = .ok p) : p.source = source := by
  simp only [Program.compile, Tree.lower, bind_ok] at compiled
  obtain ⟨t, -, ⟨scope, setup⟩, -, ⟨names, step⟩, -, same⟩ := compiled
  obtain rfl := Except.ok.inj same
  rfl

/-- Whatever a text is blamed for is at a place of it, with a line and a column to tell, and places
that differ are told apart, in the order of the text. -/
theorem errors_placed (source : String) :
    (∀ e, Program.compile source = .error e → Placed source e.offset ∧
      ∃ l, Location.ofOffset? source e.offset = some l ∧
        e.render source = l.render e.complaint.message) ∧
    (∀ p, Program.compile source = .ok p →
      ∀ c, c = p.setup ∨ c = p.step → ∀ (m m' : Machine Turtle) (t : Trap Turtle.Fault),
        Run.code c m = .error t m' → ∀ offset, t.offset = some offset → Placed source offset ∧
          ∃ l, Location.ofOffset? source offset = some l ∧
            Environment.failure p t = ⟨.step, l.render (t.fault.message Turtle.Fault.message)⟩) ∧
    ∀ a b, String.Pos.Raw.IsValid source ⟨a⟩ → String.Pos.Raw.IsValid source ⟨b⟩ →
      ∃ l k, Location.ofOffset? source a = some l ∧ Location.ofOffset? source b = some k ∧
        (l = k ↔ a = b) ∧ (l.Before k ↔ a < b) := by
  have sited := compile_sited (placed_zero source) (tokens_sited source)
  refine ⟨fun e failed => ?_, fun p compiled => ?_, fun a b first second => ?_⟩
  · have placed := sited.2 e failed
    obtain ⟨front, more, -, -, found⟩ := placed.located
    exact ⟨placed, _, found, by rw [Error.render, found]⟩
  · obtain ⟨setup, step⟩ := sited.1 p compiled
    intro c code m m' t failed offset known
    have sites : c.Sites (Placed source) := by
      rcases code with rfl | rfl
      · exact setup
      · exact step
    have placed := Run.code_error Turtle.unplacing sites failed offset known
    obtain ⟨front, more, -, -, found⟩ := placed.located
    refine ⟨placed, _, found, ?_⟩
    rw [Environment.failure, known, Program.compile_source compiled, Option.bind_some, found]
  · have first := placed_iff.mpr first
    have second := placed_iff.mpr second
    obtain ⟨_, _, -, -, found⟩ := first.located
    obtain ⟨_, _, -, -, found'⟩ := second.located
    have before := first.before_iff second found found'
    have behind := second.before_iff first found' found
    refine ⟨_, _, found, found', ⟨fun same => ?_, fun same => ?_⟩, before.symm⟩
    · rw [same] at before behind
      have forward := mt before.mp (Location.Before.irrefl _)
      have backward := mt behind.mp (Location.Before.irrefl _)
      omega
    · subst same
      exact Option.some.inj (found.symm.trans found')

theorem errors_placed_assertion :
    ∃ e p m m' t, Program.compile "# é\n@" = .error e ∧ Placed "# é\n@" e.offset ∧
      e.render "# é\n@" = "2:1: unexpected character '@'" ∧
      Program.compile "# é\nassert(false)" = .ok p ∧
      Run.code p.step (σ := Turtle) m = .error t m' ∧ Placed "# é\nassert(false)" 5 ∧
      Environment.failure p t = ⟨.step, "2:1: assertion failed"⟩ := by
  let e : Error := ⟨5, .unexpectedCharacter '@'⟩
  let p : Program := {
    setup := {}
    step := {
      instrs := #[.push 0, .command .assert 1], literals := #[.truth false], offsets := #[5, 5] }
    names := #[]
    source := "# é\nassert(false)" }
  let m : Machine Turtle := ⟨#[], [], {}⟩
  have rejected : Program.compile "# é\n@" = .error e := by decide +kernel
  have compiled : Program.compile "# é\nassert(false)" = .ok p := by decide +kernel
  have failed : Run.code p.step m = .error ⟨.refused .assertionFailed, some 5⟩ m := by rfl
  obtain ⟨placed, l, found, message⟩ := (errors_placed "# é\n@").1 e rejected
  obtain ⟨placed', k, found', message'⟩ :=
    (errors_placed "# é\nassert(false)").2.1 p compiled p.step (.inr rfl) m m _ failed 5 rfl
  have second_line : Location.ofOffset? "# é\n@" 5 = some ⟨2, 1⟩ := by decide +kernel
  have second_line' : Location.ofOffset? "# é\nassert(false)" 5 = some ⟨2, 1⟩ := by decide +kernel
  obtain rfl := Option.some.inj (found.symm.trans second_line)
  obtain rfl := Option.some.inj (found'.symm.trans second_line')
  exact ⟨e, p, m, m, _, rejected, placed, message, compiled, failed, placed', message'⟩

end TurtlePlayback
