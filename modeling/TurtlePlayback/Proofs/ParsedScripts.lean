import Mathlib.Tactic.SplitIfs
import TurtlePlayback.Proofs.GrammarCompleteness

namespace TurtlePlayback.Script

namespace Lexeme

theorem word_unfinished (text : String) : word text ≠ .finish := by
  unfold word
  split <;> simp

theorem pair?_unfinished {a b : Char} {k : Kind} (known : pair? a b = some k) : k ≠ .finish := by
  unfold pair? at known
  split at known <;> cases known <;> simp

theorem single?_unfinished {c : Char} {k : Kind} (known : single? c = some k) : k ≠ .finish := by
  unfold single? at known
  split at known <;> cases known <;> simp

theorem read_unfinished {c : Char} {cs : List Char} {k : Kind} {n : Nat}
    (met : read c cs = .ok (.token k, n)) : k ≠ .finish := by
  unfold read at met
  split_ifs at met
  · cases met
  · cases met
  · cases met
  · simp only [bind_ok, Prod.exists] at met
    obtain ⟨value, length, -, same⟩ := met
    cases same
    simp
  · cases met
    exact word_unfinished _
  · split at met
    · next pair =>
      cases met
      obtain ⟨_, -, known⟩ := Option.bind_eq_some_iff.mp pair
      exact pair?_unfinished known
    · split at met
      · next known =>
        cases met
        exact single?_unfinished known
      · cases met

end Lexeme

theorem tokensFrom_ended {offset depth : Nat} {read : Array Token} {cs : List Char} {ts : List Token}
    (lexed : tokensFrom offset depth read cs = .ok ts) :
    ∃ behind, ts = read.toList ++ behind ∧ Ended behind := by
  have pushed {t : Token} {read : Array Token} (other : t.kind ≠ .finish)
      (rest : ∃ behind, ts = (read.push t).toList ++ behind ∧ Ended behind) :
      ∃ behind, ts = read.toList ++ behind ∧ Ended behind := by
    obtain ⟨behind, whole, ended⟩ := rest
    exact ⟨t :: behind, by simpa using whole, .goes_on other ended⟩
  fun_induction tokensFrom offset depth read cs with
  | case1 offset depth read =>
    cases lexed
    exact ⟨_, Array.toList_push, .finish rfl⟩
  | case2 => cases lexed
  | case3 offset depth read c cs more stop met ih => exact ih lexed
  | case4 offset read c cs more stop met ih => exact pushed (by simp) (ih lexed)
  | case5 offset depth read c cs more stop inside met ih => exact ih lexed
  | case6 offset depth read c cs more stop kind met ih =>
    exact pushed (Lexeme.read_unfinished met) (ih lexed)

theorem tokens_ended {source : String} {ts : List Token} (lexed : tokens source = .ok ts) :
    Ended ts := by
  obtain ⟨behind, rfl, ended⟩ := tokensFrom_ended lexed
  exact ended

/-- A text is parsed as a tree where its tokens derive that tree, and nowhere else. Of the trees
that tokens derive, none is missed but by the bound on the depth of expressions. -/
theorem Tree.parse_exact (source : String) (t : Tree) :
    (Tree.parse source = .ok t → ∃ ts, tokens source = .ok ts ∧ t.Derives ts) ∧
    ∀ ts, tokens source = .ok ts → t.Derives ts →
      Tree.parse source = .ok t ∨
        ∃ e, Tree.parse source = .error e ∧ e.complaint.message = "expression nested too deeply" := by
  refine ⟨fun parsed => ?_, fun ts lexed derives => ?_⟩
  · obtain ⟨ts, lexed, parsed⟩ := bind_ok.mp parsed
    exact ⟨ts, lexed, ofTokens_accepts (tokens_ended lexed) parsed⟩
  · have same : Tree.parse source = Tree.ofTokens ts := by
      rw [Tree.parse, lexed]
      rfl
    rw [same]
    exact derives.reads.imp_right fun ⟨_, deep⟩ => ⟨_, deep, rfl⟩

theorem Tree.parse_exact_assignment :
    let source := "x = !y"
    let ts : List Token :=
      [⟨.name "x", 0, 1⟩, ⟨.assign, 2, 3⟩, ⟨.bang, 4, 5⟩, ⟨.name "y", 5, 6⟩, ⟨.finish, 6, 6⟩]
    let t : Tree := ⟨[], [⟨.assign "x" (.unary .not (.name "y" 5)), 0⟩]⟩
    (tokens source = .ok ts ∧ t.Derives ts) ∧ Tree.parse source = .ok t ∧
      (∃ us, tokens source = .ok us ∧ t.Derives us) ∧
      (Tree.parse source = .ok t ∨
        ∃ e, Tree.parse source = .error e ∧ e.complaint.message = "expression nested too deeply") := by
  intro source ts t
  have lexed : tokens source = .ok ts := by decide +kernel
  have value : Expr.Derives operators [⟨.bang, 4, 5⟩, ⟨.name "y", 5, 6⟩] (.unary .not (.name "y" 5)) :=
    .operand (.operand (.operand (.operand (.operand (.operand (.unary .not rfl (.name rfl)))))))
  have derives : t.Derives ts := .script (.last (.assign rfl rfl value)) rfl
  have exact := Tree.parse_exact source t
  have parsed : Tree.parse source = .ok t := by
    refine (exact.2 ts lexed derives).resolve_right fun ⟨e, refused, _⟩ => ?_
    have accepted : (Tree.parse source).isOk := by decide +kernel
    rw [refused] at accepted
    cases accepted
  exact ⟨⟨lexed, derives⟩, parsed, exact.1 parsed, exact.2 ts lexed derives⟩

end TurtlePlayback.Script
