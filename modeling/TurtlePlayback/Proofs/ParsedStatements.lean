import TurtlePlayback.Proofs.ExceptResults
import TurtlePlayback.Script.Tree.Parsing

namespace TurtlePlayback.Script

variable {P : Stmt → Prop} {ts rest : List Token}

theorem blockBodyUpTo_forall (h : ∀ ts s rest, statement ts = .ok (s, rest) → P s)
    (bound : List Token) {read : Array Stmt} (old : ∀ s ∈ read, P s) {body : List Stmt}
    (parsed : blockBodyUpTo read bound ts = .ok (body, rest)) : ∀ s ∈ body, P s := by
  induction bound generalizing ts read with
  | nil => cases parsed
  | cons _ bound ih =>
    simp only [blockBodyUpTo] at parsed
    split at parsed
    · cases parsed
      simpa using old
    · split at parsed
      · cases parsed
      · split at parsed
        · cases parsed
        · simp only [bind_ok, Prod.exists] at parsed
          obtain ⟨s, ts', first, ts'', _, more⟩ := parsed
          refine ih ?_ more
          intro s' member
          rcases Array.mem_push.mp member with member | rfl
          · exact old s' member
          · exact h _ _ _ first

theorem blockBody_forall (h : ∀ ts s rest, statement ts = .ok (s, rest) → P s) {body : List Stmt}
    (parsed : blockBody ts = .ok (body, rest)) : ∀ s ∈ body, P s :=
  blockBodyUpTo_forall h ts (by simp) parsed

theorem treeUpTo_forall (h : ∀ ts s rest, statement ts = .ok (s, rest) → P s)
    (bound : List Token) {setup : Option (List Stmt)} {step : Array Stmt}
    (old : ∀ s ∈ setup.getD [] ++ step.toList, P s) {t : Tree}
    (parsed : treeUpTo setup step bound ts = .ok t) : ∀ s ∈ t.setup ++ t.step, P s := by
  induction bound generalizing ts setup step with
  | nil =>
    cases parsed
    exact old
  | cons _ bound ih =>
    simp only [treeUpTo] at parsed
    split at parsed
    · cases parsed
      exact old
    · rw [List.forall_mem_append] at old
      split at parsed
      · simp only [bind_ok, Prod.exists] at parsed
        obtain ⟨body, ts', block, more⟩ := parsed
        split at more
        · cases more
        · exact ih (List.forall_mem_append.mpr ⟨blockBody_forall h block, old.2⟩) more
      · simp only [bind_ok, Prod.exists] at parsed
        obtain ⟨body, ts', block, more⟩ := parsed
        refine ih (List.forall_mem_append.mpr ⟨old.1, ?_⟩) more
        rw [Array.toList_appendList, List.forall_mem_append]
        exact ⟨old.2, blockBody_forall h block⟩
      · simp only [bind_ok, Prod.exists] at parsed
        obtain ⟨s, ts', first, ts'', _, more⟩ := parsed
        refine ih (List.forall_mem_append.mpr ⟨old.1, ?_⟩) more
        rw [Array.toList_push, List.forall_mem_append]
        exact ⟨old.2, by simpa using h _ _ _ first⟩

theorem parse_forall (h : ∀ ts s rest, statement ts = .ok (s, rest) → P s) {source : String}
    {t : Tree} (parsed : Tree.parse source = .ok t) : ∀ s ∈ t.setup ++ t.step, P s := by
  rw [Tree.parse, bind_ok] at parsed
  obtain ⟨ts, _, parsed⟩ := parsed
  exact treeUpTo_forall h ts (by simp) parsed

end TurtlePlayback.Script
