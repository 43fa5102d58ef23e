import TurtlePlayback.Artifact.Table

namespace TurtlePlayback.Artifact.Table

variable {α : Type} {t t' : Table α} {h n : Nat}

theorem find?_insert (t : Table α) (a : α) (n : Nat) :
    (t.insert a).2.find? n =
      if n = (t.insert a).1 then some ⟨a, 1, Nat.one_pos⟩ else t.find? n := by
  simp only [find?, insert, Array.getElem?_push]
  by_cases hn : n = t.entries.size + 1
  · simp [hn]
  · have hp : n ≠ 0 → n - 1 ≠ t.entries.size := by omega
    by_cases hz : n = 0 <;> simp_all

theorem find?_setEntry {old : Entry α} (alive : t.find? h = some old) (e : Option (Entry α))
    (n : Nat) : (t.setEntry h e).find? n = if n = h then e else t.find? n := by
  have hz : h ≠ 0 := by rintro rfl; simp [find?] at alive
  have hs : h - 1 < t.entries.size := by
    rcases Nat.lt_or_ge (h - 1) t.entries.size with hs | hs
    · exact hs
    · simp [find?, hz, Array.getElem?_eq_none hs] at alive
  simp only [find?, setEntry, Array.getElem?_setIfInBounds]
  by_cases hn : n = h
  · simp [hn, hz, hs]
  · have hp : n ≠ 0 → h - 1 ≠ n - 1 := by omega
    by_cases h0 : n = 0 <;> simp_all

theorem exists_entry (alive : 0 < t.refs h) : ∃ e, t.find? h = some e := by
  cases he : t.find? h with
  | none => simp [refs, he] at alive
  | some e => exact ⟨e, rfl⟩

theorem refs_of_entry {e : Entry α} (he : t.find? h = some e) : t.refs h = e.refs := by
  simp [refs, he]

theorem refs_setEntry {old : Entry α} (alive : t.find? h = some old) (e : Option (Entry α))
    (n : Nat) : (t.setEntry h e).refs n = if n = h then e.elim 0 (·.refs) else t.refs n := by
  simp only [refs, find?_setEntry alive]
  split <;> rfl

theorem refs_fresh (t : Table α) (a : α) : t.refs (t.insert a).1 = 0 := by
  simp [refs, find?, insert]

theorem refs_insert (t : Table α) (a : α) (n : Nat) :
    (t.insert a).2.refs n = t.refs n + if n = (t.insert a).1 then 1 else 0 := by
  have fresh := refs_fresh t a
  simp only [refs, find?_insert] at fresh ⊢
  split
  · next hn => rw [hn, fresh]; rfl
  · simp

theorem refs_set {a old : α} (done : t.set h a = .ok (old, t')) (n : Nat) :
    t'.refs n = t.refs n := by
  cases he : t.find? h with
  | none => simp [set, he] at done
  | some e =>
    simp only [set, he, Except.ok.injEq, Prod.mk.injEq] at done
    rw [← done.2, refs_setEntry he]
    split
    · next hn => simp [hn, refs, he]
    · rfl

theorem retain_of_alive (alive : 0 < t.refs h) :
    ∃ t', t.retain h = .ok t' ∧ ∀ n, t'.refs n = t.refs n + if n = h then 1 else 0 := by
  obtain ⟨e, he⟩ := exists_entry alive
  refine ⟨_, by simp only [retain, he]; rfl, ?_⟩
  intro n
  rw [refs_setEntry he]
  split
  · next hn => simp [hn, refs, he]
  · rfl

theorem release_of_alive (alive : 0 < t.refs h) :
    ∃ v t', t.release h = .ok (v, t') ∧ ∀ n, t'.refs n + (if n = h then 1 else 0) = t.refs n := by
  obtain ⟨e, he⟩ := exists_entry alive
  have hp := e.refs_pos
  by_cases more : 1 < e.refs
  · refine ⟨_, _, by simp only [release, he, more, ↓reduceDIte]; rfl, ?_⟩
    intro n
    rw [refs_setEntry he]
    split
    · next hn => subst hn; rw [refs_of_entry he]; simp only [Option.elim_some]; omega
    · rfl
  · refine ⟨_, _, by simp only [release, he, more, ↓reduceDIte]; rfl, ?_⟩
    intro n
    rw [refs_setEntry he]
    split
    · next hn => subst hn; rw [refs_of_entry he]; simp only [Option.elim_none]; omega
    · rfl

end TurtlePlayback.Artifact.Table
