import TurtlePlayback.Proofs.SilentCalls

namespace TurtlePlayback.Artifact

namespace Table

variable {α : Type} {t t' t'' : Table α} {h n : Nat}

theorem get_ok {v : α} : t.get n = .ok v ↔ (t.find? n).map (·.value) = some v := by
  simp only [get]
  cases t.find? n with
  | none => simp
  | some e => simp

theorem get_of_alive (alive : 0 < t.refs n) : ∃ v, t.get n = .ok v := by
  obtain ⟨e, he⟩ := exists_entry alive
  exact ⟨e.value, by simp [get, he]⟩

theorem le_issued (alive : 0 < t.refs n) : n ≤ t.issued := by
  obtain ⟨e, he⟩ := exists_entry alive
  apply Nat.le_of_not_lt
  intro beyond
  have outside : t.entries.size ≤ n - 1 := by
    simp only [issued] at beyond
    omega
  simp [find?, Array.getElem?_eq_none outside] at he

/-- `t'` comes after `t`: a value in it was there already, under the same number, or has got one
since. -/
structure Continues (t t' : Table α) : Prop where
  issued : t.issued ≤ t'.issued
  old_or_new {n : Nat} {v : α} : t'.get n = .ok v → t.get n = .ok v ∨ t.issued < n

namespace Continues

theorem refl (t : Table α) : t.Continues t :=
  ⟨Nat.le_refl _, .inl⟩

theorem trans (first : t.Continues t') (second : t'.Continues t'') : t.Continues t'' where
  issued := Nat.le_trans first.issued second.issued
  old_or_new found := by
    rcases second.old_or_new found with old | new
    · exact first.old_or_new old
    · exact .inr (Nat.lt_of_le_of_lt first.issued new)

theorem insert (t : Table α) (a : α) : t.Continues (t.insert a).2 where
  issued := by simp [Table.issued, Table.insert]
  old_or_new {n v} found := by
    rw [get_ok, find?_insert] at found
    split at found
    · next fresh => exact .inr (fresh ▸ Nat.lt_succ_self _)
    · exact .inl (get_ok.mpr found)

theorem setEntry {old : Entry α} (alive : t.find? h = some old) {e : Option (Entry α)}
    (kept : ∀ new ∈ e, new.value = old.value) : t.Continues (t.setEntry h e) where
  issued := Nat.le_of_eq (issued_setEntry t h e).symm
  old_or_new {n v} found := by
    rw [get_ok, find?_setEntry alive] at found
    left
    rw [get_ok]
    split at found
    · next same =>
      obtain ⟨new, rfl, value⟩ := Option.map_eq_some_iff.mp found
      rw [same, alive, ← value, kept new rfl]
      rfl
    · exact found

theorem retain (done : t.retain h = .ok t') : t.Continues t' := by
  simp only [Table.retain] at done
  split at done
  · next e found =>
    cases done
    exact setEntry found (by simp)
  · cases done

theorem release {v : Option α} (done : t.release h = .ok (v, t')) : t.Continues t' := by
  simp only [Table.release] at done
  split at done
  · next e found =>
    split at done
    · cases done
      exact setEntry found (by simp)
    · cases done
      exact setEntry found (by simp)
  · cases done

theorem get_eq (continued : t.Continues t') (before : 0 < t.refs n) (after : 0 < t'.refs n) :
    t'.get n = t.get n := by
  obtain ⟨v, found⟩ := get_of_alive after
  rcases continued.old_or_new found with old | new
  · rw [found, old]
  · exact absurd new (Nat.not_lt.mpr (le_issued before))

end Continues

end Table

namespace Engine

variable {g g' : Engine} {k : ResourceKind} {n : Nat}

theorem retain_images (done : g.retain k n = .ok g') : g.images.Continues g'.images := by
  cases k with
  | image =>
    obtain ⟨t, retained, rfl⟩ := map_ok.mp done
    exact .retain retained
  | environment =>
    obtain ⟨t, -, rfl⟩ := map_ok.mp done
    exact .refl _

theorem release_images (done : g.release k n = .ok g') : g.images.Continues g'.images := by
  cases k with
  | image =>
    obtain ⟨t, released, rfl⟩ := map_ok.mp done
    exact .release released
  | environment =>
    obtain ⟨t, -, rfl⟩ := map_ok.mp done
    exact .refl _

theorem images_after (g : Engine) (e : Event) : g.images.Continues (g.after e).images := by
  cases e with
  | compile source image =>
    simp only [after, compile]
    split
    · exact .refl _
    · exact .insert _ _
  | start image environment =>
    simp only [after, start]
    split
    · exact .refl _
    · split <;> exact .refl _
  | step e =>
    simp only [after, step]
    split
    · exact .refl _
    · split <;> exact .refl _
  | retain k n =>
    cases done : g.retain k n with
    | error m => simpa [after, done, Except.toOption] using .refl _
    | ok g' => simpa [after, done, Except.toOption] using retain_images done
  | release k n =>
    cases done : g.release k n with
    | error m => simpa [after, done, Except.toOption] using .refl _
    | ok g' => simpa [after, done, Except.toOption] using release_images done
  | clearCanvas => exact .refl _

end Engine

namespace Holdings

variable {h h' : Holdings}

theorem Extends.images {calls : List Event} (extended : h.Extends calls h') :
    h.engine.images.Continues h'.engine.images := by
  rw [extended.engine]
  clear extended
  generalize h.engine = g
  induction calls generalizing g with
  | nil => exact .refl _
  | cons e calls ih => exact (g.images_after e).trans (ih (g.after e))

theorem Silent.image_eq (silent : h.Silent h') (before : h.Accounted []) (after : h'.Accounted [])
    {image : Image} (there : image.reference ∈ h.slots.held)
    (still : image.reference ∈ h'.slots.held) :
    h'.engine.images.get image.number = h.engine.images.get image.number := by
  obtain ⟨calls, extended, -⟩ := silent
  apply extended.images.get_eq
  · exact before.alive (List.mem_append_left _ there)
  · exact after.alive (List.mem_append_left _ still)

end Holdings

end TurtlePlayback.Artifact
