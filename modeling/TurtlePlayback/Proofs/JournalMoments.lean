import TurtlePlayback.Proofs.ExceptResults
import TurtlePlayback.Proofs.ReferenceAccounts

namespace TurtlePlayback.Artifact

namespace Table

variable {α : Type} {t t' : Table α} {h : Nat}

@[simp] theorem issued_setEntry (t : Table α) (h : Nat) (e : Option (Entry α)) :
    (t.setEntry h e).issued = t.issued := by
  simp [issued, setEntry]

theorem issued_set {a old : α} (done : t.set h a = .ok (old, t')) : t'.issued = t.issued := by
  simp only [set] at done
  split at done
  · cases done
    exact issued_setEntry _ _ _
  · cases done

theorem issued_retain (done : t.retain h = .ok t') : t'.issued = t.issued := by
  simp only [retain] at done
  split at done
  · cases done
    exact issued_setEntry _ _ _
  · cases done

theorem issued_release {v : Option α} (done : t.release h = .ok (v, t')) :
    t'.issued = t.issued := by
  simp only [release] at done
  split at done
  · split at done
    · cases done
      exact issued_setEntry _ _ _
    · cases done
      exact issued_setEntry _ _ _
  · cases done

theorem countP_le_one {β : Type} {p : β → Bool} {l : List β}
    (one : ∀ i j, (hi : i < l.length) → (hj : j < l.length) → p l[i] → p l[j] → i = j) :
    l.countP p ≤ 1 := by
  induction l with
  | nil => simp
  | cons b l ih =>
    have later : l.countP p ≤ 1 := by
      apply ih
      intro i j hi hj pi pj
      have same := one (i + 1) (j + 1) (by simpa) (by simpa) (by simpa) (by simpa)
      omega
    rw [List.countP_cons]
    split
    · next first =>
      have none_later : l.countP p = 0 := by
        rw [List.countP_eq_zero]
        intro x member holds
        obtain ⟨i, hi, rfl⟩ := List.getElem_of_mem member
        have same := one 0 (i + 1) (by simp) (by simpa) (by simpa) (by simpa)
        omega
      omega
    · exact later

theorem live_le_one (one : ∀ m n, 0 < t.refs m → 0 < t.refs n → m = n) : t.live ≤ 1 := by
  have alive (i : Nat) (hi : i < t.entries.toList.length) (full : t.entries.toList[i].isSome) :
      0 < t.refs (i + 1) := by
    have bound : i < t.entries.size := by simpa using hi
    obtain ⟨e, he⟩ := Option.isSome_iff_exists.mp full
    have found : t.find? (i + 1) = some e := by
      rw [Array.getElem_toList] at he
      simp [find?, bound, he]
    rw [refs_of_entry found]
    exact e.refs_pos
  rw [live, ← Array.countP_toList]
  apply countP_le_one
  intro i j hi hj fi fj
  exact Nat.succ.inj (one _ _ (alive i hi fi) (alive j hj fj))

end Table

def Event.started : Event → Option Running
  | .start _ e => e
  | _ => none

namespace Engine

variable {g g' : Engine} {e : Event} {events : List Event}

def after (g : Engine) : Event → Engine
  | .compile source _ => (g.compile source).2
  | .start image _ => (g.start image).2
  | .step e => (g.step e).2
  | .retain k n => (g.retain k n).toOption.getD g
  | .release k n => (g.release k n).toOption.getD g
  | .clearCanvas => g

theorem Call.after_eq (call : g.Call e g') : g.after e = g' := by
  cases call with
  | retain done => simp [after, done, Except.toOption]
  | release done => simp [after, done, Except.toOption]
  | _ => rfl

theorem Calls.foldl_after (calls : Calls g events g') : events.foldl after g = g' := by
  induction calls with
  | nil => rfl
  | snoc _ call ih => rw [List.foldl_append, ih, List.foldl_cons, List.foldl_nil, call.after_eq]

theorem compile_environments (g : Engine) (source : String) :
    (g.compile source).2.environments = g.environments := by
  simp only [compile]
  split <;> rfl

theorem issued_step (g : Engine) (e : Running) :
    (g.step e).2.environments.issued = g.environments.issued := by
  simp only [step]
  split
  · rfl
  · split
    · next set => exact Table.issued_set set
    · rfl

theorem retain_issued {k : ResourceKind} {n : Nat} (done : g.retain k n = .ok g') :
    g'.environments.issued = g.environments.issued := by
  cases k with
  | image =>
    obtain ⟨t, -, rfl⟩ := map_ok.mp done
    rfl
  | environment =>
    obtain ⟨t, retained, rfl⟩ := map_ok.mp done
    exact Table.issued_retain retained

theorem release_issued {k : ResourceKind} {n : Nat} (done : g.release k n = .ok g') :
    g'.environments.issued = g.environments.issued := by
  cases k with
  | image =>
    obtain ⟨t, -, rfl⟩ := map_ok.mp done
    rfl
  | environment =>
    obtain ⟨t, released, rfl⟩ := map_ok.mp done
    exact Table.issued_release released

theorem Call.issued (call : g.Call e g') :
    e.started = none ∧ g'.environments.issued = g.environments.issued ∨
      e.started = some ⟨g.environments.issued + 1⟩ ∧
        g'.environments.issued = g.environments.issued + 1 := by
  cases call with
  | compile source => exact .inl ⟨rfl, congrArg Table.issued (compile_environments g source)⟩
  | @start image _ =>
    simp only [Event.started, Engine.start]
    split
    · exact .inl ⟨rfl, rfl⟩
    · split
      · exact .inl ⟨rfl, rfl⟩
      · exact .inr ⟨rfl, by simp [Table.insert, Table.issued]⟩
  | @step r _ => exact .inl ⟨rfl, issued_step g r⟩
  | retain done => exact .inl ⟨rfl, retain_issued done⟩
  | release done => exact .inl ⟨rfl, release_issued done⟩
  | clearCanvas => exact .inl ⟨rfl, rfl⟩

theorem Calls.started_le (calls : Calls {} events g) {r : Running} (member : e ∈ events)
    (started : e.started = some r) : r.number ≤ g.environments.issued := by
  induction calls with
  | nil => cases member
  | snoc _ call ih =>
    rw [List.mem_append, List.mem_singleton] at member
    rcases member with before | rfl
    · have old := ih before
      rcases call.issued with ⟨-, same⟩ | ⟨-, more⟩
      · omega
      · omega
    · rcases call.issued with ⟨none_started, -⟩ | ⟨new, more⟩
      · rw [started] at none_started
        cases none_started
      · rw [started, Option.some.injEq] at new
        rw [new]
        exact Nat.le_of_eq more.symm

theorem Calls.started_once (calls : Calls {} events g) {d : Event} {r : Running}
    (first : d ∈ events) (second : e ∈ events) (started : d.started = some r)
    (started' : e.started = some r) : d = e := by
  induction calls with
  | nil => cases first
  | @snoc events g₁ g₂ c calls call ih =>
    have fresh {b : Event} (before : b ∈ events) (same : b.started = some r) :
        c.started ≠ some r := by
      intro again
      have old := calls.started_le before same
      rcases call.issued with ⟨none_started, -⟩ | ⟨new, -⟩
      · rw [again] at none_started
        cases none_started
      · rw [again, Option.some.injEq] at new
        rw [new] at old
        exact Nat.not_succ_le_self _ old
    rw [List.mem_append, List.mem_singleton] at first second
    rcases first with before | rfl
    · rcases second with before' | rfl
      · exact ih before before'
      · exact absurd started' (fresh before started)
    · rcases second with before' | rfl
      · exact absurd started (fresh before' started')
      · rfl

end Engine

structure Moment where
  engine : Engine
  slots : Slots
  past : List Event

namespace Holdings

variable {h : Holdings}

def present (h : Holdings) : Moment :=
  ⟨h.engine, h.slots, h.events⟩

def momentsFrom (g : Engine) (past : List Event) : List Record → List Moment
  | [] => []
  | r :: rest =>
    ⟨g, r.slots, past⟩ :: ⟨g.after r.event, r.slots, past ++ [r.event]⟩ ::
      momentsFrom (g.after r.event) (past ++ [r.event]) rest

def moments (h : Holdings) : List Moment :=
  momentsFrom {} [] h.journal.toList ++ [h.present]

theorem momentsFrom_append (g : Engine) (past : List Event) (rs : List Record) (r : Record) :
    momentsFrom g past (rs ++ [r]) = momentsFrom g past rs ++
      [⟨(rs.map Record.event).foldl Engine.after g, r.slots, past ++ rs.map Record.event⟩,
        ⟨((rs.map Record.event).foldl Engine.after g).after r.event, r.slots,
          past ++ rs.map Record.event ++ [r.event]⟩] := by
  induction rs generalizing g past with
  | nil => simp [momentsFrom]
  | cons s rs ih => simp [momentsFrom, ih]

theorem momentsFrom_note (calls : Engine.Calls {} h.events h.engine) {e : Event} {g : Engine}
    (call : h.engine.Call e g) :
    momentsFrom {} [] (h.note e g).journal.toList =
      momentsFrom {} [] h.journal.toList ++ [h.present, (h.note e g).present] := by
  have replayed : (h.journal.toList.map Record.event).foldl Engine.after {} = h.engine :=
    calls.foldl_after
  rw [note, Array.toList_push, momentsFrom_append, replayed, call.after_eq]
  simp [present, events]

end Holdings

end TurtlePlayback.Artifact
