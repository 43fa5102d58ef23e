import TurtlePlayback.Proofs.EngineCalls

namespace TurtlePlayback.Artifact

def Slots.held (s : Slots) : List Reference :=
  references s.pending ++ references s.active ++ references s.environment

theorem count_references {k : ResourceKind} (s : Option (Handle k)) (h : Handle k) :
    (references s).count h.reference = if s = some h then 1 else 0 := by
  cases s with
  | none => simp
  | some h' =>
    obtain ⟨n⟩ := h
    obtain ⟨n'⟩ := h'
    simp only [references_some, Handle.reference, Engine.count_single, true_and, Option.some.injEq,
      Handle.mk.injEq]
    congr 1
    exact propext eq_comm

theorem count_references_other {k k' : ResourceKind} (other : k ≠ k') (s : Option (Handle k'))
    (n : Nat) : (references s).count (k, n) = 0 := by
  cases s with
  | none => rfl
  | some h => simp [Handle.reference, Engine.count_single, other]

namespace Slots

theorem count_held_image (s : Slots) (i : Image) :
    s.held.count i.reference = [s.pending, s.active].count (some i) := by
  have other : (references s.environment).count i.reference = 0 :=
    count_references_other (by decide) _ _
  simp only [held, List.count_append, count_references, other, List.count_cons, List.count_nil,
    beq_iff_eq]
  omega

theorem count_held_environment (s : Slots) (e : Running) :
    s.held.count e.reference = if s.environment = some e then 1 else 0 := by
  have pending : (references s.pending).count e.reference = 0 :=
    count_references_other (by decide) _ _
  have active : (references s.active).count e.reference = 0 :=
    count_references_other (by decide) _ _
  rw [held, List.count_append, List.count_append, pending, active, count_references]
  omega

end Slots

namespace Holdings

def events (h : Holdings) : List Event :=
  h.journal.toList.map (·.event)

/-- The engine counts the references of the slots and the loose ones, which somebody else owns, and
no others; and no call on the way here has named a dead handle. -/
structure Accounted (h : Holdings) (loose : List Reference) : Prop where
  counts (k : ResourceKind) (n : Nat) : h.engine.refs k n = (h.slots.held ++ loose).count (k, n)
  calls : Engine.Calls {} h.events h.engine

variable {h : Holdings} {loose : List Reference}

@[simp] theorem releaseAny_slots {k : ResourceKind} (h : Holdings) (r : Option (Handle k)) :
    (h.releaseAny r).slots = h.slots := by
  cases r <;> rfl

theorem compile_eq (h : Holdings) (source : String) :
    h.compile source = ((h.engine.compile source).1,
      h.note (.compile source (h.engine.compile source).1.toOption)
        (h.engine.compile source).2) := rfl

theorem start_eq (h : Holdings) (image : Image) :
    h.start image = ((h.engine.start image).1,
      h.note (.start image ((h.engine.start image).1.toOption.map (·.environment)))
        (h.engine.start image).2) := rfl

theorem step_eq (h : Holdings) (e : Running) :
    h.step e = ((h.engine.step e).1, h.note (.step e) (h.engine.step e).2) := rfl

theorem events_note (h : Holdings) (e : Event) (g : Engine) :
    (h.note e g).events = h.events ++ [e] := by
  simp [events, note]

namespace Accounted

theorem empty : Accounted {} [] where
  counts k n := by cases k <;> simp [Engine.refs, Table.refs, Table.find?, Slots.held]
  calls := .nil

theorem alive {k : ResourceKind} {n : Nat} (ok : h.Accounted loose)
    (owned : (k, n) ∈ h.slots.held ++ loose) : 0 < h.engine.refs k n := by
  rw [ok.counts]
  exact List.count_pos_iff.mpr owned

theorem note {loose' : List Reference} {e : Event} {g : Engine} (ok : h.Accounted loose)
    (call : h.engine.Call e g)
    (counts : ∀ k n, g.refs k n = (h.slots.held ++ loose').count (k, n)) :
    (h.note e g).Accounted loose' where
  counts := counts
  calls := by
    rw [events_note]
    exact .snoc ok.calls call

theorem noteClear (ok : h.Accounted loose) : h.noteClear.Accounted loose :=
  ok.note .clearCanvas ok.counts

theorem compile (ok : h.Accounted loose) (source : String) :
    (h.compile source).2.Accounted (references (h.compile source).1.toOption ++ loose) := by
  rw [compile_eq]
  refine ok.note (.compile source) ?_
  intro k n
  rw [Engine.refs_compile, ok.counts]
  simp only [List.count_append]
  omega

theorem start {image : Image} (ok : h.Accounted loose)
    (owned : image.reference ∈ h.slots.held ++ loose) :
    (h.start image).2.Accounted
      (references ((h.start image).1.toOption.map (·.environment)) ++ loose) := by
  rw [start_eq]
  refine ok.note (.start (ok.alive owned)) ?_
  intro k n
  rw [Engine.refs_start, ok.counts]
  simp only [List.count_append]
  omega

theorem compiled {h' : Holdings} {source : String} {image : Image} (ok : h.Accounted loose)
    (done : h.compile source = (.ok image, h')) : h'.Accounted (image.reference :: loose) := by
  have result := ok.compile source
  rwa [done] at result

theorem rejected {h' : Holdings} {source : String} {f : Failure} (ok : h.Accounted loose)
    (failed : h.compile source = (.error f, h')) : h'.Accounted loose := by
  have result := ok.compile source
  rwa [failed] at result

theorem started {h' : Holdings} {image : Image} {s : Started} (ok : h.Accounted loose)
    (owned : image.reference ∈ h.slots.held ++ loose) (done : h.start image = (.ok s, h')) :
    h'.Accounted (s.environment.reference :: loose) := by
  have result := ok.start owned
  rwa [done] at result

theorem notStarted {h' : Holdings} {image : Image} {f : Failure} (ok : h.Accounted loose)
    (owned : image.reference ∈ h.slots.held ++ loose)
    (failed : h.start image = (.error f, h')) : h'.Accounted loose := by
  have result := ok.start owned
  rwa [failed] at result

theorem step {e : Running} (ok : h.Accounted loose)
    (owned : e.reference ∈ h.slots.held ++ loose) : (h.step e).2.Accounted loose := by
  rw [step_eq]
  refine ok.note (.step (ok.alive owned)) ?_
  intro k n
  rw [Engine.refs_step, ok.counts]

theorem retain {k : ResourceKind} {r : Handle k} (ok : h.Accounted loose)
    (owned : r.reference ∈ h.slots.held ++ loose) :
    (h.retain r).Accounted (r.reference :: loose) := by
  obtain ⟨g, hg, hr⟩ := Engine.retain_of_alive (ok.alive owned)
  have he : (h.engine.retain k r.number).toOption.getD h.engine = g := by rw [hg]; rfl
  refine ok.note ?_ ?_
  · rw [he]
    exact .retain hg
  · intro k' n
    rw [he, hr, ok.counts]
    simp only [Handle.reference, List.count_append, List.count_cons, List.count_nil]
    omega

theorem release {k : ResourceKind} {r : Handle k} (ok : h.Accounted (r.reference :: loose)) :
    (h.release r).Accounted loose := by
  obtain ⟨g, hg, hr⟩ := Engine.release_of_alive (k := k) (h := r.number)
    (ok.alive (List.mem_append_right _ List.mem_cons_self))
  have he : (h.engine.release k r.number).toOption.getD h.engine = g := by rw [hg]; rfl
  refine ok.note ?_ ?_
  · rw [he]
    exact .release hg
  · intro k' n
    have hc := ok.counts k' n
    have hn := hr k' n
    rw [he]
    simp only [Handle.reference, List.count_append, List.count_cons, List.count_nil] at hc hn ⊢
    omega

theorem releaseAny {k : ResourceKind} {r : Option (Handle k)}
    (ok : h.Accounted (references r ++ loose)) : (h.releaseAny r).Accounted loose := by
  cases r with
  | none => exact ok
  | some r => exact ok.release

theorem replace {k : ResourceKind} {old : Option (Handle k)} {s : Slots}
    (new : Option (Handle k)) (ok : h.Accounted (references new ++ loose))
    (swapped : ∀ r, s.held.count r + (references old).count r =
      h.slots.held.count r + (references new).count r) :
    (Holdings.releaseAny { h with slots := s } old).Accounted loose := by
  apply releaseAny
  refine ⟨?_, ok.calls⟩
  intro k' n
  have hc := ok.counts k' n
  have hs := swapped (k', n)
  simp only [List.count_append] at hc ⊢
  omega

theorem assignPending (image : Option Image) (ok : h.Accounted (references image ++ loose)) :
    (h.assignPending image).Accounted loose := by
  simp only [Holdings.assignPending]
  split
  · exact ok.releaseAny
  · refine replace image ok ?_
    intro r
    simp only [Slots.held, List.count_append]
    omega

theorem assignActive (image : Option Image) (ok : h.Accounted (references image ++ loose)) :
    (h.assignActive image).2.Accounted loose := by
  simp only [Holdings.assignActive]
  split
  · exact ok.releaseAny
  · refine replace image ok ?_
    intro r
    simp only [Slots.held, List.count_append]
    omega

theorem setEnvironment {e : Running} (ok : h.Accounted (e.reference :: loose)) :
    (h.setEnvironment e).Accounted loose := by
  refine replace (some e) ok ?_
  intro r
  simp only [Slots.held, List.count_append]
  omega

theorem clearEnvironment (ok : h.Accounted loose) : h.clearEnvironment.2.Accounted loose := by
  refine replace (none : Option Running) ok ?_
  intro r
  simp only [Slots.held, List.count_append]
  omega

theorem setActive (image : Option Image) (ok : h.Accounted (references image ++ loose)) :
    (h.setActive image).2.Accounted loose := by
  simp only [Holdings.setActive]
  split
  · exact assignActive image ok
  · exact assignActive image ok.clearEnvironment

theorem clearActive (ok : h.Accounted loose) : h.clearActive.2.Accounted loose :=
  setActive none ok

theorem clearPending (ok : h.Accounted loose) : h.clearPending.Accounted loose :=
  assignPending none ok

theorem storeCompiled {image : Image} (ok : h.Accounted (image.reference :: loose)) :
    (h.storeCompiled image).Accounted loose :=
  assignPending (some image) ok

theorem promote (ok : h.Accounted loose) (how : Promotion) :
    (h.promote how).2.Accounted loose := by
  simp only [Holdings.promote]
  split
  · exact ok
  · next image hp =>
    cases how with
    | share =>
      refine setActive (some image) (ok.retain ?_)
      simp [Slots.held, hp]
    | move =>
      refine setActive (some image) ⟨?_, ok.calls⟩
      intro k n
      have hc := ok.counts k n
      simp only [Slots.held, hp, List.count_append, references_none, List.count_nil] at hc ⊢
      omega

theorem teardown (ok : h.Accounted loose) : h.teardown.Accounted loose :=
  assignPending none (assignActive none ok.clearEnvironment)

end Accounted

theorem clearEnvironment_slots (h : Holdings) :
    h.clearEnvironment.2.slots = { h.slots with environment := none } := by
  simp [clearEnvironment]

theorem assignActive_slots (h : Holdings) (image : Option Image) :
    (h.assignActive image).2.slots = { h.slots with active := image } := by
  simp only [assignActive]
  split
  · next same => simp [← same.2]
  · simp

theorem assignPending_slots (h : Holdings) (image : Option Image) :
    (h.assignPending image).slots = { h.slots with pending := image } := by
  simp only [assignPending]
  split
  · next same => simp [← same.2]
  · simp

theorem teardown_slots (h : Holdings) : h.teardown.slots = {} := by
  simp [teardown, assignPending_slots, assignActive_slots, clearEnvironment_slots]

end Holdings

end TurtlePlayback.Artifact
