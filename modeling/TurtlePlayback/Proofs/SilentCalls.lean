import TurtlePlayback.Proofs.JournalMoments

/-!
Calls in a row. All that goes on in the slots is upkeep: references are retained and released.
Nothing of it shows on a canvas, and neither does compiling.
-/

namespace TurtlePlayback.Artifact

def Event.isSilent : Event → Bool
  | .compile _ _ => true
  | .retain _ _ => true
  | .release _ _ => true
  | _ => false

def Event.isUpkeep : Event → Bool
  | .retain _ _ => true
  | .release _ _ => true
  | _ => false

theorem Event.isSilent_of_isUpkeep {e : Event} (upkeep : e.isUpkeep = true) :
    e.isSilent = true := by
  cases e <;> first | rfl | cases upkeep

namespace Holdings

structure Extends (h : Holdings) (calls : List Event) (h' : Holdings) : Prop where
  events : h'.events = h.events ++ calls
  engine : h'.engine = calls.foldl Engine.after h.engine

variable {h h' h'' : Holdings} {calls later : List Event}

theorem Extends.of_eq (events : h'.events = h.events) (engine : h'.engine = h.engine) :
    h.Extends [] h' :=
  ⟨by rw [events, List.append_nil], engine⟩

theorem Extends.trans (first : h.Extends calls h') (second : h'.Extends later h'') :
    h.Extends (calls ++ later) h'' where
  events := by rw [second.events, first.events, List.append_assoc]
  engine := by rw [second.engine, first.engine, List.foldl_append]

theorem note_extends (h : Holdings) (e : Event) : h.Extends [e] (h.note e (h.engine.after e)) :=
  ⟨events_note h e _, rfl⟩

theorem Extends.trans_all {P : Event → Prop}
    (first : ∃ calls, h.Extends calls h' ∧ ∀ e ∈ calls, P e)
    (second : ∃ calls, h'.Extends calls h'' ∧ ∀ e ∈ calls, P e) :
    ∃ calls, h.Extends calls h'' ∧ ∀ e ∈ calls, P e := by
  obtain ⟨calls, extends₁, all₁⟩ := first
  obtain ⟨later, extends₂, all₂⟩ := second
  exact ⟨calls ++ later, extends₁.trans extends₂, List.forall_mem_append.mpr ⟨all₁, all₂⟩⟩

def Upkeep (h h' : Holdings) : Prop :=
  ∃ calls, h.Extends calls h' ∧ ∀ e ∈ calls, e.isUpkeep = true

namespace Upkeep

theorem of_eq (events : h'.events = h.events) (engine : h'.engine = h.engine) : h.Upkeep h' :=
  ⟨[], .of_eq events engine, nofun⟩

theorem trans (first : h.Upkeep h') (second : h'.Upkeep h'') : h.Upkeep h'' :=
  Extends.trans_all first second

theorem retain {k : ResourceKind} (h : Holdings) (r : Handle k) : h.Upkeep (h.retain r) :=
  ⟨[.retain k r.number], note_extends h _, List.forall_mem_singleton.mpr rfl⟩

theorem releaseAny {k : ResourceKind} (h : Holdings) (r : Option (Handle k)) :
    h.Upkeep (h.releaseAny r) := by
  cases r with
  | none => exact of_eq rfl rfl
  | some r => exact ⟨[.release k r.number], note_extends h _, List.forall_mem_singleton.mpr rfl⟩

theorem releaseAny_slots {k : ResourceKind} (h : Holdings) (s : Slots) (r : Option (Handle k)) :
    h.Upkeep (Holdings.releaseAny { h with slots := s } r) := by
  have filled : h.Upkeep { h with slots := s } := of_eq rfl rfl
  exact filled.trans (releaseAny _ r)

theorem assignPending (h : Holdings) (image : Option Image) :
    h.Upkeep (h.assignPending image) := by
  simp only [Holdings.assignPending]
  split
  · exact releaseAny h image
  · exact releaseAny_slots h _ _

theorem assignActive (h : Holdings) (image : Option Image) :
    h.Upkeep (h.assignActive image).2 := by
  simp only [Holdings.assignActive]
  split
  · exact releaseAny h image
  · exact releaseAny_slots h _ _

theorem clearEnvironment (h : Holdings) : h.Upkeep h.clearEnvironment.2 :=
  releaseAny_slots h _ _

theorem setEnvironment (h : Holdings) (e : Running) : h.Upkeep (h.setEnvironment e) :=
  releaseAny_slots h _ _

theorem setActive (h : Holdings) (image : Option Image) : h.Upkeep (h.setActive image).2 := by
  simp only [Holdings.setActive]
  split
  · exact assignActive h image
  · exact (clearEnvironment h).trans (assignActive _ image)

theorem promote (h : Holdings) : h.Upkeep (h.promote .share).2 := by
  simp only [Holdings.promote]
  split
  · exact of_eq rfl rfl
  · next image _ => exact (retain h image).trans (setActive _ _)

theorem teardown (h : Holdings) : h.Upkeep h.teardown :=
  ((clearEnvironment h).trans (assignActive _ none)).trans (assignPending _ none)

end Upkeep

def Silent (h h' : Holdings) : Prop :=
  ∃ calls, h.Extends calls h' ∧ ∀ e ∈ calls, e.isSilent = true

theorem Upkeep.silent (upkeep : h.Upkeep h') : h.Silent h' := by
  obtain ⟨calls, extended, all⟩ := upkeep
  exact ⟨calls, extended, fun e member => Event.isSilent_of_isUpkeep (all e member)⟩

namespace Silent

theorem of_eq (events : h'.events = h.events) (engine : h'.engine = h.engine) : h.Silent h' :=
  (Upkeep.of_eq events engine).silent

theorem trans (first : h.Silent h') (second : h'.Silent h'') : h.Silent h'' :=
  Extends.trans_all first second

theorem compile (h : Holdings) (source : String) : h.Silent (h.compile source).2 :=
  ⟨[.compile source (h.engine.compile source).1.toOption], note_extends h _,
    List.forall_mem_singleton.mpr rfl⟩

theorem assignPending (h : Holdings) (image : Option Image) :
    h.Silent (h.assignPending image) :=
  (Upkeep.assignPending h image).silent

theorem clearEnvironment (h : Holdings) : h.Silent h.clearEnvironment.2 :=
  (Upkeep.clearEnvironment h).silent

theorem setEnvironment (h : Holdings) (e : Running) : h.Silent (h.setEnvironment e) :=
  (Upkeep.setEnvironment h e).silent

theorem setActive (h : Holdings) (image : Option Image) : h.Silent (h.setActive image).2 :=
  (Upkeep.setActive h image).silent

theorem promote (h : Holdings) : h.Silent (h.promote .share).2 :=
  (Upkeep.promote h).silent

theorem teardown (h : Holdings) : h.Silent h.teardown :=
  (Upkeep.teardown h).silent

end Silent

end Holdings

end TurtlePlayback.Artifact
