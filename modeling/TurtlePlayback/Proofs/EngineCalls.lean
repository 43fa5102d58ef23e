import TurtlePlayback.Artifact.Slots
import TurtlePlayback.Proofs.TableEntries

namespace TurtlePlayback.Artifact

abbrev Reference :=
  ResourceKind × Nat

def Handle.reference {k : ResourceKind} (h : Handle k) : Reference :=
  (k, h.number)

def references {k : ResourceKind} (h : Option (Handle k)) : List Reference :=
  h.toList.map Handle.reference

@[simp] theorem references_none {k : ResourceKind} :
    references (none : Option (Handle k)) = [] := rfl

@[simp] theorem references_some {k : ResourceKind} (h : Handle k) :
    references (some h) = [h.reference] := rfl

namespace Engine

/-- A call that names no dead handle: what is noted of it, and the engine after it. -/
inductive Call (g : Engine) : Event → Engine → Prop
  | compile (source : String) :
    Call g (.compile source (g.compile source).1.toOption) (g.compile source).2
  | start {image : Image} (alive : 0 < g.refs .image image.number) :
    Call g (.start image ((g.start image).1.toOption.map (·.environment))) (g.start image).2
  | step {e : Running} (alive : 0 < g.refs .environment e.number) :
    Call g (.step e) (g.step e).2
  | retain {k : ResourceKind} {n : Nat} {g' : Engine} (done : g.retain k n = .ok g') :
    Call g (.retain k n) g'
  | release {k : ResourceKind} {n : Nat} {g' : Engine} (done : g.release k n = .ok g') :
    Call g (.release k n) g'
  | clearCanvas : Call g .clearCanvas g

inductive Calls (g : Engine) : List Event → Engine → Prop
  | nil : Calls g [] g
  | snoc {events : List Event} {g' g'' : Engine} {e : Event} :
    Calls g events g' → Call g' e g'' → Calls g (events ++ [e]) g''

theorem count_single (k k' : ResourceKind) (n n' : Nat) :
    [(k', n')].count (k, n) = if k = k' ∧ n = n' then 1 else 0 := by
  simp only [List.count_singleton, beq_iff_eq, Prod.mk.injEq]
  congr 1
  exact propext ⟨fun h => ⟨h.1.symm, h.2.symm⟩, fun h => ⟨h.1.symm, h.2.symm⟩⟩

theorem refs_compile (g : Engine) (source : String) (k : ResourceKind) (n : Nat) :
    (g.compile source).2.refs k n =
      g.refs k n + (references (g.compile source).1.toOption).count (k, n) := by
  unfold compile
  cases hc : Script.Program.compile source with
  | error e => cases k <;> rfl
  | ok p =>
    have hi := Table.refs_insert g.images p n
    simp only [Except.toOption, references_some, Handle.reference, count_single]
    cases k with
    | image => simpa only [refs, true_and] using hi
    | environment => simp [refs]

theorem refs_start (g : Engine) (image : Image) (k : ResourceKind) (n : Nat) :
    (g.start image).2.refs k n = g.refs k n +
      (references ((g.start image).1.toOption.map (·.environment))).count (k, n) := by
  cases hg : g.images.get image.number with
  | error m => simp [start, hg, Except.toOption]
  | ok p =>
    cases hs : Environment.start p with
    | error f => simp [start, hg, hs, Except.toOption]
    | ok started =>
      obtain ⟨e, background, printed⟩ := started
      have hi := Table.refs_insert g.environments e n
      simp only [start, hg, hs, Except.toOption, Option.map_some, references_some,
        Handle.reference, count_single]
      cases k with
      | image => simp [refs]
      | environment => simpa only [refs, true_and] using hi

theorem refs_step (g : Engine) (e : Running) (k : ResourceKind) (n : Nat) :
    (g.step e).2.refs k n = g.refs k n := by
  cases hg : g.environments.get e.number with
  | error m => simp only [step, hg]; cases k <;> rfl
  | ok env =>
    cases hs : g.environments.set e.number env.step.2 with
    | error m => simp only [step, hg, hs]; cases k <;> rfl
    | ok changed =>
      simp only [step, hg, hs]
      cases k with
      | image => rfl
      | environment => exact Table.refs_set hs n

theorem retain_of_alive {g : Engine} {k : ResourceKind} {h : Nat} (alive : 0 < g.refs k h) :
    ∃ g', g.retain k h = .ok g' ∧
      ∀ k' n, g'.refs k' n = g.refs k' n + [(k, h)].count (k', n) := by
  cases k with
  | image =>
    obtain ⟨t, ht, hr⟩ := Table.retain_of_alive (t := g.images) alive
    refine ⟨{ g with images := t }, by simp [retain, ht, Except.map], ?_⟩
    intro k' n
    rw [count_single]
    cases k' with
    | image => simpa [refs] using hr n
    | environment => simp [refs]
  | environment =>
    obtain ⟨t, ht, hr⟩ := Table.retain_of_alive (t := g.environments) alive
    refine ⟨{ g with environments := t }, by simp [retain, ht, Except.map], ?_⟩
    intro k' n
    rw [count_single]
    cases k' with
    | image => simp [refs]
    | environment => simpa [refs] using hr n

theorem release_of_alive {g : Engine} {k : ResourceKind} {h : Nat} (alive : 0 < g.refs k h) :
    ∃ g', g.release k h = .ok g' ∧
      ∀ k' n, g'.refs k' n + [(k, h)].count (k', n) = g.refs k' n := by
  cases k with
  | image =>
    obtain ⟨v, t, ht, hr⟩ := Table.release_of_alive (t := g.images) alive
    refine ⟨{ g with images := t }, by simp [release, ht, Except.map], ?_⟩
    intro k' n
    rw [count_single]
    cases k' with
    | image => simpa [refs] using hr n
    | environment => simp [refs]
  | environment =>
    obtain ⟨v, t, ht, hr⟩ := Table.release_of_alive (t := g.environments) alive
    refine ⟨{ g with environments := t }, by simp [release, ht, Except.map], ?_⟩
    intro k' n
    rw [count_single]
    cases k' with
    | image => simp [refs]
    | environment => simpa [refs] using hr n

end Engine

end TurtlePlayback.Artifact
