import Mathlib.Data.List.Perm.Basic
import Mathlib.Logic.Relation
import TurtlePlayback.Proofs.ExceptResults
import TurtlePlayback.Proofs.ReferenceAccounts

namespace TurtlePlayback.Artifact

namespace Event

def given : Event → List Reference
  | .compile _ image => references image
  | .start _ e => references e
  | .retain k n => [(k, n)]
  | _ => []

def taken : Event → List Reference
  | .release k n => [(k, n)]
  | _ => []

def releases {k : ResourceKind} (r : Option (Handle k)) : List Event :=
  r.toList.map fun r => .release k r.number

end Event

/-- How many references to a handle have been given and not been taken back. -/
def balance (events : List Event) (r : Reference) : Int :=
  (events.flatMap Event.given).count r - (events.flatMap Event.taken).count r

theorem balance_append (events later : List Event) (r : Reference) :
    balance (events ++ later) r = balance events r + balance later r := by
  simp only [balance, List.flatMap_append, List.count_append]
  omega

theorem balance_single (e : Event) (r : Reference) :
    balance [e] r = e.given.count r - e.taken.count r := by
  simp [balance]

namespace Table

variable {α : Type} {t t' : Table α} {h : Nat}

theorem alive_of_retain (done : t.retain h = .ok t') : 0 < t.refs h := by
  simp only [retain] at done
  split at done
  · next e found =>
    rw [refs_of_entry found]
    exact e.refs_pos
  · cases done

theorem alive_of_release {v : Option α} (done : t.release h = .ok (v, t')) : 0 < t.refs h := by
  simp only [release] at done
  split at done
  · next e found =>
    rw [refs_of_entry found]
    exact e.refs_pos
  · cases done

end Table

namespace Engine

variable {g g' : Engine} {k : ResourceKind} {h : Nat} {events : List Event}

theorem refs_retain (done : g.retain k h = .ok g') (k' : ResourceKind) (n : Nat) :
    g'.refs k' n = g.refs k' n + [(k, h)].count (k', n) := by
  have alive : 0 < g.refs k h := by
    cases k with
    | image =>
      obtain ⟨t, retained, -⟩ := map_ok.mp done
      exact Table.alive_of_retain retained
    | environment =>
      obtain ⟨t, retained, -⟩ := map_ok.mp done
      exact Table.alive_of_retain retained
  obtain ⟨g'', retained, counts⟩ := retain_of_alive alive
  rw [retained] at done
  cases done
  exact counts k' n

theorem refs_release (done : g.release k h = .ok g') (k' : ResourceKind) (n : Nat) :
    g'.refs k' n + [(k, h)].count (k', n) = g.refs k' n := by
  have alive : 0 < g.refs k h := by
    cases k with
    | image =>
      obtain ⟨t, released, -⟩ := map_ok.mp done
      exact Table.alive_of_release released
    | environment =>
      obtain ⟨t, released, -⟩ := map_ok.mp done
      exact Table.alive_of_release released
  obtain ⟨g'', released, counts⟩ := release_of_alive alive
  rw [released] at done
  cases done
  exact counts k' n

theorem Call.refs_balance {e : Event} (call : g.Call e g') (k : ResourceKind) (n : Nat) :
    (g'.refs k n : Int) = g.refs k n + balance [e] (k, n) := by
  rw [balance_single]
  cases call with
  | compile source =>
    rw [refs_compile]
    simp [Event.given, Event.taken]
  | @start image _ =>
    rw [refs_start]
    simp [Event.given, Event.taken]
  | @step e _ =>
    rw [refs_step]
    simp [Event.given, Event.taken]
  | retain done =>
    rw [refs_retain done]
    simp [Event.given, Event.taken]
  | release done =>
    have less := refs_release done k n
    simp only [Event.given, Event.taken, List.count_nil]
    omega
  | clearCanvas => simp [Event.given, Event.taken]

theorem Calls.refs_balance (calls : Calls {} events g) (k : ResourceKind) (n : Nat) :
    (g.refs k n : Int) = balance events (k, n) := by
  induction calls with
  | nil => cases k <;> simp [refs, Table.refs, Table.find?, balance]
  | snoc _ call ih => rw [balance_append, call.refs_balance, ih]

theorem Calls.of_prefix {past : List Event} (calls : Calls g events g') (first : past <+: events) :
    ∃ between, Calls g past between := by
  induction calls with
  | nil => exact ⟨g, List.prefix_nil.mp first ▸ .nil⟩
  | snoc before call ih =>
    rcases List.prefix_concat_iff.mp first with rfl | earlier
    · exact ⟨_, .snoc before call⟩
    · exact ih earlier

end Engine

namespace Holdings

open Event

variable {h : Holdings}

theorem releaseAny_events {k : ResourceKind} (h : Holdings) (r : Option (Handle k)) :
    (h.releaseAny r).events = h.events ++ releases r := by
  cases r with
  | none => simp [releaseAny, releases]
  | some r => exact events_note h _ _

theorem clearEnvironment_events (h : Holdings) :
    h.clearEnvironment.2.events = h.events ++ releases h.slots.environment :=
  releaseAny_events _ _

theorem assignActive_events {image : Option Image}
    (new : h.slots.active = none ∨ h.slots.active ≠ image) :
    (h.assignActive image).2.events = h.events ++ releases h.slots.active := by
  have differs : ¬ (h.slots.active.isSome ∧ h.slots.active = image) := by
    rintro ⟨filled, same⟩
    rcases new with empty | other
    · simp [empty] at filled
    · exact other same
  simp only [assignActive, differs, ↓reduceIte]
  exact releaseAny_events _ _

theorem clearPending_events (h : Holdings) :
    h.clearPending.events = h.events ++ releases h.slots.pending := by
  have differs : ¬ (h.slots.pending.isSome ∧ h.slots.pending = none) := by
    rintro ⟨filled, empty⟩
    simp [empty] at filled
  simp only [clearPending, assignPending, differs, ↓reduceIte]
  exact releaseAny_events _ _

theorem setActive_events {image : Option Image} (new : h.slots.active ≠ image) :
    (h.setActive image).2.events =
      h.events ++ releases h.slots.environment ++ releases h.slots.active := by
  have same : h.clearEnvironment.2.slots.active = h.slots.active := by
    rw [clearEnvironment_slots]
  simp only [setActive, new, ↓reduceIte]
  rw [assignActive_events (.inr (same ▸ new)), clearEnvironment_events, same]

theorem teardown_events (h : Holdings) :
    h.teardown.events = h.events ++ (releases h.slots.environment ++
      releases h.slots.active ++ releases h.slots.pending) := by
  let idle := h.clearEnvironment.2
  have active : idle.slots.active = h.slots.active := by rw [clearEnvironment_slots]
  have pending : (idle.assignActive none).2.slots.pending = h.slots.pending := by
    rw [assignActive_slots, clearEnvironment_slots]
  have cleared : (idle.assignActive none).2.events = idle.events ++ releases h.slots.active := by
    rw [assignActive_events, active]
    cases idle.slots.active <;> simp
  change (idle.assignActive none).2.clearPending.events = _
  rw [clearPending_events, pending, cleared, clearEnvironment_events]
  simp only [List.append_assoc]

/-- An operation that takes the active image away has released its environment before, and no image
before that. -/
def EnvironmentFirst (h h' : Holdings) : Prop :=
  ∀ (image : Image) (e : Running), h.slots.active = some image → h.slots.environment = some e →
    h'.slots.active ≠ some image →
    h'.slots.environment = none ∧ ∃ before behind,
      h'.events = h.events ++ before ++ .release .environment e.number :: behind ∧
      (∀ n, .release .image n ∉ before) ∧ .release .image image.number ∈ behind

theorem environmentFirst_of_active {h' : Holdings} (same : h'.slots.active = h.slots.active) :
    h.EnvironmentFirst h' := by
  intro image e active _ gone
  exact absurd (same.trans active) gone

theorem setActive_environmentFirst (image : Option Image) :
    h.EnvironmentFirst (h.setActive image).2 := by
  intro old e active running gone
  have slots : (h.setActive image).2.slots.active = image := by
    simp only [setActive]
    split <;> rw [assignActive_slots]
  have new : h.slots.active ≠ image := by
    rw [active, ← slots]
    exact gone.symm
  refine ⟨?_, [], releases h.slots.active, ?_, by simp, by simp [releases, active]⟩
  · simp only [setActive, new, ↓reduceIte]
    rw [assignActive_slots, clearEnvironment_slots]
  · rw [setActive_events new]
    simp [releases, running]

theorem promote_environmentFirst (how : Promotion) :
    h.EnvironmentFirst (h.promote how).2 := by
  cases pending : h.slots.pending with
  | none =>
    apply environmentFirst_of_active
    simp [promote, pending]
  | some image =>
    cases how with
    | share =>
      intro old e active running gone
      simp only [promote, pending] at gone ⊢
      obtain ⟨empty, before, behind, called, quiet, released⟩ :=
        setActive_environmentFirst (h := h.retain image) (some image) old e active running gone
      refine ⟨empty, .retain .image image.number :: before, behind, ?_, ?_, released⟩
      · rw [called, retain, events_note]
        simp
      · simpa using quiet
    | move =>
      simp only [promote, pending]
      exact setActive_environmentFirst (h := { h with slots := { h.slots with pending := none } })
        (some image)

theorem teardown_environmentFirst : h.EnvironmentFirst h.teardown := by
  intro image e active running _
  refine ⟨by rw [teardown_slots], [], releases h.slots.active ++ releases h.slots.pending, ?_,
    by simp, by simp [releases, active]⟩
  rw [teardown_events]
  simp [releases, running]

theorem promote_answer (how : Promotion) : (h.promote how).1 = h.slots.canLoad := by
  have changed (g : Holdings) (image : Image) :
      (g.setActive (some image)).1 = (some image != g.slots.active) := by
    by_cases same : g.slots.active = some image
    · simp [setActive, assignActive, same]
    · simp [setActive, assignActive, clearEnvironment_slots, same, Ne.symm same]
  cases pending : h.slots.pending with
  | none => simp [promote, Slots.canLoad, pending]
  | some image =>
    cases how with
    | share =>
      simp only [promote, Slots.canLoad, pending, changed]
      rfl
    | move =>
      simp only [promote, Slots.canLoad, pending, changed]
      rfl

namespace Accounted

theorem perm {loose loose' : List Reference} (ok : h.Accounted loose) (same : loose.Perm loose') :
    h.Accounted loose' where
  counts k n := by rw [ok.counts, List.count_append, List.count_append, same.count_eq]
  calls := ok.calls

theorem mine {loose : List Reference} {r : Reference} (ok : h.Accounted loose)
    (owned : r ∈ loose) : h.Accounted (r :: loose.erase r) :=
  ok.perm (List.perm_cons_erase owned)

end Accounted

end Holdings

structure Custody where
  holdings : Holdings := {}
  owned : List Reference := []

namespace Custody

variable {c d : Custody}

def held (c : Custody) : List Reference :=
  c.holdings.slots.held ++ c.owned

/-- What a user can do: he starts and copies what is held by anyone, and gives away only what is his
own. Slots that he drops are torn down. -/
inductive Step (c : Custody) : Custody → Prop
  | compile (source : String) :
    Step c ⟨(c.holdings.compile source).2,
      references (c.holdings.compile source).1.toOption ++ c.owned⟩
  | start {image : Image} (held : image.reference ∈ c.held) :
    Step c ⟨(c.holdings.start image).2,
      references ((c.holdings.start image).1.toOption.map (·.environment)) ++ c.owned⟩
  | copy {k : ResourceKind} {r : Handle k} (held : r.reference ∈ c.held) :
    Step c ⟨c.holdings.retain r, r.reference :: c.owned⟩
  | discard {k : ResourceKind} {r : Handle k} (mine : r.reference ∈ c.owned) :
    Step c ⟨c.holdings.release r, c.owned.erase r.reference⟩
  | storeCompiled {image : Image} (mine : image.reference ∈ c.owned) :
    Step c ⟨c.holdings.storeCompiled image, c.owned.erase image.reference⟩
  | clearPending : Step c { c with holdings := c.holdings.clearPending }
  | promote (how : Promotion) : Step c { c with holdings := (c.holdings.promote how).2 }
  | clearActive : Step c { c with holdings := c.holdings.clearActive.2 }
  | setEnvironment {e : Running} (mine : e.reference ∈ c.owned) :
    Step c ⟨c.holdings.setEnvironment e, c.owned.erase e.reference⟩
  | clearEnvironment : Step c { c with holdings := c.holdings.clearEnvironment.2 }
  | teardown : Step c { c with holdings := c.holdings.teardown }

abbrev Steps :=
  Relation.ReflTransGen Step

theorem Step.accounted (step : c.Step d) (ok : c.holdings.Accounted c.owned) :
    d.holdings.Accounted d.owned := by
  cases step with
  | compile source => exact ok.compile source
  | start held => exact ok.start held
  | copy held => exact ok.retain held
  | discard mine => exact (ok.mine mine).release
  | storeCompiled mine => exact (ok.mine mine).storeCompiled
  | clearPending => exact ok.clearPending
  | promote how => exact ok.promote how
  | clearActive => exact ok.clearActive
  | setEnvironment mine => exact (ok.mine mine).setEnvironment
  | clearEnvironment => exact ok.clearEnvironment
  | teardown => exact ok.teardown

theorem Steps.accounted (steps : Steps {} c) : c.holdings.Accounted c.owned := by
  induction steps with
  | refl => exact .empty
  | tail _ step ok => exact step.accounted ok

theorem Step.environmentFirst (step : c.Step d) : c.holdings.EnvironmentFirst d.holdings := by
  cases step with
  | promote how => exact Holdings.promote_environmentFirst how
  | clearActive => exact Holdings.setActive_environmentFirst none
  | teardown => exact Holdings.teardown_environmentFirst
  | storeCompiled mine =>
    apply Holdings.environmentFirst_of_active
    simp only [Holdings.storeCompiled, Holdings.assignPending_slots]
  | clearPending =>
    apply Holdings.environmentFirst_of_active
    simp only [Holdings.clearPending, Holdings.assignPending_slots]
  | setEnvironment mine =>
    apply Holdings.environmentFirst_of_active
    simp only [Holdings.setEnvironment, Holdings.releaseAny_slots]
  | clearEnvironment =>
    apply Holdings.environmentFirst_of_active
    simp only [Holdings.clearEnvironment_slots]
  | _ => exact Holdings.environmentFirst_of_active rfl

/-- At any time the references that were given and not taken back are those of the slots and of the
user, and there never were fewer than none. The environment goes before its image, only what can be
loaded is promoted as new, and a teardown takes back the reference of every slot once; dropping the
slots behind it takes back nothing more. -/
theorem balance_of_slots (steps : Steps {} c) :
    (∀ r, balance c.holdings.events r = c.holdings.slots.held.count r + c.owned.count r) ∧
    (∀ r, (c.holdings.engine.refs r.1 r.2 : Int) = balance c.holdings.events r) ∧
    (∀ past, past <+: c.holdings.events → ∀ r, 0 ≤ balance past r) ∧
    (∀ d, c.Step d → c.holdings.EnvironmentFirst d.holdings) ∧
    (∀ how, (c.holdings.promote how).1 = c.holdings.slots.canLoad) ∧
    c.holdings.teardown.slots = {} ∧
    c.holdings.teardown.events = c.holdings.events ++
      (Event.releases c.holdings.slots.environment ++ Event.releases c.holdings.slots.active ++
        Event.releases c.holdings.slots.pending) ∧
    c.holdings.teardown.teardown.events = c.holdings.teardown.events ∧
    ∀ r, balance c.holdings.teardown.events r = c.owned.count r := by
  have counted (d : Custody) (ok : d.holdings.Accounted d.owned) (r : Reference) :
      balance d.holdings.events r = d.holdings.slots.held.count r + d.owned.count r := by
    rw [← ok.calls.refs_balance, ok.counts, List.count_append]
    exact Int.natCast_add _ _
  have ok := steps.accounted
  have torn := (Step.teardown (c := c)).accounted ok
  refine ⟨counted c ok, fun r => ok.calls.refs_balance r.1 r.2, ?_,
    fun d step => step.environmentFirst, Holdings.promote_answer,
    Holdings.teardown_slots _, Holdings.teardown_events _, ?_, ?_⟩
  · intro past first r
    obtain ⟨g, calls⟩ := ok.calls.of_prefix first
    rw [← calls.refs_balance r.1 r.2]
    exact Int.natCast_nonneg _
  · rw [Holdings.teardown_events, Holdings.teardown_slots]
    simp [Event.releases]
  · intro r
    rw [counted _ torn, Holdings.teardown_slots]
    simp [Slots.held]

theorem balance_of_slots_moved :
    ∃ c d : Custody, Steps {} c ∧ c.Step d ∧
      c.holdings.slots = ⟨some ⟨2⟩, some ⟨1⟩, some ⟨1⟩⟩ ∧ c.owned = [(.image, 1)] ∧
      d.holdings.slots = ⟨none, some ⟨2⟩, none⟩ ∧ (c.holdings.promote .move).1 = true ∧
      c.holdings.EnvironmentFirst d.holdings ∧ balance c.holdings.events (.image, 1) = 2 ∧
      ∀ r, balance c.holdings.teardown.events r = [(.image, 1)].count r := by
  let image : Image := ⟨1⟩
  let e : Running := ⟨1⟩
  let compiled : Custody := ⟨(Holdings.compile {} "forward(1)").2,
    references (Holdings.compile {} "forward(1)").1.toOption ++ []⟩
  let stored : Custody :=
    ⟨compiled.holdings.storeCompiled image, compiled.owned.erase image.reference⟩
  let active : Custody := { stored with holdings := (stored.holdings.promote .share).2 }
  let copied : Custody := ⟨active.holdings.retain image, image.reference :: active.owned⟩
  let started : Custody := ⟨(copied.holdings.start image).2,
    references ((copied.holdings.start image).1.toOption.map (·.environment)) ++ copied.owned⟩
  let running : Custody := ⟨started.holdings.setEnvironment e, started.owned.erase e.reference⟩
  let again : Custody := ⟨(running.holdings.compile "turn(2)").2,
    references (running.holdings.compile "turn(2)").1.toOption ++ running.owned⟩
  let c : Custody := ⟨again.holdings.storeCompiled ⟨2⟩, again.owned.erase (.image, 2)⟩
  let d : Custody := { c with holdings := (c.holdings.promote .move).2 }
  have steps : Steps {} c := by
    have first : Step {} compiled := .compile "forward(1)"
    have second : compiled.Step stored := .storeCompiled (by decide +kernel)
    have third : stored.Step active := .promote .share
    have fourth : active.Step copied := .copy (by decide +kernel)
    have fifth : copied.Step started := .start (by decide +kernel)
    have sixth : started.Step running := .setEnvironment (by decide +kernel)
    have seventh : running.Step again := .compile "turn(2)"
    have eighth : again.Step c := .storeCompiled (by decide +kernel)
    exact .tail (.tail (.tail (.tail (.tail (.tail (.tail (.single first) second) third) fourth)
      fifth) sixth) seventh) eighth
  have step : c.Step d := .promote .move
  obtain ⟨counts, -, -, first, answer, -, -, -, left⟩ := balance_of_slots steps
  have slots : c.holdings.slots = ⟨some ⟨2⟩, some ⟨1⟩, some ⟨1⟩⟩ := by decide +kernel
  have owned : c.owned = [(.image, 1)] := by decide +kernel
  rw [owned] at left
  refine ⟨c, d, steps, step, slots, owned, by decide +kernel, ?_, first d step, ?_, left⟩
  · rw [answer, slots]
    decide
  · rw [counts, slots, owned]
    decide

end Custody

end TurtlePlayback.Artifact
