import Mathlib.Data.List.Nodup
import TurtlePlayback.Proofs.TreeEvaluation
import TurtlePlayback.Script.Code.Lowering

namespace TurtlePlayback.Script.Scope

theorem slot?_toList (s : Scope) (n : String) : s.slot? n = s.toList.idxOf? n := by
  rcases s with ⟨l⟩
  simp [slot?]

theorem slot?_eq_some {s : Scope} {n : String} {i : Nat} :
    s.slot? n = some i ↔ ∃ h : i < s.size, s[i] = n ∧ ∀ j, (hj : j < i) → s[j] ≠ n := by
  rw [slot?_toList, List.idxOf?_eq_some_iff]
  simp

theorem slot?_eq_none {s : Scope} {n : String} : s.slot? n = none ↔ n ∉ s := by
  simp [slot?]

theorem slot?_of_prefix {s names : Scope} (grown : s.toList <+: names.toList) {n : String} {i : Nat}
    (found : s.slot? n = some i) : names.slot? n = some i := by
  rw [slot?_toList, List.idxOf?_eq_some_iff] at found ⊢
  obtain ⟨bound, hit, before⟩ := found
  obtain ⟨more, grown⟩ := grown
  have get (j : Nat) (hj : j < s.toList.length) : names.toList[j]? = some s.toList[j] := by
    rw [← grown, List.getElem?_append_left hj, List.getElem?_eq_getElem hj]
  have longer : i < names.toList.length := by
    rw [← grown, List.length_append]
    omega
  refine ⟨longer, ?_, ?_⟩
  · rw [← hit]
    simpa [List.getElem?_eq_getElem longer] using get i bound
  · intro j hj
    have := get j (by omega)
    rw [List.getElem?_eq_getElem (by omega)] at this
    rw [Option.some.inj this]
    exact before j hj

theorem declare_prefix (s : Scope) (n : String) : s.toList <+: (s.declare n).1.toList := by
  simp only [declare]
  split
  · exact List.prefix_rfl
  · simp

theorem declare_slot? (s : Scope) (n : String) :
    (s.declare n).1.slot? n = some (s.declare n).2 := by
  simp only [declare]
  split
  · assumption
  · next new =>
    rw [slot?_eq_none] at new
    rw [slot?_eq_some]
    refine ⟨by simp, by simp, ?_⟩
    intro j hj same
    rw [Array.getElem_push_lt hj] at same
    exact new (same ▸ Array.getElem_mem hj)

structure WellNamed (s : Scope) : Prop where
  unreserved : ∀ n ∈ s, isReserved n = false
  distinct : s.toList.Nodup

theorem wellNamed_empty : WellNamed #[] :=
  ⟨by simp, by simp⟩

theorem WellNamed.declare {s : Scope} (well : s.WellNamed) {n : String}
    (unreserved : isReserved n = false) : (s.declare n).1.WellNamed := by
  simp only [Scope.declare]
  split
  · exact well
  · next new =>
    rw [slot?_eq_none] at new
    refine ⟨?_, ?_⟩
    · intro m member
      rcases Array.mem_push.mp member with old | rfl
      · exact well.unreserved m old
      · exact unreserved
    · rw [Array.toList_push, List.nodup_append]
      refine ⟨well.distinct, by simp, ?_⟩
      intro m old k last
      rw [List.mem_singleton.mp last]
      rintro rfl
      exact new (Array.mem_toList_iff.mp old)

theorem WellNamed.ofName?_eq_none {s : Scope} (well : s.WellNamed) {n : String} {i : Nat}
    (found : s.slot? n = some i) : Reading.ofName? n = none ∧ Constant.ofName? n = none := by
  obtain ⟨bound, named, _⟩ := slot?_eq_some.mp found
  have unreserved : isReserved n = false :=
    well.unreserved n (named ▸ Array.getElem_mem bound)
  simp only [isReserved, Bool.or_eq_false_iff, Option.isSome_eq_false_iff,
    Option.isNone_iff_eq_none] at unreserved
  exact ⟨unreserved.1.1.1, unreserved.2⟩

theorem WellNamed.slot?_getElem {s : Scope} (well : s.WellNamed) {i : Nat} (bound : i < s.size) :
    s.slot? s[i] = some i := by
  rw [slot?_eq_some]
  refine ⟨bound, rfl, ?_⟩
  intro j hj same
  rw [← Array.getElem_toList, ← Array.getElem_toList] at same
  have same_slot := well.distinct.getElem_inj_iff.mp same
  omega

def store (names : Scope) (vars : Array Value) : Store := fun n =>
  ((names.slot? n).bind fun i => vars[i]?).getD .unset

variable {names : Scope} {vars : Array Value} {n : String} {i : Nat}

theorem getElem?_slot (sized : vars.size = names.size) (found : names.slot? n = some i) :
    vars[i]? = some (names.store vars n) := by
  obtain ⟨bound, -⟩ := slot?_eq_some.mp found
  simp [store, found, sized, bound]

theorem store_set (found : names.slot? n = some i) (bound : i < vars.size) (v : Value) :
    names.store (vars.setIfInBounds i v) = Function.update (names.store vars) n v := by
  funext m
  by_cases same : m = n
  · subst same
    simp [store, found, bound]
  · rw [Function.update_of_ne same]
    have other (j : Nat) (slot : names.slot? m = some j) : i ≠ j := by
      rintro rfl
      obtain ⟨_, hm, _⟩ := slot?_eq_some.mp slot
      obtain ⟨_, hn, _⟩ := slot?_eq_some.mp found
      exact same (hm.symm.trans hn)
    cases slot : names.slot? m with
    | none => simp [store, slot]
    | some j => simp [store, slot, Array.getElem?_setIfInBounds_ne (other j slot)]

theorem vars_eq_store (well : names.WellNamed) (sized : vars.size = names.size) :
    vars = names.map (names.store vars) := by
  apply Array.ext
  · simpa using sized
  · intro i bound _
    have inside : i < names.size := sized ▸ bound
    have held := getElem?_slot sized (well.slot?_getElem inside)
    rw [Array.getElem?_eq_getElem bound] at held
    rw [Array.getElem_map]
    exact Option.some.inj held

end TurtlePlayback.Script.Scope
