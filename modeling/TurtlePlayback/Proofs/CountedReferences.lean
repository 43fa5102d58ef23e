import Mathlib.Algebra.BigOperators.Group.Finset.Piecewise
import Mathlib.Algebra.Order.BigOperators.Group.Finset
import TurtlePlayback.Proofs.Conversations
import TurtlePlayback.Proofs.LivingImages
import TurtlePlayback.Proofs.SlotOwnership

namespace TurtlePlayback.Artifact

namespace Table

inductive Request (α : Type)
  | insert (value : α)
  | get (handle : Nat)
  | set (handle : Nat) (value : α)
  | retain (handle : Nat)
  | release (handle : Nat)

inductive Answer (α : Type)
  | issued (handle : Nat)
  | value (value : α)
  | retained
  | released (last : Option α)
  | refused (failure : Failure)

def Request.use? {α : Type} : Request α → Option (Purpose × Nat)
  | .insert _ => none
  | .get h => some (.use, h)
  | .set h _ => some (.use, h)
  | .retain h => some (.retain, h)
  | .release h => some (.release, h)

variable {α : Type}

def ask (t : Table α) : Request α → Answer α × Table α
  | .insert a => (.issued (t.insert a).1, (t.insert a).2)
  | .get h =>
    match t.get h with
    | .ok a => (.value a, t)
    | .error m => (.refused m.failure, t)
  | .set h a =>
    match t.set h a with
    | .ok (old, t) => (.value old, t)
    | .error m => (.refused m.failure, t)
  | .retain h =>
    match t.retain h with
    | .ok t => (.retained, t)
    | .error m => (.refused m.failure, t)
  | .release h =>
    match t.release h with
    | .ok (last, t) => (.released last, t)
    | .error m => (.refused m.failure, t)

abbrev History (α : Type) :=
  List (Request α × Answer α)

namespace History

def issued : History α → List Nat :=
  List.filterMap fun
    | (.insert _, .issued h) => some h
    | _ => none

def retained : History α → List Nat :=
  List.filterMap fun
    | (.retain h, .retained) => some h
    | _ => none

def released : History α → List Nat :=
  List.filterMap fun
    | (.release h, .released _) => some h
    | _ => none

end History

end Table

@[ext]
structure Bag (α : Type) where
  kind : ResourceKind
  issued : Nat := 0
  value? : Nat → Option α := fun _ => none
  references : Multiset Nat := 0

namespace Bag

open Table

variable {α : Type}

def refuse (b : Bag α) (p : Purpose) (h : Nat) : Answer α × Bag α :=
  (.refused (Misuse.failure ⟨p, b.kind, h⟩), b)

def ask (b : Bag α) : Request α → Answer α × Bag α
  | .insert a =>
    (.issued (b.issued + 1), { b with
      issued := b.issued + 1
      value? := Function.update b.value? (b.issued + 1) (some a)
      references := (b.issued + 1) ::ₘ b.references })
  | .get h =>
    match b.value? h with
    | some a => (.value a, b)
    | none => b.refuse .use h
  | .set h a =>
    match b.value? h with
    | some old => (.value old, { b with value? := Function.update b.value? h (some a) })
    | none => b.refuse .use h
  | .retain h =>
    match b.value? h with
    | some _ => (.retained, { b with references := h ::ₘ b.references })
    | none => b.refuse .retain h
  | .release h =>
    match b.value? h with
    | some a =>
      let rest := b.references.erase h
      if h ∈ rest then (.released none, { b with references := rest })
      else (.released (some a), { b with
        references := rest, value? := Function.update b.value? h none })
    | none => b.refuse .release h

theorem ask_dead {b : Bag α} {r : Request α} {p : Purpose} {h : Nat}
    (about : r.use? = some (p, h)) (dead : b.value? h = none) : b.ask r = b.refuse p h := by
  cases r with
  | insert a => cases about
  | get n => cases about; simp only [ask, dead]
  | set n a => cases about; simp only [ask, dead]
  | retain n => cases about; simp only [ask, dead]
  | release n => cases about; simp only [ask, dead]

theorem kind_ask (b : Bag α) (r : Request α) : (b.ask r).2.kind = b.kind := by
  cases r with
  | insert a => rfl
  | release n =>
    simp only [ask, refuse]
    split
    · split <;> rfl
    · rfl
  | _ =>
    simp only [ask, refuse]
    split <;> rfl

end Bag

namespace Table

variable {α : Type} {t t' : Table α} {h : Nat}

def value? (t : Table α) (h : Nat) : Option α :=
  (t.find? h).map (·.value)

def bag (t : Table α) : Bag α where
  kind := t.kind
  issued := t.issued
  value? := t.value?
  references := ∑ h ∈ Finset.range (t.issued + 1), Multiset.replicate (t.refs h) h

theorem refs_beyond (beyond : t.issued < h) : t.refs h = 0 := by
  by_contra alive
  have := le_issued (Nat.pos_of_ne_zero alive)
  omega

theorem find?_eq_none : t.find? h = none ↔ t.refs h = 0 := by
  cases found : t.find? h with
  | none => simp [refs, found]
  | some e => simp [refs, found, Nat.ne_of_gt e.refs_pos]

@[simp] theorem count_references (t : Table α) (h : Nat) :
    t.bag.references.count h = t.refs h := by
  simp only [bag, Multiset.count_sum', Multiset.count_replicate, Finset.sum_ite_eq',
    Finset.mem_range]
  split
  · rfl
  · rw [refs_beyond (by omega)]

theorem value?_insert (t : Table α) (a : α) :
    (t.insert a).2.value? = Function.update t.value? (t.issued + 1) (some a) := by
  funext n
  simp only [value?, find?_insert, Function.update_apply]
  split
  · next same => simp [same, insert, issued]
  · next other => rw [if_neg (by simpa [insert, issued] using other)]

theorem value?_setEntry {old : Entry α} (found : t.find? h = some old) (e : Option (Entry α)) :
    (t.setEntry h e).value? = Function.update t.value? h (e.map (·.value)) := by
  funext n
  simp only [value?, find?_setEntry found, Function.update_apply]
  split <;> rfl

theorem bag_insert (t : Table α) (a : α) :
    (t.insert a).2.bag = { t.bag with
      issued := t.issued + 1
      value? := Function.update t.value? (t.issued + 1) (some a)
      references := (t.issued + 1) ::ₘ t.bag.references } := by
  ext1
  · rfl
  · simp [bag, insert, issued]
  · exact value?_insert t a
  · ext n
    simp only [count_references, refs_insert, Multiset.count_cons]
    rfl

theorem bag_setEntry {old : Entry α} (found : t.find? h = some old) (e : Option (Entry α))
    {references : Multiset Nat} (here : references.count h = e.elim 0 (·.refs))
    (others : ∀ n ≠ h, references.count n = t.refs n) :
    (t.setEntry h e).bag =
      ⟨t.kind, t.issued, Function.update t.value? h (e.map (·.value)), references⟩ := by
  ext1
  · rfl
  · exact issued_setEntry t h e
  · exact value?_setEntry found e
  · ext n
    rw [count_references, refs_setEntry found]
    split
    · next same => rw [same, here]
    · next other => exact (others n other).symm

theorem bag_value? {e : Entry α} (found : t.find? h = some e) : t.bag.value? h = some e.value := by
  simp [bag, value?, found]

theorem ask_dead {r : Request α} {p : Purpose} (about : r.use? = some (p, h))
    (dead : t.refs h = 0) : t.ask r = (.refused (Misuse.failure ⟨p, t.kind, h⟩), t) := by
  rw [← find?_eq_none] at dead
  cases r with
  | insert a => cases about
  | get n => cases about; simp only [ask, get, dead, misuse]
  | set n a => cases about; simp only [ask, set, dead, misuse]
  | retain n => cases about; simp only [ask, retain, dead, misuse]
  | release n => cases about; simp only [ask, release, dead, misuse]

theorem bag_ask (t : Table α) (r : Request α) :
    t.bag.ask r = ((t.ask r).1, (t.ask r).2.bag) := by
  cases about : r.use? with
  | none =>
    cases r with
    | insert a => simp only [ask, bag_insert]; rfl
    | _ => cases about
  | some use =>
    obtain ⟨p, h⟩ := use
    -- the bag knows a handle by its value, the table by its entry
    cases found : t.find? h with
    | none =>
      have no_value : t.bag.value? h = none := by simp [bag, value?, found]
      rw [ask_dead about (find?_eq_none.mp found), Bag.ask_dead about no_value]
      rfl
    | some e =>
      have value := bag_value? found
      have count := refs_of_entry found
      cases r with
      | insert a => cases about
      | get h =>
        cases about
        simp only [Bag.ask, value, ask, get, found]
      | set h a =>
        cases about
        have changed := bag_setEntry found (some { e with value := a })
          ((count_references t h).trans count) fun n _ => count_references t n
        simp only [Bag.ask, value, ask, set, found, changed]
        rfl
      | retain h =>
        cases about
        have here : (h ::ₘ t.bag.references).count h = e.refs + 1 := by simp [count]
        have changed := bag_setEntry found (some { e with
          refs := e.refs + 1, refs_pos := Nat.succ_pos _ }) here (by simp +contextual)
        simp only [Bag.ask, value, ask, retain, found, changed]
        simp [bag, value?, found]
      | release h =>
        cases about
        have here : (t.bag.references.erase h).count h = e.refs - 1 := by simp [count]
        have others n (other : n ≠ h) : (t.bag.references.erase h).count n = t.refs n := by
          rw [Multiset.count_erase_of_ne other, count_references]
        by_cases more : 1 < e.refs
        · have left : h ∈ t.bag.references.erase h := by
            rw [← Multiset.count_pos, here]
            omega
          have changed := bag_setEntry found (some { e with
            refs := e.refs - 1, refs_pos := Nat.sub_pos_of_lt more }) here others
          simp only [Bag.ask, value, left, ↓reduceIte, ask, release, found, more, ↓reduceDIte,
            changed]
          simp [bag, value?, found]
        · have gone : h ∉ t.bag.references.erase h := by
            rw [← Multiset.count_eq_zero, here]
            omega
          have changed := bag_setEntry found none (here.trans (by simp; omega)) others
          simp only [Bag.ask, value, gone, ↓reduceIte, ask, release, found, more, ↓reduceDIte,
            changed]
          rfl

/-- What the answers have done to the references of a handle. -/
def History.balance (past : History α) (h : Nat) : Int :=
  past.issued.count h + past.retained.count h - past.released.count h

theorem History.issued_cons (first : Request α × Answer α) (later : History α) :
    History.issued (first :: later) = History.issued [first] ++ later.issued :=
  List.filterMap_append (l := [first])

theorem History.balance_cons (first : Request α × Answer α) (later : History α) (h : Nat) :
    History.balance (first :: later) h = History.balance [first] h + later.balance h := by
  rw [← List.singleton_append]
  simp only [balance, issued, retained, released, List.filterMap_append, List.count_append]
  omega

theorem refs_retained (done : t.retain h = .ok t') (n : Nat) :
    t'.refs n = t.refs n + if n = h then 1 else 0 := by
  obtain ⟨t'', retained, count⟩ := retain_of_alive (alive_of_retain done)
  rw [done] at retained
  cases retained
  exact count n

theorem refs_released {last : Option α} (done : t.release h = .ok (last, t')) (n : Nat) :
    t'.refs n + (if n = h then 1 else 0) = t.refs n := by
  obtain ⟨last', t'', released, count⟩ := release_of_alive (alive_of_release done)
  rw [done] at released
  cases released
  exact count n

theorem refs_ask (t : Table α) (r : Request α) (h : Nat) :
    ((t.ask r).2.refs h : Int) = t.refs h + History.balance [(r, (t.ask r).1)] h := by
  simp only [History.balance, History.issued, History.retained, History.released]
  cases r with
  | insert a => simp [ask, refs_insert, List.count_singleton', eq_comm]
  | get n =>
    cases done : t.get n with
    | error m => simp [ask, done]
    | ok v => simp [ask, done]
  | set n a =>
    cases done : t.set n a with
    | error m => simp [ask, done]
    | ok old => simp [ask, done, refs_set done]
  | retain n =>
    cases done : t.retain n with
    | error m => simp [ask, done]
    | ok t' => simp [ask, done, refs_retained done, List.count_singleton', eq_comm]
  | release n =>
    cases done : t.release n with
    | error m => simp [ask, done]
    | ok given =>
      have less := refs_released done h
      simp only [ask, done, ← less, List.filterMap_cons, List.filterMap_nil, List.count_nil,
        List.count_singleton', eq_comm]
      omega

theorem refs_converse (t : Table α) (requests : List (Request α)) (h : Nat) :
    ((converse ask t requests).2.refs h : Int) =
      t.refs h + History.balance (converse ask t requests).1 h := by
  induction requests generalizing t with
  | nil => simp [History.balance, History.issued, History.retained, History.released]
  | cons r rs ih =>
    have first := refs_ask t r h
    have rest := ih (t.ask r).2
    have both := History.balance_cons (r, (t.ask r).1) (converse ask (t.ask r).2 rs).1 h
    simp only [converse_cons]
    omega

def Request.inserts : Request α → Bool
  | .insert _ => true
  | _ => false

theorem issued_ask (t : Table α) (r : Request α) :
    (t.ask r).2.issued = t.issued + [r].countP Request.inserts ∧
      History.issued [(r, (t.ask r).1)] =
        List.range' (t.issued + 1) ([r].countP Request.inserts) := by
  cases r with
  | insert a => simp [ask, insert, issued, History.issued, Request.inserts]
  | get n =>
    cases done : t.get n <;> simp [ask, done, History.issued, Request.inserts]
  | set n a =>
    cases done : t.set n a with
    | error m => simp [ask, done, History.issued, Request.inserts]
    | ok old => simp [ask, done, issued_set done, History.issued, Request.inserts]
  | retain n =>
    cases done : t.retain n with
    | error m => simp [ask, done, History.issued, Request.inserts]
    | ok t' => simp [ask, done, issued_retain done, History.issued, Request.inserts]
  | release n =>
    cases done : t.release n with
    | error m => simp [ask, done, History.issued, Request.inserts]
    | ok given => simp [ask, done, issued_release done, History.issued, Request.inserts]

theorem issued_converse (t : Table α) (requests : List (Request α)) :
    (converse ask t requests).2.issued = t.issued + requests.countP Request.inserts ∧
      History.issued (converse ask t requests).1 =
        List.range' (t.issued + 1) (requests.countP Request.inserts) := by
  induction requests generalizing t with
  | nil => exact ⟨rfl, rfl⟩
  | cons r rs ih =>
    obtain ⟨more, next⟩ := issued_ask t r
    obtain ⟨rest, later⟩ := ih (t.ask r).2
    have both : (r :: rs).countP Request.inserts =
        [r].countP Request.inserts + rs.countP Request.inserts := by
      rw [← List.countP_append, List.singleton_append]
    rw [converse_cons, both]
    constructor
    · rw [rest, more, Nat.add_assoc]
    · rw [History.issued_cons, next, later, more, ← List.range'_append_1]
      simp only [Nat.add_right_comm]

theorem dead_ask (r : Request α) (old : h ≤ t.issued) (dead : t.refs h = 0) :
    (t.ask r).2.refs h = 0 := by
  cases r with
  | insert a =>
    have fresh : h ≠ (t.insert a).1 := Nat.ne_of_lt (Nat.lt_succ_of_le old)
    simp [ask, refs_insert, dead, fresh]
  | get n =>
    cases done : t.get n <;> simp [ask, done, dead]
  | set n a =>
    cases done : t.set n a with
    | error m => simp [ask, done, dead]
    | ok old => simp [ask, done, refs_set done, dead]
  | retain n =>
    cases done : t.retain n with
    | error m => simp [ask, done, dead]
    | ok t' =>
      have other : h ≠ n := by
        rintro rfl
        exact Nat.ne_of_gt (alive_of_retain done) dead
      simp [ask, done, refs_retained done, dead, other]
  | release n =>
    cases done : t.release n with
    | error m => simp [ask, done, dead]
    | ok given =>
      have less := refs_released done h
      simp only [ask, done]
      omega

theorem dead_converse (old : h ≤ t.issued) (dead : t.refs h = 0) (later : List (Request α)) :
    (converse ask t later).2.refs h = 0 := by
  have kept : h ≤ (converse ask t later).2.issued ∧ (converse ask t later).2.refs h = 0 := by
    apply converse_keeps (P := fun t : Table α => h ≤ t.issued ∧ t.refs h = 0) _ ⟨old, dead⟩
    rintro t r ⟨old, dead⟩
    exact ⟨(issued_ask t r).1 ▸ Nat.le_add_right_of_le old, dead_ask r old dead⟩
  exact kept.2

theorem countP_eq_card {β : Type} (p : β → Bool) (l : List β) :
    l.countP p = ((Finset.range l.length).filter fun i => l[i]?.any p).card := by
  induction l using List.reverseRecOn with
  | nil => rfl
  | append_singleton l b ih =>
    have before : (Finset.range l.length).filter (fun i => (l ++ [b])[i]?.any p) =
        (Finset.range l.length).filter fun i => l[i]?.any p := by
      apply Finset.filter_congr
      intro i inside
      rw [List.getElem?_append_left (Finset.mem_range.mp inside)]
    rw [List.countP_append, ih, List.length_append, List.length_singleton, Finset.range_add_one,
      Finset.filter_insert, before]
    by_cases last : p b
    · simp [last]
    · simp [last]

theorem refs_pos_succ (t : Table α) (i : Nat) :
    0 < t.refs (i + 1) ↔ t.entries.toList[i]?.any (·.isSome) := by
  rw [Nat.pos_iff_ne_zero, ne_eq, ← find?_eq_none, Array.getElem?_toList]
  simp only [find?, Nat.succ_ne_zero, ↓reduceIte, Nat.add_sub_cancel]
  rcases t.entries[i]? with _ | _ | e <;> simp

theorem live_eq (t : Table α) : t.live = t.bag.references.toFinset.card := by
  have handles : t.bag.references.toFinset = ((Finset.range t.entries.toList.length).filter
      fun i => t.entries.toList[i]?.any (·.isSome)).map ⟨Nat.succ, Nat.succ_injective⟩ := by
    ext h
    rw [Multiset.mem_toFinset, ← Multiset.count_pos, count_references]
    cases h with
    | zero => simp [refs, find?]
    | succ i =>
      simp only [Finset.mem_map, Finset.mem_filter, Finset.mem_range, Function.Embedding.coeFn_mk,
        Nat.succ.injEq, exists_eq_right, ← refs_pos_succ]
      refine ⟨fun alive => ⟨?_, alive⟩, And.right⟩
      exact le_issued alive
  rw [handles, Finset.card_map, ← countP_eq_card, live, Array.countP_toList]

theorem release_last {last : Option α} (done : t.release h = .ok (last, t')) :
    ∃ v, t.get h = .ok v ∧ last = if t'.refs h = 0 then some v else none := by
  have less := refs_released done h
  cases found : t.find? h with
  | none => simp [release, found] at done
  | some e =>
    refine ⟨e.value, by simp only [get, found], ?_⟩
    have count := refs_of_entry found
    by_cases more : 1 < e.refs
    · simp only [release, found, more, ↓reduceDIte, Except.ok.injEq, Prod.mk.injEq] at done
      rw [if_neg (by simp only [↓reduceIte] at less; omega), done.1]
    · simp only [release, found, more, ↓reduceDIte, Except.ok.injEq, Prod.mk.injEq] at done
      rw [if_pos (by simp only [↓reduceIte] at less; omega), ← done.1]

theorem ask_alive {r : Request α} {p : Purpose} (about : r.use? = some (p, h))
    (alive : 0 < t.refs h) (failure : Failure) : (t.ask r).1 ≠ .refused failure := by
  obtain ⟨e, found⟩ := exists_entry alive
  cases r with
  | insert a => cases about
  | get n => cases about; simp [ask, get, found]
  | set n a => cases about; simp [ask, set, found]
  | retain n => cases about; simp [ask, retain, found]
  | release n =>
    cases about
    by_cases more : 1 < e.refs
    · simp [ask, release, found, more]
    · simp [ask, release, found, more]

theorem kind_ask (t : Table α) (r : Request α) : (t.ask r).2.kind = t.kind := by
  have same := Bag.kind_ask t.bag r
  rwa [bag_ask] at same

theorem bag_empty (kind : ResourceKind) : ({ kind } : Table α).bag = { kind } := by
  ext1
  · rfl
  · rfl
  · funext h
    simp [bag, value?, find?]
  · ext h
    simp [refs, find?]

section

variable {kind : ResourceKind} {requests : List (Request α)} {past : History α}

theorem conversed_kind (conversed : converse ask { kind } requests = (past, t)) :
    t.kind = kind := by
  have kept : (converse ask ({ kind } : Table α) requests).2.kind = kind :=
    converse_keeps (P := fun t : Table α => t.kind = kind)
      (fun t r same => (kind_ask t r).trans same) rfl _
  rwa [conversed] at kept

theorem conversed_issued (conversed : converse ask { kind } requests = (past, t)) :
    t.issued = requests.countP Request.inserts ∧ past.issued = List.range' 1 t.issued := by
  have numbers := issued_converse { kind } requests
  rw [conversed] at numbers
  obtain ⟨inserts, numbers⟩ := numbers
  have none_before : ({ kind } : Table α).issued = 0 := rfl
  rw [none_before, Nat.zero_add] at inserts numbers
  exact ⟨inserts, by rw [numbers, inserts]⟩

theorem conversed_refs (conversed : converse ask { kind } requests = (past, t)) (h : Nat) :
    (t.refs h : Int) = if h ∈ past.issued then
      (1 + past.retained.count h - past.released.count h : Int) else 0 := by
  have count := refs_converse { kind } requests h
  rw [conversed] at count
  have none_before : ({ kind } : Table α).refs h = 0 := by simp [refs, find?]
  have numbers := (conversed_issued conversed).2
  split
  · next member =>
    have once : past.issued.count h = 1 := by
      rw [numbers] at member ⊢
      exact List.count_eq_one_of_mem (List.nodup_range' ..) member
    simp only [History.balance] at count
    omega
  · next unknown =>
    rw [numbers, List.mem_range'_1] at unknown
    rcases Nat.eq_zero_or_pos h with rfl | pos
    · simp [refs, find?]
    · rw [refs_beyond (by omega)]
      rfl

end

/-- Whatever is asked of a table, it answers as the multiset of its references. The counts are those
of the answers, the dead stay dead and are refused, and a last reference gives back its value. -/
theorem counts_references (kind : ResourceKind) (requests : List (Request α)) :
    ∃ (past : History α) (t : Table α) (b : Bag α),
      converse ask { kind } requests = (past, t) ∧
      converse Bag.ask { kind } requests = (past, b) ∧
      (∀ h, t.refs h = b.references.count h) ∧
      (∀ h, (t.refs h : Int) = if h ∈ past.issued then
        (1 + past.retained.count h - past.released.count h : Int) else 0) ∧
      (∀ a, (t.insert a).1 ∉ past.issued) ∧
      t.issued = requests.countP Request.inserts ∧
      t.live = b.references.toFinset.card ∧
      (∀ h ∈ past.issued, t.refs h = 0 → ∀ later, (converse ask t later).2.refs h = 0) ∧
      (∀ r p h, r.use? = some (p, h) →
        if t.refs h = 0 then t.ask r = (.refused (Misuse.failure ⟨p, kind, h⟩), t)
        else ∀ failure, (t.ask r).1 ≠ .refused failure) ∧
      ∀ h last t', t.release h = .ok (last, t') →
        t.refs h = t'.refs h + 1 ∧
        (t.refs h < 2 ^ 32 → (UInt32.ofNat (t.refs h) - 1).toNat = t'.refs h) ∧
        ∃ v, t.get h = .ok v ∧ last = if t'.refs h = 0 then some v else none := by
  have answers := converse_map bag_ask { kind } requests
  cases conversed : converse ask ({ kind } : Table α) requests with | mk past t
  rw [conversed, bag_empty] at answers
  obtain ⟨inserts, numbers⟩ := conversed_issued conversed
  refine ⟨past, t, t.bag, rfl, answers, fun h => (count_references t h).symm,
    conversed_refs conversed, ?_, inserts, live_eq t, ?_, ?_, ?_⟩
  · intro a again
    rw [numbers, List.mem_range'_1] at again
    simp only [insert, issued] at again
    omega
  · intro h given dead later
    rw [numbers, List.mem_range'_1] at given
    exact dead_converse (by omega) dead later
  · intro r p h about
    split
    · next dead => rw [ask_dead about dead, conversed_kind conversed]
    · next alive => exact ask_alive about (Nat.pos_of_ne_zero alive)
  · intro h last t' done
    have less := refs_released done h
    simp only [↓reduceIte] at less
    refine ⟨less.symm, ?_, release_last done⟩
    intro bound
    have counted : (UInt32.ofNat (t.refs h)).toNat = t.refs h :=
      UInt32.toNat_ofNat_of_lt' bound
    have one_le : 1 ≤ UInt32.ofNat (t.refs h) := by
      rw [UInt32.le_iff_toNat_le, counted, UInt32.toNat_one]
      omega
    rw [UInt32.toNat_sub_of_le _ _ one_le, counted, UInt32.toNat_one]
    omega

end Table

end TurtlePlayback.Artifact
