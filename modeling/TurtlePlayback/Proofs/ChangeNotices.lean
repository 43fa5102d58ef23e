import Mathlib.Data.List.Nodup
import TurtlePlayback.Proofs.BatchMarks
import TurtlePlayback.Proofs.PlayerParts

namespace TurtlePlayback.Playback

theorem ChangeSet.contains_empty (s : Signal) : ChangeSet.empty.contains s = false := by
  simp [contains, empty]

theorem ChangeSet.intersects_empty (c : ChangeSet) : c.intersects .empty = false := by
  simp [intersects, empty]

theorem ChangeSet.eq_empty {c : ChangeSet} (nothing : c.isEmpty = true) : c = .empty := by
  rw [isEmpty, beq_iff_eq] at nothing
  cases c
  exact congrArg ChangeSet.mk nothing

/-- What goes out when `changes` are told: every subscription with one of them in its mask, in
order. -/
def Observers.told (o : Observers) (changes : ChangeSet) : List Delivery :=
  (o.subscriptions.filter (·.mask.intersects changes)).map (⟨·.id, changes⟩)

theorem Observers.told_empty (o : Observers) : o.told .empty = [] := by
  simp [told, ChangeSet.intersects_empty]

theorem Observers.told_once {o : Observers} (unique : (o.subscriptions.map (·.id)).Nodup)
    {s : Subscription} (live : s ∈ o.subscriptions) (changes : ChangeSet) :
    (o.told changes).filter (·.subscriber = s.id) =
      if s.mask.intersects changes then [⟨s.id, changes⟩] else [] := by
  have single : o.subscriptions.filter (·.id = s.id) = [s] := by
    have plain : o.subscriptions.Nodup := .of_map _ unique
    have inj := (List.nodup_map_iff_inj_on plain).mp unique
    have named : ∀ t ∈ o.subscriptions, decide (t.id = s.id) = decide (t = s) := by
      intro t there
      exact decide_eq_decide.mpr ⟨inj t there s live, congrArg _⟩
    rw [List.filter_congr named, List.filter_eq, List.count_eq_one_of_mem plain live]
    rfl
  have meant : (o.subscriptions.filter (·.mask.intersects changes)).filter (·.id = s.id) =
      [s].filter (·.mask.intersects changes) := by
    rw [← single, List.filter_filter, List.filter_filter]
    simp only [Bool.and_comm]
  rw [told, List.filter_map]
  refine (congrArg (List.map _) meant).trans ?_
  by_cases concerned : s.mask.intersects changes = true <;> simp [concerned]

theorem Observers.told_live {o : Observers} {changes : ChangeSet} {d : Delivery}
    (sent : d ∈ o.told changes) : ∃ s ∈ o.subscriptions, s.id = d.subscriber := by
  obtain ⟨s, there, rfl⟩ := List.mem_map.mp sent
  exact ⟨s, (List.mem_filter.mp there).1, rfl⟩

end TurtlePlayback.Playback

namespace TurtlePlayback.Session

open Artifact Canvas Playback

namespace Player

open Watch

variable {τ σ : Type}

structure Idle (p : Player τ σ) : Prop where
  closed : p.observers.depth = 0
  unmarked : p.observers.pending = .empty
  unique : (p.observers.subscriptions.map (·.id)).Nodup
  fresh : ∀ s ∈ p.observers.subscriptions, s.id < p.observers.nextId

def ToldLast (p q : Player τ σ) : Prop :=
  q.observers = p.observers ∨ ∃ r : Player τ σ,
    r.observers.depth = 1 ∧ r.observers.deliveries = p.observers.deliveries ∧
      q.observers = r.closeBatch.observers

theorem differs_clock {p : Player τ σ} {l : List (Player τ σ)} :
    ¬ Differs p l .clockState ∧ ¬ Differs p l .clockTime := by
  simp [Differs, cell]

/-- Whether on the way from `p` through the states a cell is given another value. -/
def Writes (p : Player τ σ) : List (Player τ σ) → Signal → Prop
  | [], _ => False
  | q :: l, s => q.cell s ≠ p.cell s ∨ q.Writes l s

instance decidableWrites (p : Player τ σ) :
    (l : List (Player τ σ)) → DecidablePred (p.Writes l)
  | [], _ => instDecidableFalse
  | q :: l, s => @instDecidableOr _ _ _ (decidableWrites q l s)

theorem writes_iff_differs {p : Player τ σ} {l : List (Player τ σ)} {s : Signal} :
    p.Writes l s ↔ Differs p l s := by
  induction l generalizing p with
  | nil => simp [Writes, Differs]
  | cons q l ih =>
    rw [Writes, ih]
    by_cases same : q.cell s = p.cell s <;> simp [Differs, same]

theorem closeBatch_told {p : Player τ σ} (depth : p.observers.depth = 1) :
    p.closeBatch.observers = { p.observers with
      depth := 0, pending := .empty
      deliveries := p.observers.deliveries ++
        (p.observers.told p.observers.pending).toArray } ∧
    p.closeBatch.clock = p.clock ∧ p.scheduler.Asks p.closeBatch.scheduler ∧
    (p.observers.pending.isEmpty = false → p.closeBatch.scheduler.pending = true) := by
  simp only [closeBatch, Observers.endBatch, depth]
  split
  · next nothing =>
    refine ⟨?_, rfl, .refl _, ?_⟩
    · rw [ChangeSet.eq_empty nothing, Observers.told_empty]
      simp
    · simp [nothing]
  · exact ⟨rfl, rfl, p.scheduler.schedule_asks, fun _ => p.scheduler.pending_schedule⟩

variable [Time τ]

/-- What has changed from `p` to `q`: the cells that were written on the way, and the clock where it
does not show what it showed before. -/
def Changes (written : Signal → Prop) (p q : Player τ σ) : Signal → Prop
  | .clockState => q.clock.state ≠ p.clock.state
  | .clockTime => (q.clock.t != p.clock.t) = true
  | s => written s

instance (written : Signal → Prop) [DecidablePred written] (p q : Player τ σ) :
    DecidablePred (Changes written p q)
  | .clockState => inferInstanceAs (Decidable (q.clock.state ≠ p.clock.state))
  | .clockTime => inferInstanceAs (Decidable ((q.clock.t != p.clock.t) = true))
  | .visibility => inferInstanceAs (Decidable (written .visibility))
  | .scriptDirty => inferInstanceAs (Decidable (written .scriptDirty))
  | .playbackSpeed => inferInstanceAs (Decidable (written .playbackSpeed))
  | .resolution => inferInstanceAs (Decidable (written .resolution))

/-- From `p` to `q` subscribers are told of `changes`, which is all that has changed; a time that is
no number would always seem to change. -/
structure Informs (written : Signal → Prop) (quiet : Bool) (p q : Player τ σ)
    (changes : ChangeSet) : Prop where
  contains (number : (p.clock.t == p.clock.t) = true) (s : Signal) :
    changes.contains s = true ↔ Changes written p q s
  observers : q.observers = { p.observers with
    deliveries := p.observers.deliveries ++ (p.observers.told changes).toArray }
  last : ToldLast p q
  pending : changes.isEmpty = false → q.scheduler.pending = true
  asks : quiet = true → p.scheduler.Asks q.scheduler

theorem markClock_observers (p : Player τ σ) :
    p.markClock.observers = { p.observers with pending := p.markClock.observers.pending } := by
  refine (mark_observers _ _ .clockTime).trans ?_
  rw [mark_observers _ _ .clockState]
  rfl

theorem markClock_contains (p : Player τ σ) (s : Signal) :
    p.markClock.observers.pending.contains s = true ↔
      (p.observers.pending.contains s = true ∨ p.clock.state ≠ p.before.state ∧ s = .clockState) ∨
        (p.clock.t != p.before.t) = true ∧ s = .clockTime := by
  refine (mark_contains _ _ .clockTime s).trans ?_
  rw [mark_contains _ _ .clockState]
  simp [Snapshot.stateDiffers, Snapshot.timeDiffers, Clock.snapshot]

theorem update_informs {p : Player τ σ} (idle : p.Idle) {f : Player τ σ → Player τ σ}
    {l : List (Player τ σ)} {quiet : Bool}
    (body : Within (Differs p l) quiet p.openBatch.watch (f p.openBatch).watch) :
    ∃ changes, Informs (Differs p l) quiet p (p.update f) changes := by
  rw [update_outer f idle.closed]
  generalize f p.openBatch = q at body
  have observers : q.observers = { p.observers with
      depth := 1, pending := q.observers.pending } := by
    refine body.observers.trans ?_
    simp [watch, openBatch, Observers.beginBatch, idle.closed]
  have before : q.before = p.clock.snapshot := by
    rw [show q.before = p.openBatch.before from body.before]
    simp [openBatch, Observers.inBatch, idle.closed]
  have marked : q.markClock.observers = { p.observers with
      depth := 1, pending := q.markClock.observers.pending } := by
    rw [markClock_observers, observers]
  obtain ⟨told, clock, asks, pending⟩ :=
    closeBatch_told (p := q.markClock) (congrArg Observers.depth marked)
  refine ⟨q.markClock.observers.pending, fun _ s => ?_, ?_, ?_, pending, ?_⟩
  · have marks : q.observers.pending.contains s = true ↔ Differs p l s := by
      refine (body.marks s).trans ?_
      simp [watch, openBatch, Observers.beginBatch, idle.unmarked, ChangeSet.contains_empty]
    have clock : q.markClock.closeBatch.clock = q.clock := clock
    rw [markClock_contains, marks, before]
    cases s <;> simp [Changes, clock, Clock.snapshot, differs_clock]
  · rw [told, marked, ← idle.closed, ← idle.unmarked]
    rfl
  · exact .inr ⟨q.markClock, by rw [marked], by rw [marked], rfl⟩
  · intro calm
    exact (body.asks calm).trans asks

theorem Noted.informs {p q : Player τ σ} {l : List (Player τ σ)} {quiet : Bool}
    (noted : Noted (Differs p l) quiet p q) (idle : p.Idle) :
    ∃ changes, Informs (Differs p l) quiet p q changes := by
  rcases noted with ⟨draws, none⟩ | ⟨f, rfl, body⟩
  · obtain ⟨_, _, _, _, _, _, rfl⟩ := draws
    refine ⟨.empty, fun number s => ?_, ?_, .inl rfl, Bool.noConfusion, fun _ => .refl _⟩
    · cases s <;> simp [Changes, ChangeSet.contains_empty, none, bne, number]
    · simp [Observers.told_empty]
  · exact update_informs idle body

variable [Surface σ]

theorem refresh_informs {p : Player τ σ} (idle : p.Idle) (now : τ) :
    ∃ changes, Informs (Differs p [(p.refresh now).2]) false p (p.refresh now).2 changes := by
  simp only [refresh]
  split
  · next s begun =>
    rw [Scheduler.eq_of_beginFrame_none begun]
    obtain ⟨changes, informs⟩ := (Noted.draws (.refl p)).informs idle
    exact ⟨changes, informs.contains, informs.observers, informs.last, informs.pending,
      Bool.noConfusion⟩
  · next elapsed s begun =>
    let q : Player τ σ := { p with scheduler := s }
    have noted := Noted.update (f := (·.runFrame elapsed)) (runFrame_within q.openBatch elapsed)
    obtain ⟨changes, informs⟩ := noted.informs ⟨idle.closed, idle.unmarked, idle.unique, idle.fresh⟩
    refine ⟨changes, fun number s => (informs.contains number s).trans ?_, informs.observers,
      informs.last, informs.pending, Bool.noConfusion⟩
    cases s <;> simp only [Changes, differs_singleton] <;> rfl

theorem edit_informs [Resizes σ] {p : Player τ σ} (idle : p.Idle) (e : Edit τ) :
    ∃ changes, Informs (Differs p (p.visits e)) e.isQuiet p (p.edit e).2 changes := by
  by_cases still : ∃ now, e = .refresh now
  · obtain ⟨now, rfl⟩ := still
    exact refresh_informs idle now
  · exact (edit_noted p e fun now same => still ⟨now, same⟩).informs idle

omit [Surface σ] in
theorem Informs.idle {written : Signal → Prop} {quiet : Bool} {p q : Player τ σ}
    {changes : ChangeSet} (informs : Informs written quiet p q changes) (idle : p.Idle) :
    q.Idle := by
  constructor <;> rw [informs.observers]
  exacts [idle.closed, idle.unmarked, idle.unique, idle.fresh]

inductive Reached (surface : σ) (c : Config τ) : Player τ σ → Prop
  | created {p : Player τ σ} : Player.create surface c = .ok p → Reached surface c p
  | edited {p : Player τ σ} (e : Edit τ) : Reached surface c p → Reached surface c (p.edit e).2
  | subscribed {p : Player τ σ} (mask : ChangeSet) :
    Reached surface c p → Reached surface c (p.subscribe mask).2
  | unsubscribed {p : Player τ σ} (id : Nat) :
    Reached surface c p → Reached surface c (p.unsubscribe id).2

theorem Kept.reached {I : Player τ σ → Prop} (kept : Kept I) {surface : σ} {c : Config τ}
    (created : ∀ {p}, Player.create surface c = .ok p → I p) {p : Player τ σ}
    (reached : Reached surface c p) : I p := by
  induction reached with
  | created made => exact created made
  | edited e _ start => exact kept.edit e start
  | subscribed mask _ start => exact kept.part (Brackets.part ⟨_, _, _, rfl⟩) start
  | unsubscribed id _ start => exact kept.part (Brackets.part ⟨_, _, _, rfl⟩) start

omit [Time τ] [Surface σ] in
theorem Idle.subscribe {p : Player τ σ} (idle : p.Idle) (mask : ChangeSet) :
    (p.subscribe mask).2.Idle := by
  have extended : (p.subscribe mask).2.observers.subscriptions =
      p.observers.subscriptions ++ [⟨p.observers.nextId, mask⟩] := rfl
  refine ⟨idle.closed, idle.unmarked, ?_, ?_⟩
  · rw [extended, List.map_append, List.map_singleton, List.nodup_append]
    refine ⟨idle.unique, List.nodup_singleton _, fun id taken id' new => ?_⟩
    obtain ⟨s, there, rfl⟩ := List.mem_map.mp taken
    rw [List.mem_singleton.mp new]
    exact Nat.ne_of_lt (idle.fresh s there)
  · intro s there
    change s.id < p.observers.nextId + 1
    rw [extended, List.mem_append, List.mem_singleton] at there
    rcases there with old | rfl
    · exact Nat.lt_succ_of_lt (idle.fresh s old)
    · exact Nat.lt_succ_self _

omit [Time τ] [Surface σ] in
theorem Idle.unsubscribe {p : Player τ σ} (idle : p.Idle) (id : Nat) :
    (p.unsubscribe id).2.Idle := by
  have kept : (p.unsubscribe id).2.observers.subscriptions.Sublist p.observers.subscriptions :=
    List.filter_sublist
  exact ⟨idle.closed, idle.unmarked, idle.unique.sublist (kept.map _),
    fun s there => idle.fresh s (kept.subset there)⟩

theorem Reached.idle [Resizes σ] {surface : σ} {c : Config τ} {p : Player τ σ}
    (reached : Reached surface c p) : p.Idle := by
  induction reached with
  | created made =>
    obtain ⟨s, clock, r, rfl⟩ := create_eq made
    exact ⟨rfl, rfl, by simp, by simp⟩
  | edited e _ idle =>
    obtain ⟨changes, informs⟩ := edit_informs idle e
    exact informs.idle idle
  | subscribed mask _ idle => exact idle.subscribe mask
  | unsubscribed id _ idle => exact idle.unsubscribe id

theorem deliveries_inside [Resizes σ] {p : Player τ σ} (e : Edit τ) {r : Player τ σ}
    (inside : r ∈ (p.visits e).dropLast) : r.observers.deliveries = p.observers.deliveries := by
  let I (q : Player τ σ) : Prop :=
    0 < q.observers.depth ∧ q.observers.deliveries = p.observers.deliveries
  have opens : ∀ q, I q → I q.openBatch := fun q ⟨_, same⟩ => ⟨Nat.succ_pos _, same⟩
  have edits : ∀ q e, I q → I (q.edit e).2 := by
    intro q e ⟨deep, same⟩
    have within := edit_within deep e
    exact ⟨within.depth ▸ deep, (congrArg Observers.deliveries within.observers).trans same⟩
  cases e with
  | batch es =>
    rw [visits, List.dropLast_concat] at inside
    exact (visitsAll_preserve opens edits es (p := p.openBatch) ⟨Nat.succ_pos _, rfl⟩ inside).2
  | _ => simp [visits] at inside

/-- Subscribers are told once, at the end, and of nothing but what has changed. -/
theorem notices_exact [Resizes σ] {surface : σ} {c : Config τ} {p : Player τ σ}
    (reached : Reached surface c p) (number : (p.clock.t == p.clock.t) = true) (e : Edit τ) :
    ∃ (changes : ChangeSet) (sent : List Delivery),
      (∀ s, changes.contains s = true ↔ Changes (p.Writes (p.visits e)) p (p.edit e).2 s) ∧
      (∀ r ∈ (p.visits e).dropLast, r.observers.deliveries = p.observers.deliveries) ∧
      ToldLast p (p.edit e).2 ∧
      (p.edit e).2.observers.subscriptions = p.observers.subscriptions ∧
      (p.edit e).2.observers.deliveries = p.observers.deliveries ++ sent.toArray ∧
      (∀ s ∈ p.observers.subscriptions, sent.filter (·.subscriber = s.id) =
        if s.mask.intersects changes then [⟨s.id, changes⟩] else []) ∧
      (∀ d ∈ sent, ∃ s ∈ p.observers.subscriptions, s.id = d.subscriber) ∧
      (changes.isEmpty = false → (p.edit e).2.scheduler.pending = true) ∧
      (e.isQuiet = true →
        (p.edit e).2.scheduler.host.total ≤ p.scheduler.host.total + 1) := by
  obtain ⟨changes, informs⟩ := edit_informs reached.idle e
  have written : p.Writes (p.visits e) = Differs p (p.visits e) :=
    funext fun s => propext writes_iff_differs
  refine ⟨changes, p.observers.told changes, written ▸ informs.contains number,
    fun r => deliveries_inside e, informs.last, ?_, ?_, ?_, ?_, informs.pending, ?_⟩
  · rw [informs.observers]
  · rw [informs.observers]
  · exact fun s live => Observers.told_once reached.idle.unique live changes
  · exact fun d sent => Observers.told_live sent
  · exact fun calm => (informs.asks calm).total_le

theorem notices_exact_nested :
    ∃ (p : Player Float Recording) (e : Edit Float) (changes : ChangeSet) (sent : List Delivery),
      Reached { resolution := ⟨512, 512⟩ } Config.default p ∧ (p.clock.t == p.clock.t) = true ∧
      changes.toList = [.visibility, .clockState, .playbackSpeed] ∧
      (∀ s ∈ p.observers.subscriptions, sent.filter (·.subscriber = s.id) =
        if s.mask.intersects changes then [⟨s.id, changes⟩] else []) ∧
      (p.edit e).2.observers.deliveries = p.observers.deliveries ++ sent.toArray ∧
      (p.edit e).2.scheduler.pending = true := by
  let start : Player Float Recording := opening { resolution := ⟨512, 512⟩ }
  let p := ((start.subscribe .all).2.subscribe (.ofList [.resolution])).2
  let e : Edit Float := .batch [.setVisible false, .batch [.setSpeed 3, .setVisible true], .pause]
  have created : Player.create { resolution := ⟨512, 512⟩ } Config.default = .ok start :=
    create_opening rfl
  have reached : Reached { resolution := ⟨512, 512⟩ } Config.default p :=
    .subscribed _ (.subscribed _ (.created created))
  have number : (p.clock.t == p.clock.t) = true := by decide +kernel
  obtain ⟨changes, sent, exact, -, -, -, deliveries, each, -, asked, -⟩ :=
    notices_exact reached number e
  have listed : changes.toList = [.visibility, .clockState, .playbackSpeed] := by
    have same : changes.toList =
        Signal.all.filter fun s => Changes (p.Writes (p.visits e)) p (p.edit e).2 s :=
      List.filter_congr fun s _ => Bool.eq_iff_iff.mpr ((exact s).trans decide_eq_true_iff.symm)
    rw [same]
    decide +kernel
  have some : changes.isEmpty = false := by
    by_contra none
    rw [ChangeSet.eq_empty (eq_true_of_ne_false none)] at listed
    cases listed
  exact ⟨p, e, changes, sent, reached, number, listed, each, deliveries, asked some⟩

end Player

end TurtlePlayback.Session
