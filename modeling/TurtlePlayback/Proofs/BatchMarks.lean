import TurtlePlayback.Proofs.FrameRequests

/-!
What is marked inside a batch: the signals of the cells that some operation of the batch has left
with another value, and no more. Nobody is told meanwhile.
-/

namespace TurtlePlayback.Canvas

/-- A surface that takes every size a viewport may have. -/
class Resizes (σ : Type) [Surface σ] : Prop where
  accepts (s : σ) {v : Viewport} {r : Resolution} :
    v.resolution = .ok r → (Surface.resize s r).1 = .ok ()

instance : Resizes Recording where
  accepts _ _ _ _ := rfl

theorem Resolution.checked_ok {width height : Nat} {r : Resolution}
    (checked : Resolution.checked width height = .ok r) :
    0 < r.width ∧ r.width ≤ 65535 ∧ 0 < r.height ∧ r.height ≤ 65535 := by
  simp only [Resolution.checked] at checked
  split at checked
  · cases checked
  · split at checked
    · cases checked
    · cases checked
      simp only
      omega

theorem PixelSurface.checkSize_ok {r : Resolution}
    (fits : 0 < r.width ∧ r.width ≤ 65535 ∧ 0 < r.height ∧ r.height ≤ 65535) :
    PixelSurface.checkSize r = .ok () := by
  simp only [checkSize]
  repeat rw [if_neg (by omega)]

instance : Resizes PixelSurface where
  accepts s v r found := by
    have fits := PixelSurface.checkSize_ok (Resolution.checked_ok (mapError_ok.mp found))
    simp [Surface.resize, PixelSurface.resize, fits, settle, Except.map]

end TurtlePlayback.Canvas

namespace TurtlePlayback.Playback

theorem Signal.index_inj {s t : Signal} : s.index = t.index ↔ s = t := by
  cases s <;> cases t <;> simp [index]

theorem ChangeSet.contains_insert (c : ChangeSet) (s t : Signal) :
    (c.insert s).contains t = true ↔ c.contains t = true ∨ t = s := by
  have small : s.index < 6 := by cases s <;> decide
  simp only [contains, insert, BitVec.getLsbD_or, BitVec.getLsbD_twoPow, small, Bool.or_eq_true,
    decide_true, Bool.true_and, decide_eq_true_eq, Signal.index_inj]
  exact or_congr_right eq_comm

theorem Watched.set_changed {α : Type} [BEq α] [LawfulBEq α] (w : Watched α) (a : α) :
    (w.set a).1 = true ↔ (w.set a).2.value ≠ w.value := by
  simp only [set]
  split
  · simp
  · next differs =>
    have other : a ≠ w.value := by
      rintro rfl
      exact differs BEq.rfl
    simp [other]

namespace Scheduler

variable {τ : Type} {a b c : Scheduler τ}

def Asks (a b : Scheduler τ) : Prop :=
  b.host.total = a.host.total ∧ (a.pending = true → b.pending = true) ∨
    b.host.total = a.host.total + 1 ∧ a.pending = false ∧ b.pending = true

theorem Asks.refl (a : Scheduler τ) : Asks a a :=
  .inl ⟨rfl, id⟩

theorem Asks.trans (h : Asks a b) (k : Asks b c) : Asks a c := by
  rcases h with ⟨same, kept⟩ | ⟨more, idle, asked⟩
  · rcases k with ⟨same', kept'⟩ | ⟨more', idle', asked'⟩
    · exact .inl ⟨same'.trans same, kept' ∘ kept⟩
    · refine .inr ⟨by omega, ?_, asked'⟩
      rw [← Bool.not_eq_true]
      intro waiting
      rw [kept waiting] at idle'
      cases idle'
  · rcases k with ⟨same', kept'⟩ | ⟨more', idle', asked'⟩
    · exact .inr ⟨by omega, idle, kept' asked⟩
    · rw [asked] at idle'
      cases idle'

theorem schedule_asks (a : Scheduler τ) : Asks a a.schedule.2 := by
  by_cases waiting : a.pending = true
  · refine .inl ⟨?_, fun _ => a.pending_schedule⟩
    simp only [schedule, waiting]
    split <;> rfl
  · refine .inr ⟨?_, by simpa using waiting, a.pending_schedule⟩
    simp only [schedule, waiting]
    split <;> rfl

theorem Asks.total_le (h : Asks a b) : b.host.total ≤ a.host.total + 1 := by
  rcases h with ⟨same, -⟩ | ⟨more, -⟩ <;> omega

end Scheduler

end TurtlePlayback.Playback

namespace TurtlePlayback.Session

open Artifact Canvas Playback

inductive Cell
  | flag (value : Bool)
  | count (value : Nat)
  | size (value : Resolution)
  deriving DecidableEq

/-- The part of a player that its subscribers hear about. -/
structure Watch (τ : Type) where
  scheduler : Scheduler τ
  observers : Observers
  before : Snapshot τ
  cell : Signal → Option Cell

namespace Watch

variable {τ : Type} {changed changed' : Signal → Prop} {quiet quiet' : Bool} {a b c : Watch τ}

/-- `b` comes after `a` in one batch. The marks that were added are `changed`, other cells are as
they were, and of the observers nothing else is touched. -/
structure Within (changed : Signal → Prop) (quiet : Bool) (a b : Watch τ) : Prop where
  observers : b.observers = { a.observers with pending := b.observers.pending }
  before : b.before = a.before
  marks (s : Signal) : b.observers.pending.contains s = true ↔
    a.observers.pending.contains s = true ∨ changed s
  cells (s : Signal) : ¬ changed s → b.cell s = a.cell s
  asks : quiet = true → a.scheduler.Asks b.scheduler

theorem Within.refl (none : ∀ s, ¬ changed s) (a : Watch τ) : Within changed quiet a a :=
  ⟨rfl, rfl, fun s => by simp [none s], fun _ _ => rfl, fun _ => .refl _⟩

theorem Within.depth (h : Within changed quiet a b) : b.observers.depth = a.observers.depth := by
  rw [h.observers]

theorem Within.after (h : Within changed quiet b c)
    (same : b.observers = a.observers ∧ b.before = a.before ∧ b.cell = a.cell)
    (asks : a.scheduler.Asks b.scheduler) : Within changed quiet a c := by
  obtain ⟨ho, hb, hc⟩ := same
  exact ⟨ho ▸ h.observers, hb ▸ h.before, ho ▸ h.marks, hc ▸ h.cells,
    fun calm => asks.trans (h.asks calm)⟩

theorem Within.congr (h : Within changed quiet a b) (same : ∀ s, changed s ↔ changed' s) :
    Within changed' quiet a b := by
  rwa [show changed' = changed from funext fun s => propext (same s).symm]

end Watch

namespace Player

open Watch

variable {τ σ : Type}

def cell (p : Player τ σ) : Signal → Option Cell
  | .visibility => some (.flag p.visible.value)
  | .scriptDirty => some (.flag p.dirty.value)
  | .playbackSpeed => some (.count p.speed.value)
  | .resolution => some (.size p.resolution.value)
  | .clockState => none
  | .clockTime => none

def watch (p : Player τ σ) : Watch τ :=
  ⟨p.scheduler, p.observers, p.before, p.cell⟩

def Differs (p : Player τ σ) (states : List (Player τ σ)) (s : Signal) : Prop :=
  ∃ q ∈ states, q.cell s ≠ p.cell s

theorem differs_singleton {p q : Player τ σ} {s : Signal} :
    Differs p [q] s ↔ q.cell s ≠ p.cell s := by
  simp [Differs]

theorem differs_append {p : Player τ σ} {l m : List (Player τ σ)} {s : Signal} :
    Differs p (l ++ m) s ↔ Differs p l s ∨ Differs p m s := by
  simp [Differs, or_and_right, exists_or]

theorem within_append {p q r : Player τ σ}
    {l m : List (Player τ σ)} {quiet quiet' : Bool}
    (h : Within (Differs p l) quiet p.watch q.watch)
    (k : Within (Differs q m) quiet' q.watch r.watch) :
    Within (Differs p (l ++ m)) (quiet && quiet') p.watch r.watch where
  observers := by
    rw [k.observers, h.observers]
  before := k.before.trans h.before
  marks s := by
    rw [k.marks, h.marks, differs_append, or_assoc]
    by_cases moved : Differs p l s
    · simp [moved]
    · have same : Differs q m s ↔ Differs p m s := by
        have cells : q.cell s = p.cell s := h.cells s moved
        simp only [Differs, cells]
      rw [same]
  cells s same := by
    rw [differs_append, not_or] at same
    have cells : q.cell s = p.cell s := h.cells s same.1
    have later : ¬ Differs q m s := by
      simpa only [Differs, cells] using same.2
    exact (k.cells s later).trans cells
  asks calm := by
    rw [Bool.and_eq_true] at calm
    exact (h.asks calm.1).trans (k.asks calm.2)

theorem Draws.watch {p q : Player τ σ} (h : Draws p q) : q.watch = p.watch := by
  obtain ⟨_, _, _, _, _, _, rfl⟩ := h
  rfl

theorem mark_observers (p : Player τ σ) (happened : Bool) (s : Signal) :
    (p.mark happened s).observers =
      { p.observers with pending := (p.mark happened s).observers.pending } := by
  cases happened <;> rfl

theorem mark_contains (p : Player τ σ) (happened : Bool) (s t : Signal) :
    (p.mark happened s).observers.pending.contains t = true ↔
      p.observers.pending.contains t = true ∨ happened = true ∧ t = s := by
  cases happened with
  | false => simp [mark, Observers.markIf]
  | true => simpa [mark, Observers.markIf, Observers.mark] using ChangeSet.contains_insert _ s t

theorem mark_within {p : Player τ σ} (q : Player τ σ) (happened : Bool) (s : Signal)
    (same : q.scheduler = p.scheduler ∧ q.observers = p.observers ∧ q.before = p.before)
    (cells : ∀ t, q.cell t ≠ p.cell t ↔ happened = true ∧ t = s) :
    Within (fun t => (q.mark happened s).cell t ≠ p.cell t) true p.watch
      (q.mark happened s).watch := by
  obtain ⟨hs, ho, hb⟩ := same
  refine ⟨?_, hb, fun t => ?_, fun _ => of_not_not, fun _ => ?_⟩
  · have marked := mark_observers q happened s
    rw [ho] at marked
    exact marked
  · have marked := mark_contains q happened s t
    rw [← cells, ho] at marked
    exact marked
  · rw [show (q.mark happened s).watch.scheduler = p.scheduler from hs]
    exact .refl _

theorem asked_within {p q : Player τ σ}
    (same : q.observers = p.observers ∧ q.before = p.before ∧ q.cell = p.cell)
    (asks : p.scheduler.Asks q.scheduler) :
    Within (fun s => q.cell s ≠ p.cell s) true p.watch q.watch := by
  have none : ∀ s, ¬ q.cell s ≠ p.cell s := fun s => not_not.mpr (congrFun same.2.2 s)
  exact (Within.refl none q.watch).after same asks

theorem setDirty_within (p : Player τ σ) (b : Bool) :
    Within (fun s => (p.setDirty b).cell s ≠ p.cell s) true p.watch (p.setDirty b).watch := by
  refine mark_within { p with dirty := (p.dirty.set b).2 } (p.dirty.set b).1 .scriptDirty
    ⟨rfl, rfl, rfl⟩ fun s => ?_
  cases s <;> simp [cell, Watched.set_changed]

theorem applyViewport_within [Surface σ] [Resizes σ] (p : Player τ σ) {v : Viewport}
    {r : Resolution} (found : v.resolution = .ok r) :
    Within (fun s => (p.applyViewport v r).2.cell s ≠ p.cell s) true p.watch
      (p.applyViewport v r).2.watch := by
  have written : (p.applyViewport v r).2 = mark
      { p with
        viewport := v, resolution := (p.resolution.set r).2
        surface := if (p.resolution.set r).1 then (Surface.resize p.surface r).2 else p.surface }
      (p.resolution.set r).1 .resolution := by
    have accepted := Resizes.accepts p.surface found
    rcases resized : Surface.resize p.surface r with ⟨result, s⟩
    rw [resized] at accepted
    obtain rfl : result = .ok () := accepted
    simp only [applyViewport]
    split <;> simp_all [mark, Observers.markIf]
  rw [written]
  refine mark_within _ (p.resolution.set r).1 .resolution ⟨rfl, rfl, rfl⟩ fun s => ?_
  cases s <;> simp [cell, Watched.set_changed]

theorem resetEnvironment_within [Surface σ] (p : Player τ σ) :
    Within (fun s => p.resetEnvironment.cell s ≠ p.cell s) true p.watch p.resetEnvironment.watch :=
  asked_within ⟨rfl, rfl, rfl⟩ p.scheduler.schedule_asks

theorem setClock_within (p : Player τ σ) (c : Clock τ) :
    Within (fun s => (p.setClock c).cell s ≠ p.cell s) true p.watch (p.setClock c).watch :=
  asked_within ⟨rfl, rfl, rfl⟩ (.refl _)

variable [Time τ]

theorem tick_asks (p : Player τ σ) (elapsed : τ) :
    p.scheduler.Asks (p.tick elapsed).2.scheduler := by
  simp only [tick]
  split
  · exact p.scheduler.schedule_asks
  · exact .refl _

theorem tick_same (p : Player τ σ) (elapsed : τ) :
    (p.tick elapsed).2.observers = p.observers ∧ (p.tick elapsed).2.before = p.before ∧
      (p.tick elapsed).2.cell = p.cell := by
  simp only [tick]
  split <;> exact ⟨rfl, rfl, rfl⟩

theorem runFrame_within [Surface σ] (p : Player τ σ) (elapsed : τ) :
    Within (fun s => (p.runFrame elapsed).cell s ≠ p.cell s) true p.watch
      (p.runFrame elapsed).watch := by
  by_cases visible : p.visible.value = true
  · have draws := runFrame_draws visible elapsed
    obtain ⟨ho, hb, hc⟩ := tick_same p elapsed
    have cleaned := setDirty_within (p.tick elapsed).2 false
    rw [show (p.runFrame elapsed).cell = _ from congrArg Watch.cell draws.watch, draws.watch]
    rw [hc] at cleaned
    exact cleaned.after ⟨ho, hb, hc⟩ (tick_asks p elapsed)
  · have hidden : p.runFrame elapsed = p := by simp only [runFrame, visible]; rfl
    rw [hidden]
    exact .refl (fun _ => not_not.mpr rfl) _

theorem update_cell (p : Player τ σ) (f : Player τ σ → Player τ σ) :
    (p.update f).cell = (f p.openBatch).cell := by
  obtain ⟨_, _, _, closed⟩ := update_brackets p f
  rw [closed]
  rfl

theorem update_within {p : Player τ σ} {f : Player τ σ → Player τ σ} {changed : Signal → Prop}
    {quiet : Bool} (inside : 0 < p.observers.depth)
    (body : Within changed quiet p.openBatch.watch (f p.openBatch).watch) :
    Within changed quiet p.watch (p.update f).watch := by
  obtain ⟨n, hn⟩ : ∃ n, p.observers.depth = n + 1 := ⟨p.observers.depth - 1, by omega⟩
  have observers : (f p.openBatch).observers = { p.observers.beginBatch with
      pending := (f p.openBatch).observers.pending } := body.observers
  have depth : (f p.openBatch).observers.depth = n + 2 :=
    (congrArg Observers.depth observers).trans (congrArg (· + 1) hn)
  have before : (f p.openBatch).before = p.before := by
    rw [show (f p.openBatch).before = p.openBatch.before from body.before]
    simp [openBatch, Observers.inBatch, inside]
  rw [update_inner f inside, closeBatch_inner depth]
  refine ⟨?_, before, body.marks, body.cells, body.asks⟩
  refine (congrArg (fun o : Observers => { o with depth := n + 1 }) observers).trans ?_
  rw [← hn]
  rfl

def Noted (changed : Signal → Prop) (quiet : Bool) (p q : Player τ σ) : Prop :=
  Draws p q ∧ (∀ s, ¬ changed s) ∨ ∃ f : Player τ σ → Player τ σ,
    q = p.update f ∧ Within changed quiet p.openBatch.watch (f p.openBatch).watch

theorem Noted.within {changed : Signal → Prop} {quiet : Bool} {p q : Player τ σ}
    (noted : Noted changed quiet p q) (inside : 0 < p.observers.depth) :
    Within changed quiet p.watch q.watch := by
  rcases noted with ⟨draws, none⟩ | ⟨f, rfl, body⟩
  · rw [draws.watch]
    exact .refl none _
  · exact update_within inside body

theorem Noted.draws {p q : Player τ σ} (draws : Draws p q) : Noted (Differs p [q]) true p q := by
  refine .inl ⟨draws, fun s => ?_⟩
  rw [differs_singleton, not_not]
  exact congrFun (congrArg Watch.cell draws.watch) s

theorem Noted.update {p : Player τ σ} {f : Player τ σ → Player τ σ}
    (body : Within (fun s => (f p.openBatch).cell s ≠ p.openBatch.cell s) true p.openBatch.watch
      (f p.openBatch).watch) : Noted (Differs p [p.update f]) true p (p.update f) := by
  refine .inr ⟨f, rfl, body.congr fun s => ?_⟩
  rw [differs_singleton, update_cell]
  rfl

theorem Noted.batch {α : Type} {p : Player τ σ} {f : Player τ σ → α × Player τ σ}
    (body : Within (fun s => (f p.openBatch).2.cell s ≠ p.openBatch.cell s) true p.openBatch.watch
      (f p.openBatch).2.watch) : Noted (Differs p [(p.batch f).2]) true p (p.batch f).2 :=
  Noted.update (f := fun q => (f q).2) body

variable [Surface σ]

theorem frame_within {p : Player τ σ} (inside : 0 < p.observers.depth) (elapsed : τ) :
    Within (fun s => (p.frame elapsed).cell s ≠ p.cell s) true p.watch (p.frame elapsed).watch := by
  have framed := update_within (f := (·.runFrame elapsed)) inside (runFrame_within p.openBatch elapsed)
  exact framed.congr fun s => by rw [frame, update_cell]; rfl

theorem refresh_within {p : Player τ σ} (inside : 0 < p.observers.depth) (now : τ) :
    Within (fun s => (p.refresh now).2.cell s ≠ p.cell s) false p.watch
      (p.refresh now).2.watch := by
  simp only [refresh]
  split
  · next s begun =>
    rw [Scheduler.eq_of_beginFrame_none begun]
    exact .refl (by simp) _
  · next elapsed s begun =>
    have framed := frame_within (p := { p with scheduler := s }) inside elapsed
    exact ⟨framed.observers, framed.before, framed.marks, framed.cells, Bool.noConfusion⟩

mutual

theorem edit_noted [Resizes σ] (p : Player τ σ) (e : Edit τ) (still : ∀ now, e ≠ .refresh now) :
    Noted (Differs p (p.visits e)) e.isQuiet p (p.edit e).2 := by
  cases e with
  | setSource s =>
    simp only [edit, visits, setSource]
    apply Noted.update
    exact setDirty_within { p.openBatch with source := s } true
  | switchScript s =>
    simp only [edit, visits, switchScript]
    apply Noted.update
    exact setDirty_within { clearCanvas { p.openBatch with
      holdings := p.openBatch.holdings.clearActive.2.clearPending } with source := s } true
  | setVisible b =>
    simp only [edit, visits, setVisible]
    apply Noted.update
    refine mark_within { p.openBatch with visible := (p.visible.set b).2 }
      (p.visible.set b).1 .visibility ⟨rfl, rfl, rfl⟩ fun s => ?_
    cases s <;> simp [cell, openBatch, Watched.set_changed]
  | setViewport v =>
    simp only [edit, visits, setViewport]
    split
    · exact .draws (.refl p)
    · exact .draws (.refl p)
    · next found =>
      apply Noted.batch
      exact applyViewport_within p.openBatch found
  | setSpeed n =>
    simp only [edit, visits, setSpeed]
    by_cases zero : n = 0
    · simp only [zero, ↓reduceIte]
      exact .draws (.refl p)
    · simp only [zero, ↓reduceIte]
      apply Noted.update
      refine mark_within { p.openBatch with speed := (p.speed.set n).2 }
        (p.speed.set n).1 .playbackSpeed ⟨rfl, rfl, rfl⟩ fun s => ?_
      cases s <;> simp [cell, openBatch, Watched.set_changed]
  | play =>
    simp only [edit, visits, play]
    apply Noted.update
    exact setClock_within p.openBatch _
  | pause =>
    simp only [edit, visits, pause]
    apply Noted.update
    exact setClock_within p.openBatch _
  | playPause =>
    simp only [edit, visits, playPause]
    apply Noted.update
    exact setClock_within p.openBatch _
  | stop =>
    simp only [edit, visits, stop]
    apply Noted.update
    exact resetEnvironment_within (p.openBatch.setClock _)
  | restart =>
    simp only [edit, visits, restart]
    apply Noted.update
    exact resetEnvironment_within (p.openBatch.setClock _)
  | load =>
    simp only [edit, visits, load]
    apply Noted.batch
    split
    · exact resetEnvironment_within p.openBatch.promote
    · exact .refl (by simp) _
  | setBounds a b =>
    simp only [edit, visits, setBounds]
    apply Noted.batch
    split
    · exact setClock_within p.openBatch _
    · exact .refl (by simp) _
  | setMode m =>
    simp only [edit, visits, setMode]
    apply Noted.update
    exact setClock_within p.openBatch _
  | teardown => exact .draws ⟨_, _, _, _, _, _, rfl⟩
  | frame elapsed =>
    simp only [edit, visits, frame]
    apply Noted.update
    exact runFrame_within p.openBatch elapsed
  | refresh now => exact absurd rfl (still now)
  | batch es =>
    have body := editAll_within (p := p.openBatch) (Nat.succ_pos _) es
    refine .inr ⟨fun q => (q.editAll es).2, rfl, body.congr fun s => ?_⟩
    have closed : (p.edit (.batch es)).2.cell = (p.openBatch.editAll es).2.cell :=
      update_cell p fun q => (q.editAll es).2
    rw [visits, differs_append, differs_singleton, closed]
    refine (or_iff_left_of_imp fun moved => ?_).symm
    by_contra same
    exact moved (body.cells s same)

theorem edit_within [Resizes σ] {p : Player τ σ} (inside : 0 < p.observers.depth) (e : Edit τ) :
    Within (Differs p (p.visits e)) e.isQuiet p.watch (p.edit e).2.watch := by
  by_cases still : ∃ now, e = .refresh now
  · obtain ⟨now, rfl⟩ := still
    exact (refresh_within inside now).congr fun _ => differs_singleton.symm
  · exact (edit_noted p e fun now same => still ⟨now, same⟩).within inside

theorem editAll_within [Resizes σ] {p : Player τ σ} (inside : 0 < p.observers.depth)
    (es : List (Edit τ)) :
    Within (Differs p (p.visitsAll es)) (Edit.areQuiet es) p.watch (p.editAll es).2.watch := by
  cases es with
  | nil => exact .refl (by simp [visitsAll, Differs]) _
  | cons e es =>
    have first := edit_within inside e
    have depth : (p.edit e).2.observers.depth = p.observers.depth := first.depth
    exact within_append first (editAll_within (depth ▸ inside) es)

end

end Player

end TurtlePlayback.Session
