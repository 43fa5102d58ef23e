import Mathlib.Algebra.Ring.Nat
import Mathlib.Data.List.TakeWhile
import TurtlePlayback.Proofs.AnswerReports
import TurtlePlayback.Proofs.RecordedDrawings

namespace TurtlePlayback.Artifact

def Event.isStep : Event → Bool
  | .step _ => true
  | _ => false

theorem prefix_of_notMem {α : Type} {early late before since : List α} {a : α}
    (split : before ++ since = early ++ a :: late) (untouched : a ∉ since) : early <+: before := by
  rcases List.append_eq_append_iff.mp split with ⟨rest, -, later⟩ | ⟨rest, whole, -⟩
  · exact absurd (by simp [later]) untouched
  · exact ⟨rest, whole.symm⟩

namespace Engine

open Canvas

def Answer.segments : Answer → Nat
  | .stepped (.ok out) => out.lines.size
  | _ => 0

def segments (answers : List Answer) : Nat :=
  (answers.map Answer.segments).sum

theorem segments_append (as bs : List Answer) : segments (as ++ bs) = segments as + segments bs := by
  rw [segments, List.map_append, List.sum_append]
  rfl

theorem segments_eq_zero {as : List Answer} : segments as = 0 ↔ ∀ a ∈ as, a.segments = 0 := by
  simp [segments, List.sum_eq_zero_iff]

theorem drawing_segments (g : Engine) (e : Event) :
    ((g.drawing e).map DrawCmd.segmentCount).sum = segments (g.answer? e).toList := by
  cases e with
  | start image r =>
    simp only [drawing, answer?]
    cases (g.start image).1 <;> rfl
  | step e =>
    simp only [drawing, answer?]
    cases (g.step e).1 with
    | error f => rfl
    | ok out =>
      have fills : (out.background.toList.map DrawCmd.fill).map DrawCmd.segmentCount =
          out.background.toList.map fun _ => 0 := List.map_map
      rw [List.map_append, List.sum_append, fills]
      by_cases none : out.lines.isEmpty = true
      · have empty := Array.isEmpty_iff.mp none
        simp [segments, Answer.segments, empty]
      · simp [segments, Answer.segments, none, DrawCmd.segmentCount]
  | _ => rfl

theorem drawings_segments (g : Engine) (calls : List Event) :
    ((g.drawings calls).map DrawCmd.segmentCount).sum = segments (g.answers calls) := by
  induction calls generalizing g with
  | nil => rfl
  | cons e calls ih =>
    rw [drawings, answers, List.map_append, List.sum_append, segments_append, drawing_segments, ih]

theorem segments_early {early calls : List Event} (g : Engine) (first : early <+: calls) :
    segments (g.answers early) ≤ segments (g.answers calls) := by
  obtain ⟨late, rfl⟩ := first
  rw [answers_append, segments_append]
  exact Nat.le_add_right _ _

theorem segments_unstepped {calls : List Event} (none : ∀ e ∈ calls, e.isStep = false)
    (g : Engine) : segments (g.answers calls) = 0 := by
  induction calls generalizing g with
  | nil => rfl
  | cons e calls ih =>
    rw [List.forall_mem_cons] at none
    have here : segments (g.answer? e).toList = 0 := by
      cases e with
      | step r => cases none.1
      | _ => rfl
    rw [answers, segments_append, here, ih none.2]

structure SameCounts (g g' : Engine) : Prop where
  compiles : g'.compiles = g.compiles
  steps : g'.steps = g.steps
  images : g'.images.issued = g.images.issued
  environments : g'.environments.issued = g.environments.issued

theorem retain_counts {g g' : Engine} {k : ResourceKind} {n : Nat} (done : g.retain k n = .ok g') :
    SameCounts g g' := by
  have environments := retain_issued done
  cases k with
  | image =>
    obtain ⟨t, retained, rfl⟩ := map_ok.mp done
    exact ⟨rfl, rfl, Table.issued_retain retained, environments⟩
  | environment =>
    obtain ⟨t, -, rfl⟩ := map_ok.mp done
    exact ⟨rfl, rfl, rfl, environments⟩

theorem release_counts {g g' : Engine} {k : ResourceKind} {n : Nat}
    (done : g.release k n = .ok g') : SameCounts g g' := by
  have environments := release_issued done
  cases k with
  | image =>
    obtain ⟨t, released, rfl⟩ := map_ok.mp done
    exact ⟨rfl, rfl, Table.issued_release released, environments⟩
  | environment =>
    obtain ⟨t, -, rfl⟩ := map_ok.mp done
    exact ⟨rfl, rfl, rfl, environments⟩

theorem after_unheard {g : Engine} {e : Event} (unheard : g.answer? e = none) :
    SameCounts g (g.after e) := by
  cases e with
  | retain k n =>
    simp only [after]
    cases done : g.retain k n with
    | error m => exact ⟨rfl, rfl, rfl, rfl⟩
    | ok g' => exact retain_counts done
  | release k n =>
    simp only [after]
    cases done : g.release k n with
    | error m => exact ⟨rfl, rfl, rfl, rfl⟩
    | ok g' => exact release_counts done
  | clearCanvas => exact ⟨rfl, rfl, rfl, rfl⟩
  | _ => cases unheard

theorem step_steps (g : Engine) (e : Running) :
    (g.step e).2.steps = g.steps + 1 ∧ (g.step e).2.compiles = g.compiles := by
  simp only [step]
  split
  · exact ⟨rfl, rfl⟩
  · split <;> exact ⟨rfl, rfl⟩

end Engine

end TurtlePlayback.Artifact

namespace TurtlePlayback.Canvas

def Recording.segments (s : Recording) : Nat :=
  (s.commands.map DrawCmd.segmentCount).sum

end TurtlePlayback.Canvas

namespace TurtlePlayback.Session

open Artifact Canvas Playback

structure Stats.Agrees (s : Stats) (g : Engine) : Prop where
  compiles : s.compiles = g.compiles
  images : s.compiles = s.compileErrors + g.images.issued
  environments : s.starts = g.environments.issued
  steps : s.steps + s.stepErrors = g.steps

namespace Stats.Agrees

variable {s : Stats} {g g' : Engine}

theorem compiled (agrees : s.Agrees g) (source : String) :
    (s.note (.compiled (g.compile source).1)).Agrees (g.compile source).2 := by
  obtain ⟨compiles, images, environments, steps⟩ := agrees
  simp only [Engine.compile]
  cases Script.Program.compile source with
  | error e => exact ⟨by simp [note, compiles], by simp only [note]; omega, environments, steps⟩
  | ok p =>
    have issued : (g.images.insert p).2.issued = g.images.issued + 1 := Array.size_push _
    exact ⟨by simp [note, compiles], by simp only [note]; omega, environments, steps⟩

theorem started (agrees : s.Agrees g) (image : Image) :
    (s.note (.started (g.start image).1)).Agrees (g.start image).2 := by
  obtain ⟨compiles, images, environments, steps⟩ := agrees
  simp only [Engine.start]
  split
  · exact ⟨compiles, images, environments, steps⟩
  · split
    · exact ⟨compiles, images, environments, steps⟩
    · next e _ _ _ =>
      have issued : (g.environments.insert e).2.issued = g.environments.issued + 1 :=
        Array.size_push _
      exact ⟨compiles, images, by simp only [note]; omega, steps⟩

theorem stepped (agrees : s.Agrees g) (e : Running) :
    (s.note (.stepped (g.step e).1)).Agrees (g.step e).2 := by
  obtain ⟨compiles, images, environments, steps⟩ := agrees
  obtain ⟨more, same⟩ := Engine.step_steps g e
  have kept := congrArg Table.issued (Engine.step_images g e)
  have environments' := Engine.issued_step g e
  cases (g.step e).1 <;>
    exact ⟨by simp only [note]; omega, by simp only [note]; omega, by simp only [note]; omega,
      by simp only [note]; omega⟩

theorem same (agrees : s.Agrees g) (same : Engine.SameCounts g g') : s.Agrees g' where
  compiles := agrees.compiles.trans same.compiles.symm
  images := same.images ▸ agrees.images
  environments := agrees.environments.trans same.environments.symm
  steps := agrees.steps.trans same.steps.symm

theorem after (agrees : s.Agrees g) (e : Event) :
    ((g.answer? e).toList.foldl note s).Agrees (g.after e) := by
  cases e with
  | compile source image => exact agrees.compiled source
  | start image e => exact agrees.started image
  | step e => exact agrees.stepped e
  | _ => exact agrees.same (Engine.after_unheard rfl)

theorem calls (agrees : s.Agrees g) (calls : List Event) :
    ((g.answers calls).foldl note s).Agrees (calls.foldl Engine.after g) := by
  induction calls generalizing s g with
  | nil => exact agrees
  | cons e calls ih =>
    rw [Engine.answers, List.foldl_append]
    exact ih (agrees.after e)

end Stats.Agrees

theorem Stats.segments_note (s : Stats) (a : Engine.Answer) :
    (s.note a).segments = s.segments + a.segments := by
  rcases a with (_ | _) | (_ | _) | (_ | _) | _ <;> rfl

theorem Stats.segments_foldl_note (s : Stats) (answers : List Engine.Answer) :
    (answers.foldl note s).segments = s.segments + Engine.segments answers := by
  induction answers generalizing s with
  | nil => rfl
  | cons a answers ih =>
    rw [List.foldl_cons, ih, segments_note, Nat.add_assoc]
    rfl

namespace Player

variable {τ σ : Type}

structure Tallied (p : Player τ σ) : Prop where
  engine : p.holdings.engine = p.holdings.events.foldl Engine.after {}
  stats : p.stats.answered = (Engine.answers {} p.holdings.events).foldl Stats.note {}

variable {p q : Player τ σ}

theorem Tallied.agrees (tallied : p.Tallied) : p.stats.Agrees p.holdings.engine := by
  have new : Stats.Agrees {} {} := ⟨rfl, rfl, rfl, rfl⟩
  have agrees := new.calls p.holdings.events
  rw [← tallied.stats, ← tallied.engine] at agrees
  exact ⟨agrees.compiles, agrees.images, agrees.environments, agrees.steps⟩

theorem Tallied.segments (tallied : p.Tallied) :
    p.stats.segments = Engine.segments (Engine.answers {} p.holdings.events) := by
  have counted := Stats.segments_foldl_note {} (Engine.answers {} p.holdings.events)
  rw [← tallied.stats, Nat.zero_add] at counted
  exact counted

variable [Surface σ]

theorem Tallied.reported (tallied : p.Tallied) (reported : Reported p q) : q.Tallied := by
  obtain ⟨calls, us, reports⟩ := reported
  constructor
  · rw [reports.extended.engine, reports.extended.events, List.foldl_append, tallied.engine]
  · rw [reports.counted, reports.extended.events, Engine.answers_append, List.foldl_append,
      tallied.stats, tallied.engine]

theorem tallied_kept : Kept (Tallied (τ := τ) (σ := σ)) where
  part part tallied := tallied.reported part.reported
  size _ tallied := tallied.reported (applyViewport_reported _ _ _)

theorem create_tallied [Time τ] {surface : σ} {c : Config τ}
    (created : Player.create surface c = .ok p) : p.Tallied := by
  obtain ⟨_, _, _, rfl⟩ := create_eq created
  exact ⟨rfl, rfl⟩

/-- The segments that are left of what was on the canvas at first. -/
def left (surface : Recording) (p : Player τ Recording) : Nat :=
  if .clearCanvas ∈ p.holdings.events then 0 else surface.segments

/-- Nothing had been drawn whenever the canvas was cleared. -/
def ClearedEmpty (p : Player τ σ) : Prop :=
  ∀ early late, p.holdings.events = early ++ .clearCanvas :: late →
    ∀ a ∈ Engine.answers {} early, a.segments = 0

omit [Surface σ] in
theorem clearedEmpty_of_steps {p : Player τ σ}
    (untouched : .clearCanvas ∉ p.holdings.events.dropWhile (!·.isStep)) : p.ClearedEmpty := by
  intro early late cleared
  have split := List.takeWhile_append_dropWhile (p := (!·.isStep)) (l := p.holdings.events)
  have first := prefix_of_notMem (split.trans cleared) untouched
  refine Engine.segments_eq_zero.mp (Engine.segments_unstepped ?_ {})
  intro e member
  have kept := List.mem_takeWhile_imp (first.subset member)
  rwa [Bool.not_eq_true'] at kept

theorem Shown.segments {surface : Recording} {p : Player τ Recording} (shown : p.Shown surface)
    (tallied : p.Tallied) : ∃ lost, p.surface.segments + lost = p.left surface + p.stats.segments ∧
      (lost = 0 ↔ p.ClearedEmpty) := by
  obtain ⟨before, since, start, split, fresh, untouched, drawn⟩ := shown.drawn
  have counted : p.stats.segments = Engine.segments (Engine.answers {} before) +
      Engine.segments (Engine.answers (before.foldl Engine.after {}) since) := by
    rw [tallied.segments, split, Engine.answers_append, Engine.segments_append]
  have recorded : p.surface.segments = (start.map DrawCmd.segmentCount).sum +
      Engine.segments (Engine.answers (before.foldl Engine.after {}) since) := by
    rw [shown.flushed, Array.toList_empty, List.append_nil] at drawn
    rw [Recording.segments, drawn, List.map_append, List.sum_append, Engine.drawings_segments]
  have kept : p.left surface = (start.map DrawCmd.segmentCount).sum := by
    rcases fresh with ⟨rfl, rfl⟩ | ⟨last, rfl⟩
    · rw [left, split, List.nil_append, if_neg untouched]
      rfl
    · have cleared : .clearCanvas ∈ p.holdings.events := by
        rw [split]
        exact List.mem_append_left _ (List.mem_of_getLast? last)
      rw [left, if_pos cleared]
      rfl
  -- Lost is what was drawn before the last clear; an earlier clear lost no more than that.
  refine ⟨Engine.segments (Engine.answers {} before), by omega, ?_, ?_⟩
  · intro nothing early late cleared
    have first : early <+: before := prefix_of_notMem (split.symm.trans cleared) untouched
    have less := Engine.segments_early {} first
    rw [nothing] at less
    exact Engine.segments_eq_zero.mp (Nat.eq_zero_of_le_zero less)
  · intro empty
    rcases fresh with ⟨rfl, -⟩ | ⟨last, -⟩
    · rfl
    · obtain ⟨early, rfl⟩ := List.getLast?_eq_some_iff.mp last
      rw [List.append_assoc] at split
      have none := Engine.segments_eq_zero.mpr (empty early since split)
      rw [Engine.answers_append, Engine.segments_append, none]
      rfl

variable [Time τ]

theorem Shown.visited {surface : Recording} {p q : Player τ Recording} {es : List (Edit τ)}
    (shown : p.Shown surface) (visited : q ∈ p :: p.visitsAll es) : q.Shown surface := by
  rcases List.mem_cons.mp visited with rfl | later
  · exact shown
  · exact visitsAll_preserve (I := (·.Shown surface))
      (fun r shown => shown.brackets (openBatch_brackets r)) (fun _ e shown => shown.edit e) es
      shown later

/-- A player's counters are those of its engine, which nobody else uses; and of the segments counted
only those are missing on a recording that were drawn before it was cleared. -/
theorem stats_agree :
    (∀ {σ : Type} [Surface σ] {surface : σ} {c : Config τ} {p q : Player τ σ} {es : List (Edit τ)},
      Reached surface c p → q ∈ p :: p.visitsAll es →
      q.stats.compiles = q.holdings.engine.compiles ∧
      q.stats.compiles = q.stats.compileErrors + q.holdings.engine.images.issued ∧
      q.stats.starts = q.holdings.engine.environments.issued ∧
      q.stats.steps + q.stats.stepErrors = q.holdings.engine.steps ∧
      q.holdings.engine = q.holdings.events.foldl Engine.after {} ∧
      q.stats.segments = Engine.segments (Engine.answers {} q.holdings.events)) ∧
    (∀ {surface : Recording} {c : Config τ} {p q : Player τ Recording} {es : List (Edit τ)},
      Reached surface c p → q ∈ p :: p.visitsAll es →
      q.surface.segments ≤ q.left surface + q.stats.segments ∧
      (q.surface.segments = q.left surface + q.stats.segments ↔ q.ClearedEmpty) ∧
      (.clearCanvas ∉ q.holdings.events.dropWhile (!·.isStep) →
        q.surface.segments = q.left surface + q.stats.segments)) := by
  constructor
  · intro σ _ surface c p q es reached visited
    have tallied := tallied_kept.visited (tallied_kept.reached create_tallied reached) visited
    have agrees := tallied.agrees
    exact ⟨agrees.compiles, agrees.images, agrees.environments, agrees.steps, tallied.engine,
      tallied.segments⟩
  · intro surface c p q es reached visited
    have tallied := tallied_kept.visited (tallied_kept.reached create_tallied reached) visited
    obtain ⟨lost, whole, nothing⟩ := (reached.shown.visited visited).segments tallied
    have complete : q.surface.segments = q.left surface + q.stats.segments ↔ q.ClearedEmpty := by
      rw [← nothing]
      omega
    exact ⟨by omega, complete, fun untouched => complete.mpr (clearedEmpty_of_steps untouched)⟩

theorem stats_agree_failing :
    ∃ (p : Player Float Recording) (es : List (Edit Float)) (q r : Player Float Recording),
      Reached { resolution := ⟨512, 512⟩ } Config.default p ∧
      q ∈ p :: p.visitsAll es ∧ r ∈ p :: p.visitsAll es ∧
      q.stats = ⟨3, 2, 1, 2, 2, 2, 2⟩ ∧
      q.stats.compiles = q.holdings.engine.compiles ∧
      q.stats.compiles = q.stats.compileErrors + q.holdings.engine.images.issued ∧
      q.stats.starts = q.holdings.engine.environments.issued ∧
      q.stats.steps + q.stats.stepErrors = q.holdings.engine.steps ∧
      q.stats.segments = Engine.segments (Engine.answers {} q.holdings.events) ∧
      q.surface.segments = 1 ∧ ¬ q.ClearedEmpty ∧
      .clearCanvas ∉ r.holdings.events.dropWhile (!·.isStep) ∧ r.stats.segments = 1 ∧
      r.surface.segments = r.left { resolution := ⟨512, 512⟩ } + r.stats.segments := by
  let p : Player Float Recording := opening { resolution := ⟨512, 512⟩ }
  let once : List (Edit Float) := [.setSource "goto(", .refresh 0.0,
    .setSource "goto(10, 0)\nassert(step < 1)", .setSpeed 2, .refresh 16.0]
  let es : List (Edit Float) := once ++ [.batch [.restart], .refresh 32.0]
  let q := (p.editAll es).2
  let r := (p.editAll once).2
  have reached : Reached { resolution := ⟨512, 512⟩ } Config.default p := .created (create_opening rfl)
  have visited : q ∈ p :: p.visitsAll es := by simp [visitsAll, visits, q, es, once, editAll]
  have visited' : r ∈ p :: p.visitsAll es := by simp [visitsAll, visits, r, es, once, editAll]
  have counts : q.stats = ⟨3, 2, 1, 2, 2, 2, 2⟩ ∧ q.surface.segments = 1 ∧
      q.left { resolution := ⟨512, 512⟩ } = 0 ∧ r.stats.segments = 1 ∧
      .clearCanvas ∉ r.holdings.events.dropWhile (!·.isStep) := by
    decide +kernel
  obtain ⟨stats, recorded, none_left, drawn, untouched⟩ := counts
  obtain ⟨compiles, images, environments, steps, -, segments⟩ := stats_agree.1 reached visited
  obtain ⟨-, complete, -⟩ := stats_agree.2 reached visited
  obtain ⟨-, -, whole⟩ := stats_agree.2 reached visited'
  have lost : ¬ q.ClearedEmpty := by
    rw [← complete, recorded, none_left, stats]
    decide
  exact ⟨p, es, q, r, reached, visited, visited', stats, compiles, images, environments, steps,
    segments, recorded, lost, untouched, drawn, whole untouched⟩

end Player

end TurtlePlayback.Session
