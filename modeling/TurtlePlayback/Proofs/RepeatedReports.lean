import TurtlePlayback.Proofs.AnswerReports

namespace TurtlePlayback.Artifact.Engine

def Answer.isCompiled : Answer → Bool
  | .compiled _ => true
  | _ => false

def Answer.failure? : Answer → Option Failure
  | .compiled (.error f) => some f
  | .started (.error f) => some f
  | .stepped (.error f) => some f
  | _ => none

end TurtlePlayback.Artifact.Engine

namespace TurtlePlayback.Session

open Artifact Canvas Playback

def Utterance.Fits (m : String) : Utterance → Prop
  | cleared => False
  | line _ => True
  | failed message => message = m
  | refused text => text ≠ m

theorem Utterance.fits_ofAnswer {a : Engine.Answer} {m : String} (plain : a.isCompiled = false)
    (same : ∀ f ∈ a.failure?, f.message = m) {u : Utterance} (said : u ∈ ofAnswer a) : u.Fits m := by
  rcases a with (f | _) | (f | s) | (f | out) | _
  · cases plain
  · cases plain
  · rw [List.mem_singleton.mp said]
    exact same f rfl
  · obtain ⟨text, -, rfl⟩ := List.mem_map.mp said
    trivial
  · rw [List.mem_singleton.mp said]
    exact same f rfl
  · obtain ⟨text, -, rfl⟩ := List.mem_map.mp said
    trivial
  · cases said

namespace Output

def put (o : Output) (l : OutputLine) : Output :=
  o.print l.text l.isError

def writes (o : Output) : Utterance → List OutputLine
  | .cleared => []
  | .line text => [⟨text, false⟩]
  | .failed message => if o.last? = some ⟨message, true⟩ then [] else [⟨message, true⟩]
  | .refused text => [⟨text, true⟩]

def written (o : Output) : List Utterance → List OutputLine
  | [] => []
  | u :: us => o.writes u ++ (o.hear u).written us

variable {m : String} {u : Utterance} {us : List Utterance}

theorem hear_eq (other : u ≠ .cleared) (o : Output) : o.hear u = (o.writes u).foldl put o := by
  cases u with
  | cleared => exact absurd rfl other
  | line text => rfl
  | failed message =>
    simp only [hear, writes]
    split <;> rfl
  | refused text => rfl

theorem hear_uncleared (others : .cleared ∉ us) (o : Output) :
    us.foldl hear o = (o.written us).foldl put o := by
  induction us generalizing o with
  | nil => rfl
  | cons u us ih =>
    rw [List.mem_cons, not_or] at others
    rw [List.foldl_cons, ih others.2, written, List.foldl_append, hear_eq (Ne.symm others.1)]

theorem hear_all (fits : ∀ u ∈ us, u.Fits m) (o : Output) :
    us.foldl hear o = (o.written us).foldl put o :=
  hear_uncleared (fits .cleared) o

abbrev EndsWith (o : Output) (m : String) : Prop :=
  o.last? = some ⟨m, true⟩

theorem endsWith_failed (o : Output) (m : String) : (o.hear (.failed m)).EndsWith m := by
  simp only [hear]
  split
  · assumption
  · rfl

theorem count_failed (o : Output) (m : String) :
    (o.writes (.failed m)).count ⟨m, true⟩ = if o.EndsWith m then 0 else 1 := by
  simp only [writes]
  split
  · rfl
  · exact List.count_singleton_self

theorem hear_other (fits : u.Fits m) (other : u ≠ .failed m) (o : Output) :
    ¬ (o.hear u).EndsWith m ∧ (o.writes u).count ⟨m, true⟩ = 0 := by
  cases u with
  | cleared => cases fits
  | line text =>
    have plain : (⟨text, false⟩ : OutputLine) ≠ ⟨m, true⟩ := by simp
    exact ⟨fun same => plain (Option.some.inj same), List.count_singleton.trans (by simp)⟩
  | failed message => exact absurd (congrArg Utterance.failed fits) other
  | refused text =>
    have different : text ≠ m := fits
    exact ⟨fun same => different (congrArg OutputLine.text (Option.some.inj same)),
      List.count_singleton.trans (by simpa using different)⟩

def Unbroken (m : String) (us : List Utterance) : Prop :=
  ∀ mid late, us = mid ++ .failed m :: late → ∀ u ∈ mid, u = .failed m

theorem unbroken_failed : Unbroken m (.failed m :: us) ↔ Unbroken m us := by
  constructor
  · intro unbroken mid late split u said
    exact unbroken (.failed m :: mid) late (by rw [split]; rfl) u (List.mem_cons_of_mem _ said)
  · intro unbroken mid late split u said
    rcases List.cons_eq_append_iff.mp split with ⟨rfl, -⟩ | ⟨rest, rfl, later⟩
    · cases said
    · rcases List.mem_cons.mp said with rfl | said
      · rfl
      · exact unbroken rest late later u said

theorem unbroken_other (other : u ≠ .failed m) : Unbroken m (u :: us) ↔ .failed m ∉ us := by
  constructor
  · intro unbroken again
    obtain ⟨mid, late, rfl⟩ := List.append_of_mem again
    exact other (unbroken (u :: mid) late rfl u List.mem_cons_self)
  · intro quiet mid late split
    rcases List.cons_eq_append_iff.mp split with ⟨rfl, same⟩ | ⟨rest, -, rfl⟩
    · exact absurd (List.cons.inj same).1.symm other
    · exact absurd (by simp) quiet

theorem unwritten_iff (fits : ∀ u ∈ us, u.Fits m) {o : Output} (fresh : ¬ o.EndsWith m) :
    (o.written us).count ⟨m, true⟩ = 0 ↔ .failed m ∉ us := by
  induction us generalizing o with
  | nil => simp [written]
  | cons u us ih =>
    rw [List.forall_mem_cons] at fits
    rw [written, List.count_append, List.mem_cons, not_or]
    by_cases failed : u = .failed m
    · subst failed
      rw [count_failed, if_neg fresh]
      simp
    · obtain ⟨fresh', nothing⟩ := hear_other fits.1 failed o
      rw [nothing, Nat.zero_add, ih fits.2 fresh']
      exact ⟨fun quiet => ⟨Ne.symm failed, quiet⟩, And.right⟩

theorem unwritten_iff_unbroken (fits : ∀ u ∈ us, u.Fits m) {o : Output} (told : o.EndsWith m) :
    (o.written us).count ⟨m, true⟩ = 0 ↔ Unbroken m us := by
  induction us generalizing o with
  | nil => simp [written, Unbroken]
  | cons u us ih =>
    rw [List.forall_mem_cons] at fits
    rw [written, List.count_append]
    by_cases failed : u = .failed m
    · subst failed
      rw [count_failed, if_pos told, Nat.zero_add, unbroken_failed]
      exact ih fits.2 (endsWith_failed o m)
    · obtain ⟨fresh, nothing⟩ := hear_other fits.1 failed o
      rw [nothing, Nat.zero_add, unbroken_other failed]
      exact unwritten_iff fits.2 fresh

theorem written_once_iff (fits : ∀ u ∈ us, u.Fits m) (o : Output) :
    (o.written us).count ⟨m, true⟩ ≤ 1 ↔ ∀ early rest, us = early ++ .failed m :: rest →
      ¬ (early.foldl hear o).EndsWith m → Unbroken m rest := by
  induction us generalizing o with
  | nil => simp [written]
  | cons u us ih =>
    rw [List.forall_mem_cons] at fits
    rw [written, List.count_append]
    -- What is behind the first of them, and the first of them itself.
    have later : ((∀ early rest, u :: us = early ++ .failed m :: rest →
          ¬ (early.foldl hear o).EndsWith m → Unbroken m rest) ↔
        (u = .failed m → ¬ o.EndsWith m → Unbroken m us) ∧
          ((o.hear u).written us).count ⟨m, true⟩ ≤ 1) := by
      rw [ih fits.2]
      constructor
      · intro all
        refine ⟨?_, fun early rest split => all (u :: early) rest (by rw [split]; rfl)⟩
        rintro rfl
        exact all [] us rfl
      · rintro ⟨first, all⟩ early rest split
        rcases List.cons_eq_append_iff.mp split with ⟨rfl, same⟩ | ⟨before, rfl, tail⟩
        · obtain ⟨rfl, rfl⟩ := List.cons.inj same
          exact first rfl
        · exact all before rest tail
    rw [later]
    by_cases failed : u = .failed m
    · subst failed
      have told := endsWith_failed o m
      have quiet := unwritten_iff_unbroken fits.2 told
      rw [count_failed]
      split
      · next already => simp [already]
      · next fresh =>
        rw [← quiet]
        simp only [fresh, not_false_eq_true, forall_const]
        omega
    · rw [(hear_other fits.1 failed o).2, Nat.zero_add]
      simp [failed]

end Output

namespace Player

variable {τ σ : Type} [Time τ] [Surface σ]

/-- In a run without compilations in which all failures say the same, they are written once if and
only if nothing is said between the first that is written and a later one. -/
theorem report_written_once {p : Player τ σ} {es : List (Edit τ)} {calls : List Event} {m : String}
    (run : (p.editAll es).2.holdings.events = p.holdings.events ++ calls)
    (plain : ∀ a ∈ p.holdings.engine.answers calls, a.isCompiled = false)
    (same : ∀ a ∈ p.holdings.engine.answers calls, ∀ f ∈ a.failure?, f.message = m)
    (mute : ∀ (s : σ) (l : DrawList) (ratio : Float) (f : Failure),
      (Surface.render s l ratio).1 = .error f → f.text ≠ m) :
    ∃ us, us.filter (!·.isRefusal) =
        (p.holdings.engine.answers calls).flatMap Utterance.ofAnswer ∧
      (p.editAll es).2.output = (p.output.written us).foldl Output.put p.output ∧
      ((p.output.written us).count ⟨m, true⟩ ≤ 1 ↔
        ∀ early rest, us = early ++ .failed m :: rest →
          ¬ (early.foldl Output.hear p.output).EndsWith m → Output.Unbroken m rest) := by
  obtain ⟨calls', us, reports⟩ := (reported_kept p).editAll es ⟨[], [], .refl p⟩
  have unique : calls' = calls := List.append_cancel_left (reports.extended.events.symm.trans run)
  subst unique
  have fits : ∀ u ∈ us, u.Fits m := by
    intro u said
    cases refusal : u.isRefusal with
    | true =>
      cases u with
      | refused text =>
        obtain ⟨s, l, ratio, f, failed, rfl⟩ := reports.refusals text said
        exact mute s l ratio f failed
      | _ => cases refusal
    | false =>
      have kept : u ∈ us.filter (!·.isRefusal) := List.mem_filter.mpr ⟨said, by rw [refusal]; rfl⟩
      rw [reports.source] at kept
      obtain ⟨a, answered, given⟩ := List.mem_flatMap.mp kept
      exact Utterance.fits_ofAnswer (plain a answered) (same a answered) given
  exact ⟨us, reports.source, reports.heard.trans (Output.hear_all fits _),
    Output.written_once_iff fits _⟩

theorem report_written_once_silent :
    ∃ (p : Player Float Recording) (calls : List Event) (us : List Utterance),
      Reached { resolution := ⟨512, 512⟩ } Config.default p ∧
      (p.editAll [.frame 16.0, .frame 16.0]).2.holdings.events = p.holdings.events ++ calls ∧
      us.filter (!·.isRefusal) =
        [.failed "1:1: assertion failed", .failed "1:1: assertion failed"] ∧
      p.output.lines = [⟨"1:1: assertion failed", true⟩] ∧
      (p.editAll [.frame 16.0, .frame 16.0]).2.output.lines = p.output.lines ∧
      (p.editAll [.frame 16.0, .frame 16.0]).2.output =
        (p.output.written us).foldl Output.put p.output ∧
      ((p.output.written us).count ⟨"1:1: assertion failed", true⟩ ≤ 1 ↔
        ∀ early rest, us = early ++ .failed "1:1: assertion failed" :: rest →
          ¬ (early.foldl Output.hear p.output).EndsWith "1:1: assertion failed" →
            Output.Unbroken "1:1: assertion failed" rest) := by
  let start : Player Float Recording := opening { resolution := ⟨512, 512⟩ }
  let p := ((start.edit (.setSource "assert(false)")).2.edit (.frame 0.0)).2
  let calls : List Event := [.start ⟨1⟩ (some ⟨2⟩), .step ⟨2⟩, .release .environment 2,
    .start ⟨1⟩ (some ⟨3⟩), .step ⟨3⟩, .release .environment 3]
  have reached : Reached { resolution := ⟨512, 512⟩ } Config.default p :=
    .edited _ (.edited _ (.created (create_opening rfl)))
  have run : (p.editAll [.frame 16.0, .frame 16.0]).2.holdings.events =
      p.holdings.events ++ calls := by decide +kernel
  have plain : ∀ a ∈ p.holdings.engine.answers calls, a.isCompiled = false := by decide +kernel
  have same : ∀ a ∈ p.holdings.engine.answers calls, ∀ f ∈ a.failure?,
      f.message = "1:1: assertion failed" := by decide +kernel
  have mute : ∀ (s : Recording) (l : DrawList) (ratio : Float) (f : Failure),
      (Surface.render s l ratio).1 = .error f → f.text ≠ "1:1: assertion failed" := nofun
  obtain ⟨us, source, written, once⟩ := report_written_once run plain same mute
  have said : (p.holdings.engine.answers calls).flatMap Utterance.ofAnswer =
      [.failed "1:1: assertion failed", .failed "1:1: assertion failed"] := by decide +kernel
  have lines : p.output.lines = [⟨"1:1: assertion failed", true⟩] ∧
      (p.editAll [.frame 16.0, .frame 16.0]).2.output.lines = p.output.lines := by decide +kernel
  exact ⟨p, calls, us, reached, run, source.trans said, lines.1, lines.2, written, once⟩

/-- With a word in its setup it is reported in every frame. -/
theorem report_written_twice :
    ∃ (p : Player Float Recording) (calls : List Event),
      Reached { resolution := ⟨512, 512⟩ } Config.default p ∧
      (p.editAll [.frame 16.0, .frame 16.0]).2.holdings.events = p.holdings.events ++ calls ∧
      (∀ a ∈ p.holdings.engine.answers calls, a.isCompiled = false) ∧
      (∀ a ∈ p.holdings.engine.answers calls, ∀ f ∈ a.failure?,
        f.message = "2:1: assertion failed") ∧
      (p.editAll [.frame 16.0, .frame 16.0]).2.output.lines = p.output.lines ++
        [⟨"1", false⟩, ⟨"2:1: assertion failed", true⟩,
          ⟨"1", false⟩, ⟨"2:1: assertion failed", true⟩] := by
  let start : Player Float Recording := opening { resolution := ⟨512, 512⟩ }
  let p := ((start.edit (.setSource "setup \x7b print(1) \x7d\nassert(false)")).2.edit
    (.frame 0.0)).2
  refine ⟨p, [.start ⟨1⟩ (some ⟨2⟩), .step ⟨2⟩, .release .environment 2,
    .start ⟨1⟩ (some ⟨3⟩), .step ⟨3⟩, .release .environment 3],
    .edited _ (.edited _ (.created (create_opening rfl))), ?_⟩
  decide +kernel

end Player

end TurtlePlayback.Session
