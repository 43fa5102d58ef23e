import TurtlePlayback.Proofs.LatestCompilation
import TurtlePlayback.Proofs.NewestLines
import TurtlePlayback.Proofs.RepeatedReports

/-!
Who has said the lines that an output shows. Each was said by a call to the engine, or by a surface
that refused to draw. The output is cleared when a text is compiled, but the image that is active
then plays on, so what it says is shown beside the new text.
-/

namespace TurtlePlayback

theorem untagged {α β : Type} (a : α) (l : List β) : (l.map (a, ·)).map (·.2) = l := by
  rw [List.map_map]
  exact List.map_id l

namespace Artifact

/-- The call is about this text: it compiles it, or it starts or steps an image compiled from it. -/
def Event.Of (past : List Event) (source : String) (e : Event) : Prop :=
  (∃ result, e = .compile source result) ∨
    ∃ image, .compile source (some image) ∈ past ∧ e.Plays past image

theorem Event.Of.compiled {g : Engine} {past : List Event} {source : String} {e : Event}
    {image : Image} (calls : Engine.Calls {} past g) (of : e.Of past source)
    (plays : e.Plays past image) : .compile source (some image) ∈ past := by
  rcases of with ⟨result, rfl⟩ | ⟨other, compiled, plays'⟩
  · cases plays
  · exact plays.unique calls plays' ▸ compiled

namespace Engine

def reports (g : Engine) : List Event → List (Event × Answer)
  | [] => []
  | e :: calls => (g.answer? e).toList.map (e, ·) ++ (g.after e).reports calls

variable {g : Engine} {calls : List Event} {e : Event} {a : Answer}

theorem reports_answers (g : Engine) (calls : List Event) :
    (g.reports calls).map (·.2) = g.answers calls := by
  induction calls generalizing g with
  | nil => rfl
  | cons e calls ih =>
    rw [reports, answers, List.map_append, ih, untagged]

theorem mem_reports (member : (e, a) ∈ g.reports calls) :
    e ∈ calls ∧ ∃ g', answer? g' e = some a := by
  induction calls generalizing g with
  | nil => cases member
  | cons first calls ih =>
    rw [reports, List.mem_append, List.mem_map] at member
    rcases member with ⟨_, given, ⟨⟩⟩ | later
    · exact ⟨List.mem_cons_self, g, Option.mem_toList.mp given⟩
    · obtain ⟨within, answered⟩ := ih later
      exact ⟨List.mem_cons_of_mem _ within, answered⟩

theorem isCompile_of_answer (answered : g.answer? e = some a) : e.isCompile = a.isCompiled := by
  cases e <;> cases answered <;> rfl

end Engine

end Artifact

namespace Session

open Artifact Canvas Playback

namespace Utterance

theorem ofAnswer_compiled (result : Except Failure Image) : ∃ failure,
    ofAnswer (.compiled result) = cleared :: failure ∧ cleared ∉ failure := by
  cases result <;> exact ⟨_, rfl, by simp⟩

theorem isCompiled_of_cleared {a : Engine.Answer} (said : cleared ∈ ofAnswer a) :
    a.isCompiled = true := by
  rcases a with (_ | _) | (_ | _) | (_ | _) | _ <;> simp_all [ofAnswer, Engine.Answer.isCompiled]

theorem uncleared_of_others {calls : List Event} (others : ∀ e ∈ calls, e.isCompile = false)
    (g : Engine) : cleared ∉ (g.answers calls).flatMap ofAnswer := by
  intro said
  obtain ⟨a, answered, given⟩ := List.mem_flatMap.mp said
  rw [← Engine.reports_answers, List.mem_map] at answered
  obtain ⟨⟨e, _⟩, reported, rfl⟩ := answered
  obtain ⟨called, g', answered⟩ := Engine.mem_reports reported
  have compiled := (Engine.isCompile_of_answer answered).trans (isCompiled_of_cleared given)
  exact absurd (compiled.symm.trans (others e called)) (by decide)

def ofReport (r : Event × Engine.Answer) : List (Event × Utterance) :=
  (ofAnswer r.2).map (r.1, ·)

theorem map_ofReport (rs : List (Event × Engine.Answer)) :
    (rs.flatMap ofReport).map (·.2) = (rs.map (·.2)).flatMap ofAnswer := by
  induction rs with
  | nil => rfl
  | cons r rs ih =>
    rw [List.flatMap_cons, List.map_append, ih, List.map_cons, List.flatMap_cons, ofReport, untagged]

theorem exists_told {us : List Utterance} {said : List (Event × Utterance)}
    (same : us.filter (!·.isRefusal) = said.map (·.2)) : ∃ told : List (Option Event × Utterance),
      told.map (·.2) = us ∧ told.filterMap (fun t => t.1.map (·, t.2)) = said ∧
        ∀ t ∈ told, t.1 = none → t.2.isRefusal = true := by
  induction us generalizing said with
  | nil =>
    obtain rfl := List.map_eq_nil_iff.mp same.symm
    exact ⟨[], rfl, rfl, nofun⟩
  | cons u us ih =>
    cases refusal : u.isRefusal with
    | true =>
      rw [List.filter_cons_of_neg (by simp [refusal])] at same
      obtain ⟨told, heard, calls, surface⟩ := ih same
      refine ⟨(none, u) :: told, by rw [List.map_cons, heard], calls, ?_⟩
      exact List.forall_mem_cons.mpr ⟨fun _ => refusal, surface⟩
    | false =>
      rw [List.filter_cons_of_pos (by simp [refusal])] at same
      obtain ⟨⟨e, v⟩, said, rfl, rfl, rest⟩ := List.map_eq_cons_iff.mp same.symm
      obtain ⟨told, heard, calls, surface⟩ := ih rest.symm
      refine ⟨(some e, v) :: told, by rw [List.map_cons, heard], ?_, ?_⟩
      · rw [List.filterMap_cons, calls]
        rfl
      · exact List.forall_mem_cons.mpr ⟨nofun, surface⟩

end Utterance

namespace Output

/-- The lines that are written, each with the call that it comes from. -/
def credits (o : Output) : List (Option Event × Utterance) → List (Option Event × OutputLine)
  | [] => []
  | (call, u) :: told => (o.writes u).map (call, ·) ++ (o.hear u).credits told

theorem map_credits (o : Output) (told : List (Option Event × Utterance)) :
    (o.credits told).map (·.2) = o.written (told.map (·.2)) := by
  induction told generalizing o with
  | nil => rfl
  | cons t told ih =>
    rw [credits, List.map_append, ih, List.map_cons, written, untagged]

theorem mem_credits {o : Output} {told : List (Option Event × Utterance)} {call : Option Event}
    {l : OutputLine} (member : (call, l) ∈ o.credits told) : ∃ u, (call, u) ∈ told := by
  induction told generalizing o with
  | nil => cases member
  | cons t told ih =>
    rw [credits, List.mem_append, List.mem_map] at member
    rcases member with ⟨_, -, ⟨⟩⟩ | later
    · exact ⟨_, List.mem_cons_self⟩
    · obtain ⟨u, within⟩ := ih later
      exact ⟨u, List.mem_cons_of_mem _ within⟩

theorem Window.put_all (ls : List OutputLine) : Window (ls.foldl put {}) ls := by
  induction ls using List.reverseRecOn with
  | nil => exact .empty
  | append_singleton ls l window =>
    rw [List.foldl_append]
    exact window.print l.text l.isError

theorem newest_map {α β : Type} (f : α → β) (l : List α) :
    newest (l.map f) = (newest l).map f := by
  rw [newest, newest, List.rtake, List.rtake, List.map_drop, List.length_map]

theorem mem_of_newest {α : Type} {l : List α} {a : α} (member : a ∈ newest l) : a ∈ l :=
  List.mem_of_mem_drop member

end Output

namespace Player

variable {τ σ : Type} [Surface σ] {p q : Player τ σ}

/-- What is told in a run of calls from `g` on: what the answers say, and between it what surfaces
say that refuse to draw. -/
structure Tells (σ : Type) [Surface σ] (g : Engine) (calls : List Event)
    (told : List (Option Event × Utterance)) : Prop where
  answers : told.filterMap (fun t => t.1.map (·, t.2)) =
    (g.reports calls).flatMap Utterance.ofReport
  refusals : ∀ t ∈ told, t.1 = none → ∃ text, t.2 = .refused text ∧
    ∃ (s : σ) (l : DrawList) (ratio : Float) (f : Failure),
      (Surface.render s l ratio).1 = .error f ∧ f.text = text

theorem Tells.call {g : Engine} {calls : List Event} {told : List (Option Event × Utterance)}
    (tells : Tells σ g calls told) {e : Event} {u : Utterance} (member : (some e, u) ∈ told) :
    e ∈ calls ∧ ∃ g' a, Engine.answer? g' e = some a := by
  have within : (e, u) ∈ told.filterMap fun t => t.1.map (·, t.2) :=
    List.mem_filterMap.mpr ⟨_, member, rfl⟩
  rw [tells.answers] at within
  obtain ⟨⟨e', a⟩, reported, said⟩ := List.mem_flatMap.mp within
  obtain ⟨_, -, ⟨⟩⟩ := List.mem_map.mp said
  obtain ⟨called, g', answered⟩ := Engine.mem_reports reported
  exact ⟨called, g', a, answered⟩

theorem Reports.told {early late : List Event} {source : String} {result : Option Image}
    {us : List Utterance} (reports : Reports p (early ++ .compile source result :: late) us q)
    (others : ∀ e ∈ late, e.isCompile = false) : ∃ told,
      Tells σ (early.foldl Engine.after p.holdings.engine) (.compile source result :: late) told ∧
        Output.Window q.output ((Output.credits {} told).map (·.2)) := by
  let g := early.foldl Engine.after p.holdings.engine
  obtain ⟨failure, first, plain⟩ := Utterance.ofAnswer_compiled (g.compile source).1
  let rest := failure ++ ((g.compile source).2.answers late).flatMap Utterance.ofAnswer
  have said : (g.answers (.compile source result :: late)).flatMap Utterance.ofAnswer =
      .cleared :: rest := by
    change (Engine.Answer.compiled (g.compile source).1 :: _).flatMap Utterance.ofAnswer = _
    rw [List.flatMap_cons, first]
    rfl
  have uncleared : .cleared ∉ rest :=
    List.not_mem_append plain (Utterance.uncleared_of_others others _)
  -- What was told in front of the compilation does not matter: it is cleared.
  have heard := reports.source
  rw [Engine.answers_append, List.flatMap_append, said] at heard
  obtain ⟨_, us', rfl, -, behind⟩ := List.filter_eq_append_iff.mp heard
  obtain ⟨skipped, us, rfl, -, -, since⟩ := List.filter_eq_cons_iff.mp behind
  have by_calls : (Utterance.cleared :: us).filter (!·.isRefusal) =
      ((g.reports (.compile source result :: late)).flatMap Utterance.ofReport).map (·.2) := by
    rw [Utterance.map_ofReport, Engine.reports_answers, said, List.filter_cons_of_pos rfl, since]
  obtain ⟨told, utterances, calls, surface⟩ := Utterance.exists_told by_calls
  refine ⟨told, ⟨calls, ?_⟩, ?_⟩
  · intro t member unsaid
    have within : t.2 ∈ .cleared :: us := utterances ▸ List.mem_map_of_mem member
    cases refused : t.2 with
    | refused text =>
      rw [refused] at within
      refine ⟨text, rfl, reports.refusals text ?_⟩
      exact List.mem_append_right _ (List.mem_append_right _ within)
    | _ => cases refused ▸ surface t member unsaid
  · have cleared : q.output = us.foldl Output.hear {} := by
      rw [reports.heard, List.foldl_append, List.foldl_append, List.foldl_cons]
      rfl
    have last : .cleared ∉ us := by
      intro again
      exact uncleared (since ▸ List.mem_filter.mpr ⟨again, rfl⟩)
    rw [cleared, Output.hear_uncleared last, Output.map_credits, utterances]
    exact .put_all _

theorem Tells.said {compiled : Compilation} {late : List Record}
    {told : List (Option Event × Utterance)}
    (tells : Tells σ compiled.engine ((compiled.record :: late).map (·.event)) told)
    (attached : p.holdings.Attached [])
    (journal : p.holdings.journal.toList = compiled.early ++ compiled.record :: late)
    (all : ∀ r ∈ late, compiled.Precedes r) {e : Event} {u : Utterance}
    (heard : (some e, u) ∈ told) :
    e = compiled.record.event ∨ ∃ image, e.Plays p.holdings.events image ∧
      (compiled.slots.active = some image ∨ compiled.result = some image) := by
  obtain ⟨called, g, a, answered⟩ := tells.call heard
  rcases List.mem_cons.mp called with compiling | later
  · exact .inl compiling
  · obtain ⟨r, member, rfl⟩ := List.mem_map.mp later
    have recorded : r ∈ p.holdings.journal := by simp [← Array.mem_toList_iff, journal, member]
    exact .inr ((all r member).exists_plays attached recorded answered)

variable [Time τ]

theorem visited_reports {surface : σ} {c : Config τ} {start : Player τ σ} {es : List (Edit τ)}
    (reached : Reached surface c start) (visited : p ∈ start :: start.visitsAll es) :
    ∃ (first : Player τ σ) (us : List Utterance),
      first.holdings = {} ∧ Reports first p.holdings.events us p := by
  have kept : Kept fun q : Player τ σ => ∃ first : Player τ σ, first.holdings = {} ∧
      Reported first q := by
    refine ⟨fun part reported => ?_, fun _ reported => ?_⟩
    · obtain ⟨first, fresh, reported⟩ := reported
      exact ⟨first, fresh, reported.trans part.reported⟩
    · obtain ⟨first, fresh, reported⟩ := reported
      exact ⟨first, fresh, reported.trans (applyViewport_reported _ _ _)⟩
  obtain ⟨first, fresh, calls, us, reports⟩ := kept.visited (kept.reached (fun created =>
    ⟨_, (create_fresh created).1, [], [], .refl _⟩) reached) visited
  obtain rfl : calls = p.holdings.events := by
    rw [reports.extended.events, fresh]
    rfl
  exact ⟨first, us, fresh, reports⟩

/-- The lines of a player whose source is not dirty. Each was said by the compilation of this source
or since, by what came of it, by the image that was active at the time, or by a surface. So they are
all of the source if and only if none comes from a surface or from that image, when another text
made it. -/
theorem lines_of_source {surface : σ} {c : Config τ} {start : Player τ σ} {es : List (Edit τ)}
    (reached : Reached surface c start) (visited : p ∈ start :: start.visitsAll es)
    (clean : p.dirty.value = false) :
    (∀ e ∈ p.holdings.events, e.isCompile = false) ∧ p.output.lines = [] ∨
    ∃ (compiled : Compilation) (late : List Record) (told : List (Option Event × Utterance)),
      compiled.source = p.source ∧
      p.holdings.journal.toList = compiled.early ++ compiled.record :: late ∧
      (∀ r ∈ late, r.event.isCompile = false) ∧
      Tells σ compiled.engine ((compiled.record :: late).map (·.event)) told ∧
      let shown := Output.newest (Output.credits {} told)
      p.output.lines = shown.map (·.2) ∧
      (∀ l ∈ shown, ∀ e ∈ l.1, e = compiled.record.event ∨ ∃ image,
        e.Plays p.holdings.events image ∧
          (compiled.slots.active = some image ∨ compiled.result = some image)) ∧
      ((∀ l ∈ shown, ∃ e ∈ l.1, e.Of p.holdings.events p.source) ↔
        ∀ l ∈ shown, l.1 ≠ none ∧ ∀ e ∈ l.1, ∀ image, e.Plays p.holdings.events image →
          compiled.slots.active = some image →
            .compile p.source (some image) ∈ p.holdings.events) := by
  have attached := visited_attached reached visited
  obtain ⟨first, us, fresh, reports⟩ := visited_reports reached visited
  rcases visited_upToDate reached visited with untouched | ⟨compiled, since, current⟩
  · refine .inl ⟨untouched.uncompiled, ?_⟩
    rw [untouched.output]
    rfl
  obtain ⟨late, journal, all⟩ := since.journal
  have events : p.holdings.events =
      compiled.early.map (·.event) ++ (compiled.record :: late).map (·.event) := by
    rw [Holdings.events, journal, List.map_append]
  rw [events] at reports
  obtain ⟨told, tells, window⟩ := reports.told fun e member => by
    obtain ⟨r, within, rfl⟩ := List.mem_map.mp member
    exact (all r within).other
  rw [fresh] at tells
  have shown := window.lines.trans (Output.newest_map _ _)
  have said : ∀ l ∈ Output.newest (Output.credits {} told), ∀ e ∈ l.1,
      e = compiled.record.event ∨ ∃ image, e.Plays p.holdings.events image ∧
        (compiled.slots.active = some image ∨ compiled.result = some image) := by
    rintro ⟨_, line⟩ within e ⟨⟩
    obtain ⟨u, heard⟩ := Output.mem_credits (Output.mem_of_newest within)
    exact tells.said attached journal all heard
  refine .inr ⟨compiled, late, told, (current clean).symm, journal,
    fun r within => (all r within).other, tells, shown, said, ?_, ?_⟩
  -- An image has one text only, so what is of the source was compiled from it.
  · intro sourced l within
    obtain ⟨e, by_call, of⟩ := sourced l within
    refine ⟨by simp [Option.mem_def.mp by_call], fun e' by_call' image plays _ => ?_⟩
    obtain rfl : e' = e := Option.mem_unique by_call' by_call
    exact of.compiled attached.account.calls plays
  · intro owned l within
    obtain ⟨called, old⟩ := owned l within
    obtain ⟨e, by_call⟩ := Option.ne_none_iff_exists'.mp called
    refine ⟨e, by_call, ?_⟩
    rcases said l within e by_call with rfl | ⟨image, plays, before | result⟩
    · exact .inl ⟨compiled.result, by rw [current clean]; rfl⟩
    · exact .inr ⟨image, old e by_call image plays before, plays⟩
    · refine .inr ⟨image, ?_, plays⟩
      rw [events, ← result, current clean]
      exact List.mem_append_right _ List.mem_cons_self

theorem lines_of_source_loaded :
    ∃ (p : Player Float Recording) (compiled : Compilation)
      (told : List (Option Event × Utterance)),
      Reached { resolution := ⟨512, 512⟩ } Config.default p ∧ p.dirty.value = false ∧
      p.source = "print(2)" ∧ p.output.lines = [⟨"1", false⟩, ⟨"2", false⟩] ∧
      compiled.source = p.source ∧
      p.output.lines = (Output.newest (Output.credits {} told)).map (·.2) ∧
      ∀ l ∈ Output.newest (Output.credits {} told), ∀ e ∈ l.1,
        e = compiled.record.event ∨ ∃ image, e.Plays p.holdings.events image ∧
          (compiled.slots.active = some image ∨ compiled.result = some image) := by
  let start : Player Float Recording := opening { resolution := ⟨512, 512⟩ }
  let first := ((start.edit (.setSource "print(1)")).2.edit (.refresh 0.0)).2
  let second := ((first.edit (.setSource "print(2)")).2.edit (.refresh 16.0)).2
  let p := ((second.edit .load).2.edit (.refresh 32.0)).2
  have reached : Reached { resolution := ⟨512, 512⟩ } Config.default p :=
    .edited _ (.edited _ (.edited _ (.edited _ (.edited _ (.edited _
      (.created (create_opening rfl)))))))
  have state : p.dirty.value = false ∧ p.source = "print(2)" ∧
      p.output.lines = [⟨"1", false⟩, ⟨"2", false⟩] := by decide +kernel
  obtain ⟨clean, source, lines⟩ := state
  have visited : p ∈ p :: p.visitsAll [] := List.mem_cons_self
  rcases lines_of_source reached visited clean with
    ⟨-, silent⟩ | ⟨compiled, _, told, same, -, -, -, shown, said, -⟩
  · rw [lines] at silent
    cases silent
  · exact ⟨p, compiled, told, reached, clean, source, lines, same, shown, said⟩

/-- After an edit the image before plays on: its line is shown, and no call that is about the source
has said one. -/
theorem lines_of_image_before :
    ∃ p : Player Float Recording, Reached { resolution := ⟨512, 512⟩ } Config.default p ∧
      p.dirty.value = false ∧ p.source = "print(2)" ∧ p.output.lines = [⟨"1", false⟩] ∧
      ∀ r ∈ Engine.reports {} p.holdings.events, r.1.Of p.holdings.events p.source →
        Utterance.ofAnswer r.2 = [.cleared] := by
  let start : Player Float Recording := opening { resolution := ⟨512, 512⟩ }
  let first := ((start.edit (.setSource "print(1)")).2.edit (.refresh 0.0)).2
  let p := ((first.edit (.setSource "print(2)")).2.edit (.refresh 16.0)).2
  have reached : Reached { resolution := ⟨512, 512⟩ } Config.default p :=
    .edited _ (.edited _ (.edited _ (.edited _ (.created (create_opening rfl)))))
  have state : p.dirty.value = false ∧ p.source = "print(2)" ∧
      p.output.lines = [⟨"1", false⟩] := by decide +kernel
  obtain ⟨clean, source, lines⟩ := state
  have events : p.holdings.events = [.compile "print(1)" (some ⟨1⟩), .retain .image 1,
      .clearCanvas, .start ⟨1⟩ (some ⟨1⟩), .step ⟨1⟩, .compile "print(2)" (some ⟨2⟩),
      .release .image 1, .step ⟨1⟩] := by decide +kernel
  have compiled : ∀ r ∈ Engine.reports {} p.holdings.events, r.1.isCompile = true →
      Utterance.ofAnswer r.2 = [.cleared] := by decide +kernel
  refine ⟨p, reached, clean, source, lines, ?_⟩
  rintro ⟨e, a⟩ reported (⟨result, rfl⟩ | ⟨image, made, plays⟩)
  · exact compiled _ reported rfl
  · have called := (Engine.mem_reports reported).1
    rw [source, events] at made
    obtain rfl : image = ⟨2⟩ := by simpa using made
    rw [events] at called plays
    cases plays with
    | start => simp at called
    | step started => simp at started

end Player

end Session

end TurtlePlayback
