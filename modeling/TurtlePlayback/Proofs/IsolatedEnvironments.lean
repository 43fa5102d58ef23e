import TurtlePlayback.Proofs.CountedReferences
import TurtlePlayback.Proofs.PlayingCast
import TurtlePlayback.Proofs.StepCounts

namespace TurtlePlayback.Artifact

namespace Table

variable {α : Type} {t t' : Table α} {h n : Nat}

theorem get_insert (t : Table α) (a : α) : (t.insert a).2.get (t.insert a).1 = .ok a := by
  simp [get_ok, find?_insert]

theorem set_of_get {v : α} (found : t.get n = .ok v) (a : α) :
    ∃ t', t.set n a = .ok (v, t') ∧ t'.get n = .ok a := by
  obtain ⟨e, entry, rfl⟩ := Option.map_eq_some_iff.mp (get_ok.mp found)
  refine ⟨t.setEntry n (some { e with value := a }), by simp only [set, entry], ?_⟩
  simp [get_ok, find?_setEntry entry]

theorem get_set_other {a old : α} (done : t.set h a = .ok (old, t')) (other : n ≠ h) :
    t'.get n = t.get n := by
  cases entry : t.find? h with
  | none => simp [set, entry] at done
  | some e =>
    simp only [set, entry, Except.ok.injEq, Prod.mk.injEq] at done
    have same : t'.find? n = t.find? n := by
      rw [← done.2, find?_setEntry entry, if_neg other]
    have kind : t'.kind = t.kind := by rw [← done.2]; rfl
    simp only [get, same, misuse, kind]

theorem alive_of_get {v : α} (found : t.get n = .ok v) : 0 < t.refs n := by
  obtain ⟨e, entry, -⟩ := Option.map_eq_some_iff.mp (get_ok.mp found)
  rw [refs_of_entry entry]
  exact e.refs_pos

theorem continues_retain (t : Table α) (h : Nat) : t.Continues (t.ask (.retain h)).2 := by
  cases done : t.retain h with
  | error m =>
    simp only [ask, done]
    exact .refl t
  | ok t' =>
    simp only [ask, done]
    exact .retain done

theorem continues_release (t : Table α) (h : Nat) : t.Continues (t.ask (.release h)).2 := by
  cases done : t.release h with
  | error m =>
    simp only [ask, done]
    exact .refl t
  | ok given =>
    simp only [ask, done]
    exact .release done

theorem Continues.get_of_issued {v : α} (continued : t.Continues t') (same : t'.issued = t.issued)
    (found : t'.get n = .ok v) : t.get n = .ok v := by
  rcases continued.old_or_new found with old | new
  · exact old
  · have := le_issued (alive_of_get found)
    omega

theorem get_ask_other {q : Request α} (other : ∀ a, q ≠ .set n a) (before : 0 < t.refs n)
    (after : 0 < (t.ask q).2.refs n) : (t.ask q).2.get n = t.get n := by
  cases q with
  | insert a => exact (Continues.insert t a).get_eq before after
  | get h => cases done : t.get h <;> simp [ask, done]
  | set h a =>
    have different : n ≠ h := by
      rintro rfl
      exact other a rfl
    cases done : t.set h a with
    | error m => simp [ask, done]
    | ok given => simp [ask, done, get_set_other done different]
  | retain h => exact (continues_retain t h).get_eq before after
  | release h => exact (continues_release t h).get_eq before after

end Table

namespace Engine

inductive Request
  | compile (source : String)
  | start (image : Image)
  | step (running : Running)
  | retain (kind : ResourceKind) (handle : Nat)
  | release (kind : ResourceKind) (handle : Nat)
  deriving DecidableEq

inductive Answer
  | compiled (image : Except Failure Image)
  | started (started : Except Failure Started)
  | stepped (output : Except Failure StepOutput)
  | counted (done : Except Misuse Unit)

def counted (g : Engine) : Except Misuse Engine → Answer × Engine
  | .ok g => (.counted (.ok ()), g)
  | .error m => (.counted (.error m), g)

def ask (g : Engine) : Request → Answer × Engine
  | .compile source => (.compiled (g.compile source).1, (g.compile source).2)
  | .start image => (.started (g.start image).1, (g.start image).2)
  | .step e => (.stepped (g.step e).1, (g.step e).2)
  | .retain k n => g.counted (g.retain k n)
  | .release k n => g.counted (g.release k n)

abbrev History :=
  List (Request × Answer)

def History.outputs (e : Running) : History → List (Except Failure StepOutput) :=
  List.filterMap fun
    | (.step e', .stepped output) => if e' = e then some output else none
    | _ => none

@[simp] theorem History.outputs_step (e : Running) (output : Except Failure StepOutput)
    (later : History) : History.outputs e ((.step e, .stepped output) :: later) =
      output :: later.outputs e := by
  simp [outputs]

theorem History.outputs_other {e : Running} {r : Request} (other : r ≠ .step e) (answer : Answer)
    (later : History) : History.outputs e ((r, answer) :: later) = later.outputs e := by
  cases r with
  | step e' =>
    have different : e' ≠ e := by
      rintro rfl
      exact other rfl
    cases answer <;> simp [outputs, different]
  | _ => rfl

variable {g : Engine} {n : Nat}

theorem ask_retain (g : Engine) (k : ResourceKind) (h : Nat) :
    (g.ask (.retain k h)).2.images = (g.images.ask (.retain h)).2 ∧
        (g.ask (.retain k h)).2.environments = g.environments ∨
      (g.ask (.retain k h)).2.images = g.images ∧
        (g.ask (.retain k h)).2.environments = (g.environments.ask (.retain h)).2 := by
  cases k with
  | image =>
    left
    simp only [ask, retain, Table.ask]
    cases g.images.retain h <;> exact ⟨rfl, rfl⟩
  | environment =>
    right
    simp only [ask, retain, Table.ask]
    cases g.environments.retain h <;> exact ⟨rfl, rfl⟩

theorem ask_release (g : Engine) (k : ResourceKind) (h : Nat) :
    (g.ask (.release k h)).2.images = (g.images.ask (.release h)).2 ∧
        (g.ask (.release k h)).2.environments = g.environments ∨
      (g.ask (.release k h)).2.images = g.images ∧
        (g.ask (.release k h)).2.environments = (g.environments.ask (.release h)).2 := by
  cases k with
  | image =>
    left
    simp only [ask, release, Table.ask]
    cases g.images.release h <;> exact ⟨rfl, rfl⟩
  | environment =>
    right
    simp only [ask, release, Table.ask]
    cases g.environments.release h <;> exact ⟨rfl, rfl⟩

theorem environments_ask (g : Engine) (r : Request) :
    (g.ask r).2.environments = g.environments ∨
      ∃ q, (g.ask r).2.environments = (g.environments.ask q).2 ∧
        ∀ n a, q = .set n a → r = .step ⟨n⟩ := by
  cases r with
  | compile source => exact .inl (compile_environments g source)
  | start image =>
    simp only [ask, start]
    split
    · exact .inl rfl
    · split
      · exact .inl rfl
      · next e _ _ _ => exact .inr ⟨.insert e, rfl, by simp⟩
  | step e =>
    simp only [ask, step]
    split
    · exact .inl rfl
    · next old _ =>
      split
      · next set => exact .inr ⟨.set e.number old.step.2, by simp [Table.ask, set], by simp⟩
      · exact .inl rfl
  | retain k h =>
    rcases ask_retain g k h with ⟨-, same⟩ | ⟨-, retained⟩
    · exact .inl same
    · exact .inr ⟨.retain h, retained, by simp⟩
  | release k h =>
    rcases ask_release g k h with ⟨-, same⟩ | ⟨-, released⟩
    · exact .inl same
    · exact .inr ⟨.release h, released, by simp⟩

theorem dead_ask (r : Request) (issued : n ≤ g.environments.issued)
    (dead : g.environments.refs n = 0) :
    n ≤ (g.ask r).2.environments.issued ∧ (g.ask r).2.environments.refs n = 0 := by
  rcases environments_ask g r with same | ⟨q, asked, -⟩
  · rw [same]
    exact ⟨issued, dead⟩
  · have more := (Table.issued_ask g.environments q).1
    rw [asked]
    exact ⟨by omega, Table.dead_ask q issued dead⟩

theorem alive_of_later {requests : List Request} (issued : n ≤ g.environments.issued)
    (later : 0 < (converse ask g requests).2.environments.refs n) : 0 < g.environments.refs n := by
  by_contra dead
  have kept : n ≤ (converse ask g requests).2.environments.issued ∧
      (converse ask g requests).2.environments.refs n = 0 := by
    apply converse_keeps (P := fun g : Engine => n ≤ g.environments.issued ∧
      g.environments.refs n = 0) _ ⟨issued, Nat.eq_zero_of_not_pos dead⟩
    rintro g r ⟨issued, dead⟩
    exact dead_ask r issued dead
  omega

theorem get_ask_other {r : Request} (other : r ≠ .step ⟨n⟩) (before : 0 < g.environments.refs n)
    (after : 0 < (g.ask r).2.environments.refs n) :
    (g.ask r).2.environments.get n = g.environments.get n := by
  rcases environments_ask g r with same | ⟨q, asked, sets⟩
  · rw [same]
  · rw [asked] at after ⊢
    exact Table.get_ask_other (fun a set => other (sets n a set)) before after

theorem step_of_get {e : Environment} (found : g.environments.get n = .ok e) :
    (g.step ⟨n⟩).1 = e.step.1 ∧ (g.step ⟨n⟩).2.environments.get n = .ok e.step.2 := by
  obtain ⟨t, done, value⟩ := Table.set_of_get found e.step.2
  simp [step, found, done, value]

theorem issued_ask (g : Engine) (r : Request) :
    g.environments.issued ≤ (g.ask r).2.environments.issued := by
  rcases environments_ask g r with same | ⟨q, asked, -⟩
  · rw [same]
  · have more := (Table.issued_ask g.environments q).1
    rw [asked]
    omega

theorem outputs_converse {e : Environment} {requests : List Request}
    (found : g.environments.get n = .ok e)
    (alive : 0 < (converse ask g requests).2.environments.refs n) :
    History.outputs ⟨n⟩ (converse ask g requests).1 =
      e.outputs (requests.count (.step ⟨n⟩)) := by
  induction requests generalizing g e with
  | nil => rfl
  | cons r rs ih =>
    have here : 0 < g.environments.refs n := Table.alive_of_get found
    have next : 0 < (g.ask r).2.environments.refs n :=
      alive_of_later ((Table.le_issued here).trans (issued_ask g r)) alive
    by_cases stepped : r = .step ⟨n⟩
    · subst stepped
      obtain ⟨answer, value⟩ := step_of_get found
      rw [converse_cons, ask, answer, History.outputs_step, List.count_cons_self,
        ih value alive]
      rfl
    · rw [converse_cons, History.outputs_other stepped, List.count_cons_of_ne stepped]
      exact ih ((get_ask_other stepped here next).trans found) alive

theorem compiled_ask {p : Script.Program} {r : Request}
    (found : (g.ask r).2.images.get n = .ok p) :
    g.images.get n = .ok p ∨ ∃ source, Script.Program.compile source = .ok p ∧
      (r, (g.ask r).1) = (.compile source, .compiled (.ok ⟨n⟩)) := by
  cases r with
  | compile source =>
    simp only [ask, compile] at found ⊢
    cases compiled : Script.Program.compile source with
    | error e =>
      rw [compiled] at found
      exact .inl found
    | ok q =>
      rw [compiled, Table.get_ok, Table.find?_insert] at found
      split at found
      · next new =>
        cases found
        exact .inr ⟨source, compiled, by rw [new]⟩
      · exact .inl (Table.get_ok.mpr found)
  | start image =>
    rw [ask, start_images] at found
    exact .inl found
  | step e =>
    rw [ask, step_images] at found
    exact .inl found
  | retain k h =>
    left
    rcases ask_retain g k h with ⟨retained, -⟩ | ⟨same, -⟩
    · rw [retained] at found
      exact (Table.continues_retain g.images h).get_of_issued (Table.issued_ask _ _).1 found
    · rwa [same] at found
  | release k h =>
    left
    rcases ask_release g k h with ⟨released, -⟩ | ⟨same, -⟩
    · rw [released] at found
      exact (Table.continues_release g.images h).get_of_issued (Table.issued_ask _ _).1 found
    · rwa [same] at found

theorem compiled_converse {p : Script.Program} {requests : List Request}
    (found : (converse ask g requests).2.images.get n = .ok p) :
    g.images.get n = .ok p ∨ ∃ source, Script.Program.compile source = .ok p ∧
      (.compile source, .compiled (.ok ⟨n⟩)) ∈ (converse ask g requests).1 := by
  induction requests generalizing g with
  | nil => exact .inl found
  | cons r rs ih =>
    rw [converse_cons] at found ⊢
    rcases ih found with before | ⟨source, compiled, member⟩
    · rcases compiled_ask before with old | ⟨source, compiled, here⟩
      · exact .inl old
      · exact .inr ⟨source, compiled, here ▸ List.mem_cons_self⟩
    · exact .inr ⟨source, compiled, List.mem_cons_of_mem _ member⟩

theorem steps_alone {e : Environment} (found : g.environments.get n = .ok e) (k : Nat) :
    (converse ask g (List.replicate k (.step ⟨n⟩))).1.map Prod.snd =
      (e.outputs k).map .stepped := by
  induction k generalizing g e with
  | zero => rfl
  | succ k ih =>
    obtain ⟨answer, value⟩ := step_of_get found
    rw [List.replicate_succ, converse_cons, ask, List.map_cons, ih value, answer]
    rfl

theorem start_ok {image : Image} {s : Started} (begun : (g.start image).1 = .ok s) :
    ∃ p e, g.images.get image.number = .ok p ∧
      Environment.start p = .ok (e, s.background, s.printed) ∧
      (g.start image).2.environments.get s.environment.number = .ok e := by
  simp only [start] at begun ⊢
  cases found : g.images.get image.number with
  | error m => simp [found] at begun
  | ok p =>
    cases started : Environment.start p with
    | error f => simp [found, started] at begun
    | ok given =>
      simp only [found, started, Except.ok.injEq] at begun ⊢
      subst begun
      exact ⟨p, given.1, rfl, started, Table.get_insert _ _⟩

theorem compile_ok {source : String} {p : Script.Program} (g : Engine)
    (compiled : Script.Program.compile source = .ok p) :
    (g.compile source).1 = .ok ⟨g.images.issued + 1⟩ ∧
      (g.compile source).2.images.get (g.images.issued + 1) = .ok p := by
  simp only [compile, compiled]
  exact ⟨rfl, Table.get_insert _ p⟩

theorem start_of_get {p : Script.Program} {e : Environment} {background : Canvas.Color}
    {printed : Array String} (found : g.images.get n = .ok p)
    (started : Environment.start p = .ok (e, background, printed)) :
    (g.start ⟨n⟩).1 = .ok ⟨⟨g.environments.issued + 1⟩, background, printed⟩ ∧
      (g.start ⟨n⟩).2.environments.get (g.environments.issued + 1) = .ok e := by
  simp only [start, found, started]
  exact ⟨rfl, Table.get_insert _ e⟩

theorem alone {source : String} {p : Script.Program} {e : Environment} {background : Canvas.Color}
    {printed : Array String} (compiled : Script.Program.compile source = .ok p)
    (started : Environment.start p = .ok (e, background, printed)) (k : Nat) :
    (converse ask {} (.compile source :: .start ⟨1⟩ :: List.replicate k (.step ⟨1⟩))).1.map
        Prod.snd =
      .compiled (.ok ⟨1⟩) :: .started (.ok ⟨⟨1⟩, background, printed⟩) ::
        (e.outputs k).map .stepped := by
  obtain ⟨image, program⟩ := compile_ok {} compiled
  have no_image : ({} : Engine).images.issued = 0 := rfl
  rw [no_image, Nat.zero_add] at image program
  have no_environment : (Engine.compile {} source).2.environments.issued = 0 := by
    rw [compile_environments]
    rfl
  obtain ⟨begun, environment⟩ := start_of_get program started
  rw [no_environment, Nat.zero_add] at begun environment
  simp only [converse_cons, ask, List.map_cons]
  rw [image, begun, steps_alone environment k]

/-- Whatever an engine was asked before it started an environment and while that lives. -/
theorem environments_isolated {before later : List Request} {past : History} {g : Engine}
    {image : Image} {s : Started} (conversed : converse ask {} before = (past, g))
    (begun : (g.start image).1 = .ok s)
    (alive : 0 < (converse ask (g.start image).2 later).2.environments.refs s.environment.number) :
    ∃ source, (.compile source, .compiled (.ok image)) ∈ past ∧
      (converse ask {} (.compile source :: .start ⟨1⟩ ::
        List.replicate (later.count (.step s.environment)) (.step ⟨1⟩))).1.map Prod.snd =
      .compiled (.ok ⟨1⟩) :: .started (.ok { s with environment := ⟨1⟩ }) ::
        (History.outputs s.environment (converse ask (g.start image).2 later).1).map .stepped := by
  obtain ⟨p, e, found, started, value⟩ := start_ok begun
  have there : (converse ask {} before).2.images.get image.number = .ok p := by
    rw [conversed]
    exact found
  rcases compiled_converse there with none_before | ⟨source, compiled, member⟩
  · simp [Table.get, Table.find?] at none_before
  · rw [conversed] at member
    refine ⟨source, member, ?_⟩
    rw [alone compiled started, outputs_converse value alive]

theorem environments_isolated_failing :
    ∃ past g s,
      converse ask {} [.compile "setup \x7b let first = true \x7d\nassert(first)\nfirst = false"] =
        (past, g) ∧
      (g.start ⟨1⟩).1 = .ok s ∧ s.environment = ⟨1⟩ ∧
      ∃ source, (.compile source, .compiled (.ok ⟨1⟩)) ∈ past ∧
        (converse ask {} (.compile source :: .start ⟨1⟩ :: List.replicate 2 (.step ⟨1⟩))).1.map
          Prod.snd =
        .compiled (.ok ⟨1⟩) :: .started (.ok { s with environment := ⟨1⟩ }) ::
          (History.outputs ⟨1⟩ (converse ask (g.start ⟨1⟩).2
            [.start ⟨1⟩, .step ⟨2⟩, .release .image 1, .step ⟨1⟩, .step ⟨2⟩,
              .release .environment 2, .step ⟨1⟩]).1).map .stepped := by
  have given : ((converse ask {} [.compile
      "setup \x7b let first = true \x7d\nassert(first)\nfirst = false"]).2.start ⟨1⟩).1.toOption.map
        (·.environment) = some ⟨1⟩ := by decide +kernel
  obtain ⟨s, begun, number⟩ := Option.map_eq_some_iff.mp given
  rw [toOption_eq_some] at begun
  have alive : 0 < (converse ask ((converse ask {} [.compile
      "setup \x7b let first = true \x7d\nassert(first)\nfirst = false"]).2.start ⟨1⟩).2
        [.start ⟨1⟩, .step ⟨2⟩, .release .image 1, .step ⟨1⟩, .step ⟨2⟩,
          .release .environment 2, .step ⟨1⟩]).2.environments.refs s.environment.number := by
    rw [number]
    decide +kernel
  have isolated := environments_isolated rfl begun alive
  rw [number] at isolated
  exact ⟨_, _, s, rfl, begun, number, isolated⟩

end Engine

end TurtlePlayback.Artifact
