import TurtlePlayback.Proofs.AnswerReports
import TurtlePlayback.Proofs.EnvironmentOwner

/-!
The compilation before which nothing counts any more. Since a text was compiled for the last time,
there have been no images in the slots but the one that came of it and the one that was active
before; and as long as no other text is set, the text is the source.
-/

namespace TurtlePlayback.Artifact

def Event.isCompile : Event → Bool
  | .compile _ _ => true
  | _ => false

/-- The call starts this image, or steps an environment that was started from it. -/
inductive Event.Plays (past : List Event) (image : Image) : Event → Prop
  | start (r : Option Running) : Plays past image (.start image r)
  | step {r : Running} (started : .start image (some r) ∈ past) : Plays past image (.step r)

theorem Event.Plays.unique {g : Engine} {past : List Event} {e : Event} {image other : Image}
    (calls : Engine.Calls {} past g) (plays : e.Plays past image) (plays' : e.Plays past other) :
    image = other := by
  cases plays with
  | start r => cases plays' with | start => rfl
  | step started =>
    cases plays' with
    | step started' =>
      have same := calls.started_once started started' rfl rfl
      exact (Event.start.inj same).1

structure Compilation where
  early : List Record
  source : String
  result : Option Image
  slots : Slots

namespace Compilation

def record (c : Compilation) : Record :=
  ⟨.compile c.source c.result, c.slots⟩

def engine (c : Compilation) : Engine :=
  (c.early.map (·.event)).foldl Engine.after {}

def images (c : Compilation) : List (Option Image) :=
  [none, c.slots.active, c.result]

theorem none_mem_images (c : Compilation) : none ∈ c.images :=
  List.mem_cons_self

structure Precedes (c : Compilation) (r : Record) : Prop where
  other : r.event.isCompile = false
  active : r.slots.active ∈ c.images
  started : ∀ image e, r.event = .start image e → r.slots.active = some image

end Compilation

namespace Holdings

structure Since (c : Compilation) (h : Holdings) : Prop where
  journal : ∃ late, h.journal.toList = c.early ++ c.record :: late ∧ ∀ r ∈ late, c.Precedes r
  pending : h.slots.pending ∈ [none, c.result]
  active : h.slots.active ∈ c.images

namespace Since

variable {c : Compilation} {h : Holdings} {image : Option Image}

theorem note (since : h.Since c) {e : Event} (other : e.isCompile = false)
    (started : ∀ image r, e = .start image r → h.slots.active = some image) (g : Engine) :
    (h.note e g).Since c := by
  obtain ⟨late, split, all⟩ := since.journal
  have last : c.Precedes ⟨e, h.slots⟩ := ⟨other, since.active, started⟩
  refine ⟨⟨late ++ [⟨e, h.slots⟩], ?_, ?_⟩, since.pending, since.active⟩
  · simp [Holdings.note, split]
  · exact List.forall_mem_append.mpr ⟨all, List.forall_mem_singleton.mpr last⟩

theorem fill (since : h.Since c) {s : Slots} (pending : s.pending ∈ [none, c.result])
    (active : s.active ∈ c.images) : Since c { h with slots := s } :=
  ⟨since.journal, pending, active⟩

theorem releaseAny (since : h.Since c) {k : ResourceKind} (r : Option (Handle k)) :
    (h.releaseAny r).Since c := by
  cases r with
  | none => exact since
  | some r => exact since.note rfl (by simp) _

theorem assignPending (since : h.Since c) (one : image ∈ [none, c.result]) :
    (h.assignPending image).Since c := by
  simp only [Holdings.assignPending]
  split
  · exact since.releaseAny _
  · exact (since.fill (s := { h.slots with pending := image }) one since.active).releaseAny _

theorem assignActive (since : h.Since c) (one : image ∈ c.images) :
    (h.assignActive image).2.Since c := by
  simp only [Holdings.assignActive]
  split
  · exact since.releaseAny _
  · exact (since.fill (s := { h.slots with active := image }) since.pending one).releaseAny _

theorem clearEnvironment (since : h.Since c) : h.clearEnvironment.2.Since c :=
  (since.fill (s := { h.slots with environment := none }) since.pending since.active).releaseAny _

theorem setEnvironment (since : h.Since c) (r : Running) : (h.setEnvironment r).Since c :=
  (since.fill (s := { h.slots with environment := some r }) since.pending since.active).releaseAny _

theorem setActive (since : h.Since c) (one : image ∈ c.images) : (h.setActive image).2.Since c := by
  simp only [Holdings.setActive]
  split
  · exact since.assignActive one
  · exact since.clearEnvironment.assignActive one

theorem clearImages (since : h.Since c) : h.clearActive.2.clearPending.Since c :=
  (since.setActive c.none_mem_images).assignPending List.mem_cons_self

theorem promote (since : h.Since c) : (h.promote .share).2.Since c := by
  simp only [Holdings.promote]
  split
  · exact since
  · next image pending =>
    -- Only what came of the compilation waits, so only that can become active.
    have one := since.pending
    rw [pending] at one
    refine Since.setActive (since.note rfl (by simp) _) ?_
    simpa [Compilation.images] using Or.inr one

theorem teardown (since : h.Since c) : h.teardown.Since c :=
  (since.clearEnvironment.assignActive c.none_mem_images).assignPending List.mem_cons_self

theorem compiled (h : Holdings) (source : String) (result : Option Image) (g : Engine) :
    ((h.note (.compile source result) g).assignPending result).Since
      ⟨h.journal.toList, source, result, h.slots⟩ := by
  have noted : (h.note (.compile source result) g).journal.toList = h.journal.toList ++
      [⟨.compile source result, h.slots⟩] := by simp [Holdings.note]
  have waiting {s : Slots} (pending : s.pending = result) (active : s.active = h.slots.active) :
      Since ⟨h.journal.toList, source, result, h.slots⟩
        { h.note (.compile source result) g with slots := s } :=
    ⟨⟨[], noted, by simp⟩, by simp [pending], by simp [Compilation.images, active]⟩
  simp only [Holdings.assignPending]
  split
  · next same => exact (waiting same.2 rfl).releaseAny _
  · exact (waiting (s := { h.slots with pending := result }) rfl rfl).releaseAny _

end Since

theorem mem_momentsFrom (g : Engine) (past : List Event) {rs : List Record} {r : Record}
    (member : r ∈ rs) : ∃ m ∈ momentsFrom g past rs, m.slots = r.slots ∧
      ∀ e ∈ m.past, e ∈ past ++ rs.map (·.event) := by
  induction rs generalizing g past with
  | nil => cases member
  | cons s rs ih =>
    rcases List.mem_cons.mp member with rfl | later
    · exact ⟨_, List.mem_cons_self, rfl, fun e before => List.mem_append_left _ before⟩
    · obtain ⟨m, within, slots, before⟩ := ih (g.after s.event) (past ++ [s.event]) later
      refine ⟨m, List.mem_cons_of_mem _ (List.mem_cons_of_mem _ within), slots, fun e earlier => ?_⟩
      simpa using before e earlier

theorem Attached.stepped {h : Holdings} (attached : h.Attached []) {r : Record}
    (member : r ∈ h.journal) {e : Running} (step : r.event = .step e) :
    ∃ image, r.slots.active = some image ∧ .start image (some e) ∈ h.events := by
  obtain ⟨m, within, slots, before⟩ := mem_momentsFrom {} [] (Array.mem_toList_iff.mpr member)
  have running := attached.steps r member e step
  obtain ⟨image, active, -, started, -⟩ := (attached.moments m within).owned e (slots ▸ running)
  exact ⟨image, slots ▸ active, before _ started⟩

end Holdings

theorem Compilation.Precedes.plays {c : Compilation} {h : Holdings} (attached : h.Attached [])
    {r : Record} (member : r ∈ h.journal) (precedes : c.Precedes r) {image : Image}
    (plays : r.event.Plays h.events image) :
    c.slots.active = some image ∨ c.result = some image := by
  have active : r.slots.active = some image := by
    generalize same : r.event = e at plays
    cases plays with
    | start => exact precedes.started _ _ same
    | step started =>
      obtain ⟨other, active, started'⟩ := attached.stepped member same
      have unique := attached.account.calls.started_once started started' rfl rfl
      rw [active, (Event.start.inj unique).1]
  have one := precedes.active
  rw [active] at one
  simp only [Compilation.images, List.mem_cons, List.not_mem_nil, or_false, reduceCtorEq,
    false_or] at one
  exact one.imp Eq.symm Eq.symm

theorem Compilation.Precedes.exists_plays {c : Compilation} {h : Holdings}
    (attached : h.Attached []) {r : Record} (member : r ∈ h.journal) (precedes : c.Precedes r)
    {g : Engine} {a : Engine.Answer} (answered : g.answer? r.event = some a) :
    ∃ image, r.event.Plays h.events image ∧
      (c.slots.active = some image ∨ c.result = some image) := by
  have plays : ∃ image, r.event.Plays h.events image := by
    cases same : r.event with
    | compile source result =>
      have other := precedes.other
      rw [same] at other
      cases other
    | start image e => exact ⟨image, .start e⟩
    | step e =>
      obtain ⟨image, -, started⟩ := attached.stepped member same
      exact ⟨image, .step started⟩
    | _ =>
      rw [same] at answered
      cases answered
  obtain ⟨image, plays⟩ := plays
  exact ⟨image, plays, precedes.plays attached member plays⟩

end TurtlePlayback.Artifact

namespace TurtlePlayback.Session.Player

open Artifact Canvas Playback

variable {τ σ : Type} {p q : Player τ σ}

structure Untouched (p : Player τ σ) : Prop where
  uncompiled : ∀ e ∈ p.holdings.events, e.isCompile = false
  slots : p.holdings.slots = {}
  output : p.output = {}
  draw : p.draw = #[]

/-- What was compiled last is the source, unless that has been replaced since. -/
inductive UpToDate (p : Player τ σ) : Prop
  | untouched (untouched : p.Untouched)
  | compiled (c : Compilation) (since : p.holdings.Since c)
    (current : p.dirty.value = false → p.source = c.source)

theorem Untouched.upkeep (untouched : p.Untouched) :
    p.holdings.clearEnvironment.2 = p.holdings ∧
      p.holdings.clearActive.2.clearPending = p.holdings ∧
      (p.holdings.promote .share).2 = p.holdings ∧ p.holdings.teardown = p.holdings := by
  have empty := untouched.slots
  generalize p.holdings = h at empty
  obtain ⟨engine, slots, journal⟩ := h
  obtain rfl : slots = {} := empty
  exact ⟨rfl, rfl, rfl, rfl⟩

theorem Untouched.of_eq (untouched : p.Untouched) (holdings : q.holdings = p.holdings)
    (output : q.output = p.output) (draw : q.draw = p.draw) : q.Untouched where
  uncompiled := holdings ▸ untouched.uncompiled
  slots := holdings ▸ untouched.slots
  output := output.trans untouched.output
  draw := draw.trans untouched.draw

theorem Draws.upToDate {c : Compilation} (draws : Draws p q) (since : q.holdings.Since c)
    (current : p.dirty.value = false → p.source = c.source) : q.UpToDate := by
  obtain ⟨_, _, _, _, _, _, rfl⟩ := draws
  exact .compiled c since current

theorem recompile_upToDate (p : Player τ σ) : p.recompile.UpToDate := by
  obtain ⟨_, _, _, _, _, _, recompiled⟩ := recompile_eq p
  rw [recompiled]
  exact .compiled _ (.compiled _ _ _ _) fun _ => rfl

theorem startEnvironment_since {c : Compilation} (since : p.holdings.Since c) {image : Image}
    (active : p.holdings.slots.active = some image) :
    (p.startEnvironment image).holdings.Since c := by
  have noted : (p.holdings.start image).2.Since c := by
    refine since.note rfl ?_ _
    rintro _ _ ⟨⟩
    exact active
  simp only [startEnvironment]
  split
  · next started =>
    rw [started] at noted
    exact noted.setEnvironment _
  · next failed =>
    rw [failed] at noted
    rw [fail_holdings]
    exact noted

theorem step_since {c : Compilation} (since : p.holdings.Since c) :
    (p.runSteps 1).holdings.Since c := by
  simp only [runSteps]
  split
  · exact since
  · next e _ =>
    have noted : (p.holdings.step e).2.Since c := since.note rfl (by simp) _
    split
    · next stepped =>
      rw [stepped] at noted
      exact noted
    · next failed =>
      rw [failed] at noted
      simp only [clearEnvironment, fail_holdings]
      exact noted.clearEnvironment

variable [Surface σ]

theorem Part.untouched (part : Part p q) (untouched : p.Untouched) : q.UpToDate := by
  obtain ⟨environment, images, promoted, torn⟩ := untouched.upkeep
  cases part with
  | clearCanvas =>
    refine .untouched ⟨?_, untouched.slots, untouched.output, untouched.draw⟩
    intro e member
    rw [Player.clearCanvas, Holdings.noteClear, Holdings.events_note, List.mem_append] at member
    rcases member with before | here
    · exact untouched.uncompiled e before
    · rw [List.mem_singleton.mp here]
      rfl
  | clearEnvironment => exact .untouched (untouched.of_eq environment rfl rfl)
  | clearImages => exact .untouched (untouched.of_eq images rfl rfl)
  | promote => exact .untouched (untouched.of_eq promoted rfl rfl)
  | teardown => exact .untouched (untouched.of_eq torn rfl rfl)
  | recompile _ => exact recompile_upToDate p
  | start _ active =>
    rw [untouched.slots] at active
    cases active
  | step running =>
    rw [untouched.slots] at running
    cases running
  | flush =>
    have nothing : p.flush = p := by simp [Player.flush, untouched.draw]
    rw [nothing]
    exact .untouched untouched
  | _ => exact .untouched (untouched.of_eq rfl rfl rfl)

theorem Part.compiled {c : Compilation} (part : Part p q) (since : p.holdings.Since c)
    (current : p.dirty.value = false → p.source = c.source) : q.UpToDate := by
  cases part with
  | rewrite s =>
    refine .compiled c since fun clean => ?_
    have dirty : (p.dirty.set true).2.value = true := Watched.set_value _ _
    exact absurd (dirty.symm.trans clean) (by decide)
  | clearCanvas => exact .compiled c (since.note rfl (by simp) _) current
  | clearEnvironment => exact .compiled c since.clearEnvironment current
  | clearImages => exact .compiled c since.clearImages current
  | promote => exact .compiled c since.promote current
  | teardown => exact .compiled c since.teardown current
  | recompile _ => exact recompile_upToDate p
  | @start image idle active =>
    have ensured : p.ensureEnvironment = p.startEnvironment image := by
      simp only [ensureEnvironment, idle, active]
    exact (ensured ▸ ensureEnvironment_draws p).upToDate (startEnvironment_since since active) current
  | step _ => exact (runSteps_draws p 1).upToDate (step_since since) current
  | flush =>
    have same : p.flush.holdings = p.holdings := by
      simp only [Player.flush]
      split <;> rfl
    exact (flush_draws p).upToDate (same ▸ since) current
  | _ => exact .compiled c since current

theorem upToDate_kept : Kept fun p : Player τ σ => p.UpToDate where
  part part upToDate := by
    rcases upToDate with untouched | ⟨c, since, current⟩
    · exact part.untouched untouched
    · exact part.compiled since current
  size {p v r} _ upToDate := by
    have same : (p.applyViewport v r).2.holdings = p.holdings ∧
        (p.applyViewport v r).2.output = p.output ∧ (p.applyViewport v r).2.draw = p.draw ∧
        (p.applyViewport v r).2.source = p.source ∧ (p.applyViewport v r).2.dirty = p.dirty := by
      simp only [applyViewport]
      split
      · split <;> exact ⟨rfl, rfl, rfl, rfl, rfl⟩
      · exact ⟨rfl, rfl, rfl, rfl, rfl⟩
    obtain ⟨holdings, output, draw, source, dirty⟩ := same
    rcases upToDate with untouched | ⟨c, since, current⟩
    · exact .untouched (untouched.of_eq holdings output draw)
    · exact .compiled c (holdings ▸ since) fun clean => source.trans (current (dirty ▸ clean))

theorem attached_kept : Kept fun p : Player τ σ => p.holdings.Attached [] where
  part part attached := part.moves.preserve Move.attached attached
  size _ attached := by
    rw [applyViewport_holdings]
    exact attached

variable [Time τ]

theorem create_fresh {surface : σ} {c : Config τ} (created : Player.create surface c = .ok p) :
    p.holdings = {} ∧ p.output = {} ∧ p.draw = #[] := by
  obtain ⟨s, clock, r, rfl⟩ := create_eq created
  exact ⟨rfl, rfl, rfl⟩

section

variable {surface : σ} {c : Config τ} {start : Player τ σ} {es : List (Edit τ)}
  (reached : Reached surface c start) (visited : p ∈ start :: start.visitsAll es)

include reached visited

theorem visited_upToDate : p.UpToDate := by
  refine upToDate_kept.visited (upToDate_kept.reached (fun created => ?_) reached) visited
  obtain ⟨holdings, output, draw⟩ := create_fresh created
  exact .untouched ⟨by simp [holdings, Holdings.events], by rw [holdings], output, draw⟩

theorem visited_attached : p.holdings.Attached [] := by
  refine attached_kept.visited (attached_kept.reached (fun created => ?_) reached) visited
  rw [(create_fresh created).1]
  exact .empty

end

end TurtlePlayback.Session.Player
