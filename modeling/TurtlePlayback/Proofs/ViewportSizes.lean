import TurtlePlayback.Proofs.FrameSuccessors

namespace TurtlePlayback.Canvas

/-- A surface that either takes a size or stays as it is, and that has its size from nothing else.
-/
class Sized (σ : Type) [Surface σ] : Prop where
  taken {s s' : σ} {r : Resolution} :
    Surface.resize s r = (.ok (), s') → Surface.resolution s' = r
  refused {s s' : σ} {r : Resolution} {f : Failure} :
    Surface.resize s r = (.error f, s') → s' = s
  cleared (s : σ) : Surface.resolution (Surface.clear s) = Surface.resolution s
  drawn (s : σ) (l : DrawList) (ratio : Float) :
    Surface.resolution (Surface.render s l ratio).2 = Surface.resolution s

instance : Sized Recording where
  taken done := by
    cases done
    rfl
  refused failed := by cases failed
  cleared _ := rfl
  drawn s l _ := by
    simp only [Surface.render, Surface.resolution, Recording.render]
    split <;> rfl

theorem PixelSurface.render_resolution {raster : Rasterizer} {s s' : PixelSurface} {l : DrawList}
    {ratio : Float} (drawn : s.render raster l ratio = .ok s') : s'.resolution = s.resolution := by
  simp only [render] at drawn
  split at drawn
  · cases drawn
    rfl
  · split at drawn
    · rw [mapError_ok, compose] at drawn
      split at drawn
      · cases drawn
        rfl
      · cases drawn
    · cases drawn

theorem PixelSurface.resize_resolution {s s' : PixelSurface} {r : Resolution}
    (done : s.resize r = .ok s') : s'.resolution = r := by
  obtain ⟨_, -, rfl⟩ := map_ok.mp done
  split
  · next same => exact same.symm
  · rfl

instance : Sized PixelSurface where
  taken {s s' r} done := by
    simp only [Surface.resize] at done
    cases resized : s.resize r with
    | error f =>
      rw [resized] at done
      cases done
    | ok t =>
      rw [resized] at done
      cases done
      exact PixelSurface.resize_resolution resized
  refused {s s' r f} failed := by
    simp only [Surface.resize] at failed
    cases resized : s.resize r with
    | error g =>
      rw [resized] at failed
      cases failed
      rfl
    | ok t =>
      rw [resized] at failed
      cases failed
  cleared _ := rfl
  drawn s l ratio := by
    simp only [Surface.render]
    cases drawn : s.render Layer.ofDrawList l ratio with
    | error f => rfl
    | ok t => exact PixelSurface.render_resolution drawn

structure Refusing where
  recording : Recording

instance : Surface Refusing where
  resolution s := s.recording.resolution
  resize s _ := (.error ⟨.render, "resize refused"⟩, s)
  clear s := ⟨s.recording.clear⟩
  render s _ _ := (.error ⟨.render, "render refused"⟩, s)
  snapshot _ := none

instance : Sized Refusing where
  taken done := by cases done
  refused failed := by
    cases failed
    rfl
  cleared _ := rfl
  drawn _ _ _ := rfl

theorem Viewport.resolution_of_validate {v : Viewport} (valid : v.validate = .ok ()) :
    ∃ r, v.resolution = .ok r := by
  simp only [validate] at valid
  split at valid
  · obtain ⟨r, found, -⟩ := map_ok.mp valid
    exact ⟨r, found⟩
  · cases valid

end TurtlePlayback.Canvas

namespace TurtlePlayback.Session.Player

open Artifact Canvas Playback

variable {τ σ : Type} [Surface σ] {p q : Player τ σ} {v : Viewport} {r : Resolution}

def InStep (p : Player τ σ) : Prop :=
  Surface.resolution p.surface = p.resolution.value

instance (p : Player τ σ) : Decidable p.InStep :=
  inferInstanceAs (Decidable (_ = _))

def Refuses (p : Player τ σ) (v : Viewport) : Prop :=
  v.validate = .ok () ∧ ∃ r f, v.resolution = .ok r ∧ r ≠ p.resolution.value ∧
    (Surface.resize p.surface r).1 = .error f

structure SameSizes (p q : Player τ σ) : Prop where
  viewport : q.viewport = p.viewport
  resolution : q.resolution = p.resolution
  surface : Surface.resolution q.surface = Surface.resolution p.surface

theorem SameSizes.inStep (same : SameSizes p q) : q.InStep ↔ p.InStep := by
  rw [InStep, InStep, same.surface, same.resolution]

theorem fail_sizes (p : Player τ σ) (f : Failure) : SameSizes p (p.fail f) := by
  simp only [fail]
  split <;> exact ⟨rfl, rfl, rfl⟩

theorem startEnvironment_sizes (p : Player τ σ) (image : Image) :
    SameSizes p (p.startEnvironment image) := by
  simp only [startEnvironment]
  split
  · exact ⟨rfl, rfl, rfl⟩
  · next f h _ =>
    have failed := fail_sizes { p with holdings := h } f
    exact ⟨failed.viewport, failed.resolution, failed.surface⟩

theorem step_sizes {e : Running} (running : p.holdings.slots.environment = some e) :
    SameSizes p (p.runSteps 1) := by
  simp only [runSteps, running]
  split
  · exact ⟨rfl, rfl, rfl⟩
  · next f h _ =>
    have failed :=
      fail_sizes { p with holdings := h, stats.stepErrors := p.stats.stepErrors + 1 } f
    exact ⟨failed.viewport, failed.resolution, failed.surface⟩

omit [Surface σ] in
theorem Brackets.surface (h : Brackets p q) : q.surface = p.surface := by
  obtain ⟨_, _, _, rfl⟩ := h
  rfl

theorem Brackets.sizes (h : Brackets p q) : SameSizes p q := by
  obtain ⟨_, _, _, rfl⟩ := h
  exact ⟨rfl, rfl, rfl⟩

theorem flush_sizes [Sized σ] (p : Player τ σ) : SameSizes p p.flush := by
  simp only [flush]
  split
  · exact ⟨rfl, rfl, rfl⟩
  · exact ⟨rfl, rfl, Sized.drawn _ _ _⟩

theorem Part.sizes [Sized σ] (part : Part p q) : SameSizes p q := by
  cases part with
  | clearCanvas => exact ⟨rfl, rfl, Sized.cleared _⟩
  | recompile _ =>
    obtain ⟨_, _, _, _, _, _, compiled⟩ := recompile_eq p
    rw [compiled]
    exact ⟨rfl, rfl, rfl⟩
  | start _ _ => exact startEnvironment_sizes p _
  | step running => exact step_sizes running
  | flush => exact flush_sizes p
  | _ => exact ⟨rfl, rfl, rfl⟩

theorem applyViewport_same (same : r = p.resolution.value) :
    p.applyViewport v r = (.ok (), { p with viewport := v }) := by
  simp [applyViewport, Watched.set, same]

theorem applyViewport_taken {s : σ} (new : r ≠ p.resolution.value)
    (taken : Surface.resize p.surface r = (.ok (), s)) :
    p.applyViewport v r = (.ok (),
      { p with viewport := v, resolution := ⟨r⟩, surface := s }.mark true .resolution) := by
  have differs : (p.resolution.value == r) = false := by simpa using new.symm
  simp [applyViewport, Watched.set, differs, taken]

theorem applyViewport_refused [Sized σ] {f : Failure} (new : r ≠ p.resolution.value)
    (failed : (Surface.resize p.surface r).1 = .error f) :
    p.applyViewport v r = (.error f, { p with viewport := v, resolution := ⟨r⟩ }) := by
  have differs : (p.resolution.value == r) = false := by simpa using new.symm
  rcases asked : Surface.resize p.surface r with ⟨answer, s⟩
  rw [asked] at failed
  cases failed
  have kept := Sized.refused asked
  simp [applyViewport, Watched.set, differs, asked, kept]

variable [Time τ]

theorem setViewport_invalid (p : Player τ σ) (invalid : v.validate ≠ .ok ()) :
    ∃ f, p.setViewport v = (.error f, p) := by
  simp only [setViewport]
  split
  · exact ⟨_, rfl⟩
  · exact ⟨_, rfl⟩
  · next valid _ => exact absurd valid invalid

theorem setViewport_valid (p : Player τ σ) (valid : v.validate = .ok ())
    (found : v.resolution = .ok r) : p.setViewport v = p.batch (·.applyViewport v r) := by
  simp only [setViewport, valid, found]

theorem setViewport_applied (p : Player τ σ) (valid : v.validate = .ok ())
    (found : v.resolution = .ok r) {answer : Except Failure Unit}
    (applied : p.openBatch.applyViewport v r = (answer, q)) :
    (p.setViewport v).1 = answer ∧ Brackets q (p.setViewport v).2 := by
  have closed := batch_brackets p (·.applyViewport v r)
  rw [applied] at closed
  rw [setViewport_valid p valid found]
  exact ⟨congrArg Prod.fst applied, closed⟩

theorem setViewport_same (p : Player τ σ) (valid : v.validate = .ok ())
    (same : v.resolution = .ok p.resolution.value) :
    (p.setViewport v).1 = .ok () ∧ Brackets { p with viewport := v } (p.setViewport v).2 := by
  obtain ⟨done, closed⟩ := setViewport_applied p valid same (applyViewport_same rfl)
  exact ⟨done, Brackets.trans ⟨_, _, _, rfl⟩ closed⟩

theorem setViewport_refused [Sized σ] (refuses : p.Refuses v) :
    ∃ r f, v.resolution = .ok r ∧ r ≠ p.resolution.value ∧ (p.setViewport v).1 = .error f ∧
      Brackets { p with viewport := v, resolution := ⟨r⟩ } (p.setViewport v).2 := by
  obtain ⟨valid, r, f, found, new, failed⟩ := refuses
  obtain ⟨answered, closed⟩ :=
    setViewport_applied p valid found (applyViewport_refused (p := p.openBatch) new failed)
  exact ⟨r, f, found, new, answered, Brackets.trans ⟨_, _, _, rfl⟩ closed⟩

theorem setViewport_taken [Sized σ] (valid : v.validate = .ok ()) (accepted : ¬ p.Refuses v) :
    (p.setViewport v).1 = .ok () ∧ (p.InStep → (p.setViewport v).2.InStep) := by
  obtain ⟨r, found⟩ := Viewport.resolution_of_validate valid
  by_cases same : r = p.resolution.value
  · subst same
    obtain ⟨done, brackets⟩ := setViewport_same p valid found
    exact ⟨done, fun start => brackets.sizes.inStep.mpr start⟩
  · rcases asked : Surface.resize p.surface r with ⟨f | _, s⟩
    · exact absurd ⟨valid, r, f, found, same, congrArg Prod.fst asked⟩ accepted
    · obtain ⟨done, closed⟩ :=
        setViewport_applied p valid found (applyViewport_taken (p := p.openBatch) same asked)
      exact ⟨done, fun _ => closed.sizes.inStep.mpr (Sized.taken asked)⟩

theorem setViewport_inStep [Sized σ] (start : p.InStep) (v : Viewport) :
    (p.setViewport v).2.InStep ↔ ¬ p.Refuses v := by
  by_cases refuses : p.Refuses v
  · obtain ⟨r, f, -, new, -, brackets⟩ := setViewport_refused refuses
    rw [brackets.sizes.inStep, InStep, show Surface.resolution p.surface = _ from start]
    simp [refuses, new.symm]
  · by_cases valid : v.validate = .ok ()
    · simp [refuses, (setViewport_taken valid refuses).2 start]
    · obtain ⟨f, same⟩ := setViewport_invalid p valid
      rw [same]
      simp [refuses, start]

theorem setViewport_pending [Sized σ] (refuses : p.Refuses v)
    (quiet : p.observers.depth = 0 → p.observers.pending = .empty) :
    (p.setViewport v).2.observers.pending = p.observers.pending := by
  -- The batch of the call itself tells its marks, but in a batch around it they wait.
  by_cases outside : p.observers.depth = 0
  · have closed : Closed (p.setViewport v).2 :=
      (edit_settles p (.setViewport v)).2 ⟨outside, quiet outside⟩
    rw [closed.unmarked, quiet outside]
  · obtain ⟨valid, r, f, found, new, failed⟩ := refuses
    have applied := applyViewport_refused (p := p.openBatch) (v := v) new failed
    obtain ⟨n, hn⟩ : ∃ n, p.observers.depth = n + 1 := ⟨p.observers.depth - 1, by omega⟩
    have inner := update_inner (p := p) (fun p => (p.applyViewport v r).2) (by omega)
    rw [setViewport_valid p valid found]
    refine (congrArg (·.observers.pending) inner).trans ?_
    rw [applied, closeBatch_inner (n := n) (congrArg (· + 1) hn)]
    rfl

theorem edit_inStep [Sized σ] {e : Edit τ} (plain : e.isPlain = true) (start : p.InStep) :
    (p.edit e).2.InStep :=
  (edit_parts p e plain).preserve (fun part inStep => part.sizes.inStep.mpr inStep) start

mutual

def viewports (p : Player τ σ) : Edit τ → List (Player τ σ × Viewport)
  | .setViewport v => [(p, v)]
  | .batch es => p.openBatch.viewportsAll es
  | _ => []

def viewportsAll (p : Player τ σ) : List (Edit τ) → List (Player τ σ × Viewport)
  | [] => []
  | e :: es => p.viewports e ++ (p.edit e).2.viewportsAll es

end

theorem edit_mem_visits (p : Player τ σ) (e : Edit τ) : (p.edit e).2 ∈ p.visits e := by
  cases e <;> simp [visits]

theorem editAll_mem_visits (p : Player τ σ) (es : List (Edit τ)) :
    (p.editAll es).2 ∈ p :: p.visitsAll es := by
  induction es generalizing p with
  | nil => exact List.mem_singleton.mpr rfl
  | cons e es ih =>
    rw [visitsAll]
    rcases List.mem_cons.mp (ih (p.edit e).2) with last | later
    · refine List.mem_cons_of_mem _ (List.mem_append_left _ ?_)
      rw [editAll, last]
      exact edit_mem_visits p e
    · exact List.mem_cons_of_mem _ (List.mem_append_right _ later)

mutual

theorem visits_inStep [Sized σ] {p : Player τ σ} (e : Edit τ) (start : p.InStep) :
    (∀ q ∈ p.visits e, q.InStep) ↔ ∀ call ∈ p.viewports e, ¬ call.1.Refuses call.2 := by
  cases e with
  | setViewport v =>
    simp only [visits, viewports, List.forall_mem_singleton]
    exact setViewport_inStep start v
  | batch es =>
    have opened : p.openBatch.InStep := (openBatch_brackets p).sizes.inStep.mpr start
    have inside := visitsAll_inStep es opened
    rw [visits, viewports, List.forall_mem_append, List.forall_mem_singleton, ← inside]
    refine and_iff_left_of_imp fun all => ?_
    have last : (p.openBatch.editAll es).2.InStep := by
      rcases List.mem_cons.mp (editAll_mem_visits p.openBatch es) with same | later
      · rw [same]
        exact opened
      · exact all _ later
    exact (batch_brackets p fun p => p.editAll es).sizes.inStep.mpr last
  | _ =>
    simp only [visits, viewports, List.forall_mem_singleton, List.not_mem_nil, false_imp_iff,
      implies_true, iff_true]
    exact edit_inStep rfl start

theorem visitsAll_inStep [Sized σ] {p : Player τ σ} (es : List (Edit τ)) (start : p.InStep) :
    (∀ q ∈ p.visitsAll es, q.InStep) ↔ ∀ call ∈ p.viewportsAll es, ¬ call.1.Refuses call.2 := by
  cases es with
  | nil => simp [visitsAll, viewportsAll]
  | cons e es =>
    have first := visits_inStep e start
    rw [visitsAll, viewportsAll, List.forall_mem_append, List.forall_mem_append, first]
    exact and_congr_right fun accepted =>
      visitsAll_inStep es (first.mpr accepted _ (edit_mem_visits p e))

end

omit [Time τ] in
theorem agree_kept [Sized σ] :
    Kept fun q : Player τ σ => q.viewport.resolution = .ok q.resolution.value where
  part part agree := by rw [part.sizes.viewport, part.sizes.resolution, agree]
  size {p v r} found _ := by
    by_cases same : r = p.resolution.value
    · rw [applyViewport_same same, found, same]
    · rcases asked : Surface.resize p.surface r with ⟨f | _, s⟩
      · rw [applyViewport_refused same (congrArg Prod.fst asked)]
        exact found
      · rw [applyViewport_taken same asked]
        exact found

theorem create_sizes [Sized σ] {surface : σ} {c : Config τ}
    (created : Player.create surface c = .ok p) :
    p.InStep ∧ p.viewport.resolution = .ok p.resolution.value := by
  obtain ⟨s, clock, r, ⟨found, origin⟩, -, rfl⟩ := create_made created
  refine ⟨?_, found⟩
  rcases origin with ⟨rfl, fits⟩ | sized
  · exact fits
  · exact Sized.taken sized

theorem visited_quiet {surface : σ} {c : Config τ} {es : List (Edit τ)}
    (reached : Reached surface c p) (visited : q ∈ p :: p.visitsAll es)
    (outside : q.observers.depth = 0) : q.observers.pending = .empty := by
  rcases List.mem_cons.mp visited with rfl | later
  · exact reached.closed.unmarked
  · refine visitsAll_preserve
      (I := fun q => q.observers.depth = 0 → q.observers.pending = .empty)
      (fun _ _ opened => absurd opened (Nat.succ_ne_zero _)) (fun p e quiet outside => ?_) es
      (fun _ => reached.closed.unmarked) later outside
    obtain ⟨depth, closes⟩ := edit_settles p e
    have before : p.observers.depth = 0 := depth.symm.trans outside
    exact (closes ⟨before, quiet before⟩).unmarked

/-- Only a size that the surface refuses brings the three out of step: it is not taken back, and
when it is asked for again the surface is not. -/
theorem sizes_in_step_iff [Sized σ] {surface : σ} {c : Config τ} {es : List (Edit τ)}
    (reached : Reached surface c p) (visited : q ∈ p :: p.visitsAll es) :
    q.viewport.resolution = .ok q.resolution.value ∧
    (∀ v f, (q.setViewport v).1 = .error f →
      (q.setViewport v).2.surface = q.surface ∧
      (q.setViewport v).2.observers.pending = q.observers.pending ∧
      ((q.setViewport v).2.viewport = q.viewport ∧
        (q.setViewport v).2.resolution.value = q.resolution.value ↔ v.validate ≠ .ok ()) ∧
      (v.validate = .ok () → ((q.setViewport v).2.setViewport v).1 = .ok () ∧
        ((q.setViewport v).2.setViewport v).2.surface = q.surface)) ∧
    (∀ start, Player.create surface c = .ok start → start.InStep) ∧
    (p.InStep → ((∀ r ∈ p.visitsAll es, r.InStep) ↔
      ∀ call ∈ p.viewportsAll es, ¬ call.1.Refuses call.2)) := by
  have agree := agree_kept.visited
    (agree_kept.reached (fun created => (create_sizes created).2) reached) visited
  refine ⟨agree, fun v f failed => ?_, fun start created => (create_sizes created).1,
    visitsAll_inStep es⟩
  by_cases valid : v.validate = .ok ()
  · have refuses : q.Refuses v := by
      by_contra accepted
      rw [(setViewport_taken valid accepted).1] at failed
      cases failed
    have pending := setViewport_pending refuses (visited_quiet reached visited)
    obtain ⟨r, f, found, new, -, brackets⟩ := setViewport_refused refuses
    have size : v.resolution = .ok (q.setViewport v).2.resolution.value := by
      rw [brackets.sizes.resolution]
      exact found
    obtain ⟨again, unasked⟩ := setViewport_same _ valid size
    refine ⟨brackets.surface, pending, ⟨fun kept => ?_, fun invalid => absurd valid invalid⟩,
      fun _ => ⟨again, unasked.surface.trans brackets.surface⟩⟩
    rw [brackets.sizes.resolution] at kept
    exact absurd kept.2 new
  · obtain ⟨g, same⟩ := setViewport_invalid q valid
    rw [same]
    exact ⟨rfl, rfl, iff_of_true ⟨rfl, rfl⟩ valid, fun given => absurd given valid⟩

theorem sizes_in_step_iff_refusing :
    ∃ (p : Player Float Refusing) (v : Viewport) (es : List (Edit Float))
      (q : Player Float Refusing),
      Reached ⟨{ resolution := ⟨512, 512⟩ }⟩ Config.default p ∧
      es = [.batch [.setVisible false, .setViewport v]] ∧ q ∈ p :: p.visitsAll es ∧
      (q.setViewport v).1 = .error ⟨.render, "resize refused"⟩ ∧
      q.observers.pending.toList = [.visibility] ∧
      (q.setViewport v).2.observers.pending = q.observers.pending ∧
      (q.setViewport v).2.surface = q.surface ∧
      ¬ ((q.setViewport v).2.viewport = q.viewport ∧
        (q.setViewport v).2.resolution.value = q.resolution.value) ∧
      ((q.setViewport v).2.setViewport v).1 = .ok () ∧
      p.InStep ∧ ¬ (∀ r ∈ p.visitsAll es, r.InStep) := by
  let p : Player Float Refusing := opening ⟨{ resolution := ⟨512, 512⟩ }⟩
  let v : Viewport := { width := 100, height := 50 }
  let es : List (Edit Float) := [.batch [.setVisible false, .setViewport v]]
  let q := (p.openBatch.edit (.setVisible false)).2
  have created : Player.create ⟨{ resolution := ⟨512, 512⟩ }⟩ Config.default = .ok p :=
    create_opening rfl
  have visited : q ∈ p :: p.visitsAll es := by simp [visitsAll, visits, es, q]
  have failed : (q.setViewport v).1 = .error ⟨.render, "resize refused"⟩ := by decide +kernel
  have valid : v.validate = .ok () := by decide +kernel
  obtain ⟨-, calls, started, all⟩ := sizes_in_step_iff (.created created) visited
  obtain ⟨surface, pending, written, again⟩ := calls v _ failed
  have inStep := started p created
  have refuses : q.Refuses v :=
    ⟨valid, ⟨100, 50⟩, _, by decide +kernel, by decide +kernel, rfl⟩
  refine ⟨p, v, es, q, .created created, rfl, visited, failed, by decide +kernel, pending, surface,
    fun kept => written.mp kept valid, (again valid).1, inStep, fun every => ?_⟩
  exact (all inStep).mp every (q, v) (by simp [viewportsAll, viewports, es, q]) refuses

/-- A size that was refused is shown all the same, and when it is asked for again all is said to be
well. -/
theorem refused_size_shown :
    ∃ (p : Player Float Refusing) (v : Viewport),
      Reached ⟨{ resolution := ⟨512, 512⟩ }⟩ Config.default p ∧
      (p.setViewport v).1 = .error ⟨.render, "resize refused"⟩ ∧
      (p.setViewport v).2.viewport ≠ p.viewport ∧
      (p.setViewport v).2.resolution.value ≠ p.resolution.value ∧
      ¬ (p.setViewport v).2.InStep ∧ ((p.setViewport v).2.setViewport v).1 = .ok () := by
  let p : Player Float Refusing := opening ⟨{ resolution := ⟨512, 512⟩ }⟩
  refine ⟨p, { width := 100, height := 50 }, .created (create_opening rfl), ?_⟩
  decide +kernel

end TurtlePlayback.Session.Player
