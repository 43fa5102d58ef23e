import TurtlePlayback.Proofs.ExceptResults
import TurtlePlayback.Session.Edit

namespace TurtlePlayback.Session.Player

open Canvas Playback

variable {τ σ : Type} [Time τ] [Surface σ]

theorem create_made {surface : σ} {c : Config τ} {p : Player τ σ}
    (created : Player.create surface c = .ok p) :
    ∃ (s : σ) (clock : Clock τ) (r : Resolution),
      (c.viewport.resolution = .ok r ∧ (s = surface ∧ Surface.resolution surface = r ∨
        Surface.resize surface r = (.ok (), s))) ∧
      Clock.create c.loopStart c.loopEnd c.loopMode = .ok clock ∧
      p = {
        surface := s, clock := if c.autoplay then clock.play else clock
        before := (if c.autoplay then clock.play else clock).snapshot, visible := ⟨c.visible⟩
        speed := ⟨c.speed⟩, resolution := ⟨r⟩, viewport := c.viewport } := by
  simp only [create, bind_ok] at created
  obtain ⟨_, -, r, found, made⟩ := created
  have size := mapError_ok.mp found
  split at made
  · next fits =>
    simp only [bind_ok, mapError_ok, pure, Except.pure] at made
    obtain ⟨s, kept, clock, bounds, made⟩ := made
    cases kept
    cases made
    exact ⟨_, clock, r, ⟨size, .inl ⟨rfl, fits⟩⟩, bounds, rfl⟩
  · split at made
    · next sized =>
      simp only [bind_ok, mapError_ok, pure, Except.pure] at made
      obtain ⟨s, same, clock, bounds, made⟩ := made
      cases same
      cases made
      exact ⟨_, clock, r, ⟨size, .inr sized⟩, bounds, rfl⟩
    · cases made

theorem create_eq {surface : σ} {c : Config τ} {p : Player τ σ}
    (created : Player.create surface c = .ok p) :
    ∃ (s : σ) (clock : Clock τ) (r : Resolution), p = {
      surface := s, clock, before := clock.snapshot, visible := ⟨c.visible⟩, speed := ⟨c.speed⟩,
      resolution := ⟨r⟩, viewport := c.viewport } := by
  obtain ⟨s, clock, r, -, -, made⟩ := create_made created
  exact ⟨s, _, r, made⟩

def starting (surface : σ) (clock : Clock τ) : Player τ σ where
  surface := surface
  clock := clock
  before := clock.snapshot
  visible := ⟨true⟩
  speed := ⟨1⟩
  resolution := ⟨⟨512, 512⟩⟩
  viewport := {}

def opening (surface : σ) : Player Float σ :=
  starting surface Clock.default.play

theorem create_opening {surface : σ} (fits : Surface.resolution surface = ⟨512, 512⟩) :
    Player.create surface Config.default = .ok (opening surface) := by
  have valid : (Config.default : Config Float).validate = .ok () := by rfl
  have size : (Config.default : Config Float).viewport.resolution = .ok ⟨512, 512⟩ := by rfl
  simp only [create, valid, size, fits]
  rfl

def unlooped : Player Rat Recording :=
  starting { resolution := ⟨512, 512⟩ } ⟨.playing, 1, .forward, 1, 3, .noLoop⟩

theorem create_unlooped : Player.create { resolution := ⟨512, 512⟩ }
    (⟨1, 3, .noLoop, 1, true, true, {}⟩ : Config Rat) = .ok unlooped := by
  rfl

mutual

/-- The states behind an operation; a batch passes through those of its own operations first. -/
def visits (p : Player τ σ) : Edit τ → List (Player τ σ)
  | .batch es => p.openBatch.visitsAll es ++ [(p.edit (.batch es)).2]
  | e => [(p.edit e).2]

def visitsAll (p : Player τ σ) : List (Edit τ) → List (Player τ σ)
  | [] => []
  | e :: es => p.visits e ++ (p.edit e).2.visitsAll es

end

variable {I : Player τ σ → Prop}

mutual

theorem visits_preserve (opens : ∀ p, I p → I p.openBatch) (edits : ∀ p e, I p → I (p.edit e).2)
    {p q : Player τ σ} (e : Edit τ) (start : I p) (visited : q ∈ p.visits e) : I q := by
  cases e with
  | batch es =>
    rw [visits, List.mem_append, List.mem_singleton] at visited
    rcases visited with inside | rfl
    · exact visitsAll_preserve opens edits es (opens p start) inside
    · exact edits p (.batch es) start
  | _ =>
    simp only [visits, List.mem_singleton] at visited
    exact visited ▸ edits p _ start

theorem visitsAll_preserve (opens : ∀ p, I p → I p.openBatch)
    (edits : ∀ p e, I p → I (p.edit e).2) {p q : Player τ σ} (es : List (Edit τ)) (start : I p)
    (visited : q ∈ p.visitsAll es) : I q := by
  cases es with
  | nil => simp [visitsAll] at visited
  | cons e es =>
    rw [visitsAll, List.mem_append] at visited
    rcases visited with first | later
    · exact visits_preserve opens edits e start first
    · exact visitsAll_preserve opens edits es (edits p e start) later

end

end TurtlePlayback.Session.Player
