import TurtlePlayback.Proofs.BatchMarks
import TurtlePlayback.Proofs.PixelRatios
import TurtlePlayback.Proofs.ViewportSizes

namespace TurtlePlayback

namespace Playback.Clock

variable {τ : Type} [Time τ]

theorem create_iff {start stop : τ} {mode : LoopMode} :
    (∃ clock, create start stop mode = .ok clock) ↔
      Time.isFinite start = true ∧ Time.isFinite stop = true ∧ ¬ start < Time.zero ∧
        ¬ stop < start := by
  simp only [create, map_ok, checkBounds]
  cases Time.isFinite start <;> cases Time.isFinite stop
  case true.true =>
    by_cases negative : start < Time.zero
    · simp [negative]
    · by_cases crossed : stop < start <;> simp [negative, crossed]
  all_goals simp

end Playback.Clock

namespace Canvas

variable {v : Viewport} {r : Resolution}

theorem Viewport.validate_iff : v.validate = .ok () ↔ ∃ r, v.resolution = .ok r := by
  refine ⟨resolution_of_validate, fun ⟨r, found⟩ => ?_⟩
  rw [validate, if_pos (positive_of_resolution found), found]
  rfl

theorem Viewport.resolution_fits (found : v.resolution = .ok r) :
    0 < r.width ∧ r.width ≤ 65535 ∧ 0 < r.height ∧ r.height ≤ 65535 :=
  Resolution.checked_ok (mapError_ok.mp found)

theorem PixelSurface.create_of_viewport (found : v.resolution = .ok r) :
    PixelSurface.create r = .ok (blank r) := by
  rw [create, checkSize_ok (Viewport.resolution_fits found)]
  rfl

end Canvas

namespace Session

open Canvas Playback

variable {τ σ α : Type} [Time τ] [Surface σ] {c : Config τ}

namespace Config

theorem validate_iff :
    c.validate = .ok () ↔ (∃ clock, Clock.create c.loopStart c.loopEnd c.loopMode = .ok clock) ∧
      c.speed ≠ 0 ∧ ∃ r, c.viewport.resolution = .ok r := by
  rw [Clock.create_iff, ← Viewport.validate_iff, validate]
  cases Time.isFinite c.loopStart <;> cases Time.isFinite c.loopEnd
  case true.true =>
    by_cases negative : c.loopStart < Time.zero
    · simp [negative]
    · by_cases crossed : c.loopEnd < c.loopStart
      · simp [negative, crossed]
      · by_cases still : c.speed = 0 <;> simp [negative, crossed, still, mapError_ok]
  all_goals simp

/-- What is built from a configuration is built just when the check finds nothing, and else it is
refused for what the check has found. -/
structure Decides (c : Config τ) (built : Except Failure α) : Prop where
  made : (∃ a, built = .ok a) ↔ c.validate = .ok ()
  refused {fault : ConfigFault τ} : c.validate = .error fault → built = .error fault.failure

theorem decides_of_valid {built : Except Failure α} {a : α} (valid : c.validate = .ok ())
    (made : built = .ok a) : c.Decides built :=
  ⟨iff_of_true ⟨a, made⟩ valid, fun found => by rw [valid] at found; cases found⟩

theorem decides_of_fault {built : Except Failure α} {fault : ConfigFault τ}
    (found : c.validate = .error fault) (refused : built = .error fault.failure) :
    c.Decides built := by
  constructor
  · rw [found, refused]
    simp
  · intro other found'
    rw [found] at found'
    cases found'
    exact refused

end Config

namespace Player

theorem create_of_valid [Resizes σ] (surface : σ) (valid : c.validate = .ok ()) :
    ∃ p, Player.create surface c = .ok p := by
  obtain ⟨⟨clock, bounds⟩, -, r, found⟩ := Config.validate_iff.mp valid
  have checked : c.validate.mapError ConfigFault.failure = .ok () := mapError_ok.mpr valid
  have sized : c.viewport.resolution.mapError ViewportFault.failure = .ok r :=
    mapError_ok.mpr found
  have timed : (Clock.create c.loopStart c.loopEnd c.loopMode).mapError BoundsFault.failure =
      .ok clock := mapError_ok.mpr bounds
  simp only [create, checked, sized, timed, bind, Except.bind]
  split
  · exact ⟨_, rfl⟩
  · rcases asked : Surface.resize surface r with ⟨f | _, s⟩
    · have taken := Resizes.accepts surface found
      rw [asked] at taken
      cases taken
    · exact ⟨_, rfl⟩

theorem create_of_fault {fault : ConfigFault τ} (surface : σ) (found : c.validate = .error fault) :
    Player.create surface c = .error fault.failure := by
  simp only [create, found]
  rfl

theorem create_decides [Resizes σ] (surface : σ) (c : Config τ) :
    c.Decides (Player.create surface c) := by
  cases checked : c.validate with
  | ok =>
    obtain ⟨p, made⟩ := create_of_valid surface checked
    exact Config.decides_of_valid checked made
  | error fault => exact Config.decides_of_fault checked (create_of_fault surface checked)

theorem createOnPixels_decides (c : Config τ) : c.Decides (createOnPixels c) := by
  cases checked : c.validate with
  | ok =>
    obtain ⟨-, -, r, found⟩ := Config.validate_iff.mp checked
    obtain ⟨p, made⟩ := create_of_valid (PixelSurface.blank r) checked
    refine Config.decides_of_valid checked (a := p) ?_
    simp only [createOnPixels, bind_ok, mapError_ok]
    exact ⟨(), checked, r, found, _, PixelSurface.create_of_viewport found, made⟩
  | error fault =>
    refine Config.decides_of_fault checked ?_
    simp only [createOnPixels, checked]
    rfl

/-- The check of a configuration is the only one that a new player can fail. -/
theorem create_iff_valid (c : Config τ) :
    (∀ surface : Recording, c.Decides (Player.create surface c)) ∧
    c.Decides (createOnPixels c) ∧
    (c.validate = .ok () ↔
      (∃ clock, Clock.create c.loopStart c.loopEnd c.loopMode = .ok clock) ∧ c.speed ≠ 0 ∧
      ∃ r, c.viewport.resolution = .ok r ∧ (∃ s, PixelSurface.create r = .ok s) ∧
        (∀ s : Recording, (Surface.resize s r).1 = .ok ()) ∧
        ∀ s : PixelSurface, (Surface.resize s r).1 = .ok ()) ∧
    ∀ (v : Viewport) (r : Resolution), v.resolution = .ok r →
      0 < r.width ∧ r.width ≤ 65535 ∧ 0 < r.height ∧ r.height ≤ 65535 := by
  refine ⟨fun surface => create_decides surface c, createOnPixels_decides c, ?_,
    fun v r found => Viewport.resolution_fits found⟩
  rw [Config.validate_iff]
  refine and_congr_right' (and_congr_right' (exists_congr fun r => ?_))
  refine ⟨fun found => ⟨found, ⟨_, PixelSurface.create_of_viewport found⟩,
    fun s => Resizes.accepts s found, fun s => Resizes.accepts s found⟩, And.left⟩

example : ({ width := 131071, height := 2, ratio := 0.5 } : Viewport).resolution =
    .error (.resolution .tooLarge) := by
  decide +kernel

example : ({ width := 131069, height := 2, ratio := 0.5 } : Viewport).resolution =
    .ok ⟨65535, 1⟩ := by
  decide +kernel

end Player

end Session

end TurtlePlayback
