import TurtlePlayback.Canvas.Resolution
import TurtlePlayback.Proofs.ExceptResults
import TurtlePlayback.Proofs.PackedDoubles

/-!
Lengths in pixels under any ratio. A product has the sign that its factors give it, also where it is
rounded or too large, and a length that is not above zero has no pixels, while an infinite one has
more than a surface takes. So whatever has a size in pixels has a ratio that is finite and above
zero.
-/

namespace TurtlePlayback.Binary64

open Float.Model Float.Model.UnpackedFloat

def HasSign (s : Sign) : UnpackedFloat → Prop
  | .notANumber => True
  | .infinity t | .zero t | .finite t _ _ _ => t = s

variable {s t : Sign} {u v : UnpackedFloat}

theorem hasSign_round (s : Sign) (m : Nat) (e : Int) (a : Accuracy) :
    HasSign s (roundWithAccuracy Format.binary64 s m e a) := by
  simp only [roundWithAccuracy]
  split
  · rfl
  · rfl

theorem HasSign.mul (hu : HasSign s u) (hv : HasSign t v) :
    HasSign (s * t) (UnpackedFloat.mul Format.binary64 u v) := by
  cases u <;> cases v <;> simp only [HasSign] at hu hv <;> subst_vars
  case finite.finite => exact hasSign_round _ _ _ _
  all_goals first | rfl | trivial

theorem hasSign_components (s : Sign) (e : BitVec Format.binary64.exponentBits)
    (m : BitVec Format.binary64.mantissaBitsWithoutImplicit) :
    HasSign s (UnpackedFloat.unpack _ (packComponents Format.binary64 s e m)) := by
  rw [unpack_components]
  split
  · split
    · rfl
    · trivial
  · split
    · split
      · rfl
      · rfl
    · rfl

theorem HasSign.pack (h : HasSign s u) : HasSign s (Float.Model.pack u).unpack := by
  change HasSign s (UnpackedFloat.unpack _ (UnpackedFloat.pack Format.binary64 u))
  cases u with
  | notANumber =>
    rw [UnpackedFloat.pack, unpack_packedNaN]
    trivial
  | infinity t =>
    cases h
    exact hasSign_components _ _ _
  | zero t =>
    cases h
    exact hasSign_components _ _ _
  | finite t m e hm =>
    cases h
    simp only [UnpackedFloat.pack]
    split
    · exact hasSign_components _ _ _
    · split
      · exact hasSign_components _ _ _
      · exact hasSign_components _ _ _

theorem hasSign_normalize {m : Int} (natural : 0 ≤ m) (e : Int) :
    HasSign .positive (UnpackedFloat.normalize Format.binary64 m e .positive) := by
  simp only [UnpackedFloat.normalize]
  split
  · next below => exact absurd (Int.compare_eq_lt.mp below) (by omega)
  · rfl
  · exact hasSign_round _ _ _ _

theorem hasSign_ofScientific (m : Nat) {e : Int} (natural : 0 ≤ e) :
    HasSign .positive (UnpackedFloat.ofScientific Format.binary64 m e) := by
  simp only [UnpackedFloat.ofScientific]
  split
  · rfl
  · split
    · rfl
    · split
      · rfl
      · exact hasSign_round _ _ _ _

theorem hasSign_ofNat (n : Nat) : HasSign .positive (Float.ofNat n).toModel.unpack := by
  have one : HasSign .positive (Float.exactlyRepresentablePowersOfTen[0]).toModel.unpack :=
    (rfl : Sign.positive = .positive)
  simp only [Float.ofNat, OfScientific.ofScientific, Float.ofScientific, Bool.false_eq_true,
    if_false]
  split
  · exact HasSign.pack (HasSign.mul (HasSign.pack (hasSign_normalize (Int.natCast_nonneg _) _)) one)
  · exact HasSign.pack (hasSign_ofScientific n (Int.le_refl 0))

def Low : UnpackedFloat → Prop
  | .notANumber | .zero _ => True
  | .infinity s | .finite s _ _ _ => s = .negative

theorem HasSign.low (negative : HasSign .negative u) : Low u := by
  cases u with
  | notANumber => trivial
  | zero s => trivial
  | infinity s => exact negative
  | finite s m e hm => exact negative

theorem Low.sign (low : Low u) : HasSign .negative u ∨ ∃ s, u = .zero s := by
  cases u with
  | notANumber => exact .inl trivial
  | zero s => exact .inr ⟨s, rfl⟩
  | infinity s => exact .inl low
  | finite s m e hm => exact .inl low

theorem Low.pack (low : Low u) : Low (Float.Model.pack u).unpack := by
  rcases low.sign with negative | ⟨s, rfl⟩
  · exact negative.pack.low
  · cases s <;> trivial

theorem Low.toUInt32 (low : Low u) : u.toUInt32 = 0 := by
  have small : toInt 0 (UInt32.size - 1) u ≤ 0 := by
    cases u with
    | notANumber => exact Int.le_refl 0
    | zero s => exact Int.le_refl 0
    | infinity s =>
      cases low
      exact Int.le_refl 0
    | finite s m e hm =>
      cases low
      exact Int.neg_nonpos_of_nonneg (Int.natCast_nonneg _)
  rw [UnpackedFloat.toUInt32, Int.toNat_of_nonpos small]
  rfl

theorem sub_zero (u : UnpackedFloat) :
    UnpackedFloat.sub Format.binary64 u (.zero .positive) = u := by
  cases u with
  | zero s => cases s <;> rfl
  | _ => rfl

theorem Low.not_half_le (low : Low u) : (0.5 : Float).toModel.unpack.le u = false := by
  have half : (0.5 : Float).toModel.unpack = .finite .positive 4503599627370496 (-53) (by decide) :=
    rfl
  rw [half]
  cases u with
  | notANumber => rfl
  | zero s => rfl
  | infinity s =>
    cases low
    rfl
  | finite s m e hm =>
    cases low
    rfl

theorem Low.mul_natural (natural : HasSign .positive u) (low : Low v) :
    Low (UnpackedFloat.mul Format.binary64 u v) := by
  rcases low.sign with negative | ⟨s, rfl⟩
  · exact (natural.mul negative).low
  · cases u <;> trivial

theorem mul_infinity (natural : HasSign .positive u) :
    Low (UnpackedFloat.mul Format.binary64 u (.infinity .positive)) ∨
      UnpackedFloat.mul Format.binary64 u (.infinity .positive) = .infinity .positive := by
  cases u with
  | notANumber => exact .inl trivial
  | zero s => exact .inl trivial
  | infinity s =>
    cases natural
    exact .inr rfl
  | finite s m e hm =>
    cases natural
    exact .inr rfl

end TurtlePlayback.Binary64

namespace TurtlePlayback.Canvas

open Binary64 Float.Model Float.Model.UnpackedFloat

theorem Viewport.pixels_of_low {n : Nat} {ratio : Float}
    (low : Low (Float.ofNat n * ratio).toModel.unpack) : pixels n ratio = 0 := by
  have whole : (Float.ofNat n * ratio).toUInt32 = 0 := low.toUInt32
  have rest : ¬ 0.5 ≤ Float.ofNat n * ratio - Float.ofNat 0 := by
    intro half
    have raised : (0.5 : Float).toModel.unpack.le
        (Float.ofNat n * ratio - Float.ofNat 0).toModel.unpack = true := of_decide_eq_true half
    have same : (Float.ofNat n * ratio - Float.ofNat 0).toModel.unpack =
        (Float.Model.pack (Float.ofNat n * ratio).toModel.unpack).unpack :=
      congrArg (fun u => (Float.Model.pack u).unpack) (sub_zero _)
    rw [same, low.pack.not_half_le] at raised
    cases raised
  simp only [pixels, whole]
  exact if_neg rest

theorem Viewport.pixels_of_infinity {n : Nat} {ratio : Float}
    (infinite : (Float.ofNat n * ratio).toModel.unpack = .infinity .positive) :
    pixels n ratio = 4294967295 := by
  have whole : (Float.ofNat n * ratio).toUInt32 = 4294967295 := by
    change (Float.ofNat n * ratio).toModel.unpack.toUInt32 = _
    rw [infinite]
    rfl
  simp only [pixels, whole]
  split <;> rfl

theorem Viewport.ratio_cases {ratio : Float} (refused : isPositive ratio = false) :
    Low ratio.toModel.unpack ∨ ratio.toModel.unpack = .infinity .positive := by
  cases unpacked : ratio.toModel.unpack with
  | notANumber => exact .inl trivial
  | zero s => exact .inl trivial
  | infinity s =>
    cases s with
    | positive => exact .inr rfl
    | negative => exact .inl rfl
  | finite s m e hm =>
    cases s with
    | negative => exact .inl rfl
    | positive =>
      have finite : ratio.isFinite = true := by
        change ratio.toModel.unpack.isFinite = true
        rw [unpacked]
        rfl
      have above : 0.0 < ratio := by
        refine decide_eq_true_iff.mpr ?_
        change (UnpackedFloat.zero .positive).lt ratio.toModel.unpack = true
        rw [unpacked]
        rfl
      simp [isPositive, finite, above] at refused

theorem Viewport.pixels_of_ratio {ratio : Float} (refused : isPositive ratio = false) (n : Nat) :
    pixels n ratio = 0 ∨ pixels n ratio = 4294967295 := by
  rcases ratio_cases refused with low | infinite
  · exact .inl (pixels_of_low (low.mul_natural (hasSign_ofNat n)).pack)
  · have product : (Float.ofNat n * ratio).toModel.unpack = (Float.Model.pack
        (UnpackedFloat.mul Format.binary64 (Float.ofNat n).toModel.unpack
          (.infinity .positive))).unpack := by
      rw [← infinite]
      rfl
    rcases mul_infinity (hasSign_ofNat n) with low | high
    · refine .inl (pixels_of_low ?_)
      rw [product]
      exact low.pack
    · refine .inr (pixels_of_infinity ?_)
      rw [product, high]
      rfl

theorem Viewport.positive_of_resolution {v : Viewport} {r : Resolution}
    (found : v.resolution = .ok r) : isPositive v.ratio = true := by
  by_contra refused
  rw [resolution, mapError_ok, Resolution.checked] at found
  rcases pixels_of_ratio (Bool.eq_false_iff.mpr refused) v.width with none | many
  · simp [none] at found
  · rw [many] at found
    split at found
    · cases found
    · simp at found

end TurtlePlayback.Canvas
