import TurtlePlayback.Proofs.RoundedArithmetic

namespace TurtlePlayback.Binary64

open Float.Model Float.Model.UnpackedFloat

variable {x y : Float} {s : Sign}

theorem infinite_of (isNumber : x.isNaN = false) (unbounded : x.isFinite = false) :
    ∃ s, x.toModel.unpack = .infinity s := by
  change x.toModel.unpack.isNaN = false at isNumber
  change x.toModel.unpack.isFinite = false at unbounded
  cases unpacked : x.toModel.unpack with
  | infinity s => exact ⟨s, rfl⟩
  | notANumber =>
    rw [unpacked] at isNumber
    cases isNumber
  | _ =>
    rw [unpacked] at unbounded
    cases unbounded

theorem number_of_infinite (infinite : x.toModel.unpack = .infinity s) :
    x.isNaN = false ∧ x.isFinite = false := by
  change x.toModel.unpack.isNaN = false ∧ x.toModel.unpack.isFinite = false
  rw [infinite]
  exact ⟨rfl, rfl⟩

theorem unpack_nan (nan : x.isNaN = true) : x.toModel.unpack = .notANumber :=
  isNaN_iff.mp nan

theorem unbounded_of_nan (nan : x.isNaN = true) : x.isFinite = false := by
  change x.toModel.unpack.isFinite = false
  rw [unpack_nan nan]
  rfl

theorem unpack_sum (x y : Float) : (x + y).toModel.unpack = UnpackedFloat.unpack Format.binary64
    (UnpackedFloat.pack Format.binary64
      (UnpackedFloat.add Format.binary64 x.toModel.unpack y.toModel.unpack)) :=
  rfl

theorem add_nan (nan : y.isNaN = true) (x : Float) : (x + y).isNaN = true := by
  change (x + y).toModel.unpack.isNaN = true
  rw [unpack_sum, unpack_nan nan]
  cases x.toModel.unpack <;> exact isNaN_iff.mpr unpack_packedNaN

theorem nan_add (nan : x.isNaN = true) (y : Float) : (x + y).isNaN = true := by
  change (x + y).toModel.unpack.isNaN = true
  rw [unpack_sum, unpack_nan nan]
  exact isNaN_iff.mpr unpack_packedNaN

theorem sub_nan (nan : y.isNaN = true) (x : Float) : (x - y).isNaN = true := by
  have opposite : (-y).isNaN = true := by
    change (-y).toModel.unpack.isNaN = true
    rw [unpack_neg, unpack_nan nan]
    rfl
  rw [difference_eq]
  exact add_nan opposite x

theorem add_infinity (fx : x.isFinite = true) (infinite : y.toModel.unpack = .infinity s) :
    (x + y).toModel.unpack = .infinity s := by
  rw [unpack_sum, infinite]
  obtain ⟨t, unpacked⟩ | ⟨t, m, e, hm, unpacked⟩ := finite_cases (u := x.toModel.unpack) fx
  · rw [unpacked]
    exact unpack_pack (u := .infinity s) trivial trivial
  · rw [unpacked]
    exact unpack_pack (u := .infinity s) trivial trivial

theorem infinity_add (infinite : x.toModel.unpack = .infinity s) (fy : y.isFinite = true) :
    (x + y).toModel.unpack = .infinity s := by
  rw [unpack_sum, infinite]
  obtain ⟨t, unpacked⟩ | ⟨t, m, e, hm, unpacked⟩ := finite_cases (u := y.toModel.unpack) fy
  · rw [unpacked]
    exact unpack_pack (u := .infinity s) trivial trivial
  · rw [unpacked]
    exact unpack_pack (u := .infinity s) trivial trivial

theorem add_isNumber (fx : x.isFinite = true) (ny : y.isNaN = false) : (x + y).isNaN = false := by
  by_cases fy : y.isFinite = true
  · exact (rounds_add fx fy).isNumber
  · obtain ⟨s, infinite⟩ := infinite_of ny (eq_false_of_ne_true fy)
    exact (number_of_infinite (add_infinity fx infinite)).1

theorem sub_isNumber (nx : x.isNaN = false) (fy : y.isFinite = true) : (x - y).isNaN = false := by
  by_cases fx : x.isFinite = true
  · exact (rounds_sub fx fy).isNumber
  · obtain ⟨s, infinite⟩ := infinite_of nx (eq_false_of_ne_true fx)
    rw [difference_eq]
    exact (number_of_infinite (infinity_add infinite (neg_finite fy).1)).1

theorem add_unbounded (unbounded : x.isFinite = false) (fy : y.isFinite = true) :
    (x + y).isFinite = false := by
  by_cases nan : x.isNaN = true
  · exact unbounded_of_nan (nan_add nan y)
  · obtain ⟨s, infinite⟩ := infinite_of (eq_false_of_ne_true nan) unbounded
    exact (number_of_infinite (infinity_add infinite fy)).2

theorem sub_unbounded (unbounded : x.isFinite = false) (fy : y.isFinite = true) :
    (x - y).isFinite = false := by
  rw [difference_eq]
  exact add_unbounded unbounded (neg_finite fy).1

theorem nan_compare (nan : x.isNaN = true) (y : Float) :
    x.toModel.unpack.compare y.toModel.unpack = none ∧
      y.toModel.unpack.compare x.toModel.unpack = none := by
  rw [unpack_nan nan]
  cases y.toModel.unpack <;> exact ⟨rfl, rfl⟩

theorem number_compare (nx : x.isNaN = false) (ny : y.isNaN = false) :
    ∃ o, x.toModel.unpack.compare y.toModel.unpack = some o ∧
      y.toModel.unpack.compare x.toModel.unpack = some o.swap := by
  obtain ⟨cx, -⟩ := float_canonical x
  obtain ⟨cy, -⟩ := float_canonical y
  by_cases fx : x.isFinite = true
  · by_cases fy : y.isFinite = true
    · exact ⟨_, compare_finite fx fy cx cy,
        (compare_finite fy fx cy cx).trans (congrArg some (Std.OrientedCmp.eq_swap))⟩
    · obtain ⟨t, infinite⟩ := infinite_of ny (eq_false_of_ne_true fy)
      rw [infinite]
      obtain ⟨s, unpacked⟩ | ⟨s, m, e, hm, unpacked⟩ := finite_cases (u := x.toModel.unpack) fx
      · rw [unpacked]
        cases t <;> exact ⟨_, rfl, rfl⟩
      · rw [unpacked]
        cases t <;> exact ⟨_, rfl, rfl⟩
  · obtain ⟨s, infinite⟩ := infinite_of nx (eq_false_of_ne_true fx)
    change y.toModel.unpack.isNaN = false at ny
    rw [infinite]
    cases unpacked : y.toModel.unpack with
    | notANumber =>
      rw [unpacked] at ny
      cases ny
    | infinity t => cases s <;> cases t <;> exact ⟨_, rfl, rfl⟩
    | zero t => cases s <;> exact ⟨_, rfl, rfl⟩
    | finite t m e hm => cases s <;> exact ⟨_, rfl, rfl⟩

theorem le_iff_compare : x ≤ y ↔ (x.toModel.unpack.compare y.toModel.unpack).any (·.isLE) = true :=
  decide_eq_true_iff

theorem lt_iff_compare : x < y ↔ x.toModel.unpack.compare y.toModel.unpack = some .lt :=
  decide_eq_true_iff.trans beq_iff_eq

theorem not_le_nan (nan : y.isNaN = true) (x : Float) : ¬ x ≤ y := by
  rw [le_iff_compare, (nan_compare nan x).2]
  decide

theorem not_nan_le (nan : x.isNaN = true) (y : Float) : ¬ x ≤ y := by
  rw [le_iff_compare, (nan_compare nan y).1]
  decide

theorem not_lt_nan (nan : y.isNaN = true) (x : Float) : ¬ x < y := by
  rw [lt_iff_compare, (nan_compare nan x).2]
  decide

theorem not_nan_lt (nan : x.isNaN = true) (y : Float) : ¬ x < y := by
  rw [lt_iff_compare, (nan_compare nan y).1]
  decide

theorem le_of_not_lt (nx : x.isNaN = false) (ny : y.isNaN = false) (above : ¬ x < y) : y ≤ x := by
  obtain ⟨o, direct, swapped⟩ := number_compare nx ny
  rw [lt_iff_compare, direct] at above
  rw [le_iff_compare, swapped]
  cases o with
  | lt => exact absurd rfl above
  | eq => rfl
  | gt => rfl

theorem le_of_not_le (nx : x.isNaN = false) (ny : y.isNaN = false) (above : ¬ x ≤ y) : y ≤ x := by
  obtain ⟨o, direct, swapped⟩ := number_compare nx ny
  rw [le_iff_compare, direct] at above
  rw [le_iff_compare, swapped]
  cases o with
  | lt => exact absurd rfl above
  | eq => exact absurd rfl above
  | gt => rfl

end TurtlePlayback.Binary64
