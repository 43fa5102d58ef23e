import Mathlib
import TurtlePlayback.Proofs.RoundedDoubles

-- All of Mathlib, since no smaller part of it brings the lemmas about packed floats.

namespace TurtlePlayback.Binary64

open Float.Model Float.Model.UnpackedFloat

variable {s : Sign} {m n : Nat} {e f : Int} {u v : UnpackedFloat}

theorem magnitude_lt (small : m < 2 ^ 53) (low : -1074 ≤ e) (leading : f = -1074 ∨ 2 ^ 52 ≤ n)
    (less : e < f) : (m : ℚ) * 2 ^ e < n * 2 ^ f := by
  have digits : 2 ^ 52 ≤ n := leading.resolve_left (by omega)
  have above : (m : ℚ) < 2 ^ (53 : Int) := by exact_mod_cast small
  have below : (2 : ℚ) ^ (52 : Int) ≤ n := by exact_mod_cast digits
  calc
    (m : ℚ) * 2 ^ e < 2 ^ (53 : Int) * 2 ^ e := mul_lt_mul_of_pos_right above (two_zpow_pos e)
    _ = 2 ^ (53 + e) := (two_zpow_add _ _).symm
    _ ≤ 2 ^ (52 + f) := two_zpow_le (by omega)
    _ = 2 ^ (52 : Int) * 2 ^ f := two_zpow_add _ _
    _ ≤ n * 2 ^ f := mul_le_mul_of_nonneg_right below (two_zpow_pos f).le

theorem compare_magnitudes {hm : 0 < m} {hn : 0 < n} {t : Sign} (cu : Canonical (.finite s m e hm))
    (cv : Canonical (.finite t n f hn)) :
    (compare e f).then (compare m n) = compare ((m : ℚ) * 2 ^ e) (n * 2 ^ f) := by
  obtain ⟨small, low, leading⟩ := cu
  obtain ⟨small', low', leading'⟩ := cv
  rcases lt_trichotomy e f with less | rfl | greater
  · rw [compare_lt_iff_lt.mpr less, compare_lt_iff_lt.mpr (magnitude_lt small low leading' less)]
    rfl
  · rw [compare_eq_iff_eq.mpr rfl]
    have scale := two_zpow_pos e
    rcases lt_trichotomy m n with less | rfl | greater
    · have : (m : ℚ) < n := by exact_mod_cast less
      rw [compare_lt_iff_lt.mpr less, compare_lt_iff_lt.mpr (mul_lt_mul_of_pos_right this scale)]
      rfl
    · rw [compare_eq_iff_eq.mpr rfl, compare_eq_iff_eq.mpr rfl]
      rfl
    · have : (n : ℚ) < m := by exact_mod_cast greater
      rw [compare_gt_iff_gt.mpr greater, compare_gt_iff_gt.mpr (mul_lt_mul_of_pos_right this scale)]
      rfl
  · rw [compare_gt_iff_gt.mpr greater,
      compare_gt_iff_gt.mpr (magnitude_lt small' low' leading greater)]
    rfl

theorem compare_neg (x y : ℚ) : compare (-x) (-y) = (compare x y).swap := by
  rcases lt_trichotomy x y with less | rfl | greater
  · rw [compare_lt_iff_lt.mpr less, compare_gt_iff_gt.mpr (neg_lt_neg less)]
    rfl
  · rw [compare_eq_iff_eq.mpr rfl, compare_eq_iff_eq.mpr rfl]
    rfl
  · rw [compare_gt_iff_gt.mpr greater, compare_lt_iff_lt.mpr (neg_lt_neg greater)]
    rfl

theorem magnitude_pos (some : 0 < m) (e : Int) : (0 : ℚ) < m * 2 ^ e :=
  mul_pos (by exact_mod_cast some) (two_zpow_pos e)

theorem compare_finite (fu : u.isFinite = true) (fv : v.isFinite = true) (cu : Canonical u)
    (cv : Canonical v) : u.compare v = some (compare (value u) (value v)) := by
  obtain ⟨s, rfl⟩ | ⟨s, m, e, hm, rfl⟩ := finite_cases fu
  · obtain ⟨t, rfl⟩ | ⟨t, n, f, hn, rfl⟩ := finite_cases fv
    · exact congrArg some (compare_eq_iff_eq.mpr rfl).symm
    · have positive := magnitude_pos hn f
      cases t with
      | positive => exact congrArg some (compare_lt_iff_lt.mpr positive).symm
      | negative => exact congrArg some (compare_gt_iff_gt.mpr (neg_neg_of_pos positive)).symm
  · have positive := magnitude_pos hm e
    obtain ⟨t, rfl⟩ | ⟨t, n, f, hn, rfl⟩ := finite_cases fv
    · cases s with
      | positive => exact congrArg some (compare_gt_iff_gt.mpr positive).symm
      | negative => exact congrArg some (compare_lt_iff_lt.mpr (neg_neg_of_pos positive)).symm
    · have positive' := magnitude_pos hn f
      have magnitudes := compare_magnitudes cu cv
      cases s with
      | positive =>
        cases t with
        | positive => exact congrArg some magnitudes
        | negative =>
          refine congrArg some (compare_gt_iff_gt.mpr ?_).symm
          exact (neg_neg_of_pos positive').trans positive
      | negative =>
        cases t with
        | positive =>
          refine congrArg some (compare_lt_iff_lt.mpr ?_).symm
          exact (neg_neg_of_pos positive).trans positive'
        | negative =>
          exact congrArg some ((congrArg Ordering.swap magnitudes).trans (compare_neg _ _).symm)

theorem le_finite (fu : u.isFinite = true) (fv : v.isFinite = true) (cu : Canonical u)
    (cv : Canonical v) : u.le v = true ↔ value u ≤ value v := by
  rw [UnpackedFloat.le, compare_finite fu fv cu cv, ← compare_le_iff_le]
  cases compare (value u) (value v) <;> decide

theorem lt_finite (fu : u.isFinite = true) (fv : v.isFinite = true) (cu : Canonical u)
    (cv : Canonical v) : u.lt v = true ↔ value u < value v := by
  rw [UnpackedFloat.lt, compare_finite fu fv cu cv, ← compare_lt_iff_lt]
  cases compare (value u) (value v) <;> decide

theorem implicit_digit (b : BitVec 52) : (1#1 ++ b).toNat = 2 ^ 52 + b.toNat := by
  rw [BitVec.toNat_append, ← Nat.shiftLeft_add_eq_or_of_lt b.isLt]
  rfl

theorem unpack_canonical (b : BitVec Format.binary64.numBits) :
    Canonical (UnpackedFloat.unpack Format.binary64 b) ∧
      Fits (UnpackedFloat.unpack Format.binary64 b) := by
  have mantissa : (@unpackMantissa Format.binary64 b).toNat < 2 ^ 52 :=
    (@unpackMantissa Format.binary64 b).isLt
  have exponent : (@unpackExponent Format.binary64 b).toNat < 2 ^ 11 :=
    (@unpackExponent Format.binary64 b).isLt
  have bias : (Format.binary64.exponentBias : Int) + Format.binary64.mantissaBitsWithoutImplicit =
      1075 := rfl
  simp only [UnpackedFloat.unpack, bias]
  split
  · split <;> exact ⟨trivial, trivial⟩
  · next inner =>
    have inner' : (@unpackExponent Format.binary64 b).toNat ≠ 2047 :=
      fun same => inner (BitVec.eq_of_toNat_eq same)
    split
    · next least =>
      split
      · exact ⟨trivial, trivial⟩
      · rw [least]
        refine ⟨⟨by omega, by decide, .inl rfl⟩, ?_⟩
        change ((0#11).toNat : Int) - 1075 + 1 ≤ 971
        decide
    · next normal =>
      have normal' : (@unpackExponent Format.binary64 b).toNat ≠ 0 :=
        fun same => normal (BitVec.eq_of_toNat_eq same)
      refine ⟨⟨?_, ?_, .inr ?_⟩, ?_⟩
      · rw [implicit_digit]
        omega
      · omega
      · rw [implicit_digit]
        omega
      · change ((@unpackExponent Format.binary64 b).toNat : Int) - 1075 ≤ 971
        omega

theorem unpack_components (s : Sign) (e : BitVec 11) (m : BitVec 52) :
    UnpackedFloat.unpack Format.binary64 (packComponents Format.binary64 s e m) =
      if e = -1#11 then if m = 0#52 then .infinity s else .notANumber
      else if e = 0#11 then
        if h : m = 0#52 then .zero s
        else .finite s m.toNat (-1074) (by simpa [BitVec.toNat_pos, BitVec.pos_iff_ne_zero])
      else .finite s (1#1 ++ m).toNat (e.toNat - 1075) (by rw [implicit_digit]; omega) := by
  simp only [UnpackedFloat.unpack, unpackExponent_packComponents, unpackMantissa_packComponents,
    unpackSign_packComponents, Sign.ofBitVec_toBitVec]
  split
  · rfl
  · split
    · next zero =>
      subst zero
      rfl
    · rfl

theorem unpack_normal (s : Sign) {k : Nat} (first : 2 ^ 52 ≤ m) (last : m < 2 ^ 53) (low : 0 < k)
    (high : k < 2047) :
    UnpackedFloat.unpack Format.binary64
        (packComponents Format.binary64 s (BitVec.ofNat 11 k) (BitVec.ofNat 52 m)) =
      .finite s m (k - 1075) (by omega) := by
  have exponent : (BitVec.ofNat 11 k).toNat = k := by
    rw [BitVec.toNat_ofNat, Nat.mod_eq_of_lt (by omega)]
  have inner : BitVec.ofNat 11 k ≠ -1#11 := by
    intro same
    rw [same] at exponent
    change 2047 = k at exponent
    omega
  have some : BitVec.ofNat 11 k ≠ 0#11 := by
    intro same
    rw [same] at exponent
    change 0 = k at exponent
    omega
  have mantissa : (1#1 ++ BitVec.ofNat 52 m).toNat = m := by
    rw [implicit_digit, BitVec.toNat_ofNat]
    omega
  rw [unpack_components, if_neg inner, if_neg some]
  simp only [mantissa, exponent]

theorem unpack_least (s : Sign) (some : 0 < m) (last : m < 2 ^ 52) :
    UnpackedFloat.unpack Format.binary64
        (packComponents Format.binary64 s 0#11 (BitVec.ofNat 52 m)) = .finite s m (-1074) some := by
  have mantissa : (BitVec.ofNat 52 m).toNat = m := by
    rw [BitVec.toNat_ofNat, Nat.mod_eq_of_lt last]
  have some' : BitVec.ofNat 52 m ≠ 0#52 := by
    intro same
    rw [same] at mantissa
    exact some.ne mantissa
  rw [unpack_components, if_neg (by decide), if_pos rfl, dif_neg some']
  simp only [mantissa]

theorem unpack_pack (cu : Canonical u) (fits : Fits u) :
    UnpackedFloat.unpack Format.binary64 (UnpackedFloat.pack Format.binary64 u) = u := by
  cases u with
  | notANumber => exact unpack_packedNaN
  | infinity s => exact unpack_components s _ _
  | zero s => exact unpack_components s _ _
  | finite s m e hm =>
    obtain ⟨small, low, leading⟩ := cu
    have high : e ≤ 971 := fits
    have bias : (Format.binary64.exponentBias : Int) = 1023 := rfl
    have fraction : (Format.binary64.mantissaBitsWithoutImplicit : Int) = 52 := rfl
    simp only [UnpackedFloat.pack, bias, fraction]
    rw [if_neg (show ¬ 2 ^ 11 ≤ (e + 1023 + 52).toNat + 1 by omega)]
    by_cases normal : 2 ^ 52 ≤ m
    · have digits : m.log2 + 1 = Format.binary64.mantissaBits := by
        rw [(Nat.log2_eq_iff (by omega)).mpr ⟨normal, small⟩]
        rfl
      have unpacked := unpack_normal s normal small (k := (e + 1023 + 52).toNat) (by omega) (by omega)
      rw [if_pos digits]
      refine unpacked.trans ?_
      congr 1
      omega
    · obtain rfl : e = -1074 := leading.resolve_right normal
      have digits : m.log2 + 1 ≠ Format.binary64.mantissaBits := by
        have : m.log2 < 52 := (Nat.log2_lt (by omega)).mpr (by omega)
        change _ ≠ 53
        omega
      rw [if_neg digits]
      exact unpack_least s hm (Nat.lt_of_not_le normal)

theorem unpack_pack_large {hm : 0 < m} (high : 972 ≤ e) (s : Sign) :
    UnpackedFloat.unpack Format.binary64 (UnpackedFloat.pack Format.binary64 (.finite s m e hm)) =
      .infinity s := by
  have bias : (Format.binary64.exponentBias : Int) = 1023 := rfl
  have fraction : (Format.binary64.mantissaBitsWithoutImplicit : Int) = 52 := rfl
  simp only [UnpackedFloat.pack, bias, fraction]
  rw [if_pos (show 2 ^ 11 ≤ (e + 1023 + 52).toNat + 1 by omega)]
  exact unpack_components s _ _

end TurtlePlayback.Binary64
