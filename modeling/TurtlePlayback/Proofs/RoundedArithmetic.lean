import TurtlePlayback.Proofs.PackedDoubles

namespace TurtlePlayback.Binary64

open Float.Model Float.Model.UnpackedFloat

def number (x : Float) : ℚ :=
  value x.toModel.unpack

/-- A double that an exact result is rounded to, or an infinite one behind all doubles. -/
structure Rounds (q : ℚ) (z : Float) : Prop where
  isNumber : z.isNaN = false
  le_of : ∀ w : Float, w.isFinite = true → q ≤ number w → z ≤ w
  of_le : ∀ w : Float, w.isFinite = true → number w ≤ q → w ≤ z

variable {x y z w : Float} {q r : ℚ} {u : UnpackedFloat} {s t : Sign} {m : Nat} {e : Int}

theorem float_canonical (x : Float) : Canonical x.toModel.unpack ∧ Fits x.toModel.unpack :=
  unpack_canonical _

theorem le_iff (fx : x.isFinite = true) (fy : y.isFinite = true) : x ≤ y ↔ number x ≤ number y :=
  decide_eq_true_iff.trans (le_finite fx fy (float_canonical x).1 (float_canonical y).1)

theorem lt_iff (fx : x.isFinite = true) (fy : y.isFinite = true) : x < y ↔ number x < number y :=
  decide_eq_true_iff.trans (lt_finite fx fy (float_canonical x).1 (float_canonical y).1)

theorem not_nan_of_finite (fx : x.isFinite = true) : x.isNaN = false := by
  change x.toModel.unpack.isNaN = false
  obtain ⟨s, unpacked⟩ | ⟨s, m, e, hm, unpacked⟩ := finite_cases (u := x.toModel.unpack) fx
  · rw [unpacked]
    rfl
  · rw [unpacked]
    rfl

theorem representable_value (finite : u.isFinite = true) (canonical : Canonical u) :
    Representable (value u) := by
  obtain ⟨s, rfl⟩ | ⟨s, m, e, hm, rfl⟩ := finite_cases finite
  · exact ⟨0, 0, by simp, by decide, by simp⟩
  · obtain ⟨small, low, -⟩ := canonical
    have positive : Representable ((m : ℚ) * 2 ^ e) :=
      ⟨m, e, by rw [Nat.abs_cast]; exact_mod_cast small.le, low, by push_cast; rfl⟩
    cases s with
    | positive => exact positive
    | negative => exact positive.neg

theorem representable_number (fx : x.isFinite = true) : Representable (number x) :=
  representable_value fx (float_canonical x).1

theorem value_lt (canonical : Canonical u) (fits : Fits u) :
    -(2 : ℚ) ^ (1024 : Int) < value u ∧ value u < 2 ^ (1024 : Int) := by
  have positive := two_zpow_pos 1024
  cases u with
  | finite s m e hm =>
    have small : (m : ℚ) < 2 ^ (53 : Int) := by exact_mod_cast canonical.1
    have high : e ≤ 971 := fits
    have size : (m : ℚ) * 2 ^ e < 2 ^ (1024 : Int) :=
      calc
        (m : ℚ) * 2 ^ e < 2 ^ (53 : Int) * 2 ^ e := mul_lt_mul_of_pos_right small (two_zpow_pos e)
        _ = 2 ^ (53 + e) := (two_zpow_add _ _).symm
        _ ≤ 2 ^ (1024 : Int) := two_zpow_le (by omega)
    have some := magnitude_pos hm e
    generalize (2 : ℚ) ^ (1024 : Int) = bound at positive size ⊢
    cases s <;> simp only [value, signed] <;> constructor <;> linarith
  | _ => exact ⟨neg_neg_of_pos positive, positive⟩

theorem unpack_ofModel (u : UnpackedFloat) : (Float.ofModel (.pack u)).toModel.unpack =
    UnpackedFloat.unpack Format.binary64 (UnpackedFloat.pack Format.binary64 u) :=
  rfl

theorem rounds_of_finite (fz : z.isFinite = true) (nearby : Nearby q (number z)) : Rounds q z where
  isNumber := not_nan_of_finite fz
  le_of _ fw above := (le_iff fz fw).mpr ((nearby _ (representable_number fw)).2 above)
  of_le _ fw below := (le_iff fw fz).mpr ((nearby _ (representable_number fw)).1 below)

theorem infinity_le_finite (s : Sign) (fu : u.isFinite = true) :
    (UnpackedFloat.infinity s).le u = (s == .negative) := by
  obtain ⟨t, rfl⟩ | ⟨t, m, e, hm, rfl⟩ := finite_cases fu
  · cases s <;> rfl
  · cases s <;> cases t <;> rfl

theorem finite_le_infinity (s : Sign) (fu : u.isFinite = true) :
    u.le (.infinity s) = (s == .positive) := by
  obtain ⟨t, rfl⟩ | ⟨t, m, e, hm, rfl⟩ := finite_cases fu
  · cases s <;> rfl
  · cases s <;> cases t <;> rfl

theorem le_infinity (fw : w.isFinite = true) (infinite : z.toModel.unpack = .infinity .positive) :
    w ≤ z := by
  have le := finite_le_infinity .positive (show w.toModel.unpack.isFinite = true from fw)
  rw [← infinite] at le
  exact decide_eq_true_iff.mpr le

theorem infinity_le (fw : w.isFinite = true) (infinite : z.toModel.unpack = .infinity .negative) :
    z ≤ w := by
  have le := infinity_le_finite .negative (show w.toModel.unpack.isFinite = true from fw)
  rw [← infinite] at le
  exact decide_eq_true_iff.mpr le

theorem rounds_pack (rounded : Rounded q u) : Rounds q (.ofModel (.pack u)) := by
  obtain ⟨finite, canonical, nearby⟩ := rounded
  by_cases fits : Fits u
  · have same := (unpack_ofModel u).trans (unpack_pack canonical fits)
    refine rounds_of_finite ?_ ?_
    · change (Float.ofModel (.pack u)).toModel.unpack.isFinite = true
      rwa [same]
    · rwa [number, same]
  · cases u with
    | finite s m e hm =>
      have high : 972 ≤ e := Int.lt_of_not_ge fits
      have infinite := (unpack_ofModel (.finite s m e hm)).trans (unpack_pack_large high s)
      have digits : 2 ^ 52 ≤ m := canonical.2.2.resolve_left (by omega)
      have large : (2 : ℚ) ^ (1024 : Int) ≤ m * 2 ^ e :=
        calc
          (2 : ℚ) ^ (1024 : Int) ≤ 2 ^ (52 + e) := two_zpow_le (by omega)
          _ = 2 ^ (52 : Int) * 2 ^ e := two_zpow_add _ _
          _ ≤ m * 2 ^ e :=
            mul_le_mul_of_nonneg_right (by exact_mod_cast digits) (two_zpow_pos e).le
      have isNumber : (Float.ofModel (.pack (.finite s m e hm))).isNaN = false := by
        change (Float.ofModel (.pack (.finite s m e hm))).toModel.unpack.isNaN = false
        rw [infinite]
        rfl
      -- No finite double is on the other side, since none is as large as what was rounded.
      cases s with
      | positive =>
        refine ⟨isNumber, fun w fw above => ?_, fun w fw _ => le_infinity fw infinite⟩
        have bound := (value_lt (float_canonical w).1 (float_canonical w).2).2
        have crossed : (m : ℚ) * 2 ^ e ≤ number w := (nearby _ (representable_number fw)).2 above
        exact absurd (large.trans crossed) (not_le.mpr bound)
      | negative =>
        refine ⟨isNumber, fun w fw _ => infinity_le fw infinite, fun w fw below => ?_⟩
        have bound := (value_lt (float_canonical w).1 (float_canonical w).2).1
        have crossed : number w ≤ -((m : ℚ) * 2 ^ e) := (nearby _ (representable_number fw)).1 below
        have outside : number w ≤ -(2 : ℚ) ^ (1024 : Int) := by linarith
        exact absurd outside (not_le.mpr bound)
    | _ => exact absurd trivial fits

theorem finite_of_between (isNumber : z.isNaN = false) (fx : x.isFinite = true)
    (fy : y.isFinite = true) (low : x ≤ z) (high : z ≤ y) : z.isFinite = true := by
  have low' : x.toModel.unpack.le z.toModel.unpack = true := decide_eq_true_iff.mp low
  have high' : z.toModel.unpack.le y.toModel.unpack = true := decide_eq_true_iff.mp high
  change z.toModel.unpack.isNaN = false at isNumber
  change z.toModel.unpack.isFinite = true
  cases unpacked : z.toModel.unpack with
  | notANumber =>
    rw [unpacked] at isNumber
    cases isNumber
  | infinity s =>
    rw [unpacked, finite_le_infinity s fx] at low'
    rw [unpacked, infinity_le_finite s fy] at high'
    cases s with
    | positive => cases high'
    | negative => cases low'
  | zero s => rfl
  | finite s m e hm => rfl

theorem Rounds.between (rounds : Rounds q z) (fx : x.isFinite = true) (fy : y.isFinite = true)
    (low : number x ≤ q) (high : q ≤ number y) :
    z.isFinite = true ∧ number x ≤ number z ∧ number z ≤ number y := by
  have above := rounds.of_le x fx low
  have below := rounds.le_of y fy high
  have fz := finite_of_between rounds.isNumber fx fy above below
  exact ⟨fz, (le_iff fx fz).mp above, (le_iff fz fy).mp below⟩

theorem Rounds.exact (rounds : Rounds q z) (fx : x.isFinite = true) (same : number x = q) :
    z.isFinite = true ∧ number z = q := by
  obtain ⟨fz, low, high⟩ := rounds.between fx fx same.le same.ge
  rw [same] at low high
  exact ⟨fz, le_antisymm high low⟩

theorem value_neg (u : UnpackedFloat) : value u.neg = -value u := by
  cases u with
  | finite s m e hm =>
    cases s with
    | positive => rfl
    | negative => exact (neg_neg ((m : ℚ) * 2 ^ e)).symm
  | _ => exact neg_zero.symm

theorem value_abs (u : UnpackedFloat) : value u.abs = |value u| := by
  cases u with
  | finite s m e hm =>
    have positive := magnitude_pos hm e
    cases s with
    | positive => exact (abs_of_pos positive).symm
    | negative => exact ((abs_neg _).trans (abs_of_pos positive)).symm
  | _ => exact abs_zero.symm

theorem Canonical.neg (canonical : Canonical u) : Canonical u.neg := by
  cases u <;> exact canonical

theorem Canonical.abs (canonical : Canonical u) : Canonical u.abs := by
  cases u <;> exact canonical

theorem unpack_neg (x : Float) : (-x).toModel.unpack = x.toModel.unpack.neg := by
  obtain ⟨canonical, fits⟩ := float_canonical x
  refine (unpack_ofModel _).trans (unpack_pack canonical.neg ?_)
  cases unpacked : x.toModel.unpack <;> rw [unpacked] at fits <;> exact fits

theorem unpack_abs (x : Float) : x.abs.toModel.unpack = x.toModel.unpack.abs := by
  obtain ⟨canonical, fits⟩ := float_canonical x
  refine (unpack_ofModel _).trans (unpack_pack canonical.abs ?_)
  cases unpacked : x.toModel.unpack <;> rw [unpacked] at fits <;> exact fits

theorem neg_finite (fx : x.isFinite = true) :
    (-x).isFinite = true ∧ number (-x) = -number x := by
  change (-x).toModel.unpack.isFinite = true ∧ value (-x).toModel.unpack = _
  rw [unpack_neg]
  refine ⟨?_, value_neg _⟩
  obtain ⟨s, unpacked⟩ | ⟨s, m, e, hm, unpacked⟩ := finite_cases (u := x.toModel.unpack) fx
  · rw [unpacked]
    rfl
  · rw [unpacked]
    rfl

theorem abs_finite (fx : x.isFinite = true) :
    x.abs.isFinite = true ∧ number x.abs = |number x| := by
  change x.abs.toModel.unpack.isFinite = true ∧ value x.abs.toModel.unpack = _
  rw [unpack_abs]
  refine ⟨?_, value_abs _⟩
  obtain ⟨s, unpacked⟩ | ⟨s, m, e, hm, unpacked⟩ := finite_cases (u := x.toModel.unpack) fx
  · rw [unpacked]
    rfl
  · rw [unpacked]
    rfl

theorem signed_apply (s : Sign) (m : Nat) (e : Int) :
    ((s.apply m : Int) : ℚ) * 2 ^ e = signed s (m * 2 ^ e) := by
  cases s <;> simp [Sign.apply, signed]

theorem aligned (s : Sign) (m : Nat) {e t : Int} (le : t ≤ e) :
    ((s.apply (decreaseExponent m e t).1 : Int) : ℚ) * 2 ^ t = signed s (m * 2 ^ e) := by
  have same := decreaseExponent_value m e t
  have place : (decreaseExponent m e t).2 = t := by
    simp only [decreaseExponent]
    omega
  rw [place] at same
  rw [signed_apply, same]

theorem rounded_zero (s : Sign) : Rounded 0 (.zero s) :=
  ⟨rfl, trivial, .refl 0⟩

theorem rounded_add {a b : UnpackedFloat} (fa : a.isFinite = true) (fb : b.isFinite = true)
    (ca : Canonical a) (cb : Canonical b) :
    Rounded (value a + value b) (UnpackedFloat.add Format.binary64 a b) := by
  obtain ⟨s, rfl⟩ | ⟨s, m, e, hm, rfl⟩ := finite_cases fa
  · rw [value_zero, zero_add]
    obtain ⟨t, rfl⟩ | ⟨t, n, f, hn, rfl⟩ := finite_cases fb
    · cases s <;> cases t <;> exact rounded_zero _
    · exact rounded_self rfl cb
  · obtain ⟨t, rfl⟩ | ⟨t, n, f, hn, rfl⟩ := finite_cases fb
    · rw [value_zero, add_zero]
      exact rounded_self rfl ca
    · have sum := rounded_normalize (s.apply (decreaseExponent m e (min e f)).1 +
        t.apply (decreaseExponent n f (min e f)).1) (min e f)
      rw [Int.cast_add, add_mul, aligned s m (min_le_left e f), aligned t n (min_le_right e f)] at sum
      exact sum

theorem rounds_add (fx : x.isFinite = true) (fy : y.isFinite = true) :
    Rounds (number x + number y) (x + y) :=
  rounds_pack (rounded_add fx fy (float_canonical x).1 (float_canonical y).1)

theorem unpacked_sub (a b : UnpackedFloat) :
    UnpackedFloat.sub Format.binary64 a b = UnpackedFloat.add Format.binary64 a b.neg := by
  cases a with
  | finite s m e hm =>
    cases b with
    | finite t n f hn =>
      have opposite : ∀ k : Nat, (-t).apply k = -t.apply k := by
        intro k
        cases t with
        | positive => rfl
        | negative => exact (neg_neg (k : Int)).symm
      simp only [UnpackedFloat.sub, UnpackedFloat.add, UnpackedFloat.neg, opposite]
      rfl
    | _ => rfl
  | _ => cases b <;> rfl

theorem difference_eq (x y : Float) : x - y = x + -y := by
  change Float.ofModel (.pack (UnpackedFloat.sub Format.binary64 x.toModel.unpack y.toModel.unpack)) =
    .ofModel (.pack (UnpackedFloat.add Format.binary64 x.toModel.unpack (-y).toModel.unpack))
  rw [unpack_neg, unpacked_sub]

theorem rounds_sub (fx : x.isFinite = true) (fy : y.isFinite = true) :
    Rounds (number x - number y) (x - y) := by
  obtain ⟨fn, opposite⟩ := neg_finite fy
  rw [difference_eq, sub_eq_add_neg, ← opposite]
  exact rounds_add fx fn

theorem signed_mul (s t : Sign) (x y : ℚ) : signed (s * t) (x * y) = signed s x * signed t y := by
  cases s with
  | positive =>
    cases t with
    | positive => rfl
    | negative => exact (mul_neg x y).symm
  | negative =>
    cases t with
    | positive => exact (neg_mul x y).symm
    | negative => exact (neg_mul_neg x y).symm

theorem signed_div (s t : Sign) (x y : ℚ) : signed (s / t) (x / y) = signed s x / signed t y := by
  cases s with
  | positive =>
    cases t with
    | positive => rfl
    | negative => exact (div_neg x).symm
  | negative =>
    cases t with
    | positive => exact (neg_div y x).symm
    | negative => exact (neg_div_neg_eq x y).symm

theorem rounded_mul {a b : UnpackedFloat} (fa : a.isFinite = true) (fb : b.isFinite = true)
    (ca : Canonical a) (cb : Canonical b) :
    Rounded (value a * value b) (UnpackedFloat.mul Format.binary64 a b) := by
  obtain ⟨s, rfl⟩ | ⟨s, m, e, hm, rfl⟩ := finite_cases fa
  · rw [value_zero, zero_mul]
    obtain ⟨t, rfl⟩ | ⟨t, n, f, hn, rfl⟩ := finite_cases fb
    · exact rounded_zero _
    · exact rounded_zero _
  · obtain ⟨t, rfl⟩ | ⟨t, n, f, hn, rfl⟩ := finite_cases fb
    · rw [value_zero, mul_zero]
      exact rounded_zero _
    · obtain ⟨-, -, leading⟩ := ca
      obtain ⟨-, -, leading'⟩ := cb
      have deep : Deep (m * n) (e + f) := by
        have some : m * n ≠ 0 := (Nat.mul_pos hm hn).ne'
        by_cases digits : 2 ^ 52 ≤ m * n
        · exact .inl ((Nat.le_log2 some).mpr digits)
        · have left : m ≤ m * n := Nat.le_mul_of_pos_right m hn
          have right : n ≤ m * n := Nat.le_mul_of_pos_left n hm
          have least := leading.resolve_right (by omega)
          have least' := leading'.resolve_right (by omega)
          exact .inr (by omega)
      have product := rounded_roundWithAccuracy (x := (m : ℚ) * n) deep
        (show Approximates _ .exact _ from by simp [Approximates]) (s * t)
      have same : (m : ℚ) * n * 2 ^ (e + f) = m * 2 ^ e * (n * 2 ^ f) := by
        rw [two_zpow_add]
        ring
      rwa [same, signed_mul] at product

theorem approximates_quotient (n : Nat) {d : Nat} (some : 0 < d) :
    Approximates (n / d) (accuracyOfFraction (n % d) d) ((n : ℚ) / d) := by
  have positive : (0 : ℚ) < d := by exact_mod_cast some
  have parts : (d : ℚ) * (n / d : Nat) + (n % d : Nat) = n := by exact_mod_cast Nat.div_add_mod n d
  have bound : ((n % d : Nat) : ℚ) < d := by exact_mod_cast Nat.mod_lt n some
  have quotient : (n : ℚ) / d = (n / d : Nat) + ((n % d : Nat) : ℚ) / d := by
    rw [← parts]
    field_simp
  rw [accuracyOfFraction]
  split
  · next none =>
    rw [none, Nat.cast_zero, zero_div, add_zero] at quotient
    exact quotient
  · next rest =>
    have above : (0 : ℚ) < (n % d : Nat) := by exact_mod_cast Nat.pos_of_ne_zero rest
    have above' := div_pos above positive
    have below := (div_lt_one positive).mpr bound
    rw [quotient]
    constructor <;> linarith

theorem rounded_div {a b : UnpackedFloat} (fa : a.isFinite = true) (fb : b.isFinite = true)
    (ca : Canonical a) (other : value b ≠ 0) :
    Rounded (value a / value b) (UnpackedFloat.div Format.binary64 a b) := by
  obtain ⟨t, rfl⟩ | ⟨t, n, f, hn, rfl⟩ := finite_cases fb
  · exact absurd rfl other
  · obtain ⟨s, rfl⟩ | ⟨s, m, e, hm, rfl⟩ := finite_cases fa
    · rw [value_zero, zero_div]
      exact rounded_zero _
    · have target : Format.binary64.targetExponent (totalExponent m e - totalExponent n f) =
          max ((m.log2 : Int) + e - n.log2 - f - 53) (-1074) := by
        simp only [Format.targetExponent, totalExponent, Format.mantissaBits, Format.minExponent]
        norm_num
        omega
      simp only [UnpackedFloat.div, divCore, target]
      generalize place : min (e - f) (max ((m.log2 : Int) + e - n.log2 - f - 53) (-1074)) = p
      have deep : Deep (m <<< (e - f - p).toNat / n) p := by
        by_cases low : p ≤ -1074
        · exact .inr low
        · have shift : n.log2 + 53 ≤ m.log2 + (e - f - p).toNat := by omega
          have digits : 2 ^ 52 ≤ m <<< (e - f - p).toNat / n := by
            rw [Nat.le_div_iff_mul_le hn]
            calc
              2 ^ 52 * n ≤ 2 ^ 52 * 2 ^ (n.log2 + 1) :=
                Nat.mul_le_mul_left _ (Nat.lt_log2_self (n := n)).le
              _ = 2 ^ (n.log2 + 53) := by rw [← pow_add]; congr 1; omega
              _ ≤ 2 ^ (m <<< (e - f - p).toNat).log2 := by
                rw [log2_shiftLeft hm.ne']
                exact Nat.pow_le_pow_right (by decide) shift
              _ ≤ m <<< (e - f - p).toNat :=
                Nat.log2_self_le (by rw [Nat.shiftLeft_eq]; positivity)
          exact .inl ((Nat.le_log2 (by omega)).mpr digits)
      have quotient := rounded_roundWithAccuracy deep (approximates_quotient _ hn) (s / t)
      have same : ((m <<< (e - f - p).toNat : Nat) : ℚ) / n * 2 ^ p = m * 2 ^ e / (n * 2 ^ f) := by
        have split : e = ((e - f - p).toNat : Int) + p + f := by omega
        have some : (n : ℚ) ≠ 0 := by exact_mod_cast hn.ne'
        have scale := (two_zpow_pos f).ne'
        rw [Nat.shiftLeft_eq]
        push_cast
        conv_rhs => rw [split, two_zpow_add, two_zpow_add, zpow_natCast]
        field_simp
      rwa [same, signed_div] at quotient

theorem rounds_mul (fx : x.isFinite = true) (fy : y.isFinite = true) :
    Rounds (number x * number y) (x * y) :=
  rounds_pack (rounded_mul fx fy (float_canonical x).1 (float_canonical y).1)

theorem rounds_div (fx : x.isFinite = true) (fy : y.isFinite = true) (other : number y ≠ 0) :
    Rounds (number x / number y) (x / y) :=
  rounds_pack (rounded_div fx fy (float_canonical x).1 other)

end TurtlePlayback.Binary64
