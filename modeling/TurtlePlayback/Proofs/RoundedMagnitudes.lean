import Mathlib.Algebra.Order.Field.Power
import Mathlib.Algebra.Order.Ring.Rat
import Mathlib.Tactic.FieldSimp
import Mathlib.Tactic.Linarith
import Mathlib.Tactic.Positivity
import Mathlib.Tactic.Ring

/-!
Rounding to a double. However a number is rounded, no double lies strictly between it and what it is
rounded to; nothing else about rounding is used, neither which of two neighbours is taken nor how
far away it is.
-/

namespace TurtlePlayback.Binary64

open Float.Model Float.Model.UnpackedFloat

/-- Numbers with a mantissa and an exponent of doubles, however large. -/
def Representable (y : ℚ) : Prop :=
  ∃ (k q : ℤ), |k| ≤ 2 ^ 53 ∧ -1074 ≤ q ∧ y = k * 2 ^ q

/-- No representable number lies strictly between the two. -/
def Nearby (x v : ℚ) : Prop :=
  ∀ y, Representable y → (y ≤ x → y ≤ v) ∧ (x ≤ y → v ≤ y)

variable {m k : Nat} {e : Int} {a : Accuracy} {x y v : ℚ}

theorem Representable.neg (representable : Representable y) : Representable (-y) := by
  obtain ⟨k, q, size, low, rfl⟩ := representable
  exact ⟨-k, q, by rwa [abs_neg], low, by push_cast; ring⟩

theorem Nearby.refl (x : ℚ) : Nearby x x :=
  fun _ _ => ⟨id, id⟩

theorem Nearby.neg (nearby : Nearby x v) : Nearby (-x) (-v) := by
  intro y representable
  obtain ⟨below, above⟩ := nearby (-y) representable.neg
  constructor
  · intro le
    have := above (by linarith)
    linarith
  · intro ge
    have := below (by linarith)
    linarith

def Approximates (m : Nat) : Accuracy → ℚ → Prop
  | .exact, x => x = m
  | .inexact _, x => m < x ∧ x < m + 1

/-- The residual bits are set where a number is not the mantissa. -/
def Holds (em : ExtendedMantissa) (x : ℚ) : Prop :=
  if em.roundBit || em.stickyBit then (em.mantissa : ℚ) < x ∧ x < em.mantissa + 1
  else x = em.mantissa

theorem holds_of_approximates (approximates : Approximates m a x) :
    Holds (ExtendedMantissa.ofMantissaAndAccuracy m a) x := by
  cases a with
  | exact => exact approximates
  | inexact o => cases o <;> exact approximates

theorem Holds.shiftRightOne {em : ExtendedMantissa} (holds : Holds em x) :
    Holds em.shiftRightOne (x / 2) := by
  obtain ⟨m, r, s⟩ := em
  have parts : ((m % 2 : Nat) : ℚ) + 2 * ((m / 2 : Nat) : ℚ) = m := by
    exact_mod_cast Nat.mod_add_div m 2
  rcases Nat.mod_two_eq_zero_or_one m with even | odd
  · rw [even, Nat.cast_zero] at parts
    simp only [Holds, ExtendedMantissa.shiftRightOne, even] at holds ⊢
    by_cases bits : (r || s)
    · simp only [bits, if_true] at holds
      simp only [bits, bne_self_eq_false, Bool.false_or, if_true]
      constructor <;> linarith [holds.1, holds.2]
    · simp only [bits] at holds
      simp only [bits, bne_self_eq_false, Bool.false_or]
      simp only [Bool.false_eq_true, if_false] at holds ⊢
      linarith
  · rw [odd, Nat.cast_one] at parts
    simp only [Holds, ExtendedMantissa.shiftRightOne, odd] at holds ⊢
    have behind : (m : ℚ) ≤ x ∧ x < m + 1 := by
      split at holds
      · exact ⟨holds.1.le, holds.2⟩
      · constructor <;> linarith
    simp only [show ((1 : Nat) != 0) = true from rfl, Bool.true_or, if_true]
    constructor <;> linarith [behind.1, behind.2]

theorem Holds.shiftRight {em : ExtendedMantissa} (holds : Holds em x) (n : Nat) :
    Holds (em >>> n) (x / 2 ^ n) := by
  induction n with
  | zero =>
    rw [pow_zero, div_one]
    exact holds
  | succ n ih =>
    have same : x / 2 ^ (n + 1) = x / 2 ^ n / 2 := by
      rw [pow_succ, div_mul_eq_div_div]
    rw [same]
    exact ih.shiftRightOne

theorem Holds.rounded {em : ExtendedMantissa} (holds : Holds em x) (j : Nat) :
    (j ≤ x → j ≤ em.roundedMantissa) ∧ (x ≤ j → em.roundedMantissa ≤ j) := by
  obtain ⟨m, r, s⟩ := em
  by_cases bits : (r || s)
  · simp only [Holds, bits, if_true] at holds
    have near : m ≤ ExtendedMantissa.roundedMantissa ⟨m, r, s⟩ ∧
        ExtendedMantissa.roundedMantissa ⟨m, r, s⟩ ≤ m + 1 := by
      cases r <;> cases s <;>
        simp only [ExtendedMantissa.roundedMantissa, ExtendedMantissa.accuracy,
          Accuracy.roundToNearestEven] <;> omega
    constructor
    · intro le
      have : (j : ℚ) < m + 1 := lt_of_le_of_lt le holds.2
      have : j < m + 1 := by exact_mod_cast this
      omega
    · intro ge
      have : (m : ℚ) < j := lt_of_lt_of_le holds.1 ge
      have : m < j := by exact_mod_cast this
      omega
  · obtain ⟨rfl, rfl⟩ : r = false ∧ s = false := by simpa using bits
    have same : x = m := holds
    have rounded : ExtendedMantissa.roundedMantissa ⟨m, false, false⟩ = m := rfl
    rw [same, rounded]
    exact ⟨fun le => by exact_mod_cast le, fun ge => by exact_mod_cast ge⟩

theorem targetExponent_eq (m : Nat) (e : Int) :
    Format.binary64.targetExponent (totalExponent m e) = max ((m.log2 : Int) + e - 52) (-1074) := by
  have digits : (Format.binary64.mantissaBits : Int) = 53 := rfl
  have least : Format.binary64.minExponent = -1074 := rfl
  simp only [Format.targetExponent, totalExponent, digits, least]
  omega

/-- There are digits enough in front of the place where the number is rounded. -/
def Deep (m : Nat) (e : Int) : Prop :=
  52 ≤ m.log2 ∨ e ≤ -1074

theorem Deep.le (deep : Deep m e) :
    e ≤ Format.binary64.targetExponent (totalExponent m e) := by
  rw [targetExponent_eq]
  unfold Deep at deep
  omega

theorem two_zpow_pos (e : Int) : (0 : ℚ) < 2 ^ e :=
  zpow_pos (by norm_num) e

theorem two_zpow_add (e f : Int) : (2 : ℚ) ^ (e + f) = 2 ^ e * 2 ^ f :=
  zpow_add₀ (by norm_num) e f

theorem two_zpow_le {e f : Int} (h : e ≤ f) : (2 : ℚ) ^ e ≤ 2 ^ f :=
  zpow_le_zpow_right₀ (by norm_num) h

/-- What the first shift makes of a number, at the exponent `t` at which it is rounded. -/
structure Shifted (x : ℚ) (em : ExtendedMantissa) (t : Int) : Prop where
  holds : Holds em (x / 2 ^ t)
  least : -1074 ≤ t
  small : x ≤ 2 ^ (53 + t)
  leading : t = -1074 ∨ 2 ^ (52 + t) ≤ x

theorem Approximates.bounds (approximates : Approximates m a x) : (m : ℚ) ≤ x ∧ x ≤ m + 1 := by
  cases a with
  | exact =>
    have same : x = m := approximates
    constructor <;> linarith
  | inexact o => exact ⟨approximates.1.le, approximates.2.le⟩

theorem shifted (deep : Deep m e) (approximates : Approximates m a x) :
    Shifted (x * 2 ^ e) (shiftToTargetExponent Format.binary64 m e a).1
      (shiftToTargetExponent Format.binary64 m e a).2 := by
  have le := deep.le
  have target := targetExponent_eq m e
  simp only [shiftToTargetExponent, shiftToExponent]
  rw [target] at le ⊢
  generalize exponent : max ((m.log2 : Int) + e - 52) (-1074) = t at le ⊢
  have there : e + ((t - e).toNat : Int) = t := by omega
  rw [there]
  have bounds := approximates.bounds
  have last : (m : ℚ) + 1 ≤ 2 ^ (m.log2 + 1) := by exact_mod_cast Nat.lt_log2_self (n := m)
  constructor
  · have shifts := (holds_of_approximates approximates).shiftRight (t - e).toNat
    have same : x / 2 ^ (t - e).toNat = x * 2 ^ e / 2 ^ t := by
      rw [← zpow_natCast, Int.toNat_of_nonneg (by omega), zpow_sub₀ (by norm_num)]
      field_simp
    rwa [← same]
  · omega
  · calc
      x * 2 ^ e ≤ 2 ^ (m.log2 + 1) * 2 ^ e :=
        mul_le_mul_of_nonneg_right (by linarith) (two_zpow_pos e).le
      _ = 2 ^ ((m.log2 : Int) + 1 + e) := by rw [two_zpow_add _ e]; norm_cast
      _ ≤ 2 ^ (53 + t) := two_zpow_le (by omega)
  · by_cases least : t = -1074
    · exact .inl least
    · refine .inr ?_
      have some : m ≠ 0 := by
        rintro rfl
        rcases deep with digits | low
        · exact absurd digits (by decide)
        · simp only [Nat.log2_zero] at exponent
          omega
      have first : (2 : ℚ) ^ m.log2 ≤ m := by exact_mod_cast Nat.log2_self_le some
      calc
        (2 : ℚ) ^ (52 + t) = 2 ^ ((m.log2 : Int) + e) := by congr 1; omega
        _ = 2 ^ m.log2 * 2 ^ e := by rw [two_zpow_add, zpow_natCast]
        _ ≤ x * 2 ^ e := mul_le_mul_of_nonneg_right (by linarith) (two_zpow_pos e).le

namespace Shifted

variable {em : ExtendedMantissa} {t : Int} (s : Shifted x em t)

include s

theorem le_rounded {j : Nat} (below : (j : ℚ) * 2 ^ t ≤ x) : j ≤ em.roundedMantissa :=
  (s.holds.rounded j).1 ((le_div_iff₀ (two_zpow_pos t)).mpr below)

theorem rounded_le {j : Nat} (above : x ≤ (j : ℚ) * 2 ^ t) : em.roundedMantissa ≤ j :=
  (s.holds.rounded j).2 ((div_le_iff₀ (two_zpow_pos t)).mpr above)

theorem rounded_small : em.roundedMantissa ≤ 2 ^ 53 := by
  apply s.rounded_le
  have small := s.small
  rw [two_zpow_add] at small
  exact_mod_cast small

theorem rounded_leading : t = -1074 ∨ 2 ^ 52 ≤ em.roundedMantissa := by
  refine s.leading.imp_right fun leading => s.le_rounded ?_
  rw [two_zpow_add] at leading
  exact_mod_cast leading

theorem grid (representable : Representable y) (natural : 0 ≤ y) :
    (∃ j : Nat, y = j * 2 ^ t) ∨ y ≤ 2 ^ (52 + t) ∧ 2 ^ (52 + t) ≤ x := by
  obtain ⟨k, q, size, low, rfl⟩ := representable
  have signs : 0 ≤ k := by
    by_contra negative
    have : (k : ℚ) < 0 := by exact_mod_cast not_le.mp negative
    have := mul_neg_of_neg_of_pos this (two_zpow_pos q)
    linarith
  lift k to ℕ using signs
  by_cases deep : t ≤ q
  · refine .inl ⟨k * 2 ^ (q - t).toNat, ?_⟩
    have split : q = (q - t).toNat + t := by omega
    conv_lhs => rw [split, two_zpow_add, zpow_natCast]
    push_cast
    ring
  · refine .inr ⟨?_, s.leading.resolve_left (by omega)⟩
    have size' : ((k : Int) : ℚ) ≤ 2 ^ (53 : Int) := by exact_mod_cast (abs_le.mp size).2
    calc
      ((k : Int) : ℚ) * 2 ^ q ≤ 2 ^ (53 : Int) * 2 ^ q :=
        mul_le_mul_of_nonneg_right size' (two_zpow_pos q).le
      _ = 2 ^ (53 + q) := (two_zpow_add _ _).symm
      _ ≤ 2 ^ (52 + t) := two_zpow_le (by omega)

theorem nearby : Nearby x (em.roundedMantissa * 2 ^ t) := by
  have positive := two_zpow_pos t
  have leading : (2 : ℚ) ^ (52 + t) = ((2 ^ 52 : Nat) : ℚ) * 2 ^ t := by
    rw [two_zpow_add]
    norm_cast
  have natural : 0 ≤ x := by
    have holds := s.holds
    have mantissa : (0 : ℚ) ≤ em.mantissa := Nat.cast_nonneg _
    have : 0 ≤ x / 2 ^ t := by
      unfold Holds at holds
      split at holds
      · linarith [holds.1]
      · linarith
    exact (div_nonneg_iff.mp this).elim And.left fun ⟨_, other⟩ => absurd positive (by linarith)
  have rounded : (0 : ℚ) ≤ em.roundedMantissa * 2 ^ t := by positivity
  intro y representable
  by_cases sign : 0 ≤ y
  · rcases s.grid representable sign with ⟨j, rfl⟩ | ⟨small, large⟩
    · constructor
      · intro below
        have : (j : ℚ) ≤ em.roundedMantissa := by exact_mod_cast s.le_rounded below
        exact mul_le_mul_of_nonneg_right this positive.le
      · intro above
        have : (em.roundedMantissa : ℚ) ≤ j := by exact_mod_cast s.rounded_le above
        exact mul_le_mul_of_nonneg_right this positive.le
    · rw [leading] at small large
      constructor
      · intro _
        have : ((2 ^ 52 : Nat) : ℚ) ≤ em.roundedMantissa := by exact_mod_cast s.le_rounded large
        have := mul_le_mul_of_nonneg_right this positive.le
        linarith
      · intro above
        have : (em.roundedMantissa : ℚ) ≤ (2 ^ 52 : Nat) := by
          exact_mod_cast s.rounded_le (j := 2 ^ 52) (by linarith)
        have := mul_le_mul_of_nonneg_right this positive.le
        linarith
  · constructor
    · intro _
      linarith
    · intro above
      linarith

end Shifted

end TurtlePlayback.Binary64
