import TurtlePlayback.Proofs.RoundedMagnitudes

namespace TurtlePlayback.Binary64

open Float.Model Float.Model.UnpackedFloat

def signed : Sign → ℚ → ℚ
  | .positive, x => x
  | .negative, x => -x

def value : UnpackedFloat → ℚ
  | .finite s m e _ => signed s (m * 2 ^ e)
  | _ => 0

def Canonical : UnpackedFloat → Prop
  | .finite _ m e _ => m < 2 ^ 53 ∧ -1074 ≤ e ∧ (e = -1074 ∨ 2 ^ 52 ≤ m)
  | _ => True

def Fits : UnpackedFloat → Prop
  | .finite _ _ e _ => e ≤ 971
  | _ => True

variable {s : Sign} {m : Nat} {e : Int} {a : Accuracy} {x y : ℚ} {u v : UnpackedFloat}

theorem finite_cases (finite : u.isFinite = true) :
    (∃ s, u = .zero s) ∨ ∃ s m e hm, u = .finite s m e hm := by
  cases u with
  | notANumber => cases finite
  | infinity s => cases finite
  | zero s => exact .inl ⟨s, rfl⟩
  | finite s m e hm => exact .inr ⟨s, m, e, hm, rfl⟩

@[simp]
theorem value_zero (s : Sign) : value (.zero s) = 0 :=
  rfl

theorem Nearby.signed {v : ℚ} (nearby : Nearby x v) (s : Sign) : Nearby (signed s x) (signed s v) := by
  cases s with
  | positive => exact nearby
  | negative => exact nearby.neg

theorem carry_none (small : m < 2 ^ 53) (low : -1074 ≤ e) :
    shiftToTargetExponent Format.binary64 m e .exact = (⟨m, false, false⟩, e) := by
  have digits : m.log2 ≤ 52 := by
    by_cases zero : m = 0
    · simp [zero]
    · have := (Nat.log2_lt zero).mpr small
      omega
  have none : (Format.binary64.targetExponent (totalExponent m e) - e).toNat = 0 := by
    rw [targetExponent_eq]
    omega
  simp only [shiftToTargetExponent, shiftToExponent, none]
  exact Prod.ext rfl (by simp)

theorem carry_one (low : -1074 ≤ e) :
    shiftToTargetExponent Format.binary64 (2 ^ 53) e .exact = (⟨2 ^ 52, false, false⟩, e + 1) := by
  have one : (Format.binary64.targetExponent (totalExponent (2 ^ 53) e) - e).toNat = 1 := by
    rw [targetExponent_eq, Nat.log2_two_pow]
    omega
  simp only [shiftToTargetExponent, shiftToExponent, one]
  exact Prod.ext rfl (by simp)

def carried (s : Sign) (r : Nat) (t : Int) : UnpackedFloat :=
  if zero : r = 0 then .zero s
  else if r < 2 ^ 53 then .finite s r t (Nat.pos_of_ne_zero zero)
  else .finite s (2 ^ 52) (t + 1) (by decide)

theorem roundWithAccuracy_eq (deep : Deep m e) (approximates : Approximates m a x) (s : Sign) :
    ∃ em t, Shifted (x * 2 ^ e) em t ∧
      roundWithAccuracy Format.binary64 s m e a = carried s em.roundedMantissa t := by
  have shifted := shifted deep approximates
  rw [roundWithAccuracy]
  generalize shiftToTargetExponent Format.binary64 m e a = first at shifted ⊢
  obtain ⟨em, t⟩ := first
  refine ⟨em, t, shifted, ?_⟩
  rcases shifted.rounded_small.lt_or_eq with small | large
  · dsimp only at small ⊢
    rw [carry_none small shifted.least, carried]
    exact dite_congr rfl (fun _ => rfl) fun _ => (if_pos small).symm
  · dsimp only at large ⊢
    rw [large, carry_one shifted.least]
    rfl

theorem Shifted.carried {em : ExtendedMantissa} {t : Int} (shifted : Shifted x em t) (s : Sign) :
    (carried s em.roundedMantissa t).isFinite = true ∧ Canonical (carried s em.roundedMantissa t) ∧
      Nearby (signed s x) (value (carried s em.roundedMantissa t)) := by
  have nearby := shifted.nearby.signed s
  have low := shifted.least
  by_cases zero : em.roundedMantissa = 0
  · rw [Binary64.carried, dif_pos zero]
    refine ⟨rfl, trivial, ?_⟩
    rw [zero] at nearby
    cases s <;> simpa [Binary64.signed] using nearby
  · rw [Binary64.carried, dif_neg zero]
    rcases shifted.rounded_small.lt_or_eq with small | top
    · rw [if_pos small]
      exact ⟨rfl, ⟨small, low, shifted.rounded_leading⟩, nearby⟩
    · rw [if_neg top.not_lt]
      refine ⟨rfl, ⟨by decide, by omega, .inr (Nat.le_refl _)⟩, ?_⟩
      rw [top] at nearby
      have same : ((2 ^ 53 : Nat) : ℚ) * 2 ^ t = ((2 ^ 52 : Nat) : ℚ) * 2 ^ (t + 1) := by
        rw [two_zpow_add]
        push_cast
        ring
      rwa [same] at nearby

structure Rounded (x : ℚ) (u : UnpackedFloat) : Prop where
  finite : u.isFinite = true
  canonical : Canonical u
  nearby : Nearby x (value u)

theorem rounded_roundWithAccuracy (deep : Deep m e) (approximates : Approximates m a x) (s : Sign) :
    Rounded (signed s (x * 2 ^ e)) (roundWithAccuracy Format.binary64 s m e a) := by
  obtain ⟨em, t, shifted, same⟩ := roundWithAccuracy_eq deep approximates s
  obtain ⟨finite, canonical, nearby⟩ := shifted.carried s
  exact same ▸ ⟨finite, canonical, nearby⟩

theorem rounded_self (finite : u.isFinite = true) (canonical : Canonical u) : Rounded (value u) u :=
  ⟨finite, canonical, .refl _⟩

theorem decreaseExponent_value (m : Nat) (e t : Int) :
    ((decreaseExponent m e t).1 : ℚ) * 2 ^ (decreaseExponent m e t).2 = m * 2 ^ e := by
  simp only [decreaseExponent, Nat.shiftLeft_eq]
  push_cast
  rw [← zpow_natCast, mul_assoc, ← two_zpow_add, add_sub_cancel]

theorem log2_shiftLeft {k : Nat} (some : m ≠ 0) : (m <<< k).log2 = m.log2 + k := by
  rw [Nat.shiftLeft_eq, Nat.log2_eq_iff (by positivity)]
  have first := Nat.log2_self_le some
  have last := Nat.lt_log2_self (n := m)
  constructor
  · rw [pow_add]
    exact Nat.mul_le_mul_right _ first
  · rw [show m.log2 + k + 1 = m.log2 + 1 + k by omega, pow_add]
    exact Nat.mul_lt_mul_of_pos_right last (Nat.two_pow_pos k)

theorem rounded_round (some : m ≠ 0) (s : Sign) (e : Int) :
    Rounded (signed s (m * 2 ^ e)) (UnpackedFloat.round Format.binary64 s m e) := by
  have target := targetExponent_eq m e
  simp only [UnpackedFloat.round]
  generalize Format.binary64.targetExponent (totalExponent m e) = t at target
  have deep : Deep (decreaseExponent m e t).1 (decreaseExponent m e t).2 := by
    simp only [Deep, decreaseExponent, log2_shiftLeft some]
    omega
  have same := decreaseExponent_value m e t
  rw [← same]
  exact rounded_roundWithAccuracy deep (show Approximates _ .exact _ from rfl) s

theorem rounded_normalize (m e : Int) :
    Rounded (m * 2 ^ e) (UnpackedFloat.normalize Format.binary64 m e .positive) := by
  rw [UnpackedFloat.normalize]
  split
  · next below =>
    have negative := Int.compare_eq_lt.mp below
    have rounded := rounded_round (m := (-m).toNat) (by omega) .negative e
    have same : (((-m).toNat : Nat) : ℚ) = -m := by
      exact_mod_cast Int.toNat_of_nonneg (by omega : 0 ≤ -m)
    simpa [signed, same] using rounded
  · next equal =>
    obtain rfl := Int.compare_eq_eq.mp equal
    refine ⟨rfl, trivial, ?_⟩
    simpa using Nearby.refl 0
  · next above =>
    have positive := Int.compare_eq_gt.mp above
    have rounded := rounded_round (m := m.toNat) (by omega) .positive e
    have same : ((m.toNat : Nat) : ℚ) = m := by
      exact_mod_cast Int.toNat_of_nonneg (by omega : 0 ≤ m)
    simpa [signed, same] using rounded

end TurtlePlayback.Binary64
