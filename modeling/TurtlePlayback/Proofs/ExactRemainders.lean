import TurtlePlayback.Binary64.Remainder
import TurtlePlayback.Proofs.UnboundedDoubles

namespace TurtlePlayback.Binary64

open Float.Model Float.Model.UnpackedFloat

variable {x y : Float} {p : Parts}

theorem packComponents_toNat (s : Sign) (e : BitVec 11) (m : BitVec 52) :
    (packComponents Format.binary64 s e m).toNat =
      s.toBitVec.toNat <<< 63 + e.toNat <<< 52 + m.toNat := by
  have exponent := e.isLt
  have mantissa := m.isLt
  change (s.toBitVec ++ e ++ m).toNat = _
  rw [BitVec.toNat_append, BitVec.toNat_append, ← Nat.shiftLeft_add_eq_or_of_lt e.isLt,
    ← Nat.shiftLeft_add_eq_or_of_lt m.isLt]
  simp only [Nat.shiftLeft_eq]
  omega

theorem toBits_parts (x : Float) : ∃ (s : Sign) (e : BitVec 11) (m : BitVec 52),
    x.toBits.toNat = s.toBitVec.toNat <<< 63 + e.toNat <<< 52 + m.toNat ∧
      x.toModel.unpack =
        UnpackedFloat.unpack Format.binary64 (packComponents Format.binary64 s e m) := by
  have whole := @packComponents_unpackSign_unpackExponent_unpackMantissa Format.binary64
    x.toBits.toBitVec
  refine ⟨_, _, _, ?_, (congrArg (UnpackedFloat.unpack Format.binary64) whole).symm⟩
  rw [← packComponents_toNat, whole]
  rfl

def Parts.sign (p : Parts) : Sign :=
  if p.negative then .negative else .positive

def Parts.number (p : Parts) : ℚ :=
  signed p.sign (p.mantissa * 2 ^ p.exponent)

structure Parts.Valid (p : Parts) : Prop where
  small : p.mantissa < 2 ^ 53
  low : -1074 ≤ p.exponent
  high : p.exponent ≤ 971

theorem signBit_eq {s : Sign} {e : BitVec 11} {m : BitVec 52}
    (bits : x.toBits.toNat = s.toBitVec.toNat <<< 63 + e.toNat <<< 52 + m.toNat) :
    signBit x = (s == .negative) := by
  have exponent := e.isLt
  have mantissa := m.isLt
  have shifted : (x.toBits >>> 63).toNat = s.toBitVec.toNat := by
    rw [UInt64.toNat_shiftRight, bits]
    change _ >>> 63 = _
    rw [Nat.shiftRight_eq_div_pow]
    simp only [Nat.shiftLeft_eq]
    omega
  have same : (x.toBits >>> 63 == 1) = (s.toBitVec.toNat == 1) := by
    rw [← shifted, Bool.eq_iff_iff, beq_iff_eq, beq_iff_eq, ← UInt64.toNat_inj]
    rfl
  rw [signBit, same]
  cases s <;> rfl

theorem parts?_eq {s : Sign} {e : BitVec 11} {m : BitVec 52}
    (bits : x.toBits.toNat = s.toBitVec.toNat <<< 63 + e.toNat <<< 52 + m.toNat) :
    parts? x =
      if e.toNat = 2047 then none
      else if e.toNat = 0 then some ⟨s == .negative, m.toNat, -1074⟩
      else some ⟨s == .negative, 2 ^ 52 + m.toNat, e.toNat - 1075⟩ := by
  have exponent := e.isLt
  have mantissa := m.isLt
  have biased : x.toBits.toNat >>> 52 % (1 <<< 11) = e.toNat := by
    rw [bits, Nat.shiftRight_eq_div_pow]
    simp only [Nat.shiftLeft_eq]
    omega
  have fraction : x.toBits.toNat % (1 <<< 52) = m.toNat := by
    rw [bits]
    simp only [Nat.shiftLeft_eq]
    omega
  simp only [parts?]
  rw [biased, fraction, signBit_eq bits]
  rfl

theorem parts?_eq_none (unbounded : x.isFinite = false) : parts? x = none := by
  obtain ⟨s, e, m, bits, unpacked⟩ := toBits_parts x
  change x.toModel.unpack.isFinite = false at unbounded
  rw [unpacked, unpack_components] at unbounded
  rw [parts?_eq bits]
  split at unbounded
  · next inner =>
    rw [inner]
    rfl
  · split at unbounded
    · split at unbounded <;> cases unbounded
    · cases unbounded

theorem parts?_eq_some (fx : x.isFinite = true) :
    ∃ p, parts? x = some p ∧ p.Valid ∧ p.number = number x := by
  obtain ⟨s, e, m, bits, unpacked⟩ := toBits_parts x
  have exponent := e.isLt
  have mantissa := m.isLt
  have sign : (if (s == .negative) = true then Sign.negative else .positive) = s := by
    cases s <;> rfl
  change x.toModel.unpack.isFinite = true at fx
  rw [number, unpacked, parts?_eq bits]
  rw [unpacked] at fx
  rw [unpack_components] at fx ⊢
  by_cases inner : e = -1#11
  · rw [if_pos inner] at fx
    split at fx <;> cases fx
  · have inner' : e.toNat ≠ 2047 := fun same => inner (BitVec.eq_of_toNat_eq same)
    rw [if_neg inner, if_neg inner']
    by_cases least : e = 0#11
    · have least' : e.toNat = 0 := congrArg BitVec.toNat least
      rw [if_pos least, if_pos least']
      refine ⟨_, rfl, ⟨?_, ?_, ?_⟩, ?_⟩
      · change m.toNat < 2 ^ 53
        omega
      · change (-1074 : Int) ≤ -1074
        decide
      · change (-1074 : Int) ≤ 971
        decide
      · rw [Parts.number, Parts.sign, sign]
        split
        · next none =>
          rw [none]
          cases s <;> simp [signed, value]
        · rfl
    · have least' : e.toNat ≠ 0 := fun same => least (BitVec.eq_of_toNat_eq same)
      rw [if_neg least, if_neg least']
      refine ⟨_, rfl, ⟨?_, ?_, ?_⟩, ?_⟩
      · change 2 ^ 52 + m.toNat < 2 ^ 53
        omega
      · change -1074 ≤ (e.toNat : Int) - 1075
        omega
      · change (e.toNat : Int) - 1075 ≤ 971
        omega
      · rw [Parts.number, Parts.sign, sign]
        simp only [value, implicit_digit]

theorem Parts.widen_number (p : Parts) : p.widen.number = p.number := by
  simp only [Parts.number, Parts.sign, Parts.widen, Nat.shiftLeft_eq]
  push_cast
  rw [mul_assoc, ← zpow_natCast, ← two_zpow_add]
  congr 3
  omega

theorem Parts.Valid.widen (valid : p.Valid) :
    p.widen.Valid ∧ (p.widen.mantissa < 2 ^ 52 → p.widen.mantissa = 0 ∨ p.widen.exponent = -1074) := by
  obtain ⟨small, low, high⟩ := valid
  by_cases zero : p.mantissa = 0
  · have none : p.widen.mantissa = 0 := by
      rw [Parts.widen, zero, Nat.zero_shiftLeft]
    have place : p.widen.exponent =
        p.exponent - (min (52 - p.mantissa.log2) (p.exponent + 1074).toNat : Nat) := rfl
    refine ⟨⟨?_, ?_, ?_⟩, fun _ => .inl none⟩
    · rw [none]
      decide
    · omega
    · omega
  · have digits : p.mantissa.log2 < 53 := (Nat.log2_lt zero).mpr small
    generalize shift : min (52 - p.mantissa.log2) (p.exponent + 1074).toNat = k
    have wide : p.widen = ⟨p.negative, p.mantissa <<< k, p.exponent - k⟩ := by
      rw [← shift]
      rfl
    have some : p.mantissa <<< k ≠ 0 := by
      rw [Nat.shiftLeft_eq]
      positivity
    have log2 : (p.mantissa <<< k).log2 = p.mantissa.log2 + k := log2_shiftLeft zero
    rw [wide]
    refine ⟨⟨?_, ?_, ?_⟩, fun below => .inr ?_⟩
    · exact (Nat.log2_lt some).mp (by omega)
    · change -1074 ≤ p.exponent - k
      omega
    · change p.exponent - k ≤ 971
      omega
    · have short := (Nat.log2_lt some).mpr below
      change p.exponent - k = -1074
      omega

theorem unpack_ofBits (s : Sign) {e f : Nat} (exponent : e < 2 ^ 11) (fraction : f < 2 ^ 52) :
    (Float.ofBits (UInt64.ofNat (s.toBitVec.toNat <<< 63 + e <<< 52 + f))).toModel.unpack =
      UnpackedFloat.unpack Format.binary64
        (packComponents Format.binary64 s (BitVec.ofNat 11 e) (BitVec.ofNat 52 f)) := by
  have bits : (UInt64.ofNat (s.toBitVec.toNat <<< 63 + e <<< 52 + f)).toBitVec =
      packComponents Format.binary64 s (BitVec.ofNat 11 e) (BitVec.ofNat 52 f) := by
    have sign := s.toBitVec.isLt
    apply BitVec.eq_of_toNat_eq
    rw [packComponents_toNat, BitVec.toNat_ofNat, BitVec.toNat_ofNat, Nat.mod_eq_of_lt exponent,
      Nat.mod_eq_of_lt fraction]
    change _ % 2 ^ 64 = _
    simp only [Nat.shiftLeft_eq]
    omega
  rw [← bits]
  obtain ⟨canonical, fits⟩ := unpack_canonical (UInt64.ofNat _).toBitVec
  exact unpack_pack canonical fits

theorem Parts.sign_bit (p : Parts) (k : Nat) :
    (if p.negative = true then 1 <<< 63 + k else k) = p.sign.toBitVec.toNat <<< 63 + k := by
  rw [Parts.sign]
  cases p.negative with
  | true =>
    have one : Sign.negative.toBitVec.toNat = 1 := rfl
    rw [if_pos rfl, if_pos rfl, one]
  | false =>
    have zero : Sign.positive.toBitVec.toNat = 0 := rfl
    rw [if_neg (by decide), if_neg (by decide), zero, Nat.zero_shiftLeft, Nat.zero_add]

theorem Parts.Valid.toFloat (valid : p.Valid) :
    p.toFloat.isFinite = true ∧ Binary64.number p.toFloat = p.number := by
  obtain ⟨⟨small, low, high⟩, least⟩ := valid.widen
  have digit : 1 <<< 52 = 2 ^ 52 := rfl
  rw [← p.widen_number, Parts.toFloat]
  simp only [Parts.sign_bit, digit]
  generalize p.widen = p at small low high least ⊢
  change UnpackedFloat.isFinite (Float.toModel _).unpack = true ∧ value (Float.toModel _).unpack = _
  by_cases below : p.mantissa < 2 ^ 52
  · have unpacked := unpack_ofBits p.sign (e := 0) (by decide) below
    rw [Nat.zero_shiftLeft, Nat.add_zero] at unpacked
    rw [if_pos below, unpacked, Parts.number]
    by_cases none : p.mantissa = 0
    · rw [none, Nat.cast_zero, zero_mul, unpack_components]
      exact ⟨rfl, (by cases p.sign <;> simp [signed] : signed p.sign 0 = 0).symm⟩
    · have place : p.exponent = -1074 := (least below).resolve_left none
      rw [place, unpack_least p.sign (Nat.pos_of_ne_zero none) below]
      exact ⟨rfl, rfl⟩
  · have unpacked := unpack_ofBits p.sign (e := (p.exponent + 1075).toNat)
      (f := p.mantissa - 2 ^ 52) (by omega) (by omega)
    have fraction : BitVec.ofNat 52 (p.mantissa - 2 ^ 52) = BitVec.ofNat 52 p.mantissa := by
      apply BitVec.eq_of_toNat_eq
      rw [BitVec.toNat_ofNat, BitVec.toNat_ofNat]
      omega
    have place : ((p.exponent + 1075).toNat : Int) - 1075 = p.exponent := by omega
    rw [fraction, unpack_normal p.sign (Nat.le_of_not_lt below) small (by omega) (by omega)] at unpacked
    rw [if_neg below, ← Nat.add_assoc, unpacked, Parts.number]
    simp only [value, place]
    exact ⟨rfl, trivial⟩

theorem remainderUp_eq (low : ¬ remainder x y < 0.0) : remainderUp x y = remainder x y :=
  if_neg low

theorem remainderUp_unbounded (unbounded : x.isFinite = false) (y : Float) :
    (remainderUp x y).isNaN = true := by
  have nan : remainder x y = 0.0 / 0.0 := by rw [remainder, parts?_eq_none unbounded]
  have nan' : (remainder x y).isNaN = true := by
    rw [nan]
    rfl
  rw [remainderUp_eq (not_nan_lt nan' _), nan']

theorem finite_zero : (0.0 : Float).isFinite = true ∧ number 0.0 = 0 :=
  ⟨rfl, rfl⟩

theorem Parts.number_nonneg (p : Parts) : 0 ≤ p.number ↔ p.negative = true → p.mantissa = 0 := by
  have positive := two_zpow_pos p.exponent
  have size : (0 : ℚ) ≤ p.mantissa * 2 ^ p.exponent := mul_nonneg (Nat.cast_nonneg _) positive.le
  rw [Parts.number, Parts.sign]
  cases p.negative with
  | true =>
    have zero : (p.mantissa : ℚ) * 2 ^ p.exponent = 0 ↔ p.mantissa = 0 := by
      rw [mul_eq_zero, Nat.cast_eq_zero, or_iff_left positive.ne']
    simp only [↓reduceIte, signed, forall_const, ← zero]
    constructor
    · intro nonneg
      linarith
    · intro none
      rw [none, neg_zero]
  | false => simpa [signed] using size

theorem remainder_finite (fx : x.isFinite = true) (fy : y.isFinite = true) (low : 0 ≤ number x)
    (some : number y ≠ 0) :
    (remainder x y).isFinite = true ∧ 0 ≤ number (remainder x y) := by
  obtain ⟨p, parts, ⟨small, least, greatest⟩, same⟩ := parts?_eq_some fx
  obtain ⟨d, parts', ⟨small', least', greatest'⟩, same'⟩ := parts?_eq_some fy
  have divisor : d.mantissa ≠ 0 := by
    intro zero
    rw [← same', Parts.number, zero, Nat.cast_zero, zero_mul] at some
    exact some (by cases d.sign <;> simp [signed])
  rw [← same, p.number_nonneg] at low
  simp only [remainder, parts, parts', if_neg divisor]
  generalize place : min p.exponent d.exponent = e
  have valid : Parts.Valid ⟨p.negative, p.mantissa <<< (p.exponent - e).toNat %
      d.mantissa <<< (d.exponent - e).toNat, e⟩ := by
    refine ⟨?_, show -1074 ≤ e by omega, show e ≤ 971 by omega⟩
    change _ % _ < 2 ^ 53
    -- The smaller exponent is the one of the dividend or the one of the divisor.
    rcases min_choice p.exponent d.exponent with first | second
    · have shift : (p.exponent - e).toNat = 0 := by omega
      rw [shift, Nat.shiftLeft_zero]
      exact (Nat.mod_le _ _).trans_lt small
    · have shift : (d.exponent - e).toNat = 0 := by omega
      rw [shift, Nat.shiftLeft_zero]
      exact (Nat.mod_lt _ (Nat.pos_of_ne_zero divisor)).trans small'
  obtain ⟨finite, number⟩ := valid.toFloat
  refine ⟨finite, ?_⟩
  rw [number, Parts.number_nonneg]
  intro negative
  change _ % _ = 0
  rw [low negative, Nat.zero_shiftLeft, Nat.zero_mod]

theorem remainderUp_finite (fx : x.isFinite = true) (fy : y.isFinite = true) (low : 0 ≤ number x)
    (some : number y ≠ 0) :
    (remainderUp x y).isFinite = true ∧ 0 ≤ number (remainderUp x y) := by
  have rest := remainder_finite fx fy low some
  have above : ¬ remainder x y < 0.0 := by
    rw [lt_iff rest.1 finite_zero.1]
    exact not_lt.mpr rest.2
  rwa [remainderUp_eq above]

theorem remainderUp_infinite (fx : x.isFinite = true) (low : 0 ≤ number x)
    (unbounded : y.isFinite = false) (isNumber : y.isNaN = false) : remainderUp x y = x := by
  obtain ⟨p, parts, -, -⟩ := parts?_eq_some fx
  have whole : remainder x y = x := by
    simp only [remainder, parts, parts?_eq_none unbounded, isNumber, Bool.false_eq_true, ↓reduceIte]
  have above : ¬ x < 0.0 := by
    rw [lt_iff fx finite_zero.1]
    exact not_lt.mpr low
  rw [← whole] at above
  rw [remainderUp_eq above, whole]

end TurtlePlayback.Binary64
