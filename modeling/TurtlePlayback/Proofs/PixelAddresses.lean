import Mathlib.Algebra.Group.Nat.Defs
import TurtlePlayback.Canvas.Picture

namespace TurtlePlayback.Canvas.Picture

variable {p : Picture} {x y i : Nat}

def address (p : Picture) (x y : Nat) : Nat :=
  4 * (y * p.width + x)

def Holds (p : Picture) (x y : Nat) : Prop :=
  x < p.width ∧ y < p.height ∧ p.address x y + 4 ≤ p.data.size

def Shows (p : Picture) (x y : Nat) : Option Pixel → Prop
  | some q => p.Holds x y ∧ (p.data.data.toList.drop (p.address x y)).take 4 = q.bytes
  | none => ¬ p.Holds x y

theorem pixelAt?_eq_none (outside : p.data.size < i + 4) : p.pixelAt? i = none := by
  have last : p.data[i + 3]? = none := getElem?_neg p.data (i + 3) (by omega)
  rw [pixelAt?, last]
  split
  · next none_there => cases none_there
  · rfl

theorem pixelAt?_eq_some (inside : i + 4 ≤ p.data.size) :
    ∃ q, p.pixelAt? i = some q ∧ (p.data.data.toList.drop i).take 4 = q.bytes := by
  have byte (j : Nat) (bound : i + j < p.data.size) : p.data[i + j]? = some p.data[i + j] :=
    getElem?_pos p.data (i + j) bound
  have length : i + 4 ≤ p.data.data.toList.length := inside
  refine ⟨⟨p.data[i], p.data[i + 1], p.data[i + 2], p.data[i + 3]⟩, ?_, ?_⟩
  · have first := byte 0 (by omega)
    simp only [Nat.add_zero] at first
    simp only [pixelAt?, first, byte 1 (by omega), byte 2 (by omega), byte 3 (by omega)]
  · rw [List.drop_eq_getElem_cons (by omega), List.drop_eq_getElem_cons (by omega),
      List.drop_eq_getElem_cons (by omega), List.drop_eq_getElem_cons (by omega)]
    rfl

theorem shows_pixelAt? (column : x < p.width) (row : y < p.height) :
    p.Shows x y (p.pixelAt? (p.address x y)) := by
  by_cases inside : p.address x y + 4 ≤ p.data.size
  · obtain ⟨q, found, bytes⟩ := pixelAt?_eq_some inside
    rw [found]
    exact ⟨⟨column, row, inside⟩, bytes⟩
  · rw [pixelAt?_eq_none (by omega)]
    exact fun held => inside held.2.2

theorem pixel_outside (outside : p.width ≤ x ∨ p.height ≤ y) : p.pixel x y = .ok none := by
  rw [pixel, if_pos outside]

theorem pixel_inside (column : x < p.width) (row : y < p.height) :
    p.pixel x y =
      if 2 ^ 64 ≤ p.address x y then .error .product
      else if 2 ^ 64 ≤ p.address x y + 4 then .error .sum
      else .ok (p.pixelAt? (p.address x y)) := by
  have outside : ¬ (p.width ≤ x ∨ p.height ≤ y) := by omega
  have same : (y * p.width + x) * 4 = p.address x y := Nat.mul_comm _ _
  have word : 1 <<< 64 = 2 ^ 64 := by decide
  rw [pixel, if_neg outside]
  simp only [same, word]

theorem pixel_shows {answer : Option Pixel} (given : p.pixel x y = .ok answer) :
    p.Shows x y answer := by
  by_cases outside : p.width ≤ x ∨ p.height ≤ y
  · rw [pixel_outside outside] at given
    cases given
    intro held
    obtain ⟨column, row, -⟩ := held
    omega
  · have column : x < p.width := by omega
    have row : y < p.height := by omega
    rw [pixel_inside column row] at given
    split at given
    · cases given
    · split at given
      · cases given
      · cases given
        exact shows_pixelAt? column row

theorem pixel_ok_iff :
    (∃ answer, p.pixel x y = .ok answer) ↔
      (x < p.width → y < p.height → p.address x y + 4 < 2 ^ 64) := by
  by_cases outside : p.width ≤ x ∨ p.height ≤ y
  · rw [pixel_outside outside]
    exact ⟨fun _ column row => by omega, fun _ => ⟨none, rfl⟩⟩
  · have column : x < p.width := by omega
    have row : y < p.height := by omega
    rw [pixel_inside column row]
    constructor
    · rintro ⟨answer, given⟩ - -
      split at given
      · cases given
      · split at given
        · cases given
        · omega
    · intro word
      have bound := word column row
      rw [if_neg (by omega), if_neg (by omega)]
      exact ⟨_, rfl⟩

theorem pixel_error_iff {f : PositionOverflow} :
    p.pixel x y = .error f ↔ x < p.width ∧ y < p.height ∧
      match f with
      | .product => 2 ^ 64 ≤ p.address x y
      | .sum => p.address x y + 4 = 2 ^ 64 := by
  by_cases outside : p.width ≤ x ∨ p.height ≤ y
  · rw [pixel_outside outside]
    constructor
    · intro failed
      cases failed
    · rintro ⟨column, row, -⟩
      omega
  · have column : x < p.width := by omega
    have row : y < p.height := by omega
    have four : p.address x y = 4 * (y * p.width + x) := rfl
    rw [pixel_inside column row]
    cases f with
    | product =>
      simp only [column, row, true_and]
      split
      · simp_all
      · split <;> simp_all
    | sum =>
      simp only [column, row, true_and]
      split
      · simp; omega
      · split
        · simp; omega
        · simp; omega

theorem place_lt (column : x < p.width) (row : y < p.height) :
    y * p.width + x < p.width * p.height := by
  have rows : (y + 1) * p.width ≤ p.height * p.width := Nat.mul_le_mul_right _ row
  rw [Nat.succ_mul] at rows
  rw [Nat.mul_comm p.width]
  omega

theorem place_last (columns : 0 < p.width) (rows : 0 < p.height) :
    (p.height - 1) * p.width + (p.width - 1) + 1 = p.width * p.height := by
  have others := Nat.sub_one_mul p.height p.width
  have first : p.width ≤ p.height * p.width := Nat.le_mul_of_pos_left _ rows
  rw [Nat.mul_comm p.width]
  omega

theorem pixels_ok_iff :
    (∀ x y, ∃ answer, p.pixel x y = .ok answer) ↔ p.width * p.height < 2 ^ 62 := by
  have four (x y : Nat) : p.address x y = 4 * (y * p.width + x) := rfl
  simp only [pixel_ok_iff, four]
  constructor
  · intro words
    by_cases columns : 0 < p.width
    · by_cases rows : 0 < p.height
      · have last := place_last columns rows
        have word := words (p.width - 1) (p.height - 1) (by omega) (by omega)
        omega
      · simp [show p.height = 0 by omega]
    · simp [show p.width = 0 by omega]
  · intro small x y column row
    have place := place_lt column row
    omega

/-- The place of a pixel is always a word; a pixel is answered for, and then rightly, if the
addresses of its bytes are words too, and a picture answers for all pixels if and only if they are
fewer than a quarter of the words. -/
theorem pixel_addressed (width : p.width < 2 ^ 32) (height : p.height < 2 ^ 32) :
    (∀ x y, x < p.width → y < p.height → y * p.width + x < 2 ^ 64) ∧
    (∀ x y answer, p.pixel x y = .ok answer → p.Shows x y answer) ∧
    (∀ x y, (∃ answer, p.pixel x y = .ok answer) ↔
      (x < p.width → y < p.height → p.address x y + 4 < 2 ^ 64)) ∧
    (∀ x y, p.pixel x y = .error .product ↔
      x < p.width ∧ y < p.height ∧ 2 ^ 64 ≤ p.address x y) ∧
    (∀ x y, p.pixel x y = .error .sum ↔
      x < p.width ∧ y < p.height ∧ p.address x y + 4 = 2 ^ 64) ∧
    ((∀ x y, ∃ answer, p.pixel x y = .ok answer) ↔ p.width * p.height < 2 ^ 62) := by
  refine ⟨fun x y column row => ?_, fun x y answer => pixel_shows, fun x y => pixel_ok_iff,
    fun x y => pixel_error_iff, fun x y => pixel_error_iff, pixels_ok_iff⟩
  calc
    y * p.width + x < p.width * p.height := place_lt column row
    _ ≤ 2 ^ 32 * 2 ^ 32 := Nat.mul_le_mul (Nat.le_of_lt width) (Nat.le_of_lt height)
    _ = 2 ^ 64 := by decide

theorem pixel_addressed_short :
    let p : Picture := ⟨2 ^ 31, 2 ^ 31, ⟨#[1, 2, 3, 4, 5, 6, 7, 8]⟩, false⟩
    p.width < 2 ^ 32 ∧ p.height < 2 ^ 32 ∧
      p.Shows 1 0 (some ⟨5, 6, 7, 8⟩) ∧ p.Shows 2 0 none ∧
      p.pixel (2 ^ 31 - 1) (2 ^ 31 - 1) = .error .sum ∧
      ¬ ∀ x y, ∃ answer, p.pixel x y = .ok answer := by
  intro p
  have width : p.width < 2 ^ 32 := by decide
  have height : p.height < 2 ^ 32 := by decide
  obtain ⟨-, right, -, -, sum, all⟩ := pixel_addressed width height
  have second : p.pixel 1 0 = .ok (some ⟨5, 6, 7, 8⟩) := by rfl
  have third : p.pixel 2 0 = .ok none := by rfl
  refine ⟨width, height, right 1 0 _ second, right 2 0 _ third, (sum _ _).mpr ?_, mt all.mp ?_⟩
  · decide
  · decide

/-- The last pixel of the greatest picture: there is no byte for it, but its address fails before
that is seen. -/
theorem pixel_address_overflows :
    let p : Picture := ⟨4294967295, 4294967295, .empty, false⟩
    p.pixel 4294967294 4294967294 = .error .product ∧ p.Shows 4294967294 4294967294 none := by
  refine ⟨by rfl, ?_⟩
  rintro ⟨-, -, bytes⟩
  exact absurd bytes (by decide)

end TurtlePlayback.Canvas.Picture
