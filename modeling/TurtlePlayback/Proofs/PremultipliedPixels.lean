import TurtlePlayback.Canvas.Color
import TurtlePlayback.Canvas.Picture

namespace TurtlePlayback.Canvas

namespace Pixel

variable {c d s n x y z : Nat}

theorem scale_le (small : x ≤ 255) (y : Nat) : scale x y ≤ y := by
  have product := Nat.mul_le_mul_right y small
  rw [scale, ← Nat.lt_succ_iff, Nat.div_lt_iff_lt_mul (by decide)]
  omega

theorem scale_mono (y : Nat) (h : x ≤ z) : scale x y ≤ scale z y :=
  Nat.div_le_div_right (Nat.add_le_add_right (Nat.mul_le_mul_right y h) 127)

theorem scale_full (x : Nat) : scale x 255 = x := by
  rw [scale]
  omega

theorem full_scale (y : Nat) : scale 255 y = y := by
  rw [scale]
  omega

theorem add_scale_le (h : s ≤ n) (alpha : n ≤ 255) (small : d ≤ 255) :
    s + scale d (255 - n) ≤ 255 := by
  have through := scale_le small (255 - n)
  omega

def unscale (c n : Nat) : Nat :=
  (c * 255 + n / 2) / n

theorem unscale_le (h : c ≤ n) (visible : 0 < n) : unscale c n ≤ 255 := by
  rw [unscale, ← Nat.lt_succ_iff, Nat.div_lt_iff_lt_mul visible]
  omega

theorem scale_unscale (c : Nat) (visible : 0 < n) (alpha : n ≤ 255) : scale (unscale c n) n = c := by
  -- Multiplied by n again, the quotient is off from c * 255 by n / 2 at most, and rounding drops that.
  have parts := Nat.div_add_mod' (c * 255 + n / 2) n
  have rest := Nat.mod_lt (c * 255 + n / 2) visible
  rw [scale, unscale]
  omega

theorem toNat_addChannels (h : x + y ≤ 255) : (addChannels x y).toNat = x + y := by
  rw [addChannels, Nat.min_eq_left h, UInt8.toNat_ofNat']
  omega

structure Premultiplied (p : Pixel) : Prop where
  red : p.r ≤ p.a
  green : p.g ≤ p.a
  blue : p.b ≤ p.a

instance (p : Pixel) : Decidable p.Premultiplied :=
  decidable_of_iff (p.r ≤ p.a ∧ p.g ≤ p.a ∧ p.b ≤ p.a)
    ⟨fun ⟨red, green, blue⟩ => ⟨red, green, blue⟩, fun h => ⟨h.red, h.green, h.blue⟩⟩

def channels : List (Pixel → UInt8) :=
  [r, g, b, a]

variable {p dst src : Pixel}

theorem Premultiplied.channel_le (h : p.Premultiplied) {channel : Pixel → UInt8}
    (member : channel ∈ channels) : (channel p).toNat ≤ p.a.toNat := by
  simp only [channels, List.mem_cons, List.mem_nil_iff, or_false] at member
  rcases member with rfl | rfl | rfl | rfl
  · exact h.red
  · exact h.green
  · exact h.blue
  · exact Nat.le_refl _

theorem alpha_pos (visible : p.a ≠ 0) : 0 < p.a.toNat :=
  Nat.pos_of_ne_zero fun none => visible (UInt8.toNat_inj.mp none)

theorem clear_premultiplied : clear.Premultiplied := by
  decide

def mixed (rest : Nat) (d s : UInt8) : UInt8 :=
  addChannels s.toNat (scale d.toNat rest)

theorem under_eq (visible : src.a ≠ 0) (translucent : src.a ≠ 255) : dst.under src =
    let mix := mixed (255 - src.a.toNat)
    ⟨mix dst.r src.r, mix dst.g src.g, mix dst.b src.b, mix dst.a src.a⟩ := by
  rw [under, if_neg visible, if_neg translucent]
  rfl

theorem Premultiplied.fits (above : src.Premultiplied) (dst : Pixel) {channel : Pixel → UInt8}
    (member : channel ∈ channels) :
    (channel src).toNat + scale (channel dst).toNat (255 - src.a.toNat) ≤ 255 :=
  add_scale_le (above.channel_le member) (Nat.le_of_lt_succ src.a.toNat_lt)
    (Nat.le_of_lt_succ (channel dst).toNat_lt)

theorem Premultiplied.eq_clear (h : p.Premultiplied) (none : p.a = 0) : p = clear := by
  have zero (c : UInt8) (le : c ≤ p.a) : c = 0 := by
    rw [none, UInt8.le_iff_toNat_le] at le
    exact UInt8.toNat_inj.mp (Nat.le_zero.mp le)
  obtain ⟨r, g, b, a⟩ := p
  rw [zero r h.red, zero g h.green, zero b h.blue, zero a (UInt8.le_refl a)]
  rfl

/-- The channels are added up as they are, also where one of the pixels is all that is left. -/
theorem Premultiplied.toNat_under (above : src.Premultiplied) (dst : Pixel)
    {channel : Pixel → UInt8} (member : channel ∈ channels) :
    (channel (dst.under src)).toNat =
      (channel src).toNat + scale (channel dst).toNat (255 - src.a.toNat) := by
  have fits := above.fits dst member
  by_cases visible : src.a = 0
  · rw [Pixel.under, if_pos visible, visible, UInt8.toNat_zero, Nat.sub_zero, scale_full,
      above.eq_clear visible]
    simp only [channels, List.mem_cons, List.mem_nil_iff, or_false] at member
    rcases member with rfl | rfl | rfl | rfl <;> exact (Nat.zero_add _).symm
  · by_cases solid : src.a = 255
    · have none (x : Nat) : scale x 0 = 0 := by rw [scale, Nat.mul_zero]
      rw [Pixel.under, if_neg visible, if_pos solid, solid, UInt8.toNat_ofNat, Nat.sub_self, none,
        Nat.add_zero]
    · rw [under_eq visible solid]
      simp only [channels, List.mem_cons, List.mem_nil_iff, or_false] at member
      rcases member with rfl | rfl | rfl | rfl <;> exact toNat_addChannels fits

theorem Premultiplied.under (below : dst.Premultiplied) (above : src.Premultiplied) :
    (dst.under src).Premultiplied := by
  have sum {channel : Pixel → UInt8} (member : channel ∈ channels) :=
    above.toNat_under dst member
  have alpha := sum (show a ∈ channels by simp [channels])
  constructor
  · rw [UInt8.le_iff_toNat_le, alpha, sum (show r ∈ channels by simp [channels])]
    exact Nat.add_le_add above.red (scale_mono _ below.red)
  · rw [UInt8.le_iff_toNat_le, alpha, sum (show g ∈ channels by simp [channels])]
    exact Nat.add_le_add above.green (scale_mono _ below.green)
  · rw [UInt8.le_iff_toNat_le, alpha, sum (show b ∈ channels by simp [channels])]
    exact Nat.add_le_add above.blue (scale_mono _ below.blue)

theorem under_solid (solid : dst.a = 255) : (dst.under src).a = 255 := by
  by_cases visible : src.a = 0
  · rwa [Pixel.under, if_pos visible]
  · by_cases translucent : src.a = 255
    · rwa [Pixel.under, if_neg visible, if_pos translucent]
    · have small := src.a.toNat_lt
      have sum : src.a.toNat + scale (255 : UInt8).toNat (255 - src.a.toNat) = 255 := by
        rw [UInt8.toNat_ofNat, full_scale]
        omega
      rw [under_eq visible translucent, ← UInt8.toNat_inj]
      simp only [mixed, solid]
      rw [toNat_addChannels (Nat.le_of_eq sum), sum]
      rfl

theorem premultiply_premultiplied (p : Pixel) : p.premultiply.Premultiplied := by
  have down (c : UInt8) : UInt8.ofNat (scale c.toNat p.a.toNat) ≤ p.a := by
    have least := scale_le (Nat.le_of_lt_succ c.toNat_lt) p.a.toNat
    have small := p.a.toNat_lt
    rw [UInt8.le_iff_toNat_le, UInt8.toNat_ofNat']
    omega
  exact ⟨down p.r, down p.g, down p.b⟩

theorem Premultiplied.unclipped (h : p.Premultiplied) (visible : p.a ≠ 0) {channel : Pixel → UInt8}
    (member : channel ∈ channels) : unscale (channel p).toNat p.a.toNat ≤ 255 :=
  unscale_le (h.channel_le member) (alpha_pos visible)

theorem Premultiplied.toNat_unpremultiply (h : p.Premultiplied) (visible : p.a ≠ 0)
    {channel : Pixel → UInt8} (color : channel ∈ [r, g, b]) :
    (channel p.unpremultiply).toNat = unscale (channel p).toNat p.a.toNat := by
  have unclipped := h.unclipped visible (List.mem_append_left [a] color)
  by_cases solid : p.a = 255
  · have full : (255 : UInt8).toNat = 255 := rfl
    rw [unpremultiply, if_neg visible, if_pos solid, solid, full, unscale]
    omega
  · have up : (UInt8.ofNat (min (unscale (channel p).toNat p.a.toNat) 255)).toNat =
        unscale (channel p).toNat p.a.toNat := by
      rw [Nat.min_eq_left unclipped, UInt8.toNat_ofNat_of_lt' (Nat.lt_succ_of_le unclipped)]
    rw [unpremultiply, if_neg visible, if_neg solid]
    simp only [List.mem_cons, List.mem_nil_iff, or_false] at color
    rcases color with rfl | rfl | rfl <;> exact up

theorem unpremultiply_alpha (p : Pixel) : p.unpremultiply.a = p.a := by
  rw [unpremultiply]
  split
  · next none => exact none.symm
  · split <;> rfl

theorem Premultiplied.premultiply_unpremultiply (h : p.Premultiplied) :
    p.unpremultiply.premultiply = p := by
  by_cases none : p.a = 0
  · rw [h.eq_clear none]
    rfl
  · have back {channel : Pixel → UInt8} (color : channel ∈ [r, g, b]) :
        UInt8.ofNat (scale (channel p.unpremultiply).toNat p.a.toNat) = channel p := by
      rw [h.toNat_unpremultiply none color, scale_unscale _ (alpha_pos none)
        (Nat.le_of_lt_succ p.a.toNat_lt), UInt8.ofNat_toNat]
    have red := back (show r ∈ [r, g, b] by simp)
    have green := back (show g ∈ [r, g, b] by simp)
    have blue := back (show b ∈ [r, g, b] by simp)
    rw [premultiply, unpremultiply_alpha]
    simp only [red, green, blue]

end Pixel

end TurtlePlayback.Canvas
