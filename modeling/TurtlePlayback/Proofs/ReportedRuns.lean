import Mathlib.Algebra.Order.Floor.Semiring
import TurtlePlayback.Proofs.HeadlessTime

namespace TurtlePlayback

theorem Playback.Time.floor_eq (x : Rat) : Time.floor x = ⌊x⌋₊ := rfl

namespace Session

open Canvas Playback

namespace Display

theorem exists_first_stop (goes : Nat → Prop) {n : Nat} (stops : ¬ goes n) :
    ∃ k ≤ n, (∀ m < k, goes m) ∧ ¬ goes k := by
  classical
  have stopping : ∃ k, ¬ goes k := ⟨n, stops⟩
  exact ⟨Nat.find stopping, Nat.find_min' stopping stops,
    fun m less => not_not.mp (Nat.find_min stopping less), Nat.find_spec stopping⟩

section

variable {τ σ : Type} [Time τ] [Surface σ] {d : Display τ} {p : Player τ σ} {host : Host}

theorem refreshes_front (d : Display τ) (p : Player τ σ) (n : Nat) :
    (d.refresh p).2.1.refreshes (d.refresh p).2.2 n = d.refreshes p (n + 1) := by
  induction n with
  | zero => rfl
  | succ n ih =>
    rw [refreshes, ih]
    rfl

theorem refreshes_level (level : p.scheduler.Level host) (d : Display τ) (n : Nat) :
    (d.refreshes p n).2.scheduler.Level host := by
  induction n with
  | zero => exact level
  | succ n ih => exact (refresh_level ih _).2.1

theorem refreshes_frames (level : p.scheduler.Level host) {n : Nat}
    (asked : ∀ m < n, (d.refreshes p m).2.scheduler.host.requested = true) :
    (d.refreshes p n).2.scheduler.frames = p.scheduler.frames + n := by
  induction n with
  | zero => rfl
  | succ n ih =>
    have frames := (refresh_level (refreshes_level level d n) (d.refreshes p n).1).2.2
    rw [ih fun m less => asked m (less.trans n.lt_succ_self), asked n n.lt_succ_self] at frames
    exact frames

theorem runFrames_asked (level : p.scheduler.Level host) {k n : Nat}
    (asked : ∀ m < k, (d.refreshes p m).2.scheduler.host.requested = true)
    (ends : n = 0 ∨ (d.refreshes p k).2.scheduler.host.requested = false) :
    d.runFrames p (k + n) = (k, d.refreshes p k) := by
  induction k generalizing d p with
  | zero =>
    rw [Nat.zero_add]
    cases n with
    | zero => rfl
    | succ n =>
      have unasked : p.scheduler.host.requested = false := ends.resolve_left n.succ_ne_zero
      simp only [runFrames, unasked]
      rfl
  | succ k ih =>
    obtain ⟨ran, level', -⟩ := refresh_level level d
    rw [← refreshes_front] at ends
    have rest := ih level' (fun m less => refreshes_front d p m ▸ asked _ (Nat.succ_lt_succ less))
      ends
    have first : p.scheduler.host.requested = true := asked 0 k.succ_pos
    rw [first] at ran
    rw [Nat.succ_add_eq_add_succ, Nat.add_succ, runFrames, if_pos first]
    rw [show d.refresh p = (true, (d.refresh p).2) from Prod.ext ran rfl]
    simp only [rest, refreshes_front]

end

variable {σ : Type} [Surface σ] {d : Display Rat} {p : Player Rat σ} {host : Host} {limit : Rat}

theorem refreshes_now (d : Display Rat) (p : Player Rat σ) (n : Nat) :
    (d.refreshes p n).1.now = d.now + n * d.interval := by
  induction n with
  | zero => simp [refreshes]
  | succ n ih =>
    have next (e : Display Rat) (q : Player Rat σ) :
        (e.refresh q).2.1.now = e.now + e.interval := by
      simp only [refresh]
      split <;> rfl
    rw [refreshes, next, ih, refreshes_interval]
    push_cast
    ring

structure Goes (limit : Rat) (d : Display Rat) (p : Player Rat σ) : Prop where
  fits : d.now + d.interval ≤ limit
  asked : p.scheduler.host.requested = true

theorem runUntil_goes (level : p.scheduler.Level host) {k n : Nat} (more : k < n)
    (goes : ∀ m < k, Goes limit (d.refreshes p m).1 (d.refreshes p m).2)
    (stops : ¬ Goes limit (d.refreshes p k).1 (d.refreshes p k).2) (s : RunSummary Rat) :
    d.runUntil limit p s n =
      ({ refreshes := s.refreshes + k, frames := s.frames + k
         idleAt := if (d.refreshes p k).1.now + d.interval ≤ limit
           then some (d.refreshes p k).1.now else s.idleAt }, d.refreshes p k) := by
  induction k generalizing d p s n with
  | zero =>
    obtain ⟨n, rfl⟩ := Nat.exists_eq_add_one.mpr more
    rw [runUntil]
    change _ = (({ refreshes := s.refreshes + 0, frames := s.frames + 0
                   idleAt := if d.now + d.interval ≤ limit then some d.now else s.idleAt } :
      RunSummary Rat), d, p)
    split
    · next fits =>
      have idle : ¬ p.scheduler.host.requested = true := fun asked => stops ⟨fits, asked⟩
      rw [if_neg idle]
      rfl
    · rfl
  | succ k ih =>
    obtain ⟨n, rfl⟩ := Nat.exists_eq_add_one.mpr (Nat.zero_lt_of_lt more)
    obtain ⟨ran, level', -⟩ := refresh_level level d
    have first : Goes limit d p := goes 0 k.succ_pos
    rw [first.asked] at ran
    have interval : (d.refresh p).2.1.interval = d.interval := refreshes_interval d p 1
    have rest (s : RunSummary Rat) := ih level' (Nat.lt_of_succ_lt_succ more)
      (fun m less => refreshes_front d p m ▸ goes _ (Nat.succ_lt_succ less))
      (refreshes_front d p k ▸ stops) s
    rw [runUntil, if_pos first.fits, if_pos first.asked]
    simp only [ran, ↓reduceIte, rest, refreshes_front, interval, Nat.add_assoc, Nat.add_comm 1 k]

theorem fits_iff {interval seconds now : Rat} (ahead : 0 < interval) (nonneg : 0 ≤ seconds)
    (m : Nat) : now + m * interval + interval ≤ now + 1000 * seconds ↔
      m < ⌊1000 * seconds / interval⌋₊ := by
  have span : 0 ≤ 1000 * seconds / interval := by positivity
  rw [← Nat.succ_le_iff, Nat.le_floor_iff span, le_div_iff₀ ahead]
  push_cast
  constructor
  · intro fits
    linarith
  · intro fits
    linarith

theorem runFor_eq {seconds : Rat} (nonneg : 0 ≤ seconds) (d : Display Rat) (p : Player Rat σ) :
    d.runFor p seconds = d.runUntil (d.now + 1000 * seconds) p {}
      (2 * ⌊1000 * seconds / d.interval⌋₊ + 8) := by
  simp only [runFor, Time.nonneg_of_le nonneg, Time.ofNat_eq, Nat.cast_ofNat, mul_comm seconds,
    Time.floor_eq]

theorem runUntil_ends (level : p.scheduler.Level host) (ahead : 0 < d.interval) {seconds : Rat}
    (nonneg : 0 ≤ seconds) :
    let limit := d.now + 1000 * seconds
    let whole := ⌊1000 * seconds / d.interval⌋₊
    ∃ k ≤ whole, (∀ m < k, (d.refreshes p m).2.scheduler.host.requested = true) ∧
      ((d.refreshes p k).1.now + d.interval ≤ limit ↔ k < whole) ∧
      (k < whole → (d.refreshes p k).2.scheduler.host.requested = false) ∧
      ∀ n > whole, d.runUntil limit p {} n =
        (⟨k, k, if (d.refreshes p k).1.now + d.interval ≤ limit
          then some (d.refreshes p k).1.now else none⟩, d.refreshes p k) := by
  intro limit whole
  have fits (m : Nat) : (d.refreshes p m).1.now + d.interval ≤ limit ↔ m < whole := by
    rw [refreshes_now]
    exact fits_iff ahead nonneg m
  have interval (m : Nat) := refreshes_interval d p m
  have full : ¬ Goes limit (d.refreshes p whole).1 (d.refreshes p whole).2 := by
    intro goes
    have fitting := goes.fits
    rw [interval] at fitting
    exact ((fits whole).mp fitting).false
  obtain ⟨k, le, goes, stops⟩ :=
    exists_first_stop (fun m => Goes limit (d.refreshes p m).1 (d.refreshes p m).2) full
  refine ⟨k, le, fun m less => (goes m less).asked, fits k, fun less => ?_, fun n more => ?_⟩
  · have fitting : (d.refreshes p k).1.now + (d.refreshes p k).1.interval ≤ limit := by
      rw [interval]
      exact (fits k).mpr less
    exact Bool.eq_false_iff.mpr fun asked => stops ⟨fitting, asked⟩
  · rw [runUntil_goes level (le.trans_lt more) goes stops, Nat.zero_add]

theorem runFrames_ends {τ : Type} [Time τ] {p : Player τ σ} (level : p.scheduler.Level host)
    (d : Display τ) (count : Nat) :
    ∃ k ≤ count, (∀ m < k, (d.refreshes p m).2.scheduler.host.requested = true) ∧
      (k < count → (d.refreshes p k).2.scheduler.host.requested = false) ∧
      d.runFrames p count = (k, d.refreshes p k) := by
  obtain ⟨k, le, asking, stops⟩ := exists_first_stop (n := count)
    (fun m => m < count ∧ (d.refreshes p m).2.scheduler.host.requested = true)
    fun goes => goes.1.false
  have asked (m : Nat) (less : m < k) := (asking m less).2
  have idle (less : k < count) : (d.refreshes p k).2.scheduler.host.requested = false :=
    Bool.eq_false_iff.mpr fun requested => stops ⟨less, requested⟩
  have ends : count - k = 0 ∨ (d.refreshes p k).2.scheduler.host.requested = false := by
    rcases le.eq_or_lt with rfl | less
    · exact .inl (Nat.sub_self k)
    · exact .inr (idle less)
  have ran := runFrames_asked level asked ends
  rw [Nat.add_sub_cancel' le] at ran
  exact ⟨k, le, asked, idle, ran⟩

end Display

/-- A display runs a player that it alone answers. A run for some time is refreshes that were all
asked for, no more than there are whole intervals in the time, and each is a frame; it ends with
nobody asking while an interval would fit, and tells when, or with no interval left. No run is cut
off: more turns change nothing. A run by frames ends with all of them, or with nobody asking. -/
theorem runs_reported {σ : Type} [Surface σ] {surface : σ} {c : Config Rat} {p q : Player Rat σ}
    {d e : Display Rat} (created : Player.create surface c = .ok p) (driven : Driven d p e q)
    (ahead : 0 < e.interval) {seconds : Rat} (nonneg : 0 ≤ seconds) (count : Nat) :
    let whole := ⌊1000 * seconds / e.interval⌋₊
    (∀ s e' r, e.runFor q seconds = (s, e', r) →
      s.refreshes ≤ whole ∧ s.frames = s.refreshes ∧
      (e', r) = e.refreshes q s.refreshes ∧
      (∀ m < s.refreshes, (e.refreshes q m).2.scheduler.host.requested = true) ∧
      r.scheduler.frames = q.scheduler.frames + s.frames ∧
      e'.now = e.now + s.refreshes * e.interval ∧
      (if r.scheduler.host.requested = false ∧ e'.now + e.interval ≤ e.now + 1000 * seconds
        then s.idleAt = some e'.now else s.idleAt = none ∧ s.refreshes = whole) ∧
      ∀ n > whole, e.runUntil (e.now + 1000 * seconds) q {} n = (s, e', r)) ∧
    ∀ n e' r, e.runFrames q count = (n, e', r) →
      n ≤ count ∧ (e', r) = e.refreshes q n ∧
      (∀ m < n, (e.refreshes q m).2.scheduler.host.requested = true) ∧
      r.scheduler.frames = q.scheduler.frames + n ∧
      (n < count → r.scheduler.host.requested = false) := by
  intro whole
  have fresh : p.scheduler.Level {} := by
    obtain ⟨s, clock, r, rfl⟩ := Player.create_eq created
    exact ⟨.empty {}, rfl⟩
  have level := driven.level fresh
  constructor
  · intro s e' r ran
    obtain ⟨k, le, asked, fits, idle, runs⟩ := Display.runUntil_ends level ahead nonneg
    -- The turns that a run is given are more than the whole intervals in its time.
    rw [Display.runFor_eq nonneg, runs _ (by omega)] at ran
    obtain ⟨rfl, last⟩ := Prod.mk.inj ran
    have frames := Display.refreshes_frames level asked
    have now := Display.refreshes_now e q k
    rw [last] at frames now fits idle
    refine ⟨le, rfl, last.symm, asked, frames, now, ?_, fun n more => (runs n more).trans ?_⟩
    · simp only [last]
      by_cases less : k < whole
      · rw [if_pos ⟨idle less, fits.mpr less⟩, if_pos (fits.mpr less)]
      · have beyond := mt fits.mp less
        rw [if_neg (mt And.right beyond), if_neg beyond]
        exact ⟨rfl, le.antisymm (not_lt.mp less)⟩
    · rw [last]
  · intro n e' r ran
    obtain ⟨k, le, asked, idle, runs⟩ := Display.runFrames_ends level e count
    obtain ⟨rfl, last⟩ := Prod.mk.inj (runs.symm.trans ran)
    have frames := Display.refreshes_frames level asked
    rw [last] at frames idle
    exact ⟨le, last.symm, asked, frames, idle⟩

theorem runs_reported_idle :
    ∃ (c : Config Rat) (p q : Player Rat Recording) (d : Display Rat),
      Player.create { resolution := ⟨512, 512⟩ } c = .ok p ∧ Driven d p d q ∧ 0 < d.interval ∧
      (let s := (d.runFor q 10).1; s.refreshes = 4 ∧ s.frames = 4 ∧ s.idleAt = some 6000) ∧
      (let s := (d.runFor q 3).1; s.refreshes = 2 ∧ s.frames = 2 ∧ s.idleAt = none) ∧
      (d.runFrames q 9).1 = 4 ∧ (d.runFrames q 9).2.2.scheduler.host.requested = false := by
  let q := (Player.unlooped.edit (.setSource "assert(false)")).2
  let d : Display Rat := ⟨1500, 0⟩
  have driven : Driven d Player.unlooped d q := .edited _ rfl (.start d _)
  have ahead : 0 < d.interval := by decide +kernel
  obtain ⟨long, frames⟩ :=
    runs_reported Player.create_unlooped driven ahead (show (0 : Rat) ≤ 10 by decide +kernel) 9
  obtain ⟨short, -⟩ :=
    runs_reported Player.create_unlooped driven ahead (show (0 : Rat) ≤ 3 by decide +kernel) 9
  have refreshed : (d.runFor q 10).1.refreshes = 4 ∧ (d.runFor q 10).1.idleAt = some 6000 ∧
      (d.runFor q 3).1.refreshes = 2 ∧ (d.runFor q 3).1.idleAt = none ∧
      (d.runFrames q 9).1 = 4 := by
    decide +kernel
  obtain ⟨four, idle, two, busy, ran⟩ := refreshed
  obtain ⟨-, framed, -⟩ := long _ _ _ rfl
  obtain ⟨-, framed', -⟩ := short _ _ _ rfl
  obtain ⟨-, -, -, -, unasked⟩ := frames _ _ _ rfl
  exact ⟨_, _, q, d, Player.create_unlooped, driven, ahead, ⟨four, framed.trans four, idle⟩,
    ⟨two, framed'.trans two, busy⟩, ran, unasked (ran.trans_lt (by decide))⟩

end Session

end TurtlePlayback
