import Mathlib.Data.List.Chain
import TurtlePlayback.Playback.Scheduler
import TurtlePlayback.Proofs.ExactTimes

namespace TurtlePlayback.Playback

structure Frame where
  now : Rat
  asks : Nat
  elapsed : Rat
  deriving DecidableEq

namespace Frame

def due (before : Option Frame) (now : Rat) : Rat :=
  before.elim 0 fun f => if 0 < f.asks then now - f.now else 0

def Continues (f g : Frame) : Prop :=
  g.elapsed = due (some f) g.now

theorem sum_elapsed {f : Frame} {rest : List Frame} (chain : (f :: rest).IsChain Continues)
    (asking : ∀ g ∈ (f :: rest).dropLast, 0 < g.asks) : (rest.map (·.elapsed)).sum =
      ((f :: rest).getLast (List.cons_ne_nil _ _)).now - f.now := by
  induction rest generalizing f with
  | nil => simp
  | cons g rest ih =>
    obtain ⟨continues, chain⟩ := List.isChain_cons_cons.mp chain
    rw [List.dropLast_cons_cons, List.forall_mem_cons] at asking
    have elapsed : g.elapsed = g.now - f.now := continues.trans (if_pos asking.1)
    rw [List.map_cons, List.sum_cons, ih chain asking.2, elapsed, List.getLast_cons_cons]
    ring

end Frame

namespace Scheduler

inductive Turn
  | schedule
  | refresh (now : Rat) (asks : Nat)

def Turn.now? : Turn → Option Rat
  | schedule => none
  | refresh now _ => some now

def asked (s : Scheduler Rat) (n : Nat) : Scheduler Rat :=
  (fun s => s.schedule.2)^[n] s

def turn (s : Scheduler Rat) : Turn → Option Frame × Scheduler Rat
  | .schedule => (none, s.schedule.2)
  | .refresh now asks => s.onRefresh now fun elapsed s => (⟨now, asks, elapsed⟩, s.asked asks)

def run (s : Scheduler Rat) : List Turn → List Frame
  | [] => []
  | t :: turns => (s.turn t).1.toList ++ (s.turn t).2.run turns

/-- The refreshes that run a frame: those with a request since the frame before began. -/
def delivered (waiting : Bool) : List Turn → List (Rat × Nat)
  | [] => []
  | .schedule :: turns => delivered true turns
  | .refresh now asks :: turns =>
    if waiting then (now, asks) :: delivered (0 < asks) turns else delivered false turns

variable {s : Scheduler Rat} {before : Option Frame} {waiting : Bool}

theorem asked_frame (inside : s.inFrame = true) (n : Nat) :
    (s.asked n).inFrame = true ∧ (s.asked n).last = s.last ∧
      (s.asked n).rescheduled = (s.rescheduled || decide (0 < n)) ∧
      (s.asked n).pending = (s.pending || decide (0 < n)) := by
  induction n generalizing s with
  | zero => simp [asked, inside]
  | succ n ih =>
    have asks : s.schedule.2.inFrame = true ∧ s.schedule.2.last = s.last ∧
        s.schedule.2.rescheduled = true ∧ s.schedule.2.pending = true := by
      by_cases pending : s.pending = true <;> simp [schedule, inside, pending]
    obtain ⟨inside', last, rescheduled, pending⟩ := ih asks.1
    have first : s.asked (n + 1) = s.schedule.2.asked n := Function.iterate_succ_apply _ _ _
    rw [first]
    refine ⟨inside', last.trans asks.2.1, rescheduled.trans ?_, pending.trans ?_⟩
    · simp [asks.2.2.1]
    · simp [asks.2.2.2]

/-- No frame runs, and the frame before is remembered if it has asked for another. -/
structure Between (before : Option Frame) (waiting : Bool) (s : Scheduler Rat) : Prop where
  outside : s.inFrame = false
  pending : s.pending = waiting
  last : s.last = (before.filter (0 < ·.asks)).map (·.now)

namespace Between

theorem schedule (between : Between before waiting s) : Between before true s.schedule.2 := by
  obtain ⟨outside, pending, last⟩ := between
  cases waiting with
  | true => simpa [Scheduler.schedule, outside, pending] using ⟨outside, pending, last⟩
  | false => simpa [Scheduler.schedule, outside, pending] using ⟨rfl, rfl, last⟩

theorem refresh_idle (between : Between before false s) (now : Rat) (asks : Nat) :
    s.turn (.refresh now asks) = (none, s) := by
  simp [turn, onRefresh, beginFrame, between.pending]

theorem elapsed (between : Between before true s) {now : Rat}
    (behind : ∀ f ∈ before, f.now ≤ now) :
    (s.last.elim Time.zero fun last => Time.nonneg (now - last)) = Frame.due before now := by
  rw [between.last]
  cases before with
  | none => rfl
  | some f =>
    by_cases asks : 0 < f.asks
    · simpa [Option.filter_some, Frame.due, asks] using
        Time.nonneg_of_le (sub_nonneg.mpr (behind f rfl))
    · simp [Option.filter_some, Frame.due, asks]

theorem refresh (between : Between before true s) {now : Rat}
    (behind : ∀ f ∈ before, f.now ≤ now) (asks : Nat) :
    let f : Frame := ⟨now, asks, Frame.due before now⟩
    ∃ t, s.turn (.refresh now asks) = (some f, t) ∧ Between (some f) (0 < asks) t := by
  intro f
  let begun : Scheduler Rat := { s with
    pending := false, inFrame := true, rescheduled := false, frames := s.frames + 1
    last := some now }
  obtain ⟨-, last, rescheduled, pending⟩ := asked_frame (s := begun) rfl asks
  refine ⟨(begun.asked asks).finishFrame, ?_, rfl, pending, ?_⟩
  · simp only [turn, onRefresh, beginFrame, between.pending, ↓reduceIte, between.elapsed behind]
    rfl
  -- The frame is remembered by its own requests; one that waited before counts no more.
  · simp only [finishFrame, last, rescheduled]
    by_cases asking : 0 < asks <;> simp [Option.filter_some, begun, f, asking]

theorem run (between : Between before waiting s) {turns : List Turn}
    (ordered : (turns.filterMap Turn.now?).Pairwise (· ≤ ·))
    (behind : ∀ f ∈ before, ∀ now ∈ turns.filterMap Turn.now?, f.now ≤ now) :
    (s.run turns).map (fun f => (f.now, f.asks)) = delivered waiting turns ∧
      (∀ f ∈ (s.run turns).head?, f.elapsed = Frame.due before f.now) ∧
      (s.run turns).IsChain Frame.Continues := by
  induction turns generalizing s before waiting with
  | nil => exact ⟨rfl, fun _ none => absurd none (by simp [Scheduler.run]), .nil⟩
  | cons t turns ih =>
    cases t with
    | schedule => exact ih between.schedule ordered behind
    | refresh now asks =>
      rw [show (Turn.refresh now asks :: turns).filterMap Turn.now? =
        now :: turns.filterMap Turn.now? from rfl] at ordered behind
      obtain ⟨first, ordered⟩ := List.pairwise_cons.mp ordered
      cases waiting with
      | false =>
        have still : s.run (.refresh now asks :: turns) = s.run turns := by
          rw [Scheduler.run, between.refresh_idle]
          rfl
        rw [still]
        exact ih between ordered fun f h later next => behind f h later (.tail _ next)
      | true =>
        obtain ⟨t, ran, between'⟩ := between.refresh (fun f h => behind f h now (.head _)) asks
        have begins : s.run (.refresh now asks :: turns) =
            ⟨now, asks, Frame.due before now⟩ :: t.run turns := by
          rw [Scheduler.run, ran]
          rfl
        obtain ⟨delivers, next, chain⟩ :=
          ih between' ordered fun f h later next => Option.mem_some.mp h ▸ first later next
        rw [begins]
        refine ⟨?_, ?_, List.isChain_cons.mpr ⟨next, chain⟩⟩
        · rw [List.map_cons, delivers]
          rfl
        · intro f h
          obtain rfl := Option.mem_some.mp h
          rfl

end Between

/-- Refreshes in the order of their times, with requests between the frames and in them. A frame is
run for each refresh with a request since the frame before began; its time counts from that frame if
the frame itself has asked, and is zero if only others have. So the times of frames in a row that
all asked add up to the way from the first, which nobody asked in a frame, to the last. -/
theorem elapsed_chained (host : Host) (turns : List Turn)
    (ordered : (turns.filterMap Turn.now?).Pairwise (· ≤ ·)) :
    let frames := ({ host } : Scheduler Rat).run turns
    frames.map (fun f => (f.now, f.asks)) = delivered false turns ∧
      (∀ f ∈ frames.head?, f.elapsed = 0) ∧
      (∀ early f g late, frames = early ++ f :: g :: late →
        g.elapsed = if 0 < f.asks then g.now - f.now else 0) ∧
      ∀ early f rest late, frames = early ++ (f :: rest) ++ late →
        (∀ g ∈ early.getLast?, g.asks = 0) → (∀ g ∈ (f :: rest).dropLast, 0 < g.asks) →
        ((f :: rest).map (·.elapsed)).sum =
          ((f :: rest).getLast (List.cons_ne_nil _ _)).now - f.now := by
  intro frames
  have fresh : Between none false ({ host } : Scheduler Rat) := ⟨rfl, rfl, rfl⟩
  obtain ⟨delivers, first, chain⟩ := fresh.run ordered fun _ none => nomatch none
  refine ⟨delivers, first, ?_, ?_⟩
  · intro early f g late split
    have chain : (early ++ f :: g :: late).IsChain Frame.Continues := split ▸ chain
    exact (List.isChain_cons_cons.mp (List.isChain_append.mp chain).2.1).1
  · intro early f rest late split begins asking
    have chain : (early ++ (f :: rest) ++ late).IsChain Frame.Continues := split ▸ chain
    obtain ⟨into, inside, -⟩ := List.isChain_append.mp chain
    obtain ⟨-, along, joins⟩ := List.isChain_append.mp into
    have none_before : f.elapsed = 0 := by
      cases last : early.getLast? with
      | none =>
        rw [List.getLast?_eq_none_iff] at last
        have head : f ∈ frames.head? := by simp [split, last]
        exact first f head
      | some g =>
        have unasked : ¬ 0 < g.asks := (begins g last).not_gt
        exact (joins g last f rfl).trans (if_neg unasked)
    rw [List.map_cons, List.sum_cons, none_before, zero_add]
    exact Frame.sum_elapsed along asking

theorem elapsed_chained_twice :
    let turns : List Turn := [.refresh 1 2, .schedule, .refresh 5 2, .schedule, .refresh 8 1,
      .refresh (25 / 2) 0, .refresh 13 1, .schedule, .schedule, .refresh 20 1, .refresh 20 0]
    let frames := ({} : Scheduler Rat).run turns
    (turns.filterMap Turn.now?).Pairwise (· ≤ ·) ∧
      frames = [⟨5, 2, 0⟩, ⟨8, 1, 3⟩, ⟨25 / 2, 0, 9 / 2⟩, ⟨20, 1, 0⟩, ⟨20, 0, 0⟩] ∧
      frames.map (fun f => (f.now, f.asks)) = delivered false turns ∧
      ((frames.take 3).map (·.elapsed)).sum = 25 / 2 - 5 := by
  intro turns frames
  have ordered : (turns.filterMap Turn.now?).Pairwise (· ≤ ·) := by decide +kernel
  obtain ⟨delivers, -, -, shared⟩ := elapsed_chained {} turns ordered
  have ran : frames = [] ++ [⟨5, 2, 0⟩, ⟨8, 1, 3⟩, ⟨25 / 2, 0, 9 / 2⟩] ++
    [⟨20, 1, 0⟩, ⟨20, 0, 0⟩] := by decide +kernel
  refine ⟨ordered, ran, delivers, ?_⟩
  rw [show frames.take 3 = [⟨5, 2, 0⟩, ⟨8, 1, 3⟩, ⟨25 / 2, 0, 9 / 2⟩] by rw [ran]; rfl]
  exact shared [] _ _ _ ran (fun _ none => nomatch none) (by decide)

end Scheduler

end TurtlePlayback.Playback
