import Mathlib.Data.List.Basic
import TurtlePlayback.Proofs.ExceptResults
import TurtlePlayback.Proofs.StepCounts

namespace TurtlePlayback

open Script Canvas

structure Canvas.Line.Drawable (l : Line) : Prop where
  start : l.start.isFinite
  stop : l.stop.isFinite
  color : l.color.isFinite
  width : l.width.isFinite
  nonneg : 0.0 ≤ l.width

namespace Turtle

variable {t t' t'' : Turtle} {e : Effect}

def Effect.Admitted (t : Turtle) : Effect → Prop
  | .move p => p.isFinite ∧ (t.penDown → t.lines.size < maxLines)
  | .color c => c.isFinite
  | .width w => w.isFinite ∧ 0.0 ≤ w
  | .paint c => c.isFinite
  | .say _ => t.printed.size < maxPrints
  | _ => True

theorem zero_le {w : Float} (finite : w.isFinite) (h : ¬ w < 0.0) : 0.0 ≤ w := by
  -- Not to be below zero is not to be at least zero: what is no number is neither.
  have zero : (0.0 : Float).toModel.unpack = .zero .positive := rfl
  have finite : w.toModel.unpack.isFinite := finite
  have h : ¬ w.toModel.unpack.lt (0.0 : Float).toModel.unpack := mt decide_eq_true_iff.mpr h
  apply decide_eq_true_iff.mpr
  change (0.0 : Float).toModel.unpack.le w.toModel.unpack
  rw [zero] at h ⊢
  cases unpacked : w.toModel.unpack with
  | notANumber =>
    rw [unpacked] at finite
    cases finite
  | infinity s =>
    rw [unpacked] at finite
    cases finite
  | zero s => rfl
  | finite s m e positive =>
    rw [unpacked] at h
    cases s with
    | positive => rfl
    | negative => exact absurd rfl h

theorem moveTo_admitted {p : Point} (met : t.moveTo p = .ok e) : e.Admitted t := by
  simp only [moveTo] at met
  split at met
  · cases met
  · next finite =>
    split at met
    · cases met
    · next room =>
      cases met
      refine ⟨by simpa using finite, fun down => ?_⟩
      simpa [down] using room

theorem headTo_admitted {degrees : Float} (met : headTo degrees = .ok e) : e.Admitted t := by
  simp only [headTo] at met
  split at met
  · cases met
    trivial
  · cases met

theorem colorArg_finite {args : List Value} {c : Color} (met : colorArg args = .ok c) :
    c.isFinite := by
  have mixed {r g b a : Float} (met : (if (Color.mk r g b a).isFinite then .ok (Color.mk r g b a)
      else .error .colorNotFinite : Except Fault Color) = .ok c) : c.isFinite := by
    split at met
    · next finite =>
      cases met
      exact finite
    · cases met
  obtain ⟨r, -, met⟩ := bind_ok.mp met
  obtain ⟨g, -, met⟩ := bind_ok.mp met
  obtain ⟨b, -, met⟩ := bind_ok.mp met
  split at met
  · exact mixed met
  · obtain ⟨a, -, met⟩ := bind_ok.mp met
    exact mixed met

theorem effect_admitted {args : List Value} {c : Command} (met : t.effect args c = .ok e) :
    e.Admitted t := by
  cases c with
  | forward =>
    obtain ⟨d, -, met⟩ := bind_ok.mp met
    exact moveTo_admitted met
  | turn =>
    obtain ⟨d, -, met⟩ := bind_ok.mp met
    exact headTo_admitted met
  | goto =>
    obtain ⟨x, -, met⟩ := bind_ok.mp met
    obtain ⟨y, -, met⟩ := bind_ok.mp met
    exact moveTo_admitted met
  | heading =>
    obtain ⟨d, -, met⟩ := bind_ok.mp met
    exact headTo_admitted met
  | color =>
    obtain ⟨c, finite, same⟩ := bind_ok.mp met
    cases same
    exact colorArg_finite finite
  | width =>
    obtain ⟨w, -, met⟩ := bind_ok.mp met
    split at met
    · cases met
    · next bounds =>
      cases met
      simp only [Bool.or_eq_true, Bool.not_eq_true', decide_eq_true_eq, not_or] at bounds
      have finite := Bool.not_eq_false _ ▸ bounds.1
      exact ⟨finite, zero_le finite bounds.2⟩
  | penUp =>
    cases met
    trivial
  | penDown =>
    cases met
    trivial
  | background =>
    obtain ⟨c, finite, same⟩ := bind_ok.mp met
    cases same
    exact colorArg_finite finite
  | assert =>
    obtain ⟨holds, -, met⟩ := bind_ok.mp met
    split at met
    · cases met
      trivial
    · cases met
  | print =>
    simp only [effect] at met
    split at met
    · cases met
    · next room =>
      cases met
      exact Nat.lt_of_not_le room

structure Deed where
  before : Turtle
  effect : Effect

namespace Deed

def after (d : Deed) : Turtle :=
  d.before.apply d.effect

def isMove (d : Deed) : Bool :=
  match d.effect with
  | .move _ => true
  | _ => false

def line? (d : Deed) : Option Line :=
  match d.effect with
  | .move p =>
    if d.before.penDown then some ⟨d.before.position, p, d.before.color, d.before.width⟩ else none
  | _ => none

def background? (d : Deed) : Option Color :=
  match d.effect with
  | .paint c => some c
  | _ => none

def text? (d : Deed) : Option String :=
  match d.effect with
  | .say text => some text
  | _ => none

variable {d : Deed} {l : Line}

theorem line?_eq_some (drawn : d.line? = some l) :
    l.start = d.before.position ∧ l.stop = d.after.position := by
  obtain ⟨t, e⟩ := d
  cases e with
  | move p =>
    by_cases down : t.penDown
    · simp only [line?, if_pos down, Option.some.injEq] at drawn
      subst drawn
      simp [after, apply, down]
    · simp [line?, down] at drawn
  | _ => cases drawn

theorem isMove_of_line? (moves : d.isMove) (down : d.before.penDown) : d.line?.isSome := by
  obtain ⟨t, e⟩ := d
  cases e with
  | move p =>
    have down : t.penDown = true := down
    simp [line?, down]
  | _ => cases moves

theorem after_lines (d : Deed) : d.after.lines.toList = d.before.lines.toList ++ d.line?.toList := by
  obtain ⟨t, e⟩ := d
  cases e with
  | move p => by_cases down : t.penDown <;> simp [after, apply, line?, down]
  | _ => simp [after, apply, line?]

theorem after_printed (d : Deed) :
    d.after.printed.toList = d.before.printed.toList ++ d.text?.toList := by
  obtain ⟨t, e⟩ := d
  cases e with
  | move p => by_cases down : t.penDown <;> simp [after, apply, text?, down]
  | _ => simp [after, apply, text?]

theorem after_background (d : Deed) : d.after.background = d.background?.or d.before.background := by
  obtain ⟨t, e⟩ := d
  cases e with
  | move p => by_cases down : t.penDown <;> simp [after, apply, background?, down]
  | _ => simp [after, apply, background?]

theorem after_position (still : d.isMove = false) : d.after.position = d.before.position := by
  obtain ⟨t, e⟩ := d
  cases e with
  | move p => cases still
  | _ => rfl

end Deed

/-- Deeds that lead a turtle on, each admitted by the turtle in front of it. -/
inductive Leads : Turtle → List Deed → Turtle → Prop
  | stay (t : Turtle) : Leads t [] t
  | act {d : Deed} {ds : List Deed} {t : Turtle} (admitted : d.effect.Admitted d.before)
      (rest : Leads d.after ds t) : Leads d.before (d :: ds) t

structure WithinBounds (t : Turtle) : Prop where
  position : t.position.isFinite
  color : t.color.isFinite
  width : t.width.isFinite
  nonneg : 0.0 ≤ t.width
  lines : t.lines.size ≤ maxLines
  drawable : ∀ l ∈ t.lines, l.Drawable
  background : ∀ c ∈ t.background, c.isFinite
  printed : t.printed.size ≤ maxPrints

theorem fresh_withinBounds : WithinBounds {} where
  position := by decide +kernel
  color := by decide +kernel
  width := by decide +kernel
  nonneg := by decide +kernel
  lines := Nat.zero_le _
  drawable := by simp
  background := by simp
  printed := Nat.zero_le _

theorem WithinBounds.apply (within : t.WithinBounds) (admitted : e.Admitted t) :
    (t.apply e).WithinBounds := by
  cases e with
  | move p =>
    obtain ⟨finite, room⟩ := admitted
    simp only [Turtle.apply]
    split
    · next down =>
      refine { within with position := finite, lines := ?_, drawable := ?_ }
      · rw [Array.size_push]
        exact room down
      · intro l member
        rcases Array.mem_push.mp member with old | rfl
        · exact within.drawable l old
        · exact ⟨within.position, finite, within.color, within.width, within.nonneg⟩
    · exact { within with position := finite }
  | head degrees => exact { within with }
  | color c => exact { within with color := admitted }
  | width w => exact { within with width := admitted.1, nonneg := admitted.2 }
  | pen down => exact { within with }
  | paint c =>
    refine { within with background := ?_ }
    rintro _ ⟨⟩
    exact admitted
  | say text =>
    refine { within with printed := ?_ }
    simp only [Turtle.apply, Array.size_push]
    exact admitted
  | nothing => exact within

namespace Leads

variable {ds ds' : List Deed}

theorem append (first : Leads t ds t') (second : Leads t' ds' t'') : Leads t (ds ++ ds') t'' := by
  induction first with
  | stay => exact second
  | act admitted _ ih => exact .act admitted (ih second)

theorem step (leads : Leads t ds t') : t'.step = t.step := by
  induction leads with
  | stay => rfl
  | @act d _ _ _ _ ih => rw [ih, Deed.after, apply_step]

theorem withinBounds (leads : Leads t ds t') (within : t.WithinBounds) : t'.WithinBounds := by
  induction leads with
  | stay => exact within
  | act admitted _ ih => exact ih (within.apply admitted)

theorem lines (leads : Leads t ds t') :
    t'.lines.toList = t.lines.toList ++ ds.filterMap Deed.line? := by
  induction leads with
  | stay => simp
  | @act d ds _ _ _ ih =>
    rw [ih, d.after_lines, List.append_assoc]
    cases made : d.line? <;> simp [made]

theorem printed (leads : Leads t ds t') :
    t'.printed.toList = t.printed.toList ++ ds.filterMap Deed.text? := by
  induction leads with
  | stay => simp
  | @act d ds _ _ _ ih =>
    rw [ih, d.after_printed, List.append_assoc]
    cases made : d.text? <;> simp [made]

theorem background (leads : Leads t ds t') :
    t'.background = (ds.filterMap Deed.background?).getLast?.or t.background := by
  induction leads with
  | stay => simp
  | @act d ds _ _ _ ih =>
    rw [ih, d.after_background]
    cases made : d.background? with
    | none => simp [made]
    | some c =>
      rw [List.filterMap_cons_some made, List.getLast?_cons, Option.some_or]
      cases (ds.filterMap Deed.background?).getLast? <;> rfl

end Leads

end Turtle

namespace Script.Run

open Turtle

variable {m : Machine Turtle} {i : Instr}

def deed? (m : Machine Turtle) : Instr → Option Deed
  | .command c args =>
    if (m.stack.take args).length < args then none
    else
      match m.host.effect (m.stack.take args).reverse c with
      | .ok e => some ⟨m.host, e⟩
      | .error _ => none
  | _ => none

def deedsFrom (c : Code) : (pc : Nat) → List Instr → Machine Turtle → List Deed
  | _, [], _ => []
  | pc, i :: is, m =>
    (deed? m i).toList ++
      match located c.offsets[pc]? (instr c.literals i) m with
      | .ok _ m' => deedsFrom c (pc + 1) is m'
      | .error _ _ => []

/-- What code has the turtle do, up to its end or to the instruction that fails. -/
def deeds (c : Code) (m : Machine Turtle) : List Deed :=
  deedsFrom c 0 c.instrs.toList { m with stack := [] }

theorem instr_leads (literals : Array Literal) (i : Instr) (m : Machine Turtle) :
    Leads m.host (deed? m i).toList (behind (instr literals i m)).host := by
  have silent (other : ∀ c args, i ≠ .command c args) :
      Leads m.host [] (behind (instr literals i m)).host := by
    rw [instr_silent other]
    exact .stay _
  cases i with
  | command c args =>
    simp only [deed?, instr, command]
    split
    · exact .stay _
    · simp only [Host.perform]
      cases met : m.host.effect (m.stack.take args).reverse c with
      | error f => exact .stay _
      | ok e =>
        let d : Deed := ⟨m.host, e⟩
        have admitted : d.effect.Admitted d.before := effect_admitted met
        exact .act admitted (.stay _)
  | _ => exact silent (by simp)

theorem instrs_leads (c : Code) (pc : Nat) (is : List Instr) (m : Machine Turtle) :
    Leads m.host (deedsFrom c pc is m) (behind (instrs c pc is m)).host := by
  induction is generalizing pc m with
  | nil => exact .stay _
  | cons i is ih =>
    have first := instr_leads c.literals i m
    rw [← behind_located c.offsets[pc]?] at first
    simp only [deedsFrom, instrs, Bind.bind, EStateM.bind]
    cases ran : located c.offsets[pc]? (instr c.literals i) m with
    | ok _ m' =>
      rw [ran] at first
      exact first.append (ih (pc + 1) m')
    | error t m' =>
      rw [ran] at first
      exact first.append (.stay _)

theorem code_leads (c : Code) (m : Machine Turtle) :
    Leads m.host (deeds c m) (behind (code c m)).host := by
  rw [behind_code]
  exact instrs_leads c 0 c.instrs.toList { m with stack := [] }

end Script.Run

end TurtlePlayback
