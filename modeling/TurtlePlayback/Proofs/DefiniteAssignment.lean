import TurtlePlayback.Proofs.ExpressionCode
import TurtlePlayback.Proofs.RunParts
import TurtlePlayback.Turtle

/-!
Compiled statements never read a variable before its assignment, and never give a function or a
command a number of arguments that it does not admit. What they can fail with is a value of the
wrong kind, a pair of bounds the wrong way round, or what the turtle refuses.
-/

namespace TurtlePlayback

namespace Turtle

open Script Canvas

variable {α β : Type}

def Present (x : Except Fault α) : Prop :=
  x ≠ .error .missingArgument

theorem Present.bind {x : Except Fault α} {k : α → Except Fault β} (present : Present x)
    (next : ∀ a, Present (k a)) : Present (x >>= k) := by
  cases x with
  | error f =>
    intro missing
    cases missing
    exact present rfl
  | ok a => exact next a

theorem present_ok (a : α) : Present (.ok a) :=
  nofun

theorem numberArg_present {args : List Value} {i : Nat} (there : i < args.length) :
    Present (numberArg args i) := by
  simp only [numberArg, List.getElem?_eq_getElem there]
  cases args[i] <;> exact nofun

theorem truthArg_present {args : List Value} {i : Nat} (there : i < args.length) :
    Present (truthArg args i) := by
  simp only [truthArg, List.getElem?_eq_getElem there]
  cases args[i] <;> exact nofun

theorem colorArg_present {args : List Value} (there : 3 ≤ args.length) :
    Present (colorArg args) := by
  refine (numberArg_present (by omega)).bind fun r => ?_
  refine (numberArg_present (by omega)).bind fun g => ?_
  refine (numberArg_present (by omega)).bind fun b => ?_
  have mixed (a : Float) : Present (if (Color.mk r g b a).isFinite then .ok (Color.mk r g b a)
      else .error .colorNotFinite) := by
    split
    · exact present_ok _
    · exact nofun
  split
  · exact mixed 1.0
  · exact (numberArg_present (by omega)).bind mixed

theorem moveTo_present (t : Turtle) (p : Point) : Present (t.moveTo p) := by
  simp only [moveTo]
  split
  · exact nofun
  · split <;> exact nofun

theorem headTo_present (degrees : Float) : Present (headTo degrees) := by
  simp only [headTo]
  split <;> exact nofun

theorem effect_present (t : Turtle) (c : Command) {args : List Value}
    (least : c.arity.1 ≤ args.length) : Present (t.effect args c) := by
  cases c with
  | forward => exact (numberArg_present least).bind fun _ => t.moveTo_present _
  | turn => exact (numberArg_present least).bind fun _ => headTo_present _
  | goto =>
    refine (numberArg_present (Nat.lt_of_succ_lt least)).bind fun x => ?_
    exact (numberArg_present least).bind fun y => t.moveTo_present _
  | heading => exact (numberArg_present least).bind fun _ => headTo_present _
  | color => exact (colorArg_present least).bind fun _ => present_ok _
  | width =>
    refine (numberArg_present least).bind fun w => ?_
    split
    · exact nofun
    · exact present_ok _
  | penUp => exact present_ok _
  | penDown => exact present_ok _
  | background => exact (colorArg_present least).bind fun _ => present_ok _
  | assert =>
    refine (truthArg_present least).bind fun holds => ?_
    split
    · exact present_ok _
    · exact nofun
  | print =>
    simp only [effect]
    split <;> exact nofun

end Turtle

namespace Script

variable {σ ε α β : Type}

def Fault.isInternal : Fault ε → Bool
  | .literalRange => true
  | .slotRange => true
  | .readBeforeAssignment => true
  | .underflow => true
  | .underflowInCall => true
  | .underflowInCommand => true
  | .leftOver _ => true
  | .type _ => false
  | .clampBounds _ _ => false
  | .refused _ => false

def Fault.isOfValues : Fault ε → Bool
  | .type _ => true
  | .clampBounds _ _ => true
  | _ => false

/-- A result as wished, or a fault of the values at hand. -/
def Sound (wish : α → Prop) : Except (Fault ε) α → Prop
  | .ok a => wish a
  | .error f => f.isOfValues = true

theorem Sound.bind {wish : α → Prop} {wish' : β → Prop} {x : Except (Fault ε) α}
    {k : α → Except (Fault ε) β} (sound : Sound wish x) (next : ∀ a, wish a → Sound wish' (k a)) :
    Sound wish' (x >>= k) := by
  cases x with
  | error f => exact sound
  | ok a => exact next a sound

namespace Value

theorem needNumber_sound (v : Value) : Sound (ε := ε) (fun _ => True) v.needNumber := by
  cases v with
  | number x => trivial
  | _ => rfl

theorem needTruth_sound (v : Value) : Sound (ε := ε) (fun _ => True) v.needTruth := by
  cases v with
  | truth b => trivial
  | _ => rfl

theorem mapNumber_sound (f : Float → Float) (v : Value) :
    Sound (ε := ε) IsSet (v.mapNumber f) :=
  v.needNumber_sound.bind fun _ _ => number_isSet _

theorem arithmetic_sound {f : Float → Float → Value} (given : ∀ x y, (f x y).IsSet) (a b : Value) :
    Sound (ε := ε) IsSet (a.arithmetic f b) :=
  b.needNumber_sound.bind fun y _ => a.needNumber_sound.bind fun x _ => given x y

theorem logic_sound (f : Bool → Bool → Bool) (a b : Value) :
    Sound (ε := ε) IsSet (a.logic f b) :=
  b.needTruth_sound.bind fun _ _ => a.needTruth_sound.bind fun _ _ => truth_isSet _

theorem equality_sound (wanted : Bool) (a b : Value) :
    Sound (ε := ε) IsSet (a.equality wanted b) := by
  have numbers : Sound (ε := ε) IsSet (do
      let x ← a.needNumber
      let y ← b.needNumber
      return truth ((x == y) == wanted)) :=
    a.needNumber_sound.bind fun _ _ => b.needNumber_sound.bind fun _ _ => truth_isSet _
  cases a with
  | truth x =>
    cases b with
    | truth y => exact truth_isSet _
    | _ => exact numbers
  | _ => exact numbers

end Value

open Value

theorem UnaryOp.apply_sound (op : UnaryOp) (v : Value) : Sound (ε := ε) IsSet (op.apply v) := by
  cases op with
  | neg => exact v.mapNumber_sound _
  | not => exact v.needTruth_sound.bind fun _ _ => truth_isSet _

theorem BinaryOp.apply_sound (op : BinaryOp) (a b : Value) :
    Sound (ε := ε) IsSet (op.apply a b) := by
  cases op with
  | eq => exact a.equality_sound true b
  | ne => exact a.equality_sound false b
  | and => exact a.logic_sound _ b
  | or => exact a.logic_sound _ b
  | lt | le | gt | ge => exact a.arithmetic_sound (fun _ _ => truth_isSet _) b
  | _ => exact a.arithmetic_sound (fun _ _ => number_isSet _) b

theorem Function.apply_sound (f : Function) {vs : List Value} (count : vs.length = f.arity) :
    Sound (ε := ε) IsSet (f.apply vs) := by
  cases f with
  | min | max =>
    obtain ⟨a, b, rfl⟩ := List.length_eq_two.mp count
    exact a.arithmetic_sound (fun _ _ => number_isSet _) b
  | clamp =>
    obtain ⟨a, b, c, rfl⟩ := List.length_eq_three.mp count
    refine c.needNumber_sound.bind fun high _ => ?_
    refine b.needNumber_sound.bind fun low _ => ?_
    refine a.needNumber_sound.bind fun x _ => ?_
    split
    · rfl
    · exact number_isSet _
  | lerp =>
    obtain ⟨a, b, c, rfl⟩ := List.length_eq_three.mp count
    refine c.needNumber_sound.bind fun t _ => ?_
    refine b.needNumber_sound.bind fun y _ => ?_
    exact a.needNumber_sound.bind fun x _ => number_isSet _
  | _ =>
    obtain ⟨a, rfl⟩ := List.length_eq_one_iff.mp count
    exact a.mapNumber_sound _

def Scene.Assigns (scope : Scope) (scene : Scene σ) : Prop :=
  ∀ n ∈ scope, (scene.store n).IsSet

variable [Host σ ε] {scope scope' : Scope} {offset : Nat} {c d : Code} {scene : Scene σ}

theorem lowerName_sound (assigned : scene.Assigns scope) {n : String} {nameOffset : Nat}
    (lowered : lowerName scope offset c n nameOffset = .ok d) :
    Sound (ε := ε) IsSet (scene.value n) := by
  simp only [Scene.value]
  split
  · exact number_isSet _
  · next noReading =>
    split
    · exact number_isSet _
    · next noConstant =>
      have declared : n ∈ scope := by
        by_contra new
        simp only [lowerName, Scope.slot?_eq_none.mpr new, noReading, noConstant] at lowered
        cases lowered
      have set := assigned n declared
      cases held : scene.store n with
      | unset => exact absurd held set
      | number x => exact number_isSet x
      | truth b => exact truth_isSet b

mutual

theorem lowerExpr_sound (assigned : scene.Assigns scope) {c d : Code} (e : Expr)
    (lowered : lowerExpr scope offset c e = .ok d) : Sound (ε := ε) IsSet (e.value scene) := by
  cases e with
  | literal l => cases l <;> exact nofun
  | name n nameOffset =>
    simp only [Expr.value]
    exact lowerName_sound assigned lowered
  | unary op e =>
    simp only [lowerExpr, bind_ok] at lowered
    obtain ⟨inner, operand, -⟩ := lowered
    simp only [Expr.value]
    exact (lowerExpr_sound assigned e operand).bind fun v _ => op.apply_sound v
  | binary op l r =>
    simp only [lowerExpr, bind_ok] at lowered
    obtain ⟨left, hl, right, hr, -⟩ := lowered
    simp only [Expr.value]
    refine (lowerExpr_sound assigned l hl).bind fun a _ => ?_
    exact (lowerExpr_sound assigned r hr).bind fun b _ => op.apply_sound a b
  | call f args callOffset =>
    simp only [lowerExpr, bind_ok] at lowered
    obtain ⟨function, named, inner, hargs, -⟩ := lowered
    obtain ⟨found, arity⟩ := Code.callee_eq_ok named
    simp only [Expr.value, found]
    exact (lowerExprs_sound assigned args hargs).bind fun vs count =>
      function.apply_sound (count.trans arity)

theorem lowerExprs_sound (assigned : scene.Assigns scope) {c d : Code} (es : List Expr)
    (lowered : lowerExprs scope offset c es = .ok d) :
    Sound (ε := ε) (fun vs => vs.length = es.length) (Expr.values scene es) := by
  cases es with
  | nil => exact (rfl : ([] : List Value).length = 0)
  | cons e es =>
    simp only [lowerExprs, bind_ok] at lowered
    obtain ⟨inner, first, rest⟩ := lowered
    simp only [Expr.values]
    refine (lowerExpr_sound assigned e first).bind fun v _ => ?_
    exact (lowerExprs_sound assigned es rest).bind fun vs count => congrArg (· + 1) count

end

omit [Host σ ε]

def Fault.Accounted : Fault Turtle.Fault → Prop
  | .refused cause => cause ≠ .missingArgument
  | f => f.isOfValues = true

/-- A run keeps what was assigned, assigns the variables of `scope'` if it ends well, and fails only
for a reason. -/
structure Keeps (scope scope' : Scope) (out : Except (Trap Turtle.Fault) Unit × Scene Turtle) :
    Prop where
  kept : out.2.Assigns scope
  gained : out.1 = .ok () → out.2.Assigns scope'
  accounted : ∀ t, out.1 = .error t → t.fault.Accounted

theorem Scene.Assigns.assign (assigned : scene.Assigns scope) {v : Value} (set : v.IsSet)
    (n : String) : (scene.assign n v).Assigns (scope.declare n).1 := by
  intro m declared
  by_cases same : m = n
  · subst same
    simpa [Scene.assign] using set
  · have older : m ∈ scope := by
      simp only [Scope.declare] at declared
      split at declared
      · exact declared
      · exact (Array.mem_push.mp declared).resolve_right same
    simpa [Scene.assign, Function.update_of_ne same] using assigned m older

theorem Scene.Assigns.mono (assigned : scene.Assigns scope') (grown : scope.toList <+: scope'.toList) :
    scene.Assigns scope := by
  intro n declared
  exact assigned n (Array.mem_toList_iff.mp (grown.subset (Array.mem_toList_iff.mpr declared)))

variable {scene : Scene Turtle}

theorem Keeps.after {wish : α → Prop} {x : Except (Fault Turtle.Fault) α}
    {act : α → Except (Trap Turtle.Fault) Unit × Scene Turtle} (assigned : scene.Assigns scope)
    (sound : Sound wish x) (next : ∀ a, wish a → Keeps scope scope' (act a)) (offset : Nat) :
    Keeps scope scope' (scene.after offset x act) := by
  cases x with
  | ok a => exact next a sound
  | error f =>
    refine ⟨assigned, nofun, ?_⟩
    intro t failed
    cases failed
    cases f <;> simp_all [Sound, Fault.isOfValues, Fault.Accounted]

theorem order_keeps (assigned : scene.Assigns scope) (offset : Nat) {c : Command} {vs : List Value}
    (least : c.arity.1 ≤ vs.length) : Keeps scope scope (scene.order offset c vs) := by
  have present := Turtle.effect_present scene.host c least
  simp only [Scene.order, Host.perform]
  cases effected : scene.host.effect vs c with
  | ok e => exact ⟨assigned, fun _ => assigned, nofun⟩
  | error f =>
    refine ⟨assigned, nofun, ?_⟩
    intro t failed
    cases failed
    rintro rfl
    exact present effected

theorem lowerStmt_keeps (assigned : scene.Assigns scope) {s : Stmt}
    (lowered : lowerStmt scope c s = .ok (scope', d)) : Keeps scope scope' (s.run scene) := by
  cases lowerStmt_lowers lowered with
  | @declare name value offset inner _ computed =>
    refine Keeps.after assigned (lowerExpr_sound assigned value computed) (fun v set => ?_) offset
    have declared := assigned.assign set name
    exact ⟨declared.mono (scope.declare_prefix name), fun _ => declared, nofun⟩
  | @assign name value offset slot inner found computed =>
    refine Keeps.after assigned (lowerExpr_sound assigned value computed) (fun v set => ?_) offset
    have still := (assigned.assign set name).mono (scope.declare_prefix name)
    exact ⟨still, fun _ => still, nofun⟩
  | @command name args offset command inner named computed =>
    obtain ⟨found, least, -⟩ := Code.commandNamed_eq_ok named
    refine Keeps.after assigned (lowerExprs_sound assigned args computed) (fun vs count => ?_) offset
    simp only [found]
    exact order_keeps assigned offset (count ▸ least)

theorem lowerStmts_keeps (assigned : scene.Assigns scope) {ss : List Stmt}
    (lowered : lowerStmts scope c ss = .ok (scope', d)) :
    Keeps scope scope' (Stmt.runAll scene ss) := by
  induction ss generalizing scope scene c with
  | nil =>
    obtain ⟨rfl, -⟩ := Prod.mk.inj (Except.ok.inj lowered)
    exact ⟨assigned, fun _ => assigned, nofun⟩
  | cons s ss ih =>
    simp only [lowerStmts] at lowered
    split at lowered
    · next scope₁ inner first =>
      have keeps := lowerStmt_keeps assigned first
      have grown := (lowerStmt_lowers first).grown
      simp only [Stmt.runAll]
      split
      · next scene₁ ran =>
        rw [ran] at keeps
        have rest := ih (keeps.gained rfl) lowered
        exact ⟨rest.kept.mono grown, rest.gained, rest.accounted⟩
      · next t scene₁ ran =>
        rw [ran] at keeps
        exact ⟨keeps.kept, nofun, fun t' failed => keeps.accounted t' failed⟩
    · cases lowered

end Script

end TurtlePlayback
