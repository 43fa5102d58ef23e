import Mathlib.Algebra.Group.Nat.Defs
import TurtlePlayback.Proofs.BuiltExpressions

/-!
How high the trees of expressions get. The room bounds the way down that goes to no left operand. A
left operand is read before its operator, in room that the operator does not take from it: each of
the levels can put as many operators on an expression as there is room.
-/

namespace TurtlePlayback.Script

mutual

def Expr.height : Expr → Nat
  | .literal _ => 0
  | .name _ _ => 0
  | .unary _ e => e.height + 1
  | .binary _ l r => max l.height r.height + 1
  | .call _ args _ => Expr.heights args + 1

def Expr.heights : List Expr → Nat
  | [] => 0
  | e :: es => max e.height (Expr.heights es)

end

theorem Expr.heights_le {es : List Expr} {n : Nat} (h : ∀ e ∈ es, e.height ≤ n) :
    Expr.heights es ≤ n := by
  induction es with
  | nil => exact Nat.zero_le n
  | cons e es ih =>
    rw [List.forall_mem_cons] at h
    rw [Expr.heights]
    exact Nat.max_le.mpr ⟨h.1, ih h.2⟩

def unaryHeight : (room : Nat) → Nat
  | 0 => 0
  | room + 1 => unaryHeight room + 6 * room + 1

/-- The greatest height with operators of so many levels outside of parentheses. -/
def chainHeight (room levels : Nat) : Nat :=
  unaryHeight room + levels * room

theorem chainHeight_zero (room : Nat) : chainHeight room 0 = unaryHeight room := by
  simp [chainHeight]

theorem chainHeight_succ (room levels : Nat) :
    chainHeight room (levels + 1) = chainHeight room levels + room := by
  rw [chainHeight, chainHeight, Nat.succ_mul, Nat.add_assoc]

theorem chainHeight_mono {room more : Nat} (h : room ≤ more) (levels : Nat) :
    chainHeight room levels ≤ chainHeight more levels := by
  induction h with
  | refl => exact Nat.le_refl _
  | step _ ih =>
    apply Nat.le_trans ih
    simp only [chainHeight, unaryHeight, Nat.mul_succ]
    omega

theorem unaryHeight_succ (room : Nat) : unaryHeight (room + 1) = chainHeight room 6 + 1 := rfl

theorem chainHeight_all (room : Nat) : chainHeight room 6 = 3 * room ^ 2 + 4 * room := by
  induction room with
  | zero => rfl
  | succ room ih =>
    simp only [chainHeight, unaryHeight] at ih ⊢
    have square : (room + 1) ^ 2 = room ^ 2 + 2 * room + 1 := by
      rw [Nat.pow_two, Nat.pow_two, Nat.add_mul, Nat.mul_add]
      omega
    omega

theorem Built.height_le {room levels left : Nat} {e : Expr} (built : Built room levels left e) :
    e.height + left ≤ chainHeight room levels := by
  induction built with
  | literal => exact Nat.zero_le _
  | name => exact Nat.zero_le _
  | unary op operand ih =>
    rw [chainHeight_zero] at ih ⊢
    rw [Expr.height, unaryHeight]
    omega
  | @call room args f offset each ih =>
    have args_le : Expr.heights args ≤ chainHeight room 6 := Expr.heights_le ih
    rw [Expr.height, chainHeight_zero, unaryHeight_succ]
    omega
  | parens inner ih =>
    rw [chainHeight_zero, unaryHeight_succ]
    omega
  | operand tighter ih =>
    rw [chainHeight_succ]
    omega
  | @operator room levels left l r op before behind ihl ihr =>
    have less_room := chainHeight_mono before.left_le (levels + 1)
    have fewer_levels := chainHeight_mono (Nat.le_add_right left 1) levels
    rw [chainHeight_succ (left + 1)] at less_room
    rw [Expr.height]
    omega
  | done open_end ih => omega

theorem parse_height_le {source : String} {t : Tree} (parsed : Tree.parse source = .ok t) :
    ∀ e ∈ t.expressions, e.height ≤ chainHeight maxNesting 6 :=
  fun e member => (parse_built parsed e member).height_le

mutual

/-- The height without the left operands. -/
def Expr.rightHeight : Expr → Nat
  | .literal _ => 0
  | .name _ _ => 0
  | .unary _ e => e.rightHeight + 1
  | .binary _ _ r => r.rightHeight + 1
  | .call _ args _ => Expr.rightHeights args + 1

def Expr.rightHeights : List Expr → Nat
  | [] => 0
  | e :: es => max e.rightHeight (Expr.rightHeights es)

end

mutual

/-- The outermost left operands, each with the depth at which it stands. -/
def Expr.leftOperands (depth : Nat) : Expr → List (Nat × Expr)
  | .literal _ => []
  | .name _ _ => []
  | .unary _ e => e.leftOperands (depth + 1)
  | .binary _ l r => (depth + 1, l) :: r.leftOperands (depth + 1)
  | .call _ args _ => Expr.leftOperandsAll (depth + 1) args

def Expr.leftOperandsAll (depth : Nat) : List Expr → List (Nat × Expr)
  | [] => []
  | e :: es => e.leftOperands depth ++ Expr.leftOperandsAll depth es

end

def Fits (n : Nat) (operands : List (Nat × Expr)) : Prop :=
  ∀ p ∈ operands, p.1 + p.2.height ≤ n

mutual

theorem Expr.height_le_iff (e : Expr) (depth n : Nat) :
    depth + e.height ≤ n ↔ depth + e.rightHeight ≤ n ∧ Fits n (e.leftOperands depth) := by
  cases e with
  | literal => simp [Expr.height, Expr.rightHeight, Expr.leftOperands, Fits]
  | name => simp [Expr.height, Expr.rightHeight, Expr.leftOperands, Fits]
  | unary op e =>
    have inner := Expr.height_le_iff e (depth + 1) n
    rw [Expr.height, Expr.rightHeight, Expr.leftOperands, ← Nat.succ_add_eq_add_succ,
      ← Nat.succ_add_eq_add_succ]
    exact inner
  | binary op l r =>
    have behind := Expr.height_le_iff r (depth + 1) n
    have both : Fits n ((depth + 1, l) :: r.leftOperands (depth + 1)) ↔
        depth + 1 + l.height ≤ n ∧ Fits n (r.leftOperands (depth + 1)) := List.forall_mem_cons
    rw [Expr.height, Expr.rightHeight, Expr.leftOperands, both]
    constructor
    · intro low
      have right_low : depth + 1 + r.height ≤ n := by omega
      obtain ⟨path, fits⟩ := behind.mp right_low
      exact ⟨by omega, by omega, fits⟩
    · rintro ⟨path, left_low, fits⟩
      have right_low := behind.mpr ⟨by omega, fits⟩
      omega
  | call f args offset =>
    have inner := Expr.heights_le_iff args (depth + 1) n
    rw [Expr.height, Expr.rightHeight, Expr.leftOperands, ← Nat.succ_add_eq_add_succ,
      ← Nat.succ_add_eq_add_succ]
    exact inner

theorem Expr.heights_le_iff (es : List Expr) (depth n : Nat) :
    depth + Expr.heights es ≤ n ↔
      depth + Expr.rightHeights es ≤ n ∧ Fits n (Expr.leftOperandsAll depth es) := by
  cases es with
  | nil => simp [Expr.heights, Expr.rightHeights, Expr.leftOperandsAll, Fits]
  | cons e es =>
    have first := Expr.height_le_iff e depth n
    have others := Expr.heights_le_iff es depth n
    have both : Fits n (e.leftOperands depth ++ Expr.leftOperandsAll depth es) ↔
        Fits n (e.leftOperands depth) ∧ Fits n (Expr.leftOperandsAll depth es) :=
      List.forall_mem_append
    rw [Expr.heights, Expr.rightHeights, Expr.leftOperandsAll, both, ← Nat.add_max_add_left,
      ← Nat.add_max_add_left, Nat.max_le, Nat.max_le, first, others]
    exact and_and_and_comm

end

theorem Expr.rightHeights_le {es : List Expr} {n : Nat} (h : ∀ e ∈ es, e.rightHeight ≤ n) :
    Expr.rightHeights es ≤ n := by
  induction es with
  | nil => exact Nat.zero_le n
  | cons e es ih =>
    rw [List.forall_mem_cons] at h
    rw [Expr.rightHeights]
    exact Nat.max_le.mpr ⟨h.1, ih h.2⟩

theorem Built.rightHeight_le {room levels left : Nat} {e : Expr}
    (built : Built room levels left e) : e.rightHeight ≤ room := by
  induction built with
  | literal => exact Nat.zero_le _
  | name => exact Nat.zero_le _
  | unary op operand ih => exact Nat.succ_le_succ ih
  | call f offset each ih => exact Nat.succ_le_succ (Expr.rightHeights_le ih)
  | parens inner ih => exact Nat.le_succ_of_le ih
  | operand tighter ih => exact ih
  | operator op before behind ihl ihr => exact Nat.le_trans (Nat.succ_le_succ ihr) before.left_le
  | done open_end ih => exact ih

theorem Built.height_le_iff {room levels left : Nat} {e : Expr} (built : Built room levels left e) :
    e.height ≤ room ↔ Fits room (e.leftOperands 0) := by
  have path := built.rightHeight_le
  have split := e.height_le_iff 0 room
  rw [Nat.zero_add, Nat.zero_add] at split
  rw [split]
  exact and_iff_right path

/-- The nesting allowed bounds the heights exactly where every left operand fits at its depth. -/
theorem parse_height_le_iff {source : String} {t : Tree} (parsed : Tree.parse source = .ok t) :
    (∀ e ∈ t.expressions, e.height ≤ maxNesting) ↔
      ∀ e ∈ t.expressions, Fits maxNesting (e.leftOperands 0) := by
  have each := parse_built parsed
  constructor
  · intro low e member
    exact (each e member).height_le_iff.mp (low e member)
  · intro fits e member
    exact (each e member).height_le_iff.mpr (fits e member)

theorem parse_height_le_iff_names : ∃ t, Tree.parse "print(a && b || !c)" = .ok t ∧
    ∀ e ∈ t.expressions, e.height ≤ maxNesting := by
  have heights : (Tree.parse "print(a && b || !c)").map (fun t => t.expressions.flatMap fun e =>
      (e.leftOperands 0).map fun p => p.1 + p.2.height) = .ok [2] := by
    decide +kernel
  obtain ⟨t, parsed, same⟩ := map_ok.mp heights
  refine ⟨t, parsed, (parse_height_le_iff parsed).mpr fun e member p left => ?_⟩
  have listed : p.1 + p.2.height ∈ [2] :=
    same ▸ List.mem_flatMap.mpr ⟨e, member, List.mem_map_of_mem left⟩
  rw [List.mem_singleton.mp listed]
  decide

set_option maxRecDepth 4000 in
theorem parse_higher_than_nesting :
    ∃ t, Tree.parse ("print(" ++ .ofList (List.replicate 128 '!') ++ "true && true)") = .ok t ∧
      ∃ e ∈ t.expressions, maxNesting < e.height := by
  have heights : (Tree.parse ("print(" ++ .ofList (List.replicate 128 '!') ++ "true && true)")).map
      (fun t => t.expressions.map Expr.height) = .ok [129] := by
    decide +kernel
  obtain ⟨t, parsed, same⟩ := map_ok.mp heights
  refine ⟨t, parsed, ?_⟩
  have listed : 129 ∈ t.expressions.map Expr.height := by simp [same]
  obtain ⟨e, member, height⟩ := List.mem_map.mp listed
  exact ⟨e, member, by rw [height]; decide⟩

end TurtlePlayback.Script
