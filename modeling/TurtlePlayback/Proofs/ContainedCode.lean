import TurtlePlayback.Proofs.ErrorPlaces
import TurtlePlayback.Proofs.InstructionEffects
import TurtlePlayback.Proofs.StepCounts

namespace TurtlePlayback.Script

structure Call where
  command : Command
  args : List Value

def Call.order (call : Call) : Command × Nat :=
  (call.command, call.args.length)

def Instr.order? : Instr → Option (Command × Nat)
  | .command c args => some (c, args)
  | _ => none

def Instr.calls (i : Instr) (stack : List Value) : List Call :=
  i.order?.toList.map fun (c, args) => ⟨c, (stack.take args).reverse⟩

def Machine.emptied {σ : Type} (m : Machine σ) : Machine σ :=
  { m with stack := [] }

namespace Run

variable {σ ε : Type} [Host σ ε]

def deliver (host : σ) (calls : List Call) : σ :=
  calls.foldl (fun s call => (Host.perform s call.command call.args).2) host

variable {c : Code} {pc pc' : Nat} {m m' m'' : Machine σ} {calls : List Call}

/-- From `m`, where the instruction at `pc` is next, to `m'`, where that at `pc'` is: all
instructions in between have done well, and these were their calls. -/
inductive Steps (c : Code) (pc : Nat) (m : Machine σ) : List Call → Nat → Machine σ → Prop
  | refl : Steps c pc m [] pc m
  | tail {calls : List Call} {pc' : Nat} {m' m'' : Machine σ} {i : Instr}
    (before : Steps c pc m calls pc' m') (next : c.instrs[pc']? = some i)
    (ran : (instr c.literals i : Run σ ε Unit) m' = .ok () m'') :
    Steps c pc m (calls ++ i.calls m'.stack) (pc' + 1) m''

/-- How a run of code from `m` ends, and what its host has been called for until then. -/
inductive Concludes (c : Code) (m : Machine σ) :
    List Call → EStateM.Result (Trap ε) (Machine σ) Unit → Prop
  | finished {calls : List Call} {m' : Machine σ} (all : Steps c 0 m calls c.instrs.size m')
    (empty : m'.stack = []) : Concludes c m calls (.ok () m')
  | leftOver {calls : List Call} {m' : Machine σ} (all : Steps c 0 m calls c.instrs.size m')
    (left : m'.stack ≠ []) :
    Concludes c m calls (.error ⟨.leftOver m'.stack.length, none⟩ m')
  | refused {calls : List Call} {pc : Nat} {m' : Machine σ} {command : Command} {args : Nat}
    {refusal : Refusal ε} {host : σ} (before : Steps c 0 m calls pc m')
    (next : c.instrs[pc]? = some (.command command args)) (enough : args ≤ m'.stack.length)
    (performed :
      Host.perform m'.host command (m'.stack.take args).reverse = (.error refusal, host)) :
    Concludes c m (calls ++ [⟨command, (m'.stack.take args).reverse⟩])
      (.error ⟨.refused refusal.cause, refusal.offset.or c.offsets[pc]?⟩
        ⟨m'.vars, m'.stack.drop args, host⟩)
  | failed {calls : List Call} {pc : Nat} {m' m'' : Machine σ} {i : Instr} {fault : Fault ε}
    (before : Steps c 0 m calls pc m') (next : c.instrs[pc]? = some i)
    (ran : (instr c.literals i : Run σ ε Unit) m' = .error ⟨fault, none⟩ m'')
    (unheard : ∀ command args, i = .command command args → m'.stack.length < args) :
    Concludes c m calls (.error ⟨fault, c.offsets[pc]?⟩ m'')

variable {i : Instr} {literals : Array Literal} {t : Trap ε}

theorem command_ok {command : Command} {args : Nat}
    (ran : (instr literals (.command command args) : Run σ ε Unit) m = .ok () m') :
    args ≤ m.stack.length ∧ ∃ host,
      Host.perform m.host command (m.stack.take args).reverse = (.ok (), host) ∧
      m' = ⟨m.vars, m.stack.drop args, host⟩ := by
  simp only [instr, Run.command] at ran
  split at ran
  · cases ran
  · next enough =>
    split at ran
    · next host performed =>
      cases ran
      exact ⟨by simp at enough; omega, host, performed, rfl⟩
    · cases ran

theorem command_error {command : Command} {args : Nat}
    (failed : (instr literals (.command command args) : Run σ ε Unit) m = .error t m') :
    m.stack.length < args ∧ t.offset = none ∧ m' = m ∨
      args ≤ m.stack.length ∧ ∃ refusal host,
        Host.perform m.host command (m.stack.take args).reverse = (.error refusal, host) ∧
        t = ⟨.refused refusal.cause, refusal.offset⟩ ∧ m' = ⟨m.vars, m.stack.drop args, host⟩ := by
  simp only [instr, Run.command] at failed
  split at failed
  · next short =>
    cases failed
    exact .inl ⟨by simp at short; omega, rfl, rfl⟩
  · next enough =>
    split at failed
    · cases failed
    · next refusal host performed =>
      cases failed
      exact .inr ⟨by simp at enough; omega, refusal, host, performed, rfl, rfl⟩

theorem instr_ok (ran : (instr literals i : Run σ ε Unit) m = .ok () m') :
    m'.host = deliver m.host (i.calls m.stack) ∧
      (i.calls m.stack).map Call.order = i.order?.toList := by
  have silent (other : ∀ command args, i ≠ .command command args) : m'.host = m.host := by
    have kept := instr_silent (ε := ε) other literals m
    rwa [ran] at kept
  cases i with
  | command command args =>
    obtain ⟨enough, host, performed, rfl⟩ := command_ok ran
    constructor
    · simp [deliver, Instr.calls, Instr.order?, performed]
    · simp [Instr.calls, Instr.order?, Call.order, enough]
  | _ => exact ⟨silent (by simp), rfl⟩

theorem instr_error (failed : (instr literals i : Run σ ε Unit) m = .error t m')
    (unheard : ∀ command args, i = .command command args → m.stack.length < args) :
    t.offset = none ∧ m'.host = m.host := by
  have silent (other : ∀ command args, i ≠ .command command args) :
      t.offset = none ∧ m'.host = m.host := by
    have kept := instr_silent (ε := ε) other literals m
    rw [failed] at kept
    refine ⟨?_, kept⟩
    exact Unplaced.inherited.instr literals i (fun _ _ same => absurd same (other _ _)) m t m' failed
  cases i with
  | command command args =>
    rcases command_error failed with ⟨-, unplaced, rfl⟩ | ⟨enough, -⟩
    · exact ⟨unplaced, rfl⟩
    · exact absurd enough (Nat.not_le.mpr (unheard command args rfl))
  | _ => exact silent (by simp)

theorem deliver_append (host : σ) (calls later : List Call) :
    deliver host (calls ++ later) = deliver (deliver host calls) later :=
  List.foldl_append

theorem Steps.host (steps : Steps c pc m calls pc' m') : m'.host = deliver m.host calls := by
  induction steps with
  | refl => rfl
  | tail _ _ ran ih => rw [(instr_ok ran).1, ih, deliver_append]

theorem Steps.orders (steps : Steps c pc m calls pc' m') :
    (c.instrs.toList.take pc').filterMap Instr.order? =
      (c.instrs.toList.take pc).filterMap Instr.order? ++ calls.map Call.order := by
  induction steps with
  | refl => simp
  | @tail calls pc' m' m'' i before next ran ih =>
    have first : c.instrs.toList.take (pc' + 1) = c.instrs.toList.take pc' ++ [i] := by
      rw [List.take_add_one, Array.getElem?_toList, next]
      rfl
    rw [first, List.filterMap_append, ih, List.map_append, (instr_ok ran).2, List.append_assoc]
    rfl

theorem Steps.instrs (steps : Steps c pc m calls pc' m') :
    (Run.instrs c pc (c.instrs.toList.drop pc) : Run σ ε Unit) m =
      Run.instrs c pc' (c.instrs.toList.drop pc') m' := by
  induction steps with
  | refl => rfl
  | @tail calls pc' m' m'' i before next ran ih =>
    have split : c.instrs.toList.drop pc' = i :: c.instrs.toList.drop (pc' + 1) := by
      obtain ⟨inside, there⟩ := Array.getElem?_eq_some_iff.mp next
      rw [List.drop_eq_getElem_cons (by simpa using inside)]
      simpa using there
    have passed : located c.offsets[pc']? (instr c.literals i : Run σ ε Unit) m' = .ok () m'' := by
      simp only [located, ran]
    rw [ih, split, Run.instrs]
    exact bind_run passed

theorem instr_concludes (before : Steps c 0 m calls pc m') (next : c.instrs[pc]? = some i)
    (failed : (instr c.literals i : Run σ ε Unit) m' = .error t m'') :
    ∃ calls, Concludes c m calls (.error { t with offset := t.offset.or c.offsets[pc]? } m'') := by
  by_cases unheard : ∀ command args, i = .command command args → m'.stack.length < args
  · have unplaced := (instr_error failed unheard).1
    obtain ⟨fault, offset⟩ := t
    obtain rfl : offset = none := unplaced
    exact ⟨calls, .failed before next failed unheard⟩
  · simp only [not_forall, Nat.not_lt] at unheard
    obtain ⟨command, args, rfl, enough⟩ := unheard
    rcases command_error failed with ⟨short, -⟩ | ⟨-, refusal, host, performed, rfl, rfl⟩
    · exact absurd enough (Nat.not_le.mpr short)
    · exact ⟨_, .refused before next enough performed⟩

theorem instrs_concludes {is : List Instr} (rest : c.instrs.toList.drop pc = is)
    (reached : Steps c 0 m calls pc m') (inside : pc ≤ c.instrs.size) :
    (∃ calls m'', (instrs c pc is : Run σ ε Unit) m' = .ok () m'' ∧
        Steps c 0 m calls c.instrs.size m'') ∨
      ∃ calls t m'', (instrs c pc is : Run σ ε Unit) m' = .error t m'' ∧
        Concludes c m calls (.error t m'') := by
  induction is generalizing pc calls m' with
  | nil =>
    have behind_all : c.instrs.size ≤ pc := by simpa using rest
    obtain rfl := Nat.le_antisymm inside behind_all
    exact .inl ⟨calls, m', rfl, reached⟩
  | cons i is ih =>
    have next : c.instrs[pc]? = some i := by
      rw [← Array.getElem?_toList, ← List.head?_drop, rest]
      rfl
    have later : c.instrs.toList.drop (pc + 1) = is := by
      rw [← List.tail_drop, rest]
      rfl
    have size : pc + 1 ≤ c.instrs.size := (Array.getElem?_eq_some_iff.mp next).1
    cases ran : (instr c.literals i : Run σ ε Unit) m' with
    | ok _ m'' =>
      have passed : located c.offsets[pc]? (instr c.literals i : Run σ ε Unit) m' = .ok () m'' := by
        simp only [located, ran]
      rw [instrs, bind_run passed]
      exact ih later (.tail reached next ran) size
    | error t m'' =>
      have trapped : located c.offsets[pc]? (instr c.literals i : Run σ ε Unit) m' =
          .error { t with offset := t.offset.or c.offsets[pc]? } m'' := by
        simp only [located, ran]
      rw [instrs, bind_trap trapped]
      obtain ⟨calls, concludes⟩ := instr_concludes reached next ran
      exact .inr ⟨calls, _, m'', rfl, concludes⟩

theorem code_concludes (c : Code) (m : Machine σ) :
    ∃ calls, Concludes c m.emptied calls ((code c : Run σ ε Unit) m) := by
  have reached : Steps c 0 m.emptied [] 0 m.emptied := .refl
  have started : (code c : Run σ ε Unit) m =
      (instrs c 0 c.instrs.toList >>= fun _ => ended) m.emptied := code_eq c m
  rw [started]
  rcases instrs_concludes rfl reached (Nat.zero_le _) with
    ⟨calls, m', ran, all⟩ | ⟨calls, t, m', failed, concludes⟩
  · have ran : (instrs c 0 c.instrs.toList : Run σ ε Unit) m.emptied = .ok () m' := ran
    rw [bind_run ran, ended_eq]
    split
    · next empty => exact ⟨calls, .finished all empty⟩
    · next left => exact ⟨calls, .leftOver all left⟩
  · have failed : (instrs c 0 c.instrs.toList : Run σ ε Unit) m.emptied = .error t m' := failed
    rw [bind_trap failed]
    exact ⟨calls, concludes⟩

theorem Concludes.host {r : EStateM.Result (Trap ε) (Machine σ) Unit}
    (concludes : Concludes c m calls r) : (behind r).host = deliver m.host calls := by
  cases concludes with
  | finished all _ => exact all.host
  | leftOver all _ => exact all.host
  | refused before _ _ performed =>
    rw [deliver_append, ← before.host]
    exact (congrArg Prod.snd performed).symm
  | failed before _ ran unheard => exact ((instr_error ran unheard).2).trans before.host

structure Later (m m' : Machine σ) : Prop where
  stack : ∀ v ∈ m'.stack, v.IsSet
  size : m'.vars.size = m.vars.size
  vars : ∀ (slot : Nat) (v : Value), m.vars[slot]? = some v → v.IsSet →
    ∃ w : Value, m'.vars[slot]? = some w ∧ w.IsSet

theorem Later.refl (clean : ∀ v ∈ m.stack, v.IsSet) : Later m m :=
  ⟨clean, rfl, fun _ v there set => ⟨v, there, set⟩⟩

theorem Later.pushed (later : Later m m') {v : Value} (set : v.IsSet) :
    Later m { m' with stack := v :: m'.stack } :=
  ⟨List.forall_mem_cons.mpr ⟨set, later.stack⟩, later.size, later.vars⟩

theorem Later.stored (later : Later m m') {v : Value} (set : v.IsSet) (slot : Nat) :
    Later m { m' with vars := m'.vars.setIfInBounds slot v } := by
  refine ⟨later.stack, ?_, fun slot' w there known => ?_⟩
  · rw [Array.size_setIfInBounds, later.size]
  · obtain ⟨x, found, given⟩ := later.vars slot' w there known
    by_cases same : slot = slot'
    · subst same
      obtain ⟨inside, -⟩ := Array.getElem?_eq_some_iff.mp found
      exact ⟨v, by simp [inside], set⟩
    · exact ⟨x, by simp [same, found], given⟩

omit [Host σ ε] in
theorem later_inherited (m : Machine σ) :
    Inherited fun α => Keeps (Later m) (σ := σ) (ε := ε) (α := α) where
  bind := .bind
  pure _ _ later := later
  fail _ _ later := later
  get _ later := later
  push set _ later := later.pushed set
  pop := by
    rintro ⟨vars, stack, host⟩ later
    cases stack with
    | nil => exact later
    | cons v stack => exact { later with stack := (List.forall_mem_cons.mp later.stack).2 }
  store slot := by
    rintro ⟨vars, stack, host⟩ later
    cases stack with
    | nil => exact later
    | cons v stack =>
      obtain ⟨set, rest⟩ := List.forall_mem_cons.mp later.stack
      have popped : Later m ⟨vars, stack, host⟩ := { later with stack := rest }
      have ran : (store slot : Run σ ε Unit) ⟨vars, v :: stack, host⟩ =
          if slot < vars.size then .ok () ⟨vars.setIfInBounds slot v, stack, host⟩
          else .error ⟨.slotRange, none⟩ ⟨vars, stack, host⟩ := rfl
      rw [ran]
      split
      · exact popped.stored set slot
      · exact popped

theorem instr_later (m : Machine σ) (literals : Array Literal) (i : Instr) :
    Keeps (Later m) (instr literals i : Run σ ε Unit) := by
  apply (later_inherited m).instr
  rintro command args rfl ⟨vars, stack, host⟩ later
  have rest (host : σ) : Later m ⟨vars, stack.drop args, host⟩ :=
    { later with stack := fun v member => later.stack v (List.mem_of_mem_drop member) }
  simp only [Run.command]
  split
  · exact later
  · split
    · exact rest _
    · exact rest _

theorem Steps.later (steps : Steps c pc m calls pc' m') (clean : ∀ v ∈ m.stack, v.IsSet) :
    Later m m' := by
  induction steps with
  | refl => exact .refl clean
  | @tail _ _ m' _ i _ _ ran ih =>
    have kept := instr_later m c.literals i m' ih
    rwa [ran] at kept

theorem args_set {stack : List Value} (clean : ∀ v ∈ stack, v.IsSet) (args : Nat) :
    .unset ∉ (stack.take args).reverse := by
  intro member
  exact clean _ (List.mem_of_mem_take (List.mem_reverse.mp member)) rfl

theorem Steps.args_set (steps : Steps c pc m calls pc' m') (clean : ∀ v ∈ m.stack, v.IsSet) :
    ∀ call ∈ calls, .unset ∉ call.args := by
  induction steps with
  | refl => exact fun _ none_made => absurd none_made List.not_mem_nil
  | @tail calls _ m' _ i before _ _ ih =>
    refine List.forall_mem_append.mpr ⟨ih, fun call made => ?_⟩
    obtain ⟨⟨command, args⟩, -, rfl⟩ := List.mem_map.mp made
    exact Run.args_set (before.later clean).stack args

theorem Concludes.args_set {r : EStateM.Result (Trap ε) (Machine σ) Unit}
    (concludes : Concludes c m calls r) (clean : ∀ v ∈ m.stack, v.IsSet) :
    ∀ call ∈ calls, .unset ∉ call.args := by
  cases concludes with
  | finished all _ => exact all.args_set clean
  | leftOver all _ => exact all.args_set clean
  | @refused _ _ _ _ args _ _ before =>
    refine List.forall_mem_append.mpr ⟨before.args_set clean, ?_⟩
    rw [List.forall_mem_singleton]
    exact Run.args_set (before.later clean).stack args
  | failed before => exact before.args_set clean

theorem Steps.ended (steps : Steps c 0 m.emptied calls pc m') :
    Later m' (behind ((code c : Run σ ε Unit) m)) := by
  have clean : ∀ v ∈ m.emptied.stack, v.IsSet := fun _ member => absurd member List.not_mem_nil
  have rest := Keeps.instrs (instr_later m' c.literals) pc (c.instrs.toList.drop pc) m'
    (.refl (steps.later clean).stack)
  rw [behind_code]
  rw [← steps.instrs] at rest
  exact rest

/-- Code of any origin runs to an end, which does not depend on what was on the stack. Its host has
heard what the instructions in front have ordered, in their order and with set arguments, and in the
end what has refused it; where it ends is known from the host, or else from the code. What is set
stays set. -/
theorem code_contained (c : Code) (m : Machine σ) :
    (∀ stack, (code c : Run σ ε Unit) { m with stack } = code c m) ∧
    (∃ calls, Concludes c m.emptied calls ((code c : Run σ ε Unit) m) ∧
      (behind ((code c : Run σ ε Unit) m)).host = deliver m.host calls ∧
      ∀ call ∈ calls, .unset ∉ call.args) ∧
    Later m.emptied (behind ((code c : Run σ ε Unit) m)) ∧
    ∀ calls pc m', Steps c 0 m.emptied calls pc m' →
      m'.host = deliver m.host calls ∧
      calls.map Call.order = (c.instrs.toList.take pc).filterMap Instr.order? ∧
      Later m.emptied m' ∧ Later m' (behind ((code c : Run σ ε Unit) m)) ∧
      ∀ later pc' m'', Steps c pc m' later pc' m'' → Later m' m'' := by
  have clean : ∀ v ∈ m.emptied.stack, v.IsSet := fun _ member => absurd member List.not_mem_nil
  obtain ⟨calls, concludes⟩ := code_concludes c m
  refine ⟨code_stack c m, ⟨calls, concludes, concludes.host, concludes.args_set clean⟩,
    Steps.ended .refl, fun calls pc m' steps => ?_⟩
  exact ⟨steps.host, steps.orders.symm, steps.later clean, steps.ended,
    fun _ _ _ further => further.later (steps.later clean).stack⟩

example :
    let c : Code := { instrs := #[.command .penUp 0, .load 7, .store 0], offsets := #[3] }
    (code c : Run Turtle Turtle.Fault Unit) ⟨#[], [.unset], {}⟩ =
      .error ⟨.slotRange, none⟩ ⟨#[], [], { penDown := false }⟩ := by
  rfl

end Run

end TurtlePlayback.Script
