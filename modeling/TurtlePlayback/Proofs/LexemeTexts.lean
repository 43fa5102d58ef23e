import Mathlib.Data.List.TakeWhile
import TurtlePlayback.Proofs.ExceptResults
import TurtlePlayback.Proofs.TextPlaces
import TurtlePlayback.Script.Token.Reading

namespace TurtlePlayback.Script.Lexeme

variable {p : Char → Bool} {c : Char} {cs more : List Char} {k : Kind} {n : Nat}

theorem takeWhile_cut (all : ∀ c ∈ cs, p c) (stops : more.takeWhile p = []) :
    (cs ++ more).takeWhile p = cs ∧ (cs ++ more).dropWhile p = more := by
  have behind := List.takeWhile_append_dropWhile (p := p) (l := more)
  rw [stops, List.nil_append] at behind
  rw [List.takeWhile_append_of_pos all, List.dropWhile_append_of_pos all, stops, behind]
  simp

theorem takeWhile_space (more : List Char) (space : p ' ' = false) :
    (' ' :: more).takeWhile p = [] := by
  rw [List.takeWhile_cons_of_neg (by simp [space])]

theorem prefix_append {a b : List Char} (first : a <+: cs) (second : b <+: cs.drop a.length) :
    a ++ b <+: cs := by
  conv => rhs; rw [← List.prefix_iff_eq_append.mp first]
  exact (List.prefix_append_right_inj a).mpr second

def whole (cs : List Char) : List Char :=
  cs.takeWhile Char.isDigit

def decimals (cs : List Char) : List Char :=
  fraction (cs.dropWhile Char.isDigit)

def mantissa (cs : List Char) : List Char :=
  whole cs ++ if decimals cs = [] then [] else '.' :: decimals cs

theorem digit_of_mem_whole : c ∈ whole cs → c.isDigit :=
  List.mem_takeWhile_imp

theorem digit_of_mem_decimals (member : c ∈ decimals cs) : c.isDigit := by
  unfold decimals fraction at member
  split at member
  · exact List.mem_takeWhile_imp member
  · cases member

theorem fraction_leads (some_digits : fraction cs ≠ []) : '.' :: fraction cs <+: cs := by
  unfold fraction at *
  split
  · exact (List.prefix_cons_inj _).mpr (List.takeWhile_prefix _)
  · simp at some_digits

theorem mantissa_leads (cs : List Char) : mantissa cs <+: cs := by
  have parts : whole cs ++ cs.dropWhile Char.isDigit = cs := List.takeWhile_append_dropWhile
  conv => rhs; rw [← parts]
  rw [mantissa, List.prefix_append_right_inj]
  split
  · exact List.nil_prefix
  · next some_digits => exact fraction_leads some_digits

theorem mantissa_length (cs : List Char) : (mantissa cs).length =
    if decimals cs = [] then (whole cs).length else (whole cs).length + 1 + (decimals cs).length := by
  rw [mantissa]
  split <;> simp [Nat.add_assoc, Nat.add_comm 1]

theorem number_eq (cs : List Char) : number cs =
    match exponent? (cs.drop (mantissa cs).length) with
    | .error e => .error ((mantissa cs).length, e)
    | .ok power =>
      .ok (Decimal.toFloat (Decimal.ofDigits (whole cs ++ decimals cs))
        ((power.getD (0, 0)).1 - (decimals cs).length),
        (mantissa cs).length + (power.getD (0, 0)).2) := by
  rw [mantissa_length]
  rfl

theorem byteLength_mantissa (cs : List Char) : byteLength (mantissa cs) = (mantissa cs).length := by
  have plain : ∀ c ∈ mantissa cs, c.isDigit ∨ c = '.' := by
    intro c member
    rw [mantissa, List.mem_append] at member
    rcases member with member | member
    · exact .inl (digit_of_mem_whole member)
    · split at member
      · cases member
      · rcases List.mem_cons.mp member with rfl | member
        · exact .inr rfl
        · exact .inl (digit_of_mem_decimals member)
  generalize mantissa cs = text at plain
  induction text with
  | nil => rfl
  | cons c text ih =>
    rw [List.forall_mem_cons] at plain
    rw [byteLength, ih plain.2, List.length_cons, Nat.add_comm]
    congr 1
    rcases plain.1 with digit | rfl
    · rw [Char.utf8Size_eq_one_iff, UInt32.le_iff_toNat_le]
      exact (Char.isDigit_iff_toNat.mp digit).2.trans (by decide)
    · rfl

theorem mantissa_cut (cs : List Char) (stops : more.takeWhile Char.isDigit = [])
    (no_point : fraction more = []) :
    whole (mantissa cs ++ more) = whole cs ∧ decimals (mantissa cs ++ more) = decimals cs := by
  have digits : ∀ c ∈ whole cs, c.isDigit := fun _ => digit_of_mem_whole
  by_cases none : decimals cs = []
  · have cut := takeWhile_cut digits stops
    rw [mantissa, if_pos none, List.append_nil, none]
    simp only [whole, decimals] at cut ⊢
    rw [cut.1, cut.2]
    exact ⟨rfl, no_point⟩
  · have point : ('.' :: decimals cs ++ more).takeWhile Char.isDigit = [] := rfl
    have cut := takeWhile_cut digits point
    rw [mantissa, if_neg none, List.append_assoc]
    simp only [whole, decimals] at cut ⊢
    rw [cut.1, cut.2]
    exact ⟨rfl, (takeWhile_cut (fun _ => digit_of_mem_decimals) stops).1⟩

def sign : List Char → List Char
  | '+' :: _ => ['+']
  | '-' :: _ => ['-']
  | _ => []

def powerDigits (cs : List Char) : List Char :=
  (cs.drop (sign cs).length).takeWhile Char.isDigit

theorem sign_none (no_plus : ∀ r, cs ≠ '+' :: r) (no_minus : ∀ r, cs ≠ '-' :: r) : sign cs = [] := by
  unfold sign
  split
  · exact absurd rfl (no_plus _)
  · exact absurd rfl (no_minus _)
  · rfl

theorem sign_cut (more : List Char) (some_digits : powerDigits cs ≠ []) :
    sign (sign cs ++ (powerDigits cs ++ more)) = sign cs := by
  have cases : sign cs = ['+'] ∨ sign cs = ['-'] ∨ sign cs = [] := by
    unfold sign
    split <;> simp
  rcases cases with plus | minus | none
  · rw [plus]
    rfl
  · rw [minus]
    rfl
  · obtain ⟨d, ds, same⟩ := List.exists_cons_of_ne_nil some_digits
    have digit : d.isDigit = true := List.mem_takeWhile_imp (same ▸ List.mem_cons_self)
    rw [none, same]
    refine sign_none ?_ ?_
    · rintro r ⟨⟩
      cases digit
    · rintro r ⟨⟩
      cases digit

theorem exponent?_mark {mark : Char} (marked : mark = 'e' ∨ mark = 'E') (cs : List Char) :
    exponent? (mark :: cs) =
      if powerDigits cs = [] then .error .badExponent
      else .ok (some
        (if sign cs = ['-'] then -(Decimal.ofDigits (powerDigits cs) : Int)
          else (Decimal.ofDigits (powerDigits cs) : Int),
        1 + (sign cs).length + (powerDigits cs).length)) := by
  unfold exponent?
  simp only [if_pos marked]
  split
  · rfl
  · rfl
  · next no_plus no_minus =>
    rw [powerDigits, sign_none no_plus no_minus]
    rfl

theorem exponent?_plain (plain : ∀ c ∈ cs.head?, c ≠ 'e' ∧ c ≠ 'E') : exponent? cs = .ok none := by
  cases cs with
  | nil => rfl
  | cons c cs =>
    have := plain c rfl
    simp [exponent?, this]

def power : List Char → List Char
  | mark :: cs => if mark = 'e' ∨ mark = 'E' then mark :: sign cs ++ powerDigits cs else []
  | [] => []

theorem sign_leads (cs : List Char) : sign cs <+: cs := by
  unfold sign
  split <;> simp

theorem power_leads (cs : List Char) : power cs <+: cs := by
  unfold power
  split
  · next mark cs =>
    split
    · rw [List.cons_append, List.prefix_cons_inj]
      exact prefix_append (sign_leads cs) (List.takeWhile_prefix _)
    · exact List.nil_prefix
  · exact List.nil_prefix

theorem exponent?_length {read : Option (Int × Nat)} (ok : exponent? cs = .ok read) :
    (read.getD (0, 0)).2 = (power cs).length := by
  cases cs with
  | nil => cases ok; rfl
  | cons mark cs =>
    by_cases marked : mark = 'e' ∨ mark = 'E'
    · rw [exponent?_mark marked] at ok
      split at ok
      · cases ok
      · cases ok
        rw [power, if_pos marked]
        simp only [Option.getD_some, List.cons_append, List.length_cons, List.length_append]
        omega
    · rw [exponent?_plain (by simpa [not_or] using marked)] at ok
      cases ok
      rw [power, if_neg marked]
      rfl

theorem exponent?_cut {read : Option (Int × Nat)} (ok : exponent? cs = .ok read) :
    exponent? (power cs ++ ' ' :: more) = .ok read := by
  cases cs with
  | nil =>
    cases ok
    exact exponent?_plain (by simp [power])
  | cons mark cs =>
    by_cases marked : mark = 'e' ∨ mark = 'E'
    · rw [exponent?_mark marked] at ok
      split at ok
      · cases ok
      · next some_digits =>
        have digits : ∀ c ∈ powerDigits cs, c.isDigit := fun _ => List.mem_takeWhile_imp
        have cut := takeWhile_cut digits (takeWhile_space more rfl)
        have same_sign := sign_cut (' ' :: more) some_digits
        have same_digits :
            powerDigits (sign cs ++ (powerDigits cs ++ ' ' :: more)) = powerDigits cs := by
          conv => lhs; rw [powerDigits, same_sign]
          rw [List.drop_left, cut.1]
        rw [power, if_pos marked, List.cons_append, List.cons_append, List.append_assoc,
          exponent?_mark marked, same_digits, same_sign, if_neg some_digits]
        exact ok
    · rw [exponent?_plain (by simpa [not_or] using marked)] at ok
      cases ok
      rw [power, if_neg marked]
      exact exponent?_plain (by simp)

theorem power_stops (cs more : List Char) :
    (power cs ++ ' ' :: more).takeWhile Char.isDigit = [] ∧
      fraction (power cs ++ ' ' :: more) = [] := by
  unfold power
  split
  · split
    · next marked => rcases marked with rfl | rfl <;> exact ⟨rfl, rfl⟩
    · exact ⟨rfl, rfl⟩
  · exact ⟨rfl, rfl⟩

theorem number_cut (more : List Char) {v : Float} (ok : number cs = .ok (v, n)) :
    n ≤ cs.length ∧ number (cs.take n ++ ' ' :: more) = .ok (v, n) := by
  rw [number_eq] at ok
  split at ok
  · cases ok
  · next read known =>
    obtain ⟨same, rfl⟩ := Prod.mk.inj (Except.ok.inj ok)
    have text := prefix_append (mantissa_leads cs) (power_leads (cs.drop (mantissa cs).length))
    rw [exponent?_length known, ← List.length_append, ← List.prefix_iff_eq_take.mp text]
    generalize cs.drop (mantissa cs).length = rest at known text
    obtain ⟨stops, no_point⟩ := power_stops rest more
    have cut := mantissa_cut cs stops no_point
    have same_mantissa : mantissa (mantissa cs ++ (power rest ++ ' ' :: more)) = mantissa cs := by
      rw [mantissa, cut.1, cut.2]
      rfl
    refine ⟨text.length_le, ?_⟩
    rw [List.append_assoc, number_eq, same_mantissa, cut.1, cut.2, List.drop_left, exponent?_cut known]
    simp only [same, exponent?_length known, List.length_append]

theorem number_error {e : Complaint} (failed : number cs = .error (n, e)) :
    ∃ front rest, cs = front ++ rest ∧ byteLength front = n := by
  obtain ⟨rest, parts⟩ := mantissa_leads cs
  refine ⟨mantissa cs, rest, parts.symm, ?_⟩
  rw [number_eq] at failed
  split at failed
  · cases failed
    exact byteLength_mantissa cs
  · cases failed

def startsNumber (c : Char) (cs : List Char) : Bool :=
  c.isDigit || (c == '.' && cs.head?.any Char.isDigit)

theorem startsNumber_append (starts : startsNumber c cs) (more : List Char) :
    startsNumber c (cs ++ more) := by
  cases cs with
  | nil =>
    have digit : c.isDigit = true := by simpa [startsNumber] using starts
    simp [startsNumber, digit]
  | cons d ds => exact starts

theorem startsNumber_other (digit : c.isDigit = false) (point : c ≠ '.') :
    startsNumber c cs = false := by
  simp [startsNumber, digit, point]

theorem isDigit_of_not_startsNumber (other : ¬ startsNumber c cs) : c.isDigit = false := by
  simp only [startsNumber, Bool.or_eq_true, not_or] at other
  exact Bool.eq_false_iff.mpr other.1

theorem number_starts {v : Float} (ok : number (c :: cs) = .ok (v, n)) (starts : startsNumber c cs) :
    ∃ m, n = m + 1 ∧ startsNumber c (cs.take m) := by
  have long : (mantissa (c :: cs)).length ≤ n := by
    rw [number_eq] at ok
    split at ok
    · cases ok
    · cases ok
      exact Nat.le_add_right _ _
  by_cases digit : c.isDigit = true
  · have one : 1 ≤ (mantissa (c :: cs)).length := by
      simp [mantissa, whole, List.takeWhile_cons_of_pos digit]
    exact ⟨n - 1, by omega, by simp [startsNumber, digit]⟩
  · simp only [startsNumber, digit, Bool.false_or, Bool.and_eq_true, beq_iff_eq] at starts
    obtain ⟨rfl, head⟩ := starts
    cases cs with
    | nil => cases head
    | cons d ds =>
      have digit' : d.isDigit = true := head
      have two : 2 ≤ (mantissa ('.' :: d :: ds)).length := by
        have some_digits : decimals ('.' :: d :: ds) = d :: ds.takeWhile Char.isDigit :=
          List.takeWhile_cons_of_pos digit'
        rw [mantissa_length, some_digits, if_neg (List.cons_ne_nil _ _), List.length_cons]
        omega
      obtain ⟨m, rfl⟩ : ∃ m, n = m + 2 := ⟨n - 2, by omega⟩
      exact ⟨m + 1, rfl, by simp [startsNumber, digit']⟩

theorem pair?_space (c : Char) : pair? c ' ' = none := by
  unfold pair?
  split <;> first | rfl | contradiction

theorem read_number (comment : c ≠ '#') (lineEnd : c ≠ '\n') (blank : ¬ isBlank c)
    (starts : startsNumber c cs) :
    read c cs = (number (c :: cs)).map fun (v, length) => (.token (.number v), length - 1) := by
  rw [startsNumber] at starts
  rw [read, if_neg comment, if_neg lineEnd, if_neg blank, if_pos starts]
  cases number (c :: cs) <;> rfl

theorem read_word (comment : c ≠ '#') (lineEnd : c ≠ '\n') (blank : ¬ isBlank c)
    (starts : ¬ startsNumber c cs) (letter : (c.isAlpha || c == '_') = true) :
    read c cs = .ok (.token (word (.ofList (c :: cs.takeWhile inName))),
      (cs.takeWhile inName).length) := by
  rw [startsNumber] at starts
  rw [read, if_neg comment, if_neg lineEnd, if_neg blank, if_neg starts, if_pos letter]

theorem read_symbol (comment : c ≠ '#') (lineEnd : c ≠ '\n') (blank : ¬ isBlank c)
    (starts : ¬ startsNumber c cs) (letter : ¬ (c.isAlpha || c == '_') = true) :
    read c cs = match cs.head?.bind (pair? c) with
      | some kind => .ok (.token kind, 1)
      | none =>
        match single? c with
        | some kind => .ok (.token kind, 0)
        | none => .error (0, .unexpectedCharacter (leadingByte c)) := by
  rw [startsNumber] at starts
  rw [read, if_neg comment, if_neg lineEnd, if_neg blank, if_neg starts]
  exact if_neg letter

theorem read_cut (more : List Char) (met : read c cs = .ok (.token k, n)) :
    n ≤ cs.length ∧ read c (cs.take n ++ ' ' :: more) = .ok (.token k, n) := by
  have comment : c ≠ '#' := by
    rintro rfl
    cases met
  have lineEnd : c ≠ '\n' := by
    rintro rfl
    cases met
  have blank : ¬ isBlank c := by
    intro blank
    rw [read, if_neg comment, if_neg lineEnd, if_pos blank] at met
    cases met
  by_cases starts : startsNumber c cs
  · rw [read_number comment lineEnd blank starts] at met
    obtain ⟨⟨v, length⟩, ok, same⟩ := map_ok.mp met
    obtain ⟨m, rfl, starts'⟩ := number_starts ok starts
    cases same
    obtain ⟨bound, cut⟩ := number_cut more ok
    rw [List.take_succ_cons, List.cons_append] at cut
    refine ⟨Nat.le_of_succ_le_succ bound, ?_⟩
    rw [Nat.add_sub_cancel, read_number comment lineEnd blank (startsNumber_append starts' _)]
    exact map_ok.mpr ⟨_, cut, rfl⟩
  have digit := isDigit_of_not_startsNumber starts
  by_cases letter : (c.isAlpha || c == '_') = true
  · rw [read_word comment lineEnd blank starts letter] at met
    cases met
    have text := List.prefix_iff_eq_take.mp (List.takeWhile_prefix (l := cs) inName)
    have cut := takeWhile_cut (fun _ => List.mem_takeWhile_imp (l := cs))
      (takeWhile_space more (p := inName) rfl)
    have point : c ≠ '.' := by
      rintro rfl
      cases letter
    refine ⟨(List.takeWhile_prefix _).length_le, ?_⟩
    rw [← text, read_word comment lineEnd blank (by simp [startsNumber_other digit point]) letter, cut.1]
  · rw [read_symbol comment lineEnd blank starts letter] at met
    split at met
    · next pair =>
      cases met
      obtain ⟨d, head, known⟩ := Option.bind_eq_some_iff.mp pair
      have point : c ≠ '.' := by
        rintro rfl
        cases known
      obtain ⟨ds, rfl⟩ := List.head?_eq_some_iff.mp head
      refine ⟨by simp, ?_⟩
      rw [read_symbol comment lineEnd blank (by simp [startsNumber_other digit point]) letter]
      simp [known]
    · split at met
      · next single =>
        -- A space makes no pair with the character in front of it, so a single one stays single.
        cases met
        have point : c ≠ '.' := by
          rintro rfl
          cases single
        refine ⟨Nat.zero_le _, ?_⟩
        rw [read_symbol comment lineEnd blank (by simp [startsNumber_other digit point]) letter]
        simp [pair?_space, single]
      · cases met

theorem read_error {e : Complaint} (failed : read c cs = .error (n, e)) :
    ∃ front rest, c :: cs = front ++ rest ∧ byteLength front = n := by
  unfold read at failed
  split_ifs at failed
  · cases ran : number (c :: cs) with
    | error fault =>
      rw [ran] at failed
      cases failed
      exact number_error ran
    | ok value =>
      rw [ran] at failed
      cases failed
  · split at failed
    · cases failed
    · split at failed
      · cases failed
      · cases failed
        exact ⟨[], _, rfl, rfl⟩

end TurtlePlayback.Script.Lexeme
