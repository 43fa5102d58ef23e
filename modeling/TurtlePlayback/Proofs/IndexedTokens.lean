import TurtlePlayback.Proofs.IndexedScripts
import TurtlePlayback.Proofs.LexedTexts

namespace TurtlePlayback.Script.Indexed

variable {source : String} {front cs : List Char} {c : Char} {offset depth : Nat}

def charsFrom : List Char → Nat → Option (List Char)
  | cs, 0 => some cs
  | [], _ + 1 => none
  | c :: cs, n + 1 => if n + 1 < c.utf8Size then none else charsFrom cs (n + 1 - c.utf8Size)

structure Scan where
  position : Nat
  parens : Nat
  read : Array Token

namespace Scan

def pass (s : Scan) (stop : Nat) : Lexeme → Scan
  | .blank => { s with position := stop }
  | .lineEnd =>
    if s.parens = 0 then
      { s with position := stop, read := s.read.push ⟨.separator, s.position, stop⟩ }
    else { s with position := stop }
  | .token kind => ⟨stop, kind.nesting s.parens, s.read.push ⟨kind, s.position, stop⟩⟩

def round (source : String) (s : Scan) : Except Stop Scan :=
  match charsFrom source.toList s.position with
  | some (c :: cs) =>
    match Lexeme.read c cs with
    | .error (skipped, complaint) => .error (.refused ⟨s.position + skipped, complaint⟩)
    | .ok (lexeme, more) =>
      if cs.length < more then .error .outside
      else .ok (s.pass (s.position + byteLength (c :: cs.take more)) lexeme)
  | _ => .error .outside

def toTokens (source : String) : (rounds : Nat) → Scan → Except Stop (List Token)
  | 0, _ => .error .rounds
  | rounds + 1, s =>
    if s.position < source.utf8ByteSize then do
      let s ← s.round source
      toTokens source rounds s
    else .ok (s.read.push ⟨.finish, source.utf8ByteSize, source.utf8ByteSize⟩).toList

end Scan

def tokens (source : String) : Except Stop (List Token) :=
  Scan.toTokens source (source.utf8ByteSize + 1) ⟨0, 0, #[]⟩

theorem charsFrom_append (front cs : List Char) :
    charsFrom (front ++ cs) (byteLength front) = some cs := by
  induction front with
  | nil => cases cs <;> rfl
  | cons c front ih =>
    have wide := c.utf8Size_pos
    obtain ⟨n, size⟩ : ∃ n, byteLength (c :: front) = n + 1 :=
      Nat.exists_eq_succ_of_ne_zero (byteLength_pos (List.cons_ne_nil c front)).ne'
    rw [size, List.cons_append, charsFrom, ← size]
    rw [byteLength] at size ⊢
    rw [if_neg (by omega), Nat.add_sub_cancel_left, ih]

theorem read_within {l : Lexeme} {n : Nat} (met : Lexeme.read c cs = .ok (l, n)) : n ≤ cs.length := by
  cases l with
  | token k => exact (Lexeme.read_cut [] met).1
  | blank =>
    rcases Lexeme.read_skipped met (by simp) with ⟨-, -, rfl⟩ | ⟨-, -, rfl⟩ | ⟨-, -, rfl⟩
    · exact (List.takeWhile_prefix _).length_le
    · exact Nat.zero_le _
    · exact Nat.zero_le _
  | lineEnd =>
    rcases Lexeme.read_skipped met (by simp) with ⟨-, -, rfl⟩ | ⟨-, -, rfl⟩ | ⟨-, -, rfl⟩
    · exact (List.takeWhile_prefix _).length_le
    · exact Nat.zero_le _
    · exact Nat.zero_le _

theorem Scan.pass_position (s : Scan) (stop : Nat) (l : Lexeme) : (s.pass stop l).position = stop := by
  cases l with
  | lineEnd =>
    simp only [pass]
    split <;> rfl
  | _ => rfl

theorem Scan.round_run {s : Scan} (whole : source.toList = front ++ c :: cs)
    (here : byteLength front = s.position) : s.round source =
      match Lexeme.read c cs with
      | .error (skipped, complaint) => .error (.refused ⟨s.position + skipped, complaint⟩)
      | .ok (lexeme, more) => .ok (s.pass (s.position + byteLength (c :: cs.take more)) lexeme) := by
  rw [round, whole, ← here, charsFrom_append]
  cases met : Lexeme.read c cs with
  | error fault => simp only [met]
  | ok taken => simp only [met, if_neg (Nat.not_lt.mpr (read_within met))]

theorem tokensFrom_cons (s : Scan) {l : Lexeme} {more : Nat}
    (met : Lexeme.read c cs = .ok (l, more)) :
    tokensFrom s.position s.parens s.read (c :: cs) =
      let next := s.pass (s.position + byteLength (c :: cs.take more)) l
      tokensFrom next.position next.parens next.read (cs.drop more) := by
  rw [tokensFrom, met]
  cases l with
  | lineEnd =>
    simp only [Scan.pass]
    split <;> rfl
  | _ => rfl

theorem Scan.toTokens_eq {rounds : Nat} {s : Scan} (whole : source.toList = front ++ cs)
    (here : byteLength front = s.position) (enough : source.utf8ByteSize - s.position < rounds) :
    s.toTokens source rounds = (tokensFrom s.position s.parens s.read cs).mapError .refused := by
  induction rounds generalizing s front cs with
  | zero => omega
  | succ rounds ih =>
    have size : source.utf8ByteSize = s.position + byteLength cs := by
      rw [← byteLength_toList, whole, byteLength_append, here]
    rw [toTokens]
    cases cs with
    | nil =>
      have last : s.position = source.utf8ByteSize := size.symm
      rw [if_neg (by omega), ← last, tokensFrom]
      rfl
    | cons c cs =>
      have wide := byteLength_pos (List.cons_ne_nil c cs)
      rw [if_pos (by omega), round_run whole here]
      cases met : Lexeme.read c cs with
      | error fault =>
        rw [tokensFrom, met]
        rfl
      | ok taken =>
        obtain ⟨l, more⟩ := taken
        have passed := byteLength_pos (List.cons_ne_nil c (cs.take more))
        have next : source.toList = (front ++ c :: cs.take more) ++ cs.drop more := by
          rw [List.append_assoc, ← Lexeme.parts, whole]
        have there := s.pass_position (s.position + byteLength (c :: cs.take more)) l
        rw [tokensFrom_cons s met]
        refine ih next ?_ ?_
        · rw [there, byteLength_append, here]
        · rw [there]
          omega

theorem tokens_eq (source : String) : tokens source = (Script.tokens source).mapError .refused := by
  have whole : source.toList = [] ++ source.toList := rfl
  exact Scan.toTokens_eq (s := ⟨0, 0, #[]⟩) whole rfl (Nat.lt_succ_self _)

theorem Scan.round_advances {s : Scan} (placed : Placed source s.position)
    (inside : s.position < source.utf8ByteSize) :
    match s.round source with
    | .ok next => s.position < next.position ∧ Placed source next.position
    | .error stop => ∃ e, stop = .refused e := by
  obtain ⟨front, cs, whole, here, -⟩ := placed.located
  cases cs with
  | nil =>
    rw [← byteLength_toList, whole, List.append_nil] at inside
    omega
  | cons c cs =>
    rw [round_run whole here]
    cases met : Lexeme.read c cs with
    | error fault => exact ⟨_, rfl⟩
    | ok taken =>
      obtain ⟨l, more⟩ := taken
      have passed := byteLength_pos (List.cons_ne_nil c (cs.take more))
      have next : source.toList = (front ++ c :: cs.take more) ++ cs.drop more := by
        rw [List.append_assoc, ← Lexeme.parts, whole]
      have place := Placed.of_append next
      rw [byteLength_append, here] at place
      simp only [pass_position]
      exact ⟨Nat.lt_add_of_pos_right passed, place⟩

end TurtlePlayback.Script.Indexed
