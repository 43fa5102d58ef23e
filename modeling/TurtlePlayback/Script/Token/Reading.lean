import TurtlePlayback.Decimal.Reading
import TurtlePlayback.Script.Complaint
import TurtlePlayback.Script.Location

/-!
Reading a text as tokens. At each place the text starts with exactly one lexeme: a blank, a
comment, a line end or a token. A lexeme is told by its class and by how many characters it has
after the first, so reading cannot lose or repeat text.
-/

namespace TurtlePlayback.Script

inductive Lexeme
  | blank
  | lineEnd
  | token (kind : Kind)

namespace Lexeme

def inName (c : Char) : Bool :=
  c.isAlphanum || c == '_'

def isBlank (c : Char) : Bool :=
  c == ' ' || (9 ≤ c.toNat && c.toNat ≤ 13)

def fraction : List Char → List Char
  | '.' :: cs => cs.takeWhile Char.isDigit
  | _ => []

def exponent? : List Char → Except Complaint (Option (Int × Nat))
  | mark :: cs =>
    if mark = 'e' ∨ mark = 'E' then
      let (sign, digits) : List Char × List Char :=
        match cs with
        | '+' :: r => (['+'], r.takeWhile Char.isDigit)
        | '-' :: r => (['-'], r.takeWhile Char.isDigit)
        | r => ([], r.takeWhile Char.isDigit)
      if digits = [] then .error .badExponent
      else
        let size : Int := Decimal.ofDigits digits
        .ok (some (if sign = ['-'] then -size else size, 1 + sign.length + digits.length))
    else .ok none
  | [] => .ok none

def number (cs : List Char) : Except (Nat × Complaint) (Float × Nat) :=
  let whole := cs.takeWhile Char.isDigit
  let decimals := fraction (cs.dropWhile Char.isDigit)
  let size := if decimals = [] then whole.length else whole.length + 1 + decimals.length
  match exponent? (cs.drop size) with
  | .error e => .error (size, e)
  | .ok power =>
    let (exponent, length) := power.getD (0, 0)
    .ok (Decimal.toFloat (Decimal.ofDigits (whole ++ decimals)) (exponent - decimals.length),
      size + length)

def word (text : String) : Kind :=
  match text with
  | "true" => .truth true
  | "false" => .truth false
  | "let" => .letWord
  | _ => .name text

def pair? : Char → Char → Option Kind
  | '&', '&' => some .both
  | '|', '|' => some .either
  | '=', '=' => some .equal
  | '!', '=' => some .notEqual
  | '<', '=' => some .lessEqual
  | '>', '=' => some .greaterEqual
  | _, _ => none

def single? : Char → Option Kind
  | '(' => some .openParen
  | ')' => some .closeParen
  | '{' => some .openBrace
  | '}' => some .closeBrace
  | ',' => some .comma
  | ';' => some .separator
  | '=' => some .assign
  | '+' => some .plus
  | '-' => some .minus
  | '*' => some .star
  | '/' => some .slash
  | '%' => some .percent
  | '!' => some .bang
  | '<' => some .less
  | '>' => some .greater
  | _ => none

def leadingByte (c : Char) : Char :=
  let n := c.toNat
  if n < 0x80 then c
  else if n < 0x800 then .ofNat (0xC0 + n / 0x40)
  else if n < 0x10000 then .ofNat (0xE0 + n / 0x1000)
  else .ofNat (0xF0 + n / 0x40000)

/-- The lexeme at the head of `c :: cs`, and how many characters of `cs` belong to it. An error
comes with the number of characters before it. -/
def read (c : Char) (cs : List Char) : Except (Nat × Complaint) (Lexeme × Nat) :=
  if c = '#' then .ok (.blank, (cs.takeWhile (· ≠ '\n')).length)
  else if c = '\n' then .ok (.lineEnd, 0)
  else if isBlank c then .ok (.blank, 0)
  else if c.isDigit || (c == '.' && cs.head?.any Char.isDigit) then do
    let (value, length) ← number (c :: cs)
    return (.token (.number value), length - 1)
  else if c.isAlpha || c == '_' then
    let more := cs.takeWhile inName
    .ok (.token (word (.ofList (c :: more))), more.length)
  else
    match cs.head?.bind (pair? c) with
    | some kind => .ok (.token kind, 1)
    | none =>
      match single? c with
      | some kind => .ok (.token kind, 0)
      | none => .error (0, .unexpectedCharacter (leadingByte c))

end Lexeme

/-- How many parentheses are open behind a token. A stray closing one closes nothing. -/
def Kind.nesting (depth : Nat) : Kind → Nat
  | .openParen => depth + 1
  | .closeParen => depth - 1
  | _ => depth

def tokensFrom (offset depth : Nat) (read : Array Token) :
    List Char → Except Error (List Token)
  | [] => .ok (read.push ⟨.finish, offset, offset⟩).toList
  | c :: cs =>
    match Lexeme.read c cs with
    | .error (skipped, complaint) => .error ⟨offset + skipped, complaint⟩
    | .ok (lexeme, more) =>
      let stop := offset + byteLength (c :: cs.take more)
      match lexeme with
      | .blank => tokensFrom stop depth read (cs.drop more)
      | .lineEnd =>
        if depth = 0 then
          tokensFrom stop depth (read.push ⟨.separator, offset, stop⟩) (cs.drop more)
        else tokensFrom stop depth read (cs.drop more)
      | .token kind =>
        tokensFrom stop (kind.nesting depth) (read.push ⟨kind, offset, stop⟩) (cs.drop more)
termination_by cs => cs.length
decreasing_by all_goals simp only [List.length_cons, List.length_drop]; omega

def tokens (source : String) : Except Error (List Token) :=
  tokensFrom 0 0 #[] source.toList

end TurtlePlayback.Script
