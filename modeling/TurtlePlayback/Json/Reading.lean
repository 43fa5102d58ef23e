import TurtlePlayback.Decimal.Reading

/-!
JSON as read. A text is read as a tree that keeps what readers of its parts may want to refuse:
all fields of an object in their order, the spelling of numbers, and whether a string is text at
all, which one with half a surrogate pair is not.
-/

namespace TurtlePlayback.Json

structure Number where
  negative : Bool
  whole : List Char
  fraction : Option (List Char)
  exponent : Option Int

inductive Tree
  | null
  | bool (b : Bool)
  | number (n : Number)
  | string (s : Option String)
  | array (items : List Tree)
  | object (fields : List (Option String × Tree))

namespace Number

def word? (n : Number) : Option Nat :=
  if n.negative || n.fraction.isSome || n.exponent.isSome then none
  else some (Decimal.ofDigits n.whole)

def takeDigits (word : Nat) : List Char → Nat × Nat
  | [] => (word, 0)
  | c :: cs =>
    let next := 10 * word + (c.toNat - '0'.toNat)
    if 1 <<< 64 ≤ next then (word, 0)
    else
      let (word, n) := takeDigits next cs
      (word, n + 1)

def scale (x : Float) (exponent : Int) : Option Float :=
  let power (n : Nat) : Float := Decimal.toFloat 1 n
  if x == 0.0 then some x
  else if 308 < exponent then none
  else if 0 ≤ exponent then
    let y := x * power exponent.toNat
    if y.isFinite then some y else none
  else if -308 ≤ exponent then some (x / power (-exponent).toNat)
  else if -616 ≤ exponent then some (x / power 308 / power (-exponent - 308).toNat)
  else some 0.0

/-- The number as a double. Whole numbers of 64 bits are rounded once. Of all others only the
digits that fit into 64 bits count, and scaling them by a power of ten rounds again. -/
def real? (n : Number) : Option Float :=
  let (word, taken) := takeDigits 0 n.whole
  let (word, places) := takeDigits word (n.fraction.getD [])
  let exponent := n.exponent.getD 0 + (n.whole.length - taken : Nat) - places
  (scale (Float.ofNat word) exponent).map fun x => if n.negative then -x else x

end Number

abbrev Reader (α : Type) :=
  List Char → Option (α × List Char)

def isBlank (c : Char) : Bool :=
  c == ' ' || c == '\n' || c == '\t' || c == '\r'

def skipBlanks (cs : List Char) : List Char :=
  cs.dropWhile isBlank

def hexDigit? (c : Char) : Option Nat :=
  if c.isDigit then some (c.toNat - '0'.toNat)
  else if 'a' ≤ c ∧ c ≤ 'f' then some (c.toNat - 'a'.toNat + 10)
  else if 'A' ≤ c ∧ c ≤ 'F' then some (c.toNat - 'A'.toNat + 10)
  else none

def unit? (a b c d : Char) : Option Nat := do
  let a ← hexDigit? a
  let b ← hexDigit? b
  let c ← hexDigit? c
  let d ← hexDigit? d
  return ((a * 16 + b) * 16 + c) * 16 + d

def escaped? : Char → Option Char
  | '"' => some '"'
  | '\\' => some '\\'
  | '/' => some '/'
  | 'b' => some '\x08'
  | 'f' => some '\x0c'
  | 'n' => some '\n'
  | 'r' => some '\r'
  | 't' => some '\t'
  | _ => none

def ofUnits? : List (Char ⊕ Nat) → Option (List Char)
  | [] => some []
  | .inl c :: rest => (ofUnits? rest).map (c :: ·)
  | .inr high :: rest =>
    if high < 0xD800 ∨ 0xE000 ≤ high then (ofUnits? rest).map (Char.ofNat high :: ·)
    else
      match rest with
      | .inr low :: rest =>
        if high < 0xDC00 ∧ 0xDC00 ≤ low ∧ low < 0xE000 then
          (ofUnits? rest).map
            (Char.ofNat (0x10000 + (high - 0xD800) * 0x400 + (low - 0xDC00)) :: ·)
        else none
      | _ => none

def stringUnits (read : Array (Char ⊕ Nat)) : Reader (List (Char ⊕ Nat))
  | '"' :: rest => some (read.toList, rest)
  | '\\' :: 'u' :: a :: b :: c :: d :: rest =>
    match unit? a b c d with
    | some u => stringUnits (read.push (.inr u)) rest
    | none => none
  | '\\' :: c :: rest =>
    match escaped? c with
    | some c => stringUnits (read.push (.inl c)) rest
    | none => none
  | c :: rest => if c.toNat < 32 then none else stringUnits (read.push (.inl c)) rest
  | [] => none

def string : Reader (Option String) := fun cs =>
  (stringUnits #[] cs).map fun (units, rest) =>
    ((ofUnits? units).map String.ofList, rest)

def digits : Reader (List Char) := fun cs =>
  let ds := cs.takeWhile Char.isDigit
  if ds.isEmpty then none else some (ds, cs.dropWhile Char.isDigit)

def wholeDigits : Reader (List Char) := fun cs => do
  let (ds, rest) ← digits cs
  if ds.head? = some '0' ∧ ds.length ≠ 1 then none else some (ds, rest)

def fractionDigits : Reader (Option (List Char))
  | '.' :: cs => (digits cs).map fun (ds, rest) => (some ds, rest)
  | cs => some (none, cs)

def exponentValue : Reader (Option Int) := fun cs =>
  match cs with
  | c :: rest =>
    if c = 'e' ∨ c = 'E' then
      let (negative, rest) : Bool × List Char :=
        match rest with
        | '-' :: r => (true, r)
        | '+' :: r => (false, r)
        | r => (false, r)
      (digits rest).map fun (ds, rest) =>
        let size : Int := Decimal.ofDigits ds
        (some (if negative then -size else size), rest)
    else some (none, cs)
  | [] => some (none, cs)

def number (negative : Bool) : Reader Number := fun cs => do
  let (whole, cs) ← wholeDigits cs
  let (fraction, cs) ← fractionDigits cs
  let (exponent, cs) ← exponentValue cs
  return (⟨negative, whole, fraction, exponent⟩, cs)

mutual

def value : (n : Nat) → Reader Tree
  | 0, _ => none
  | n + 1, cs =>
    match cs with
    | 'n' :: 'u' :: 'l' :: 'l' :: rest => some (.null, rest)
    | 't' :: 'r' :: 'u' :: 'e' :: rest => some (.bool true, rest)
    | 'f' :: 'a' :: 'l' :: 's' :: 'e' :: rest => some (.bool false, rest)
    | '"' :: rest => (string rest).map fun (s, rest) => (.string s, rest)
    | '[' :: rest =>
      match skipBlanks rest with
      | ']' :: rest => some (.array [], rest)
      | rest => (items n rest).map fun (vs, rest) => (.array vs, rest)
    | '\x7b' :: rest =>
      match skipBlanks rest with
      | '\x7d' :: rest => some (.object [], rest)
      | rest => (fields n rest).map fun (fs, rest) => (.object fs, rest)
    | '-' :: rest => (number true rest).map fun (x, rest) => (.number x, rest)
    | cs => (number false cs).map fun (x, rest) => (.number x, rest)

def items : (n : Nat) → Reader (List Tree)
  | 0, _ => none
  | n + 1, cs => do
    let (v, cs) ← value n cs
    match skipBlanks cs with
    | ',' :: cs =>
      let (vs, cs) ← items n (skipBlanks cs)
      return (v :: vs, cs)
    | ']' :: cs => return ([v], cs)
    | _ => none

def fields : (n : Nat) → Reader (List (Option String × Tree))
  | 0, _ => none
  | n + 1, cs => do
    let '"' :: cs := cs | none
    let (k, cs) ← string cs
    let ':' :: cs := skipBlanks cs | none
    let (v, cs) ← value n (skipBlanks cs)
    match skipBlanks cs with
    | ',' :: cs =>
      let (fs, cs) ← fields n (skipBlanks cs)
      return ((k, v) :: fs, cs)
    | '\x7d' :: cs => return ([(k, v)], cs)
    | _ => none

end

def Tree.parse? (source : String) : Option Tree := do
  let cs := source.toList
  let (t, rest) ← value (cs.length + 1) (skipBlanks cs)
  if (skipBlanks rest).isEmpty then some t else none

namespace Tree

def real? : Tree → Option Float
  | number n => n.real?
  | _ => none

def word32? : Tree → Option Nat
  | number n => n.word?.filter (· < 1 <<< 32)
  | _ => none

def bool? : Tree → Option Bool
  | bool b => some b
  | _ => none

def record? (names : List String) : Tree → Option (List (Option Tree))
  | object fs => do
    let fs ← fs.mapM fun (k, v) => k.map (·, v)
    names.mapM fun n =>
      match fs.filter (·.1 = n) with
      | [] => some none
      | [(_, v)] => some (some v)
      | _ => none
  | array vs =>
    if names.length < vs.length then none
    else some (names.zipIdx.map fun (_, i) => vs[i]?)
  | _ => none

def orDefault {α : Type} (d : α) (read : Tree → Option α) : Option Tree → Option α
  | some t => read t
  | none => some d

end Tree

end TurtlePlayback.Json
