import TurtlePlayback.Decimal.Layout

namespace TurtlePlayback.Json

inductive Value
  | null
  | bool (b : Bool)
  | nat (n : Nat)
  | real (x : Float)
  | string (s : String)
  | array (items : List Value)
  | object (fields : List (String × Value))

def hexPair (n : Nat) : String :=
  .ofList [Nat.digitChar (n / 16), Nat.digitChar (n % 16)]

def escape (c : Char) : String :=
  match c with
  | '"' => "\\\""
  | '\\' => "\\\\"
  | '\x08' => "\\b"
  | '\x0c' => "\\f"
  | '\n' => "\\n"
  | '\r' => "\\r"
  | '\t' => "\\t"
  | c => if c.toNat < 32 then "\\u00" ++ hexPair c.toNat else c.toString

def quote (s : String) : String :=
  "\"" ++ String.join (s.toList.map escape) ++ "\""

/-- A number; JSON has none for infinities and NaN. -/
def writeReal (x : Float) : String :=
  if x.isFinite then Decimal.Layout.json.write x else "null"

namespace Value

mutual

def compact : Value → String
  | null => "null"
  | bool b => toString b
  | nat n => toString n
  | real x => writeReal x
  | string s => quote s
  | array items => "[" ++ ",".intercalate (compactItems items) ++ "]"
  | object fields => "\x7b" ++ ",".intercalate (compactFields fields) ++ "\x7d"

def compactItems : List Value → List String
  | [] => []
  | v :: vs => v.compact :: compactItems vs

def compactFields : List (String × Value) → List String
  | [] => []
  | (k, v) :: fs => (quote k ++ ":" ++ v.compact) :: compactFields fs

end

def layOut (opening closing indent : String) (items : List String) : String :=
  if items.isEmpty then opening ++ closing
  else
    opening ++ ",".intercalate (items.map ("\n" ++ indent ++ "  " ++ ·)) ++ "\n" ++ indent ++ closing

mutual

def prettyAt (indent : String) : Value → String
  | array items => layOut "[" "]" indent (prettyItems (indent ++ "  ") items)
  | object fields => layOut "\x7b" "\x7d" indent (prettyFields (indent ++ "  ") fields)
  | v => v.compact

def prettyItems (indent : String) : List Value → List String
  | [] => []
  | v :: vs => v.prettyAt indent :: prettyItems indent vs

def prettyFields (indent : String) : List (String × Value) → List String
  | [] => []
  | (k, v) :: fs => (quote k ++ ": " ++ v.prettyAt indent) :: prettyFields indent fs

end

def pretty (v : Value) : String :=
  v.prettyAt ""

end Value

end TurtlePlayback.Json
