import TurtlePlayback.Failure

/-!
Tables of counted values. A value enters a table with one reference and leaves it with its last.
Handles count up from one and are never given twice, so a handle whose value has left stays dead.
-/

namespace TurtlePlayback.Artifact

inductive ResourceKind
  | image
  | environment
  deriving DecidableEq, Repr

def ResourceKind.name : ResourceKind → String
  | image => "image"
  | environment => "environment"

inductive Purpose
  | use
  | retain
  | release
  deriving DecidableEq, Repr

def Purpose.name : Purpose → String
  | use => "use"
  | retain => "retain"
  | release => "release"

structure Misuse where
  purpose : Purpose
  kind : ResourceKind
  handle : Nat
  deriving DecidableEq, Repr

namespace Misuse

def message (m : Misuse) : String :=
  s!"{m.purpose.name} of dead {m.kind.name} handle #{m.handle}"

def failure (m : Misuse) : Failure :=
  ⟨.misuse, m.message⟩

end Misuse

structure Entry (α : Type) where
  value : α
  refs : Nat
  refs_pos : 0 < refs

/-- The entry of handle `h` is at position `h - 1`; a dead handle has none. -/
structure Table (α : Type) where
  kind : ResourceKind
  entries : Array (Option (Entry α)) := #[]

namespace Table

variable {α : Type}

def find? (t : Table α) (h : Nat) : Option (Entry α) :=
  if h = 0 then none else (t.entries[h - 1]?).join

def setEntry (t : Table α) (h : Nat) (e : Option (Entry α)) : Table α :=
  { t with entries := t.entries.setIfInBounds (h - 1) e }

def misuse (t : Table α) (p : Purpose) (h : Nat) : Misuse :=
  ⟨p, t.kind, h⟩

def insert (t : Table α) (a : α) : Nat × Table α :=
  (t.entries.size + 1, { t with entries := t.entries.push (some ⟨a, 1, Nat.one_pos⟩) })

def get (t : Table α) (h : Nat) : Except Misuse α :=
  match t.find? h with
  | some e => .ok e.value
  | none => .error (t.misuse .use h)

def set (t : Table α) (h : Nat) (a : α) : Except Misuse (α × Table α) :=
  match t.find? h with
  | some e => .ok (e.value, t.setEntry h (some { e with value := a }))
  | none => .error (t.misuse .use h)

def retain (t : Table α) (h : Nat) : Except Misuse (Table α) :=
  match t.find? h with
  | some e => .ok (t.setEntry h (some { e with refs := e.refs + 1, refs_pos := Nat.succ_pos _ }))
  | none => .error (t.misuse .retain h)

def release (t : Table α) (h : Nat) : Except Misuse (Option α × Table α) :=
  match t.find? h with
  | some e =>
    if more : 1 < e.refs then
      .ok (none, t.setEntry h (some { e with
        refs := e.refs - 1, refs_pos := Nat.sub_pos_of_lt more }))
    else .ok (some e.value, t.setEntry h none)
  | none => .error (t.misuse .release h)

def refs (t : Table α) (h : Nat) : Nat :=
  (t.find? h).elim 0 (·.refs)

def live (t : Table α) : Nat :=
  t.entries.countP (·.isSome)

def issued (t : Table α) : Nat :=
  t.entries.size

end Table

end TurtlePlayback.Artifact
