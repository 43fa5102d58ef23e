import Mathlib.Data.List.DropRight
import TurtlePlayback.Session.Output

namespace TurtlePlayback.Session.Output

def newest {α : Type} (l : List α) : List α :=
  l.rtake maxOutputLines

theorem newest_concat {α : Type} (l : List α) (a : α) : newest (l ++ [a]) =
    (if l.length < maxOutputLines then newest l else (newest l).tail) ++ [a] := by
  obtain ⟨n, capacity⟩ := Nat.exists_eq_add_one.mpr (show 0 < maxOutputLines by decide)
  simp only [newest, capacity, List.rtake_concat_succ]
  congr 1
  split
  · next short =>
    rw [List.rtake, List.rtake, Nat.sub_eq_zero_of_le (Nat.le_of_lt_succ short),
      Nat.sub_eq_zero_of_le (Nat.le_of_lt short)]
  · next long =>
    have one_more : l.length - n = l.length - (n + 1) + 1 := by omega
    rw [List.rtake, List.rtake, List.tail_drop, one_more]

theorem length_newest {α : Type} (l : List α) :
    (newest l).length = min l.length maxOutputLines := by
  rw [newest, List.rtake, List.length_drop]
  omega

variable {o : Output} {l : List OutputLine}

theorem lines_dropOldest (o : Output) : o.dropOldest.lines = o.lines.tail := by
  simp only [dropOldest, lines]
  split <;> next front => simp [front]

theorem counts_dropOldest (o : Output) :
    o.dropOldest.size = o.size - 1 ∧ o.dropOldest.dropped = o.dropped + 1 := by
  simp only [dropOldest]
  split <;> exact ⟨rfl, rfl⟩

theorem last?_eq (o : Output) : o.last? = o.lines.getLast? := by
  rw [last?, lines, List.getLast?_append, List.getLast?_reverse]
  cases o.back.head? <;> rfl

structure Window (o : Output) (l : List OutputLine) : Prop where
  size : o.size = o.lines.length
  lines : o.lines = newest l
  dropped : o.dropped = l.length - maxOutputLines

namespace Window

theorem empty : Window {} [] :=
  ⟨rfl, rfl, rfl⟩

theorem size_eq (window : Window o l) : o.size = min l.length maxOutputLines := by
  rw [window.size, window.lines, length_newest]

theorem print (window : Window o l) (text : String) (isError : Bool) :
    Window (o.print text isError) (l ++ [⟨text, isError⟩]) := by
  let kept := if o.size = maxOutputLines then o.dropOldest else o
  have size := window.size_eq
  have shown : (o.print text isError).lines = kept.lines ++ [⟨text, isError⟩] := by
    simp [Output.print, Output.lines, kept]
  have counts : (o.print text isError).size = kept.size + 1 ∧
      (o.print text isError).dropped = kept.dropped := ⟨rfl, rfl⟩
  have length := congrArg List.length window.lines
  rw [length_newest] at length
  by_cases full : o.size = maxOutputLines
  · have dropping : kept = o.dropOldest := if_pos full
    have long : ¬ l.length < maxOutputLines := by omega
    obtain ⟨size', dropped'⟩ := o.counts_dropOldest
    refine ⟨?_, ?_, ?_⟩
    · rw [counts.1, shown, dropping, size', List.length_append, lines_dropOldest, window.size,
        List.length_tail]
      rfl
    · rw [shown, dropping, newest_concat, if_neg long, lines_dropOldest, window.lines]
    · rw [counts.2, dropping, dropped', window.dropped, List.length_append, List.length_singleton]
      omega
  · have keeping : kept = o := if_neg full
    have short : l.length < maxOutputLines := by omega
    refine ⟨?_, ?_, ?_⟩
    · rw [counts.1, shown, keeping, window.size, List.length_append, List.length_singleton]
    · rw [shown, keeping, newest_concat, if_pos short, window.lines]
    · rw [counts.2, keeping, window.dropped, List.length_append, List.length_singleton]
      omega

end Window

inductive Call
  | print (text : String) (isError : Bool)
  | printError (text : String)
  | clear
  deriving DecidableEq

namespace Call

def act (o : Output) : Call → Output
  | print text isError => o.print text isError
  | printError text => o.printError text
  | clear => o.clear

def line? : Call → Option OutputLine
  | print text isError => some ⟨text, isError⟩
  | printError text => some ⟨text, true⟩
  | clear => none

end Call

def log (calls : List Call) : List OutputLine :=
  (calls.rtakeWhile (· ≠ .clear)).filterMap Call.line?

theorem log_clear (calls : List Call) : log (calls ++ [.clear]) = [] := by
  simp [log]

theorem log_line {c : Call} {line : OutputLine} (written : c.line? = some line)
    (calls : List Call) : log (calls ++ [c]) = log calls ++ [line] := by
  have other : c ≠ .clear := by
    rintro rfl
    cases written
  simp [log, other, written]

theorem window_run (calls : List Call) : Window (calls.foldl Call.act {}) (log calls) := by
  induction calls using List.reverseRecOn with
  | nil => exact .empty
  | append_singleton calls c window =>
    rw [List.foldl_append, List.foldl_cons, List.foldl_nil]
    cases c with
    | print text isError =>
      rw [log_line rfl]
      exact window.print text isError
    | printError text =>
      rw [log_line rfl]
      exact window.print text true
    | clear =>
      rw [log_clear]
      exact .empty

/-- However an output is written to and cleared, it is known from the log: with as many as there is
room for of its last lines, all that is asked of the output is asked of those. -/
theorem shows_newest (calls : List Call) :
    let o := calls.foldl Call.act {}
    let k := min (log calls).length maxOutputLines
    let shown := (log calls).rtake k
    o.lines = shown ∧ o.dropped = (log calls).length - k ∧ o.last? = (log calls).getLast? ∧
      o.errors = (shown.filter (·.isError)).map (·.text) ∧
      o.text.toList = ['\n'].intercalate (shown.map (·.text.toList)) := by
  intro o k shown
  have window : Window o (log calls) := window_run calls
  have before (n m : Nat) : n - m = n - min n m := by omega
  have lines : o.lines = shown := by
    rw [window.lines, newest, List.rtake, before]
    rfl
  refine ⟨lines, window.dropped.trans (before _ _), ?_, ?_, ?_⟩
  · rw [last?_eq, window.lines, newest, List.rtake, List.getLast?_drop]
    split
    · next none_shown =>
      have nothing (n m : Nat) (full : 0 < m) (all : n ≤ n - m) : n = 0 := by omega
      rw [List.length_eq_zero_iff.mp (nothing _ _ (by decide) none_shown)]
      rfl
    · rfl
  · rw [errors, lines]
  · rw [text, lines, String.toList_intercalate, List.map_map]
    rfl

end TurtlePlayback.Session.Output
