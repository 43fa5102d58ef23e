import Mathlib.Data.List.DropRight
import Mathlib.Data.String.Basic
import TurtlePlayback.Script.Boundary

namespace TurtlePlayback.Script

variable {source : String} {offset later : Nat}

theorem byteLength_eq (cs : List Char) : byteLength cs = String.utf8Len cs := by
  induction cs with
  | nil => rfl
  | cons c cs ih => rw [byteLength, ih, String.utf8Len_cons, Nat.add_comm]

theorem byteLength_append (front behind : List Char) :
    byteLength (front ++ behind) = byteLength front + byteLength behind := by
  simp [byteLength_eq]

theorem byteLength_pos {cs : List Char} (some_text : cs ≠ []) : 0 < byteLength cs := by
  rw [byteLength_eq, Nat.pos_iff_ne_zero, Ne, String.utf8Len_eq_zero]
  exact some_text

theorem byteLength_toList (source : String) : byteLength source.toList = source.utf8ByteSize := by
  rw [byteLength_eq, String.utf8Len_toList]

theorem isValid_iff : String.Pos.Raw.IsValid source ⟨offset⟩ ↔
    ∃ front behind, source.toList = front ++ behind ∧ byteLength front = offset := by
  rw [String.Pos.Raw.isValid_iff_exists_append]
  constructor
  · rintro ⟨s, t, rfl, same⟩
    refine ⟨s.toList, t.toList, String.toList_append, ?_⟩
    rw [byteLength_toList]
    exact (congrArg String.Pos.Raw.byteIdx same).symm
  · rintro ⟨front, behind, whole, rfl⟩
    refine ⟨.ofList front, .ofList behind, ?_, ?_⟩
    · rw [← String.ofList_append, ← whole, String.ofList_toList]
    · rw [String.rawEndPos_ofList, byteLength_eq]

theorem extract_eq {front text behind : List Char} (whole : source.toList = front ++ text ++ behind) :
    String.Pos.Raw.extract source ⟨byteLength front⟩ ⟨byteLength front + byteLength text⟩ =
      .ofList text := by
  rw [← String.ofList_toList (s := source), whole, byteLength_eq, byteLength_eq,
    String.extract_of_valid]

namespace Location

def behind (front : List Char) : Location :=
  ⟨1 + front.count '\n', 1 + byteLength (front.rtakeWhile (· ≠ '\n'))⟩

theorem past_behind (front : List Char) (c : Char) :
    (behind front).past c = behind (front ++ [c]) := by
  by_cases ends : c = '\n'
  · subst ends
    rw [past, if_pos rfl, behind, behind, List.rtakeWhile_concat_neg _ _ _ (by simp)]
    simp [byteLength, Nat.add_assoc]
  · rw [past, if_neg ends, behind, behind, List.rtakeWhile_concat_pos _ _ _ (by simpa using ends),
      byteLength_append]
    simp [byteLength, ends, Nat.add_assoc]

theorem foldl_past (front more : List Char) :
    more.foldl past (behind front) = behind (front ++ more) := by
  induction more generalizing front with
  | nil => simp
  | cons c more ih => rw [List.foldl_cons, past_behind, ih, List.append_assoc, List.singleton_append]

theorem walk_append (l : Location) (front behind : List Char) :
    l.walk (front ++ behind) (byteLength front) = some (front.foldl past l) := by
  induction front generalizing l with
  | nil => simp [byteLength, walk]
  | cons c front ih =>
    have wide := c.utf8Size_pos
    rw [List.cons_append, byteLength, walk, if_neg (by omega), Nat.add_sub_cancel_left, ih,
      List.foldl_cons]
    omega

theorem ofOffset?_eq {front more : List Char} (whole : source.toList = front ++ more) :
    ofOffset? source (byteLength front) = some (behind front) := by
  have start : first = behind [] := rfl
  rw [ofOffset?, whole, walk_append, start, foldl_past, List.nil_append]

def Before (l k : Location) : Prop :=
  l.line < k.line ∨ l.line = k.line ∧ l.column < k.column

theorem Before.trans {l k n : Location} (h : l.Before k) (g : k.Before n) : l.Before n := by
  simp only [Before] at *
  omega

theorem Before.irrefl (l : Location) : ¬ l.Before l := by
  simp [Before]

theorem before_past (l : Location) (c : Char) : l.Before (l.past c) := by
  have wide := c.utf8Size_pos
  simp only [past, Before]
  split
  · exact .inl (Nat.lt_succ_self _)
  · exact .inr ⟨rfl, Nat.lt_add_of_pos_right wide⟩

theorem before_foldl (l : Location) {more : List Char} (some_text : more ≠ []) :
    l.Before (more.foldl past l) := by
  induction more generalizing l with
  | nil => exact absurd rfl some_text
  | cons c more ih =>
    rw [List.foldl_cons]
    rcases eq_or_ne more [] with rfl | longer
    · exact before_past l c
    · exact (before_past l c).trans (ih _ longer)

theorem before_of_lt {front front' more more' : List Char} (whole : source.toList = front ++ more)
    (whole' : source.toList = front' ++ more') (earlier : byteLength front < byteLength front') :
    (behind front).Before (behind front') := by
  rcases List.append_eq_append_iff.mp (whole.symm.trans whole') with
    ⟨middle, rfl, -⟩ | ⟨middle, rfl, -⟩
  · have some_text : middle ≠ [] := by
      rintro rfl
      simp at earlier
    rw [← foldl_past]
    exact before_foldl _ some_text
  · rw [byteLength_append] at earlier
    omega

end Location

/-- An offset is a place of the text: it falls between two characters, or is one of the text's ends,
and it has the line and the column of what stands before it. -/
structure Placed (source : String) (offset : Nat) : Prop where
  le_size : offset ≤ source.utf8ByteSize
  boundary : String.Pos.Raw.IsValid source ⟨offset⟩
  located : ∃ front more, source.toList = front ++ more ∧ byteLength front = offset ∧
    Location.ofOffset? source offset =
      some ⟨1 + front.count '\n', 1 + byteLength (front.rtakeWhile (· ≠ '\n'))⟩

theorem placed_iff : Placed source offset ↔ String.Pos.Raw.IsValid source ⟨offset⟩ := by
  refine ⟨Placed.boundary, fun boundary => ?_⟩
  obtain ⟨front, more, whole, rfl⟩ := isValid_iff.mp boundary
  refine ⟨?_, boundary, front, more, whole, rfl, Location.ofOffset?_eq whole⟩
  rw [← byteLength_toList, whole, byteLength_append]
  exact Nat.le_add_right _ _

theorem Placed.of_append {front more : List Char} (whole : source.toList = front ++ more) :
    Placed source (byteLength front) :=
  placed_iff.mpr (isValid_iff.mpr ⟨front, more, whole, rfl⟩)

theorem placed_zero (source : String) : Placed source 0 := by
  have whole : source.toList = [] ++ source.toList := rfl
  exact Placed.of_append whole

theorem Placed.before_iff (h : Placed source offset) (g : Placed source later) {l k : Location}
    (found : Location.ofOffset? source offset = some l)
    (found' : Location.ofOffset? source later = some k) : offset < later ↔ l.Before k := by
  obtain ⟨front, more, whole, rfl, here⟩ := h.located
  obtain ⟨front', more', whole', rfl, there⟩ := g.located
  obtain rfl := Option.some.inj (here.symm.trans found)
  obtain rfl := Option.some.inj (there.symm.trans found')
  refine ⟨Location.before_of_lt whole whole', fun before => ?_⟩
  rcases Nat.lt_trichotomy (byteLength front) (byteLength front') with earlier | same | other
  · exact earlier
  · rw [same, there] at here
    rw [Option.some.inj here] at before
    exact absurd before (Location.Before.irrefl _)
  · exact absurd (before.trans (Location.before_of_lt whole' whole other)) (Location.Before.irrefl _)

namespace Split

theorem find?_isSome_iff (l : Location) (start : Nat) (cs : List Char) (n : Nat) :
    (find? start cs (start + n)).isSome = true ↔ l.walk cs n = none := by
  induction cs generalizing l start n with
  | nil => cases n <;> simp [find?, Location.walk]
  | cons c cs ih =>
    cases n with
    | zero => simp [find?, Location.walk]
    | succ n =>
      have walked : l.walk (c :: cs) (n + 1) =
          if n + 1 < c.utf8Size then none else (l.past c).walk cs (n + 1 - c.utf8Size) := rfl
      rw [find?, walked, if_neg (by omega)]
      by_cases inside : n + 1 < c.utf8Size
      · rw [if_pos (by omega), if_pos inside]
        exact iff_of_true rfl rfl
      · have next : start + (n + 1) = start + c.utf8Size + (n + 1 - c.utf8Size) := by omega
        rw [if_neg (by omega), if_neg inside, next]
        exact ih _ _ _

theorem find?_eq_some {start : Nat} {cs : List Char} {s : Split} (behind : start ≤ offset)
    (found : find? start cs offset = some s) :
    s.offset = offset ∧ s.start < offset ∧ offset < s.start + s.character.utf8Size ∧
      ∃ front more, cs = front ++ s.character :: more ∧ s.start = start + byteLength front := by
  induction cs generalizing start with
  | nil => cases found
  | cons c cs ih =>
    rw [find?] at found
    split at found
    · cases found
    · next other =>
      split at found
      · next inside =>
        cases found
        exact ⟨rfl, show start < offset by omega, inside, [], cs, rfl, rfl⟩
      · next later =>
        obtain ⟨same, low, high, front, more, rfl, size⟩ := ih (by omega) found
        exact ⟨same, low, high, c :: front, more, rfl, by rw [size, byteLength, Nat.add_assoc]⟩

/-- What is said of an offset without a place names the character that the offset is inside of. -/
theorem ofOffset?_eq_some {s : Split} (found : ofOffset? source offset = some s) :
    s.offset = offset ∧ s.start < offset ∧ offset < s.start + s.character.utf8Size ∧
      ∃ front more, source.toList = front ++ s.character :: more ∧ s.start = byteLength front := by
  have parts := find?_eq_some (Nat.zero_le offset) found
  simpa only [Nat.zero_add] using parts

/-- Every offset either has a place or falls inside a character. -/
theorem ofOffset?_isSome_iff :
    (ofOffset? source offset).isSome = true ↔ Location.ofOffset? source offset = none := by
  have walked := find?_isSome_iff Location.first 0 source.toList offset
  rwa [Nat.zero_add] at walked

theorem ofOffset?_eq_none (placed : Placed source offset) : ofOffset? source offset = none := by
  obtain ⟨front, more, -, -, located⟩ := placed.located
  have some_place : Location.ofOffset? source offset ≠ none := by
    rw [located]
    exact Option.some_ne_none _
  exact Option.not_isSome_iff_eq_none.mp (mt ofOffset?_isSome_iff.mp some_place)

end Split

end TurtlePlayback.Script
