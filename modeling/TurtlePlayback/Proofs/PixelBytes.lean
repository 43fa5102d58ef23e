import TurtlePlayback.Canvas.Picture

namespace TurtlePlayback.Canvas

theorem length_flatMap_bytes (ps : List Pixel) : (ps.flatMap Pixel.bytes).length = 4 * ps.length := by
  induction ps with
  | nil => rfl
  | cons p ps ih =>
    rw [List.flatMap_cons, List.length_append, ih, List.length_cons]
    have four : p.bytes.length = 4 := rfl
    omega

theorem pixelsOf_flatMap (ps : List Pixel) : pixelsOf (ps.flatMap Pixel.bytes) = ps := by
  induction ps with
  | nil => rfl
  | cons p ps ih => rw [List.flatMap_cons, Pixel.bytes, List.cons_append, List.cons_append,
      List.cons_append, List.cons_append, List.nil_append, pixelsOf, ih]

theorem overBytes_flatMap (dst src : List Pixel) :
    overBytes (dst.flatMap Pixel.bytes) (src.flatMap Pixel.bytes) =
      if dst.length = src.length then .ok ((List.zipWith Pixel.under dst src).flatMap Pixel.bytes)
      else .error .sizeMismatch := by
  rw [overBytes, length_flatMap_bytes, length_flatMap_bytes, pixelsOf_flatMap, pixelsOf_flatMap]
  by_cases same : dst.length = src.length
  · rw [if_pos same, if_neg (by omega)]
  · rw [if_neg same, if_pos (by omega)]

theorem toList_bytesOf (ps : Array Pixel) :
    (bytesOf ps).data.toList = ps.toList.flatMap Pixel.bytes := by
  have gathered (ps : List Pixel) (bytes : ByteArray) :
      (ps.foldl (fun bytes p => (((bytes.push p.r).push p.g).push p.b).push p.a) bytes).data.toList =
        bytes.data.toList ++ ps.flatMap Pixel.bytes := by
    induction ps generalizing bytes with
    | nil => simp
    | cons p ps ih =>
      rw [List.foldl_cons, ih, List.flatMap_cons]
      simp [Pixel.bytes, ByteArray.data_push]
  rw [bytesOf, ← Array.foldl_toList, gathered]
  rfl

theorem size_bytesOf (ps : Array Pixel) : (bytesOf ps).size = 4 * ps.size := by
  rw [ByteArray.size, ← Array.length_toList, toList_bytesOf, length_flatMap_bytes, Array.length_toList]

theorem getElem?_flatMap_bytes (ps : List Pixel) (i : Nat) {j : Nat} (inside : j < 4) :
    (ps.flatMap Pixel.bytes)[4 * i + j]? = ps[i]?.bind (·.bytes[j]?) := by
  induction ps generalizing i with
  | nil => rfl
  | cons p ps ih =>
    have four : p.bytes.length = 4 := rfl
    rw [List.flatMap_cons]
    cases i with
    | zero => rw [List.getElem?_append_left (by omega)]; simp
    | succ i =>
      rw [List.getElem?_append_right (by omega), List.getElem?_cons_succ, ← ih]
      congr 1
      omega

theorem getElem_bytesOf (ps : Array Pixel) {i j : Nat} (pixel : i < ps.size) (inside : j < 4)
    (bound : 4 * i + j < (bytesOf ps).size) {x : UInt8} (byte : ps[i].bytes[j]? = some x) :
    (bytesOf ps)[4 * i + j] = x := by
  have bound : 4 * i + j < (bytesOf ps).data.size := bound
  have found := getElem?_flatMap_bytes ps.toList i inside
  rw [← toList_bytesOf, Array.getElem?_toList, Array.getElem?_toList, Array.getElem?_eq_getElem pixel,
    Array.getElem?_eq_getElem bound, Option.bind_some, byte] at found
  exact Option.some.inj found

theorem pixels_bytesOf {picture : Picture} {ps : Array Pixel} (data : picture.data = bytesOf ps) :
    picture.pixels = ps := by
  obtain ⟨width, height, bytes, premultiplied⟩ := picture
  obtain rfl : bytes = bytesOf ps := data
  have size := size_bytesOf ps
  apply Array.ext
  · rw [Picture.pixels, Array.size_ofFn]
    change (bytesOf ps).size / 4 = ps.size
    omega
  · intro i _ inside
    simp only [Picture.pixels, Array.getElem_ofFn]
    have red := getElem_bytesOf ps inside (j := 0) (by omega) (by omega) rfl
    have green := getElem_bytesOf ps inside (j := 1) (by omega) (by omega) rfl
    have blue := getElem_bytesOf ps inside (j := 2) (by omega) (by omega) rfl
    have alpha := getElem_bytesOf ps inside (j := 3) (by omega) (by omega) rfl
    rw [green, blue, alpha]
    exact congrArg (Pixel.mk · _ _ _) red

end TurtlePlayback.Canvas
