import Mathlib.Data.List.DropRight
import Mathlib.Order.Interval.Set.Defs
import Mathlib.Order.Lattice
import Mathlib.Order.Monotone.Basic
import PayFormula.Proofs.Text.Bytes

/-!
# What the line index says of an offset

The line of an offset is the number of newlines in front of it, and its column is
what lies between it and the last of them. This holds past the end of a text as
well: there the last line goes on, as if the text had more characters on it. So a
later offset always has a later position, and the end of a text stands behind all
of its bytes.
-/
namespace PayFormula

open Text

namespace Text

/-- The offset just behind the last newline of some bytes, or zero if there is none. -/
def lineStart (bytes : List UInt8) : Nat := (bytes.rdropWhile (· ≠ newline)).length

theorem lineStart_append {front back : List UInt8} (h : ∀ byte ∈ back, byte ≠ newline) :
    lineStart (front ++ back) = lineStart front := by
  have hback : back.reverse.dropWhile (· ≠ newline) = [] := by
    rw [List.dropWhile_eq_nil_iff]
    exact fun byte hbyte => decide_eq_true (h byte (List.mem_reverse.mp hbyte))
  rw [lineStart, lineStart, List.rdropWhile, List.rdropWhile, List.reverse_append,
    List.dropWhile_append, hback]
  rfl

theorem lineStart_concat (front : List UInt8) (byte : UInt8) : lineStart (front ++ [byte]) =
    if byte = newline then front.length + 1 else lineStart front := by
  split
  · rename_i hbyte
    rw [lineStart, List.rdropWhile_concat_neg _ _ _ (by simp [hbyte]), List.length_append,
      List.length_singleton]
  · rename_i hbyte
    exact lineStart_append (by simpa using hbyte)

theorem lineStart_le (bytes : List UInt8) : lineStart bytes ≤ bytes.length :=
  (List.rdropWhile_prefix _ _).length_le

end Text

/-- Where bytes end that start at the origin. -/
theorem Position.origin_after (bytes : List UInt8) :
    origin.after bytes = ⟨bytes.count newline, bytes.length - lineStart bytes⟩ := by
  induction bytes using List.reverseRecOn with
  | nil => rfl
  | append_singleton front byte ih =>
    have hle := lineStart_le front
    rw [after_append, ih, after_cons, after_nil, next, lineStart_concat, List.count_append,
      List.length_append, List.length_singleton, List.count_singleton]
    split
    · rename_i hbyte
      simp [hbyte]
    · rename_i hbyte
      simp only [beq_iff_eq, hbyte, if_false, Nat.add_zero, mk.injEq, true_and]
      omega

namespace LineIndex

/-- A text with blanks behind it, up to an offset that lies past its end. -/
def filled (text : List Char) (offset : Nat) : List Char :=
  text ++ List.replicate (offset - byteLength text) ' '

theorem byteLength_replicate_blank (n : Nat) : byteLength (List.replicate n ' ') = n := by
  induction n with
  | zero => rfl
  | succ n ih =>
    rw [List.replicate_succ, byteLength_cons, ih, show ' '.utf8Size = 1 from rfl, Nat.add_comm]

theorem byteLength_filled (text : List Char) (offset : Nat) :
    byteLength (filled text offset) = max (byteLength text) offset := by
  rw [filled, byteLength_append, byteLength_replicate_blank]
  omega

/-- Blanks on the last line start no line. -/
theorem startsAfter_blanks (offset : Nat) (text : List Char) (n : Nat) :
    startsAfter offset (text ++ List.replicate n ' ') = startsAfter offset text := by
  induction text generalizing offset with
  | nil =>
    induction n generalizing offset with
    | zero => rfl
    | succ n ih => exact ih (offset + 1)
  | cons c text ih => rw [List.cons_append, startsAfter, startsAfter, ih]

theorem position_filled (text : List Char) (offset : Nat) :
    (ofChars (filled text offset)).position = (ofChars text).position := by
  funext target
  rw [position, position, ofChars, ofChars, filled, startsAfter_blanks]

/-- What fills a text up to an offset are bytes that end no line. -/
theorem take_bytes_filled (text : List Char) (offset : Nat) :
    ∃ back, (bytes (filled text offset)).take offset = (bytes text).take offset ++ back ∧
      ∀ byte ∈ back, byte ≠ newline := by
  refine ⟨(bytes (List.replicate (offset - byteLength text) ' ')).take
    (offset - (bytes text).length), ?_, fun byte hbyte => ?_⟩
  · rw [filled, bytes_append, List.take_append]
  · obtain ⟨c, hc, hbyte⟩ := List.mem_flatMap.mp (List.mem_of_mem_take hbyte)
    rw [List.eq_of_mem_replicate hc] at hbyte
    exact ne_newline_of_mem (by decide) hbyte

variable {text : List Char}

/-- The line of an offset counts newlines, and the column starts behind the last one. -/
theorem position_eq_count (hsize : byteLength text < 0x100000000) {offset : Nat}
    (ho : offset < 0x100000000) : (ofChars text).position offset =
      ⟨((bytes text).take offset).count newline,
        offset - lineStart ((bytes text).take offset)⟩ := by
  have hfilled := byteLength_filled text offset
  obtain ⟨back, htake, hback⟩ := take_bytes_filled text offset
  have hcount : back.count newline = 0 := List.count_eq_zero.mpr fun hmem => hback _ hmem rfl
  have hlength : ((bytes text).take offset ++ back).length = offset := by
    rw [← htake, List.length_take, length_bytes]
    omega
  rw [← position_filled text offset, position_eq_place (by omega) (by omega), place, htake,
    Position.origin_after, hlength, List.count_append, hcount, lineStart_append hback, Nat.add_zero]

/-- A later offset has a later position, be it within the text or past its end. -/
theorem position_strictMonoOn (hsize : byteLength text < 0x100000000) :
    StrictMonoOn (ofChars text).position (Set.Iio 0x100000000) := by
  intro a _ b hb hab
  have hfilled := byteLength_filled text b
  have hlimit : b < 0x100000000 := hb
  rw [← position_filled text b]
  exact position_lt_position (by omega) hab (by omega)

/-- An offset has the line and the column that the newlines in front of it give it. Positions are
in the order of offsets, and the end of a text stands behind all of its bytes. -/
theorem position_exact {source : String} (hsize : byteLength source.toList < 0x100000000) :
    let index := ofString source
    let before (offset : Nat) := (bytes source.toList).take offset
    (∀ offset < 0x100000000, index.position offset =
        ⟨(before offset).count newline, offset - lineStart (before offset)⟩) ∧
      StrictMonoOn index.position (Set.Iio 0x100000000) ∧
      Set.InjOn index.position (Set.Iio 0x100000000) ∧
      ∀ offset < byteLength source.toList, index.position offset < index.endPosition := by
  intro index before
  have hmono : StrictMonoOn index.position (Set.Iio 0x100000000) := position_strictMonoOn hsize
  refine ⟨fun offset ho => position_eq_count hsize ho, hmono, hmono.injOn, fun offset ho => ?_⟩
  exact hmono (Nat.lt_trans ho hsize) hsize ho

/-- Empty lines, a character of several bytes, and offsets up to and past a newline at the end. -/
theorem position_exact_lines :
    byteLength "\n\né\n".toList < 0x100000000 ∧
      (List.range 7).map (ofString "\n\né\n").position =
        [⟨0, 0⟩, ⟨1, 0⟩, ⟨2, 0⟩, ⟨2, 1⟩, ⟨2, 2⟩, ⟨3, 0⟩, ⟨3, 1⟩] ∧
      StrictMonoOn (ofString "\n\né\n").position (Set.Iio 0x100000000) ∧
      Set.InjOn (ofString "\n\né\n").position (Set.Iio 0x100000000) ∧
      ∀ offset < byteLength "\n\né\n".toList,
        (ofString "\n\né\n").position offset < (ofString "\n\né\n").endPosition := by
  have hsize : byteLength "\n\né\n".toList < 0x100000000 := by decide +kernel
  exact ⟨hsize, by decide +kernel, (position_exact hsize).2⟩

end LineIndex

end PayFormula
