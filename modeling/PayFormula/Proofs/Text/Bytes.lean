import PayFormula.Proofs.Position
import PayFormula.Text.Slice

/-!
# Bytes and their places

The UTF-8 form of a text, and the place at which each of its bytes stands when
they are read one after another: every newline byte starts a line, every other
one takes a column. The line index knows these places without reading on from
the start of the text.
-/
namespace PayFormula

/-- The bytes of a text, counted in two ways. -/
theorem byteLength_toList (text : String) : byteLength text.toList = text.utf8ByteSize := by
  have hofList (l : List Char) : (String.ofList l).utf8ByteSize = byteLength l := by
    induction l with
    | nil => rfl
    | cons c l ih =>
      rw [← List.singleton_append, String.ofList_append, String.utf8ByteSize_append, ih,
        ← String.singleton_eq_ofList, String.utf8ByteSize_singleton]
      rfl
  rw [← hofList, String.ofList_toList]

theorem byteLength_pos {text : List Char} (h : text ≠ []) : 0 < byteLength text := by
  cases text with
  | nil => exact absurd rfl h
  | cons c text =>
    have := c.utf8Size_pos
    rw [byteLength_cons]
    omega

namespace Text

/-- The UTF-8 form of a piece of text. -/
def bytes (text : List Char) : List UInt8 := text.flatMap String.utf8EncodeChar

/-- The byte that ends a line. -/
def newline : UInt8 := 0x0a

@[simp] theorem bytes_nil : bytes [] = [] := rfl

@[simp] theorem bytes_cons (c : Char) (text : List Char) :
    bytes (c :: text) = String.utf8EncodeChar c ++ bytes text := rfl

@[simp] theorem bytes_append (a b : List Char) : bytes (a ++ b) = bytes a ++ bytes b :=
  List.flatMap_append

@[simp] theorem length_bytes (text : List Char) : (bytes text).length = byteLength text := by
  induction text with
  | nil => rfl
  | cons c text ih =>
    rw [bytes_cons, List.length_append, String.length_utf8EncodeChar, ih, byteLength_cons]

/-- Only a newline has the byte of a newline in it: the bytes of longer characters are larger. -/
theorem ne_newline_of_mem {c : Char} (hc : c ≠ '\n') {byte : UInt8}
    (h : byte ∈ String.utf8EncodeChar c) : byte ≠ newline := by
  have hval : c.val.toNat ≠ 10 := fun heq => hc (Char.ext (UInt32.toNat_inj.mp heq))
  have hne {n : Nat} (hn : n < 256) (hn' : n ≠ 10) : UInt8.ofNat n ≠ newline := by
    intro heq
    have htoNat := congrArg UInt8.toNat heq
    rw [UInt8.toNat_ofNat_of_lt' hn] at htoNat
    exact hn' htoNat
  unfold String.utf8EncodeChar at h
  dsimp only at h
  split at h
  · rw [List.mem_singleton.mp h]
    exact hne (by omega) hval
  · split at h
    · simp only [List.mem_cons, List.not_mem_nil, or_false] at h
      rcases h with rfl | rfl <;> exact hne (by omega) (by omega)
    · split at h
      · simp only [List.mem_cons, List.not_mem_nil, or_false] at h
        rcases h with rfl | rfl | rfl <;> exact hne (by omega) (by omega)
      · simp only [List.mem_cons, List.not_mem_nil, or_false] at h
        rcases h with rfl | rfl | rfl | rfl <;> exact hne (by omega) (by omega)

theorem slice?_append (front piece back : List Char) :
    slice? (front ++ (piece ++ back)) (byteLength front) (byteLength front + byteLength piece) =
      some piece := by
  have hdrop (front text : List Char) :
      dropBytes? (byteLength front) (front ++ text) = some text := by
    induction front with
    | nil => simp [dropBytes?]
    | cons c front ih =>
      have hc := c.utf8Size_pos
      obtain ⟨n, hn⟩ : ∃ n, c.utf8Size + byteLength front = n + 1 :=
        Nat.exists_eq_add_one_of_ne_zero (by omega)
      rw [byteLength_cons, hn, List.cons_append, dropBytes?, if_pos (by omega),
        show n + 1 - c.utf8Size = byteLength front by omega, ih]
  have htake (piece : List Char) : takeBytes? (byteLength piece) (piece ++ back) = some piece := by
    induction piece with
    | nil => simp [takeBytes?]
    | cons c piece ih =>
      have hc := c.utf8Size_pos
      obtain ⟨n, hn⟩ : ∃ n, c.utf8Size + byteLength piece = n + 1 :=
        Nat.exists_eq_add_one_of_ne_zero (by omega)
      rw [byteLength_cons, hn, List.cons_append, takeBytes?, if_pos (by omega),
        show n + 1 - c.utf8Size = byteLength piece by omega, ih, Option.map_some]
  rw [slice?, if_pos (Nat.le_add_right _ _), hdrop, Option.bind_some, Nat.add_sub_cancel_left,
    htake]

end Text

open Text

namespace Position

/-- Where the next byte stands. -/
def next (p : Position) (byte : UInt8) : Position :=
  if byte = newline then ⟨p.line + 1, 0⟩ else ⟨p.line, p.column + 1⟩

/-- Where bytes end that start at a place. -/
def after (p : Position) (bytes : List UInt8) : Position := bytes.foldl next p

@[simp] theorem after_nil (p : Position) : p.after [] = p := rfl

@[simp] theorem after_cons (p : Position) (byte : UInt8) (bytes : List UInt8) :
    p.after (byte :: bytes) = (p.next byte).after bytes := rfl

@[simp] theorem after_append (p : Position) (a b : List UInt8) :
    p.after (a ++ b) = (p.after a).after b := List.foldl_append

theorem after_of_no_newline {bytes : List UInt8} (h : ∀ byte ∈ bytes, byte ≠ newline)
    (p : Position) : p.after bytes = ⟨p.line, p.column + bytes.length⟩ := by
  induction bytes generalizing p with
  | nil => rfl
  | cons byte bytes ih =>
    obtain ⟨hbyte, h⟩ := List.forall_mem_cons.mp h
    rw [after_cons, ih h, next, if_neg hbyte, List.length_cons]
    simp only [mk.injEq, true_and]
    omega

/-- The place with its coordinates as words. -/
def wrapped (p : Position) : Position := .ofCounts p.line p.column

end Position

/-- Where the byte at an offset of a text stands. -/
def Text.place (text : List Char) (offset : Nat) : Position :=
  Position.origin.after ((bytes text).take offset)

theorem Position.after_le (p : Position) (bytes : List UInt8) :
    (p.after bytes).line ≤ p.line + bytes.length ∧
      (p.after bytes).column ≤ p.column + bytes.length := by
  induction bytes generalizing p with
  | nil => exact ⟨Nat.le_refl _, Nat.le_refl _⟩
  | cons byte bytes ih =>
    have hnext : (p.next byte).line ≤ p.line + 1 ∧ (p.next byte).column ≤ p.column + 1 := by
      rw [next]
      split
      · exact ⟨Nat.le_refl _, Nat.zero_le _⟩
      · exact ⟨Nat.le_succ _, Nat.le_refl _⟩
    obtain ⟨hline, hcolumn⟩ := ih (p.next byte)
    rw [after_cons, List.length_cons]
    omega

theorem Text.place_le (text : List Char) (offset : Nat) :
    (place text offset).line ≤ offset ∧ (place text offset).column ≤ offset := by
  obtain ⟨hline, hcolumn⟩ := Position.origin.after_le ((bytes text).take offset)
  have hlength := List.length_take_le offset (bytes text)
  simp only [Position.origin, Nat.zero_add] at hline hcolumn
  exact ⟨Nat.le_trans hline hlength, Nat.le_trans hcolumn hlength⟩

/-- The bytes of a piece of text stand one behind the other from its own place on. -/
theorem Text.place_append (front piece back : List Char) {offset : Nat}
    (h : offset ≤ byteLength piece) :
    place (front ++ (piece ++ back)) (byteLength front + offset) =
      (place (front ++ (piece ++ back)) (byteLength front)).after ((bytes piece).take offset) := by
  have hfront : ((bytes (front ++ (piece ++ back))).take (byteLength front)) = bytes front := by
    rw [bytes_append, ← length_bytes, List.take_left]
  have hpiece : (bytes (front ++ (piece ++ back))).take (byteLength front + offset) =
      bytes front ++ (bytes piece).take offset := by
    rw [bytes_append, ← length_bytes, List.take_length_add_append, bytes_append,
      List.take_append_of_le_length (by rwa [length_bytes])]
  rw [place, place, hfront, hpiece, Position.after_append]

namespace LineIndex

theorem locate_of_lt {offset line start : Nat} {starts : List Nat} (h : ∀ s ∈ starts, offset < s) :
    locate offset line start starts = .ofCounts line (offset - start) := by
  cases starts with
  | nil => rfl
  | cons next starts => rw [locate, if_neg (Nat.not_le.mpr (h next List.mem_cons_self))]

/-- The line starts of a piece of text are found where reading it byte by byte finds them. -/
theorem locate_startsAfter {text : List Char} {p : Position} {offset start target : Nat}
    (hstart : start + p.column = offset) (hlow : offset ≤ target)
    (hhigh : target ≤ offset + byteLength text) :
    locate target p.line start (startsAfter offset text) =
      (p.after ((bytes text).take (target - offset))).wrapped := by
  induction text generalizing p offset start with
  | nil =>
    rw [byteLength_nil] at hhigh
    rw [startsAfter, locate, bytes_nil, List.take_nil, Position.after_nil,
      show target - start = p.column by omega]
    rfl
  | cons c text ih =>
    have hc := c.utf8Size_pos
    rw [byteLength_cons] at hhigh
    rw [startsAfter]
    split
    · rename_i hnewline
      subst hnewline
      have hencoded : bytes ('\n' :: text) = newline :: bytes text := rfl
      have hone : '\n'.utf8Size = 1 := rfl
      rw [hencoded, locate]
      split
      · rename_i hbehind
        have hnext : p.next newline = ⟨p.line + 1, 0⟩ := if_pos rfl
        have hsub : target - offset = target - (offset + '\n'.utf8Size) + 1 := by omega
        rw [hsub, List.take_succ_cons, Position.after_cons, hnext]
        exact ih (p := ⟨p.line + 1, 0⟩) (by dsimp only; omega) hbehind (by omega)
      · rw [show target - offset = 0 by omega, List.take_zero, Position.after_nil,
          show target - start = p.column by omega]
        rfl
    · rename_i hother
      have hlength := String.length_utf8EncodeChar c
      have hplain : ∀ byte ∈ String.utf8EncodeChar c, byte ≠ newline :=
        fun byte hbyte => ne_newline_of_mem hother hbyte
      rw [bytes_cons]
      by_cases hbehind : offset + c.utf8Size ≤ target
      · have hsub : target - offset =
            (String.utf8EncodeChar c).length + (target - (offset + c.utf8Size)) := by omega
        rw [hsub, List.take_length_add_append, Position.after_append,
          Position.after_of_no_newline hplain, hlength]
        exact ih (p := ⟨p.line, p.column + c.utf8Size⟩) (by dsimp only; omega) hbehind (by omega)
      · -- the offset lies within the character, in front of all line starts that are left
        obtain ⟨-, hlater, -⟩ := startsAfter_sorted (offset + c.utf8Size) text
        have hprefix : (String.utf8EncodeChar c ++ bytes text).take (target - offset) =
            (String.utf8EncodeChar c).take (target - offset) :=
          List.take_append_of_le_length (by omega)
        have hearly : ∀ s ∈ startsAfter (offset + c.utf8Size) text, target < s :=
          fun s hs => Nat.lt_trans (by omega) (hlater s hs)
        rw [locate_of_lt hearly, hprefix, Position.after_of_no_newline
            fun byte hbyte => hplain byte (List.mem_of_mem_take hbyte),
          List.length_take, hlength, show target - start =
            p.column + min (target - offset) c.utf8Size by omega]
        rfl

/-- The line index knows where the bytes of a text stand, in words. -/
theorem position_eq_wrapped {text : List Char} {offset : Nat} (ho : offset ≤ byteLength text) :
    (ofChars text).position offset = (place text offset).wrapped :=
  locate_startsAfter (p := .origin) rfl (Nat.zero_le _) (by omega)

/-- The line index knows where the bytes of a text stand, and where it ends. -/
theorem position_eq_place {text : List Char} (hsize : byteLength text < 0x100000000) {offset : Nat}
    (ho : offset ≤ byteLength text) : (ofChars text).position offset = place text offset := by
  obtain ⟨hline, hcolumn⟩ := place_le text offset
  rw [position_eq_wrapped ho]
  exact ofCounts_of_lt (by omega) (by omega)

end LineIndex

theorem Text.place_lt_place {text : List Char} (hsize : byteLength text < 0x100000000)
    {a b : Nat} (hab : a < b) (hb : b ≤ byteLength text) : place text a < place text b := by
  rw [← LineIndex.position_eq_place hsize (by omega), ← LineIndex.position_eq_place hsize hb]
  exact LineIndex.position_lt_position hsize hab hb

end PayFormula
