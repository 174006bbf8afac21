import Mathlib.Data.List.Basic
import PayFormula.Document.Coloring
import PayFormula.Proofs.Token.Tiling

/-!
# Colored bytes

The runs of a text color the bytes of its comments, numbers, strings, builtin
names and keywords, and nothing else; newlines are left out. They stand in the
order of the text, so that the encoded form never counts backwards and can be
decoded again.
-/
namespace PayFormula

open Text

/-- A byte that is no newline stands at the second place if the first byte stands at the first. -/
def Inks (p : Position) (bytes : List UInt8) (q : Position) : Prop :=
  ∃ (offset : Nat) (byte : UInt8),
    bytes[offset]? = some byte ∧ byte ≠ newline ∧ p.after (bytes.take offset) = q

namespace Inks

variable {p q : Position}

theorem not_nil : ¬ Inks p [] q := by
  rintro ⟨offset, byte, hbyte, -⟩
  cases hbyte

theorem cons_iff {byte : UInt8} {bytes : List UInt8} :
    Inks p (byte :: bytes) q ↔ (byte ≠ newline ∧ p = q) ∨ Inks (p.next byte) bytes q := by
  constructor
  · rintro ⟨offset, b, hb, hne, hq⟩
    cases offset with
    | zero =>
      cases hb
      exact .inl ⟨hne, hq⟩
    | succ offset => exact .inr ⟨offset, b, hb, hne, hq⟩
  · rintro (⟨hne, hq⟩ | ⟨offset, b, hb, hne, hq⟩)
    · exact ⟨0, byte, rfl, hne, hq⟩
    · exact ⟨offset + 1, b, hb, hne, hq⟩

theorem append_iff {a b : List UInt8} : Inks p (a ++ b) q ↔ Inks p a q ∨ Inks (p.after a) b q := by
  induction a generalizing p with
  | nil => simp [not_nil]
  | cons byte a ih => rw [List.cons_append, cons_iff, cons_iff, ih, or_assoc, Position.after_cons]

theorem iff_of_no_newline {bytes : List UInt8} (h : ∀ byte ∈ bytes, byte ≠ newline) :
    Inks p bytes q ↔
      q.line = p.line ∧ p.column ≤ q.column ∧ q.column < p.column + bytes.length := by
  induction bytes generalizing p with
  | nil =>
    refine iff_of_false not_nil ?_
    rw [List.length_nil]
    omega
  | cons byte bytes ih =>
    obtain ⟨hbyte, h⟩ := List.forall_mem_cons.mp h
    rw [cons_iff, ih h, Position.next, if_neg hbyte, List.length_cons]
    constructor
    · rintro (⟨-, rfl⟩ | ⟨hline, hlow, hhigh⟩)
      · exact ⟨rfl, Nat.le_refl _, by omega⟩
      · exact ⟨hline, Nat.le_of_succ_le hlow, by dsimp only at hhigh; omega⟩
    · rintro ⟨hline, hlow, hhigh⟩
      rcases Nat.eq_or_lt_of_le hlow with heq | hlt
      · exact .inl ⟨hbyte, by cases p; cases q; simp_all⟩
      · exact .inr ⟨hline, hlt, by dsimp only; omega⟩

end Inks

namespace ColorRun

def span (r : ColorRun) : Span := ⟨⟨r.line, r.column⟩, ⟨r.line, r.column + r.length - 1⟩⟩

theorem contains_iff {r : ColorRun} (hr : 0 < r.length) {p : Position} : r.span.contains p ↔
    p.line = r.line ∧ r.column ≤ p.column ∧ p.column < r.column + r.length := by
  rw [Span.contains_iff, span, Position.le_def, Position.le_def]
  dsimp only
  omega

theorem contains_first {r : ColorRun} (hr : 0 < r.length) : r.span.contains r.span.first :=
  (contains_iff hr).mpr ⟨rfl, Nat.le_refl _, by simp only [span]; omega⟩

theorem contains_last {r : ColorRun} (hr : 0 < r.length) : r.span.contains r.span.last :=
  (contains_iff hr).mpr ⟨rfl, by simp only [span]; omega, by simp only [span]; omega⟩

end ColorRun

/-- Comments, numbers, strings, builtin names and keywords are colored. -/
def TokenKind.isColored (kind : TokenKind) : Bool :=
  kind.isComment || kind == .int || kind == .float || kind == .string || kind == .builtin ||
    kind.isKeyword

theorem ColorKind.isSome_ofToken? (kind : TokenKind) : (ofToken? kind).isSome = kind.isColored := by
  cases kind <;> rfl

theorem ColorKind.legend_index (kind : ColorKind) : legend[kind.index]? = some kind := by
  cases kind <;> rfl

namespace Coloring

variable {kind : ColorKind} {line column : Nat} {texts : List (List Char)}

theorem ofLines_kind_length :
    ∀ r ∈ ofLines kind line column texts, r.kind = kind ∧ 0 < r.length := by
  induction texts generalizing line column with
  | nil => simp [ofLines]
  | cons text others ih =>
    rw [ofLines]
    split
    · exact ih
    · rename_i hempty
      exact List.forall_mem_cons.mpr ⟨⟨rfl, byteLength_pos fun h => hempty (by rw [h]; rfl)⟩, ih⟩

/-- The runs of a token stand on one line after another. -/
theorem ofLines_lines : (∀ r ∈ ofLines kind line column texts, line ≤ r.line) ∧
    (ofLines kind line column texts).Pairwise (·.line < ·.line) := by
  induction texts generalizing line column with
  | nil => simp [ofLines]
  | cons text others ih =>
    obtain ⟨hlower, hpairwise⟩ := @ih (line + 1) 0
    rw [ofLines]
    split
    · exact ⟨fun r hr => Nat.le_of_succ_le (hlower r hr), hpairwise⟩
    · refine ⟨List.forall_mem_cons.mpr ⟨Nat.le_refl _, fun r hr => ?_⟩,
        List.pairwise_cons.mpr ⟨fun r hr => hlower r hr, hpairwise⟩⟩
      exact Nat.le_of_succ_le (hlower r hr)

/-- The runs of a piece of text color what is written from its place on. -/
theorem ofLines_covers (kind : ColorKind) (text : List Char) (p q : Position) :
    (∃ r ∈ ofLines kind p.line p.column (lines text), r.span.contains q) ↔
      Inks p (bytes text) q := by
  induction text generalizing p with
  | nil =>
    refine iff_of_false ?_ Inks.not_nil
    rintro ⟨r, hr, -⟩
    cases hr
  | cons c text ih =>
    by_cases hc : c = '\n'
    · subst hc
      have hlines : lines ('\n' :: text) = [] :: lines text := rfl
      have hbytes : bytes ('\n' :: text) = newline :: bytes text := rfl
      have hnext : p.next newline = ⟨p.line + 1, 0⟩ := if_pos rfl
      rw [hlines, hbytes, Inks.cons_iff, hnext, ← ih]
      simp [ofLines]
    · -- the character goes in front of the first line of the rest
      obtain ⟨first, others, hrest⟩ := List.exists_cons_of_ne_nil (pieces_ne_nil (· = '\n') text)
      have hlines : lines (c :: text) = (c :: first) :: others := by
        simp only [lines, pieces, hc, decide_false, Bool.false_eq_true, if_false, hrest]
      have hplain : ∀ byte ∈ String.utf8EncodeChar c, byte ≠ newline :=
        fun byte hbyte => ne_newline_of_mem hc hbyte
      have hc := c.utf8Size_pos
      have ih := ih ⟨p.line, p.column + c.utf8Size⟩
      rw [show lines text = first :: others from hrest, ofLines] at ih
      rw [hlines, bytes_cons, Inks.append_iff, Inks.iff_of_no_newline hplain,
        Position.after_of_no_newline hplain, String.length_utf8EncodeChar, ← ih, ofLines,
        if_neg (by simp), List.exists_mem_cons_iff, ColorRun.contains_iff (by simp; omega)]
      dsimp only
      rw [byteLength_cons]
      cases first with
      | nil => simp
      | cons d first =>
        have hpos : 0 < byteLength (d :: first) := byteLength_pos (List.cons_ne_nil _ _)
        rw [if_neg (by simp), List.exists_mem_cons_iff, ColorRun.contains_iff hpos, ← or_assoc]
        refine or_congr_left ?_
        dsimp only
        omega

section Tokens

variable {source : String} (hsize : source.utf8ByteSize < 0x100000000)
include hsize

/-- A place is colored by a token if a byte of it stands there that is no newline. -/
theorem ofToken_covers {t : Token} (ht : t ∈ tokenize source) {kind : ColorKind} {q : Position} :
    (∃ r ∈ ofToken source.toList t, r.kind = kind ∧ r.span.contains q) ↔
      ColorKind.ofToken? t.kind = some kind ∧ ∃ offset byte, t.start ≤ offset ∧ offset < t.stop ∧
        (bytes source.toList)[offset]? = some byte ∧ byte ≠ newline ∧
        place source.toList offset = q := by
  have hstands := Token.tokenize_stands ht
  rw [ofToken, hstands.slice?]
  cases hcolor : ColorKind.ofToken? t.kind with
  | none => simp
  | some color =>
    dsimp only
    have hkind : (∃ r ∈ ofLines color t.first.line t.first.column (lines t.piece.text),
        r.kind = kind ∧ r.span.contains q) ↔ color = kind ∧
          ∃ r ∈ ofLines color t.first.line t.first.column (lines t.piece.text),
            r.span.contains q := by
      constructor
      · rintro ⟨r, hr, hkind, hq⟩
        exact ⟨(ofLines_kind_length r hr).1.symm.trans hkind, r, hr, hq⟩
      · rintro ⟨rfl, r, hr, hq⟩
        exact ⟨r, hr, (ofLines_kind_length r hr).1, hq⟩
    rw [hkind, ofLines_covers, (Token.tokenize_places hsize ht).1, Option.some.injEq]
    apply and_congr_right
    intro _
    constructor
    · rintro ⟨offset, byte, hbyte, hne, hq⟩
      have hlt : offset < byteLength t.piece.text := by
        rw [← length_bytes]
        exact (List.getElem?_eq_some_iff.mp hbyte).1
      refine ⟨t.start + offset, byte, Nat.le_add_right _ _, ?_, ?_, hne, ?_⟩
      · rw [hstands.stop]
        omega
      · rw [hstands.getElem?_bytes hlt]
        exact hbyte
      · rw [hstands.place hlt.le]
        exact hq
    · rintro ⟨offset, byte, hstart, hstop, hbyte, hne, hq⟩
      obtain ⟨n, rfl⟩ := Nat.exists_eq_add_of_le hstart
      rw [hstands.stop] at hstop
      have hlt : n < byteLength t.piece.text := by omega
      rw [hstands.getElem?_bytes hlt] at hbyte
      rw [hstands.place hlt.le] at hq
      exact ⟨n, byte, hbyte, hne, hq⟩

omit hsize in
theorem ofToken_runs (source : List Char) (t : Token) : (∀ r ∈ ofToken source t, 0 < r.length) ∧
    (ofToken source t).Pairwise (·.line < ·.line) := by
  rw [ofToken]
  split
  · exact ⟨fun r hr => (ofLines_kind_length r hr).2, ofLines_lines.2⟩
  · exact ⟨by simp, .nil⟩

omit hsize in
theorem collect_length : ∀ r ∈ collect (tokenize source) source, 0 < r.length := by
  intro r hr
  obtain ⟨t, -, hr⟩ := List.mem_flatMap.mp hr
  exact (ofToken_runs source.toList t).1 r hr

/-- Every place of a run is that of a byte of the token it comes from. -/
theorem exists_offset {t : Token} (ht : t ∈ tokenize source) {r : ColorRun}
    (hr : r ∈ ofToken source.toList t) {q : Position} (hq : r.span.contains q) :
    ∃ offset, t.start ≤ offset ∧ offset < t.stop ∧ place source.toList offset = q := by
  obtain ⟨-, offset, byte, hstart, hstop, -, -, hplace⟩ :=
    (ofToken_covers hsize ht).mp ⟨r, hr, rfl, hq⟩
  exact ⟨offset, hstart, hstop, hplace⟩

/-- The runs stand one behind the other. -/
theorem collect_pairwise :
    (collect (tokenize source) source).Pairwise (·.span.last < ·.span.first) := by
  refine List.pairwise_flatMap.mpr ⟨fun t _ => ?_, ?_⟩
  · exact (ofToken_runs source.toList t).2.imp fun hlt => .inl hlt
  · refine (Token.scan_pairwise (Nat.zero_add _)).imp_of_mem fun ht hu hapart r hr s hs => ?_
    have hlast := ColorRun.contains_last ((ofToken_runs source.toList _).1 r hr)
    have hfirst := ColorRun.contains_first ((ofToken_runs source.toList _).1 s hs)
    obtain ⟨a, -, ha, hplace⟩ := exists_offset hsize ht hr hlast
    obtain ⟨b, hb, hb', hplace'⟩ := exists_offset hsize hu hs hfirst
    have hstop := (Token.start_lt_stop hu).2
    rw [← hplace, ← hplace']
    exact place_lt_place (by rwa [byteLength_toList]) (by omega) (by omega)

/-- Lines and columns of runs are numbers of 32 bits. -/
theorem collect_lt : ∀ r ∈ collect (tokenize source) source,
    r.line < 0x100000000 ∧ r.column < 0x100000000 := by
  intro r hr
  obtain ⟨t, ht, hr⟩ := List.mem_flatMap.mp hr
  have hfirst := ColorRun.contains_first ((ofToken_runs source.toList t).1 r hr)
  obtain ⟨offset, -, hstop, hplace⟩ := exists_offset hsize ht hr hfirst
  have hle := (Token.start_lt_stop ht).2
  rw [byteLength_toList] at hle
  obtain ⟨hline, hcolumn⟩ := place_le source.toList offset
  rw [hplace] at hline hcolumn
  exact ⟨Nat.lt_of_le_of_lt hline (by omega), Nat.lt_of_le_of_lt hcolumn (by omega)⟩

end Tokens

/-- Behind a piece at the given place, no subtraction of the encoding goes below zero. -/
def Ascends : Nat → Nat → List ColorRun → Prop
  | _, _, [] => True
  | line, column, r :: runs =>
    line ≤ r.line ∧ (r.line = line → column ≤ r.column) ∧ Ascends r.line r.column runs

theorem ascends_of_pairwise {runs : List ColorRun} (hlength : ∀ r ∈ runs, 0 < r.length)
    (hpairwise : runs.Pairwise (·.span.last < ·.span.first))
    (hfirst : ∀ r ∈ runs, (⟨line, column⟩ : Position) ≤ r.span.first) :
    Ascends line column runs := by
  induction runs generalizing line column with
  | nil => trivial
  | cons r runs ih =>
    obtain ⟨hr, hlength⟩ := List.forall_mem_cons.mp hlength
    obtain ⟨hbehind, hpairwise⟩ := List.pairwise_cons.mp hpairwise
    have hhead := hfirst r List.mem_cons_self
    rw [Position.le_def] at hhead
    simp only [ColorRun.span] at hhead
    refine ⟨by omega, by omega, ih hlength hpairwise fun s hs => ?_⟩
    have hle : r.span.first ≤ r.span.last := (Span.contains_iff.mp (ColorRun.contains_last hr)).1
    exact hle.trans (hbehind s hs).le

theorem wordSub_of_le {a b : Nat} (hle : b ≤ a) (ha : a < 0x100000000) : wordSub a b = a - b := by
  rw [wordSub]
  omega

/-- Decodes runs behind a piece at the given place. -/
def decodeFrom (line column : Nat) : List Nat → Option (List ColorRun)
  | [] => some []
  | lines :: columns :: length :: index :: _ :: rest => do
    let kind ← ColorKind.legend[index]?
    let column := if lines = 0 then column + columns else columns
    let runs ← decodeFrom (line + lines) column rest
    return ⟨kind, line + lines, column, length⟩ :: runs
  | _ => none

def decode (data : List Nat) : Option (List ColorRun) := decodeFrom 0 0 data

theorem decodeFrom_encodeFrom {runs : List ColorRun} (h : Ascends line column runs)
    (hlt : ∀ r ∈ runs, r.line < 0x100000000 ∧ r.column < 0x100000000) :
    decodeFrom line column (encodeFrom line column runs) = some runs := by
  induction runs generalizing line column with
  | nil => rfl
  | cons r runs ih =>
    obtain ⟨hline, hcolumn, h⟩ := h
    obtain ⟨hr, hlt⟩ := List.forall_mem_cons.mp hlt
    have hlines : wordSub r.line line = r.line - line := wordSub_of_le hline hr.1
    have hcolumns : (if r.line - line = 0 then
        column + (if r.line - line = 0 then wordSub r.column column else r.column)
        else (if r.line - line = 0 then wordSub r.column column else r.column)) = r.column := by
      split
      · have hle := hcolumn (by omega)
        rw [wordSub_of_le hle hr.2]
        omega
      · rfl
    rw [encodeFrom]
    simp only [decodeFrom, ColorKind.legend_index, hlines, hcolumns, Nat.add_sub_of_le hline,
      ih h hlt, Option.bind_eq_bind, Option.bind_some, Option.pure_def]

end Coloring

/-- The runs of a text are not empty and stand one behind the other, each on its line. They color
just the places of the bytes of colored tokens that are no newlines, each in the color of its
token. The encoding takes no number from a smaller one, and the runs can be decoded from it. -/
theorem coloring_exact (source : String) (hsize : source.utf8ByteSize < 0x100000000) :
    (∀ r ∈ Coloring.collect (tokenize source) source, 0 < r.length) ∧
      (Coloring.collect (tokenize source) source).Pairwise (·.span.last < ·.span.first) ∧
      (∀ kind q, (∃ r ∈ Coloring.collect (tokenize source) source,
          r.kind = kind ∧ r.span.contains q) ↔
        ∃ t ∈ tokenize source, ColorKind.ofToken? t.kind = some kind ∧
          ∃ offset byte, t.start ≤ offset ∧ offset < t.stop ∧
            (bytes source.toList)[offset]? = some byte ∧ byte ≠ newline ∧
            place source.toList offset = q) ∧
      (∀ kind : TokenKind, (ColorKind.ofToken? kind).isSome = kind.isColored) ∧
      Coloring.Ascends 0 0 (Coloring.collect (tokenize source) source) ∧
      Coloring.decode (Coloring.encode (Coloring.collect (tokenize source) source)) =
        some (Coloring.collect (tokenize source) source) := by
  have hlength := @Coloring.collect_length source
  have hascends := Coloring.ascends_of_pairwise hlength (Coloring.collect_pairwise hsize)
    fun r _ => Position.origin_le r.span.first
  refine ⟨hlength, Coloring.collect_pairwise hsize, fun kind q => ?_,
    ColorKind.isSome_ofToken?, hascends,
    Coloring.decodeFrom_encodeFrom hascends (Coloring.collect_lt hsize)⟩
  constructor
  · rintro ⟨r, hr, hkind, hq⟩
    obtain ⟨t, ht, hr⟩ := List.mem_flatMap.mp hr
    exact ⟨t, ht, (Coloring.ofToken_covers hsize ht).mp ⟨r, hr, hkind, hq⟩⟩
  · rintro ⟨t, ht, hcolored⟩
    obtain ⟨r, hr, hkind, hq⟩ := (Coloring.ofToken_covers hsize ht).mpr hcolored
    exact ⟨r, List.mem_flatMap.mpr ⟨t, ht, hr⟩, hkind, hq⟩

/-- A comment of three lines, the second of them empty, and a keyword behind it on the last one. -/
theorem coloring_exact_lines :
    "/*\n\n*/ in".utf8ByteSize < 0x100000000 ∧
      Coloring.collect (tokenize "/*\n\n*/ in") "/*\n\n*/ in" =
        [⟨.comment, 0, 0, 2⟩, ⟨.comment, 2, 0, 2⟩, ⟨.keyword, 2, 3, 2⟩] ∧
      Coloring.decode (Coloring.encode (Coloring.collect (tokenize "/*\n\n*/ in") "/*\n\n*/ in")) =
        some (Coloring.collect (tokenize "/*\n\n*/ in") "/*\n\n*/ in") := by
  have hsize : "/*\n\n*/ in".utf8ByteSize < 0x100000000 := by decide +kernel
  exact ⟨hsize, by decide +kernel, (coloring_exact _ hsize).2.2.2.2.2⟩

end PayFormula
