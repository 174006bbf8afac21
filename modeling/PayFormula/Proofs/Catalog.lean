import Mathlib.Data.List.Forall2
import Mathlib.Data.Nat.ModEq
import Mathlib.Data.Nat.PSub
import PayFormula.Document.Signature
import PayFormula.Proofs.Text.Bytes

/-!
# The geometry of signatures

A signature is the labels of the parameters joined into one text. Their offsets are counted off
on the side, label by label, without a look at that text. The two agree for every description of a
function and not just for those of the catalog. The arguments of a call go through the parameters
in order, and past the last of them round and round the tail from the first variadic one on.
-/
namespace PayFormula

open Text

/-- A piece stands in a text at a range of bytes. -/
structure Text.StandsAt (text piece : List Char) (range : Nat × Nat) : Prop where
  lt : range.1 < range.2
  le : range.2 ≤ byteLength text
  slice : slice? text range.1 range.2 = some piece

theorem Text.standsAt_append (front back : List Char) {piece : List Char} (h : piece ≠ []) :
    StandsAt (front ++ (piece ++ back)) piece
      (byteLength front, byteLength front + byteLength piece) where
  lt := Nat.lt_add_of_pos_right (byteLength_pos h)
  le := by
    rw [byteLength_append, byteLength_append]
    omega
  slice := slice?_append front piece back

theorem Param.label_ne_nil (p : Param) : p.label.toList ≠ [] := by
  simp [label]

namespace Function

/-! ### Labels -/

/-- Where labels stand in a text that has them joined behind something else. -/
theorem offsetsFrom_standAt {labels : List String} (h : ∀ label ∈ labels, label.toList ≠ [])
    (front back : List Char) :
    List.Forall₂ (fun label range =>
        StandsAt (front ++ ((", ".intercalate labels).toList ++ back)) label.toList range)
      labels (offsetsFrom (byteLength front) labels) := by
  induction labels generalizing front with
  | nil => exact .nil
  | cons label labels ih =>
    obtain ⟨hlabel, h⟩ := List.forall_mem_cons.mp h
    have hhere (back : List Char) : StandsAt (front ++ (label.toList ++ back)) label.toList
        (byteLength front, byteLength front + label.utf8ByteSize) := by
      rw [← byteLength_toList]
      exact standsAt_append front back hlabel
    cases labels with
    | nil =>
      rw [String.intercalate_singleton]
      exact .cons (hhere back) .nil
    | cons next labels =>
      -- the later labels stand behind this one and the comma
      have hlater := ih h (front ++ (label.toList ++ ", ".toList))
      have hstart : byteLength (front ++ (label.toList ++ ", ".toList)) =
          byteLength front + label.utf8ByteSize + 2 := by
        rw [byteLength_append, byteLength_append, byteLength_toList, ← Nat.add_assoc]
        rfl
      rw [hstart] at hlater
      rw [String.intercalate_cons_cons, String.toList_append, String.toList_append]
      simp only [List.append_assoc] at hlater ⊢
      exact .cons (hhere _) hlater

/-- Labels are counted off from front to back. -/
theorem offsetsFrom_ordered (start : Nat) (labels : List String) :
    (∀ range ∈ offsetsFrom start labels, start ≤ range.1) ∧
      (offsetsFrom start labels).Pairwise fun r s => r.2 < s.1 := by
  induction labels generalizing start with
  | nil => exact ⟨fun _ h => absurd h List.not_mem_nil, .nil⟩
  | cons label labels ih =>
    obtain ⟨hlater, hordered⟩ := ih (start + label.utf8ByteSize + 2)
    refine ⟨List.forall_mem_cons.mpr ⟨Nat.le_refl _, fun range hrange => ?_⟩,
      .cons (fun range hrange => ?_) hordered⟩
    · exact Nat.le_trans (by omega) (hlater range hrange)
    · exact Nat.lt_of_lt_of_le (by dsimp only; omega) (hlater range hrange)

theorem length_le_intercalate (labels : List String) :
    labels.length ≤ byteLength (", ".intercalate labels).toList + 1 := by
  induction labels with
  | nil => exact Nat.zero_le _
  | cons label labels ih =>
    cases labels with
    | nil => exact Nat.le_add_left _ _
    | cons next labels =>
      have hcomma : byteLength ", ".toList = 2 := rfl
      rw [String.intercalate_cons_cons, String.toList_append, String.toList_append,
        byteLength_append, byteLength_append, hcomma, List.length_cons]
      omega

variable {f : Function}

/-- The signature as what the first label stands behind, the labels, and what closes it. -/
theorem toList_signature (f : Function) :
    f.signature.toList = (f.displayName ++ "(").toList ++
      ((", ".intercalate (f.params.map Param.label)).toList ++ ")".toList) := by
  rw [signature, String.toList_append, String.toList_append, List.append_assoc]

theorem labels_standAt (f : Function) :
    List.Forall₂ (fun p range => StandsAt f.signature.toList p.label.toList range) f.params
      (offsetsFrom (f.displayName.utf8ByteSize + 1) (f.params.map Param.label)) := by
  have hlabels : ∀ label ∈ f.params.map Param.label, label.toList ≠ [] :=
    List.forall_mem_map.mpr fun p _ => p.label_ne_nil
  have hstart : byteLength (f.displayName ++ "(").toList = f.displayName.utf8ByteSize + 1 := by
    rw [byteLength_toList, String.utf8ByteSize_append]
    rfl
  have hstand := offsetsFrom_standAt hlabels (f.displayName ++ "(").toList ")".toList
  rwa [hstart, ← toList_signature, List.forall₂_map_left_iff] at hstand

/-- As long as the signature is counted in words, no offset leaves its word. -/
theorem labelOffsets_eq (hsize : byteLength f.signature.toList < 0x100000000) :
    f.labelOffsets =
      offsetsFrom (f.displayName.utf8ByteSize + 1) (f.params.map Param.label) := by
  have hwithin : ∀ range ∈ offsetsFrom (f.displayName.utf8ByteSize + 1)
      (f.params.map Param.label), range.1 < 0x100000000 ∧ range.2 < 0x100000000 := by
    -- every range is that of a label, which ends within the signature
    refine ((List.forall₂_and_left _ _).mp (List.Forall₂.flip
      (f.labels_standAt.imp fun p range h => ⟨?_, h⟩))).1
    exact ⟨(h.lt.trans_le h.le).trans hsize, h.le.trans_lt hsize⟩
  rw [labelOffsets]
  refine (List.map_congr_left fun range hrange => ?_).trans (List.map_id _)
  obtain ⟨hstart, hstop⟩ := hwithin range hrange
  exact Prod.ext (Nat.mod_eq_of_lt hstart) (Nat.mod_eq_of_lt hstop)

/-- A signature has no more parameters than bytes. -/
theorem length_params_le (f : Function) : f.params.length ≤ byteLength f.signature.toList := by
  have hlabels := length_le_intercalate (f.params.map Param.label)
  rw [List.length_map] at hlabels
  have hclose : byteLength ")".toList = 1 := rfl
  rw [toList_signature, byteLength_append, byteLength_append, hclose]
  omega

/-! ### Arguments -/

/-- The parameter of an argument, by differences and a rest that have no value where the natural
numbers have none. -/
def paramIndex? (f : Function) (argument : Nat) : Option Nat :=
  let count := f.params.length
  if count = 0 then some 0
  else if argument < count then some argument
  else match f.params.findIdx? Param.isVariadic with
    | some first => do
      let past ← argument.psub first
      let period ← count.psub first
      if period = 0 then none else some (first + past % period)
    | none => count.psub 1

/-- No difference is below zero, and no rest is that of a division by zero. -/
theorem paramIndex?_eq (f : Function) (argument : Nat) :
    f.paramIndex? argument = some (f.paramIndex argument) := by
  rw [paramIndex?, paramIndex]
  split
  · rfl
  · split
    · rfl
    · rename_i hcount hlate
      cases hfirst : f.params.findIdx? Param.isVariadic with
      | none => exact Nat.psub_eq_sub (by omega)
      | some first =>
        obtain ⟨hlt, -⟩ := List.findIdx?_eq_some_iff_getElem.mp hfirst
        have hpast := Nat.psub_eq_sub (show first ≤ argument by omega)
        have hperiod := Nat.psub_eq_sub hlt.le
        simp only [hpast, hperiod, Option.bind_eq_bind, Option.bind_some]
        exact if_neg (by omega)

variable {argument other : Nat}

theorem findIdx?_once {params : List Param} (h : ∀ q ∈ params, ¬ q.isVariadic) :
    params.findIdx? Param.isVariadic = none :=
  List.findIdx?_eq_none_iff.mpr fun q hq => Bool.eq_false_iff.mpr (h q hq)

theorem paramIndex_of_lt (h : argument < f.params.length) : f.paramIndex argument = argument := by
  rw [paramIndex, if_neg (by omega), if_pos h]

/-- Without a variadic parameter all late arguments go to the last one. -/
theorem paramIndex_once (h : ∀ q ∈ f.params, ¬ q.isVariadic) :
    f.paramIndex argument = min argument (f.params.length - 1) := by
  simp only [paramIndex, findIdx?_once h]
  split
  · omega
  · split <;> omega

section Tail

variable {front rest : List Param} {p : Param} (hparams : f.params = front ++ p :: rest)

include hparams

theorem length_of_tail : f.params.length = front.length + (p :: rest).length := by
  rw [hparams, List.length_append]

variable (hfront : ∀ q ∈ front, ¬ q.isVariadic) (hp : p.isVariadic)

include hfront hp

/-- From the first variadic parameter on the arguments go round and round. -/
theorem paramIndex_tail (h : front.length ≤ argument) : f.paramIndex argument =
    front.length + (argument - front.length) % (p :: rest).length := by
  have hfirst : f.params.findIdx? Param.isVariadic = some front.length := by
    rw [hparams, List.findIdx?_append, findIdx?_once hfront, List.findIdx?_cons, if_pos hp]
    simp
  have hcount := length_of_tail hparams
  have hpos : 0 < (p :: rest).length := Nat.zero_lt_succ _
  by_cases hlt : argument < f.params.length
  · rw [paramIndex_of_lt hlt, Nat.mod_eq_of_lt (by omega)]
    omega
  · simp only [paramIndex, hfirst]
    rw [if_neg (by omega), if_neg hlt, hcount, Nat.add_sub_cancel_left]

/-- Two arguments go to the same parameter of the tail if a number of rounds lies between them. -/
theorem paramIndex_eq_iff (h : front.length ≤ argument) (hother : front.length ≤ other) :
    f.paramIndex argument = f.paramIndex other ↔ argument ≡ other [MOD (p :: rest).length] := by
  obtain ⟨m, rfl⟩ := Nat.exists_eq_add_of_le h
  obtain ⟨n, rfl⟩ := Nat.exists_eq_add_of_le hother
  rw [paramIndex_tail hparams hfront hp h, paramIndex_tail hparams hfront hp hother,
    Nat.add_sub_cancel_left, Nat.add_sub_cancel_left, Nat.add_left_cancel_iff,
    Nat.ModEq.add_iff_left rfl]
  rfl

end Tail

/-- The parameters have a tail from the first variadic one on, unless none is variadic. -/
theorem exists_tail_or (f : Function) :
    (∃ front p rest, f.params = front ++ p :: rest ∧ (∀ q ∈ front, ¬ q.isVariadic) ∧
      p.isVariadic) ∨ ∀ q ∈ f.params, ¬ q.isVariadic := by
  cases hfind : f.params.find? Param.isVariadic with
  | none => exact .inr fun q hq => List.find?_eq_none.mp hfind q hq
  | some p =>
    obtain ⟨hp, front, rest, hparams, hfront⟩ := List.find?_eq_some_iff_append.mp hfind
    exact .inl ⟨front, p, rest, hparams, fun q hq => by simpa using hfront q hq, hp⟩

theorem paramIndex_lt (f : Function) (h : 0 < f.params.length) (argument : Nat) :
    f.paramIndex argument < f.params.length := by
  rcases f.exists_tail_or with ⟨front, p, rest, hparams, hfront, hp⟩ | honce
  · by_cases hlt : argument < f.params.length
    · rwa [paramIndex_of_lt hlt]
    · have hcount := length_of_tail hparams
      rw [paramIndex_tail hparams hfront hp (by omega), hcount]
      exact Nat.add_lt_add_left (Nat.mod_lt _ (Nat.zero_lt_succ _)) _
  · rw [paramIndex_once honce]
    omega

theorem paramIndex_le (f : Function) (argument : Nat) :
    f.paramIndex argument ≤ f.params.length := by
  rcases Nat.eq_zero_or_pos f.params.length with hzero | hpos
  · rw [paramIndex, if_pos hzero]
    exact Nat.zero_le _
  · exact (f.paramIndex_lt hpos argument).le

end Function

/-! ### Help for a call -/

namespace SignatureHelp

variable {f : Function}

/-- All ranges are shown. -/
theorem ofFunction_ranges (hsize : byteLength f.signature.toList < 0x100000000) (commas : Nat) :
    (ofFunction f commas).params.map (·.range) = f.labelOffsets := by
  have hstand := f.labels_standAt
  rw [← Function.labelOffsets_eq hsize] at hstand
  rw [ofFunction, List.map_zipWith, ← List.map_uncurry_zip_eq_zipWith]
  exact List.map_snd_zip (Nat.le_of_eq hstand.length_eq.symm)

/-- Every parameter is shown at the place of its label. -/
theorem ofFunction_standAt (hsize : byteLength f.signature.toList < 0x100000000) (commas : Nat) :
    List.Forall₂ (fun p shown => StandsAt f.signature.toList p.label.toList shown.range) f.params
      (ofFunction f commas).params := by
  have hstand := f.labels_standAt
  rwa [← Function.labelOffsets_eq hsize, ← ofFunction_ranges hsize commas,
    List.forall₂_map_right_iff] at hstand

/-- The number of a parameter does not leave its word if no offset does. -/
theorem ofFunction_active (hsize : byteLength f.signature.toList < 0x100000000) (commas : Nat) :
    (ofFunction f commas).active = f.paramIndex commas := by
  have hle := f.paramIndex_le commas
  have hlength := f.length_params_le
  exact Nat.mod_eq_of_lt (by omega)

end SignatureHelp

/-- The signatures of the catalog are counted in words. -/
theorem Catalog.byteLength_signature :
    ∀ f ∈ functions, byteLength f.signature.toList < 0x100000000 := by
  have hsize : ∀ f ∈ functions, f.signature.utf8ByteSize < 0x100000000 := by decide +kernel
  exact fun f hf => (byteLength_toList f.signature).trans_lt (hsize f hf)

namespace Function

/-- The ranges of a signature are the places of its labels, in order and apart. Every argument has
a parameter: its own if there is one, else one of the tail from the first variadic one on, the same
as that of another argument just if a number of rounds lies between the two, and the last one if
there is no such tail. Help for a call shows the ranges, and the parameter as it is. -/
theorem signature_geometry (f : Function) :
    (byteLength f.signature.toList < 0x100000000 →
      List.Forall₂ (fun p range => StandsAt f.signature.toList p.label.toList range)
          f.params f.labelOffsets ∧
        (f.labelOffsets.Pairwise fun r s => r.2 < s.1) ∧
        ∀ argument, (SignatureHelp.ofFunction f argument).params.map (·.range) = f.labelOffsets ∧
          (SignatureHelp.ofFunction f argument).active = f.paramIndex argument) ∧
    (0 < f.params.length → ∀ argument,
      f.paramIndex? argument = some (f.paramIndex argument) ∧
        f.paramIndex argument < f.params.length ∧
        (argument < f.params.length → f.paramIndex argument = argument) ∧
        (f.params.length ≤ argument →
          (∀ front p rest, f.params = front ++ p :: rest → (∀ q ∈ front, ¬ q.isVariadic) →
            p.isVariadic → front.length ≤ f.paramIndex argument ∧
              ∀ other, front.length ≤ other → (f.paramIndex argument = f.paramIndex other ↔
                argument ≡ other [MOD (p :: rest).length])) ∧
          ((∀ q ∈ f.params, ¬ q.isVariadic) → f.paramIndex argument + 1 = f.params.length))) := by
  constructor
  · intro hsize
    refine ⟨?_, ?_, fun argument => ⟨?_, ?_⟩⟩
    · rw [labelOffsets_eq hsize]
      exact f.labels_standAt
    · rw [labelOffsets_eq hsize]
      exact (offsetsFrom_ordered _ _).2
    · exact SignatureHelp.ofFunction_ranges hsize argument
    · exact SignatureHelp.ofFunction_active hsize argument
  · intro hcount argument
    refine ⟨f.paramIndex?_eq argument, f.paramIndex_lt hcount argument, paramIndex_of_lt, ?_⟩
    intro hlate
    constructor
    · intro front p rest hparams hfront hp
      have hlater : front.length ≤ argument := by
        have hlength := length_of_tail hparams
        omega
      refine ⟨?_, fun other hother => paramIndex_eq_iff hparams hfront hp hlater hother⟩
      rw [paramIndex_tail hparams hfront hp hlater]
      exact Nat.le_add_right _ _
    · intro honce
      rw [paramIndex_once honce]
      omega

/-- Characters of several bytes and pairs behind a plain parameter, and parameters that take one
argument each. -/
theorem signature_geometry_pairs :
    let f : Function := ⟨"rate€", .number, [.required "base" [.number] "",
      ⟨"day°", [.date, .string], "", false, .pairFirst⟩,
      ⟨"sum", [.any], "", true, .pairSecond⟩], ""⟩
    let g : Function := ⟨"rate", .number, [.required "base" [.number] "",
      .optional "day" [.date] ""], ""⟩
    byteLength f.signature.toList < 0x100000000 ∧ f.labelOffsets = [(8, 20), (22, 43), (45, 57)] ∧
      List.Forall₂ (fun p range => StandsAt f.signature.toList p.label.toList range)
        f.params f.labelOffsets ∧
      0 < f.params.length ∧ f.params.length ≤ 6 ∧ f.paramIndex? 6 = some (f.paramIndex 6) ∧
      1 ≤ f.paramIndex 6 ∧ (f.paramIndex 6 = f.paramIndex 2 ↔ 6 ≡ 2 [MOD 2]) ∧
      0 < g.params.length ∧ g.params.length ≤ 6 ∧ (∀ q ∈ g.params, ¬ q.isVariadic) ∧
      g.paramIndex 6 + 1 = g.params.length := by
  intro f g
  have hsize : byteLength f.signature.toList < 0x100000000 := by decide
  have honce : ∀ q ∈ g.params, ¬ q.isVariadic := by decide
  have hfront : ∀ q ∈ [Param.required "base" [.number] ""], ¬ q.isVariadic := by decide
  obtain ⟨hlabels, harguments⟩ := signature_geometry f
  obtain ⟨hexact, -, -, hlate⟩ := harguments (by decide) 6
  obtain ⟨hfrom, hround⟩ := (hlate (by decide)).1 _ _ _ rfl hfront rfl
  have hlast := (((signature_geometry g).2 (by decide) 6).2.2.2 (by decide)).2 honce
  exact ⟨hsize, by decide, (hlabels hsize).1, by decide, by decide, hexact, hfrom,
    hround 2 (by decide), by decide, by decide, honce, hlast⟩

end Function

end PayFormula
