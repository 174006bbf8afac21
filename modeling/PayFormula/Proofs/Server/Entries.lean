import Mathlib.Data.List.Pairwise
import PayFormula.Server.Store

/-!
# What a store holds

A store is known by which snapshot stands in which entry and by which snapshots
are cancelled. The lemmas say what each step does to the two. In a sound store a
URI has one entry, a snapshot stands in one entry, and none that does is cancelled.
-/
namespace PayFormula.Store

variable {s : Store} {uri uri' : Uri} {id id' : SnapshotId}

/-- The snapshot stands in some entry. -/
def Holds (s : Store) (id : SnapshotId) : Prop := ∃ uri, (uri, id) ∈ s.entries

def IsCancelled (s : Store) (id : SnapshotId) : Prop :=
  ∃ snapshot, s.snapshot? id = some snapshot ∧ snapshot.isCancelled = true

structure Sound (s : Store) : Prop where
  uris : s.entries.Pairwise fun e e' => e.1 ≠ e'.1
  ids : s.entries.Pairwise fun e e' => e.2 ≠ e'.2
  built : ∀ e ∈ s.entries, e.2 < s.snapshots.length
  live : ∀ id, s.Holds id → ¬ s.IsCancelled id

/-! ### Entries -/

@[simp] theorem entries_build (text : String) : (s.build text).2.entries = s.entries := rfl

@[simp] theorem entries_cancelDisplaced (displaced : Option SnapshotId) :
    (s.cancelDisplaced displaced).entries = s.entries := by
  cases displaced <;> rfl

theorem mem_entries_remove {e : Uri × SnapshotId} :
    e ∈ (s.remove uri).2.entries ↔ e ∈ s.entries ∧ e.1 ≠ uri := by
  simp [remove]

theorem mem_entries_swap {e : Uri × SnapshotId} :
    e ∈ (s.swap uri id).2.entries ↔ e = (uri, id) ∨ e ∈ s.entries ∧ e.1 ≠ uri := by
  rw [← mem_entries_remove]
  exact List.mem_cons

theorem lookup_eq_some_iff {entries : List (Uri × SnapshotId)}
    (h : entries.Pairwise fun e e' => e.1 ≠ e'.1) :
    entries.lookup uri = some id ↔ (uri, id) ∈ entries := by
  induction h with
  | nil => simp
  | @cons e entries hfirst _ ih =>
    obtain ⟨other, kept⟩ := e
    by_cases heq : uri = other
    · subst heq
      have hnot : (uri, id) ∉ entries := fun hmem => hfirst _ hmem rfl
      simp [hnot, eq_comm]
    · have hne : (uri == other) = false := beq_eq_false_iff_ne.mpr heq
      rw [List.lookup_cons, hne, ih]
      simp [heq]

theorem Sound.get?_eq_some_iff (h : s.Sound) : s.get? uri = some id ↔ (uri, id) ∈ s.entries :=
  lookup_eq_some_iff h.uris

/-- A snapshot stands in no more than one entry. -/
theorem Sound.uri_unique (h : s.Sound) (hid : (uri, id) ∈ s.entries)
    (hid' : (uri', id) ∈ s.entries) : uri = uri' := by
  by_contra hne
  have hpair : (uri, id) ≠ (uri', id) := fun heq => hne (congrArg Prod.fst heq)
  have hsymm : Std.Symm fun e e' : Uri × SnapshotId => e.2 ≠ e'.2 := ⟨fun _ _ => Ne.symm⟩
  exact h.ids.forall hid hid' hpair rfl

/-! ### Snapshots -/

theorem snapshot?_build (text : String) :
    (s.build text).2.snapshot? id =
      if id = s.snapshots.length then some ⟨.ofSource text, false⟩ else s.snapshot? id := by
  change (s.snapshots ++ [_])[id]? = _
  by_cases hid : id = s.snapshots.length
  · subst hid
    rw [if_pos rfl, List.getElem?_concat_length]
  rw [if_neg hid]
  by_cases hlt : id < s.snapshots.length
  · exact List.getElem?_append_left hlt
  · have hle : s.snapshots.length + 1 ≤ id :=
      Nat.lt_of_le_of_ne (Nat.le_of_not_lt hlt) (Ne.symm hid)
    exact (List.getElem?_eq_none (by simpa using hle)).trans
      (List.getElem?_eq_none (Nat.le_of_not_lt hlt)).symm

theorem snapshot?_cancel : (s.cancel id).snapshot? id' =
    if id = id' then (s.snapshot? id').map fun snapshot => { snapshot with isCancelled := true }
    else s.snapshot? id' := by
  change (s.snapshots.modify id _)[id']? = _
  rw [List.getElem?_modify]
  split
  · rfl
  · exact Option.map_id'

theorem isCancelled_congr {s' : Store} (h : s'.snapshots = s.snapshots) :
    s'.IsCancelled id ↔ s.IsCancelled id := by
  simp only [IsCancelled, snapshot?, h]

theorem isCancelled_build (text : String) : (s.build text).2.IsCancelled id ↔ s.IsCancelled id := by
  have hnone : s.snapshot? s.snapshots.length = none := List.getElem?_eq_none (Nat.le_refl _)
  simp only [IsCancelled, snapshot?_build]
  split
  · rename_i hid
    simp [hid, hnone]
  · rfl

theorem isCancelled_cancel :
    (s.cancel id).IsCancelled id' ↔ s.IsCancelled id' ∨ id' = id ∧ id < s.snapshots.length := by
  simp only [IsCancelled, snapshot?_cancel]
  split
  · rename_i hid
    subst hid
    cases hs : s.snapshot? id with
    | none =>
      have hle : s.snapshots.length ≤ id := List.getElem?_eq_none_iff.mp hs
      simpa using hle
    | some snapshot =>
      have hlt : id < s.snapshots.length := (List.getElem?_eq_some_iff.mp hs).1
      simp [hlt]
  · rename_i hid
    simp [Ne.symm hid]

theorem isCancelled_lt (h : s.IsCancelled id) : id < s.snapshots.length := by
  obtain ⟨snapshot, hs, -⟩ := h
  exact (List.getElem?_eq_some_iff.mp hs).1

/-! ### Sound stores -/

theorem sound_empty : empty.Sound :=
  ⟨.nil, .nil, by simp [empty], by simp [Holds, empty]⟩

theorem Sound.build (h : s.Sound) (text : String) : (s.build text).2.Sound where
  uris := h.uris
  ids := h.ids
  built e he := Nat.lt_of_lt_of_le (h.built e he) (by simp [Store.build])
  live id hid hcancelled := h.live id hid ((isCancelled_build text).mp hcancelled)

theorem Sound.remove (h : s.Sound) : (s.remove uri).2.Sound where
  uris := h.uris.filter _
  ids := h.ids.filter _
  built e he := h.built e (mem_entries_remove.mp he).1
  live id := fun ⟨uri', hid⟩ => h.live id ⟨uri', (mem_entries_remove.mp hid).1⟩

theorem Sound.swap (h : s.Sound) (hbuilt : id < s.snapshots.length) (hnew : ¬ s.Holds id)
    (hlive : ¬ s.IsCancelled id) : (s.swap uri id).2.Sound where
  uris := by
    refine List.pairwise_cons.mpr ⟨fun e he => ?_, h.remove.uris⟩
    exact (mem_entries_remove.mp he).2.symm
  ids := by
    refine List.pairwise_cons.mpr ⟨?_, h.remove.ids⟩
    rintro ⟨uri', kept⟩ he rfl
    exact hnew ⟨uri', (mem_entries_remove.mp he).1⟩
  built e he := by
    rcases mem_entries_swap.mp he with rfl | ⟨he, -⟩
    · exact hbuilt
    · exact h.built e he
  live kept := by
    rintro ⟨uri', he⟩
    rcases mem_entries_swap.mp he with heq | ⟨he, -⟩
    · cases heq
      exact hlive
    · exact h.live kept ⟨uri', he⟩

theorem Sound.cancel (h : s.Sound) (hid : ¬ s.Holds id) : (s.cancel id).Sound where
  uris := h.uris
  ids := h.ids
  built e he := Nat.lt_of_lt_of_eq (h.built e he) (List.length_modify ..).symm
  live kept hkept hcancelled := by
    rcases isCancelled_cancel.mp hcancelled with hc | ⟨rfl, -⟩
    · exact h.live kept hkept hc
    · exact hid hkept

/-! ### Whole calls -/

theorem Sound.get?_lt (h : s.Sound) (hid : s.get? uri = some id) : id < s.snapshots.length :=
  h.built _ (h.get?_eq_some_iff.mp hid)

theorem Sound.get?_remove (h : s.Sound) :
    (s.remove uri).2.get? uri' = if uri' = uri then none else s.get? uri' := by
  refine Option.ext fun id => ?_
  rw [h.remove.get?_eq_some_iff, mem_entries_remove]
  split
  · rename_i heq
    simp [heq]
  · rename_i hne
    simp [hne, h.get?_eq_some_iff]

/-- What stood in an entry is gone once it is taken out. -/
theorem Sound.not_holds_remove (h : s.Sound) (hid : s.get? uri = some id) :
    ¬ (s.remove uri).2.Holds id := by
  rintro ⟨uri', hin⟩
  obtain ⟨hin, hne⟩ := mem_entries_remove.mp hin
  exact hne (h.uri_unique hin (h.get?_eq_some_iff.mp hid))

theorem Sound.cancelDisplaced (h : s.Sound) {displaced : Option SnapshotId}
    (hout : ∀ id, displaced = some id → ¬ s.Holds id) : (s.cancelDisplaced displaced).Sound := by
  cases displaced with
  | none => exact h
  | some id => exact h.cancel (hout id rfl)

theorem get?_cancelDisplaced (displaced : Option SnapshotId) :
    (s.cancelDisplaced displaced).get? uri = s.get? uri := by
  rw [get?, entries_cancelDisplaced, get?]

theorem snapshot?_cancelDisplaced {displaced : Option SnapshotId} (h : displaced ≠ some id) :
    (s.cancelDisplaced displaced).snapshot? id = s.snapshot? id := by
  cases displaced with
  | none => rfl
  | some id' => exact snapshot?_cancel.trans (if_neg fun heq => h (congrArg some heq))

theorem Sound.close (h : s.Sound) : (s.close uri).Sound :=
  h.remove.cancelDisplaced fun _ => h.not_holds_remove

/-- A closed document is not open any more, and nothing changes for the others. -/
theorem Sound.current?_close (h : s.Sound) :
    (s.close uri).current? uri' = if uri' = uri then none else s.current? uri' := by
  have hget : (s.close uri).get? uri' = if uri' = uri then none else s.get? uri' :=
    (get?_cancelDisplaced _).trans h.get?_remove
  rw [current?, hget]
  split
  · rfl
  · rename_i hne
    refine Option.bind_congr fun id hid => snapshot?_cancelDisplaced (fun hdisplaced => hne ?_)
    exact h.uri_unique (h.get?_eq_some_iff.mp hid) (h.get?_eq_some_iff.mp hdisplaced)

section Upsert

variable (text : String)

theorem upsert_fst : (s.upsert uri text).1 = s.snapshots.length := rfl

theorem upsert_snd : (s.upsert uri text).2 =
    ((s.build text).2.swap uri s.snapshots.length).2.cancelDisplaced (s.get? uri) := rfl

theorem Sound.build_swap (h : s.Sound) :
    ((s.build text).2.swap uri s.snapshots.length).2.Sound := by
  refine (h.build text).swap ?_ ?_ ?_
  · simp [Store.build]
  · rintro ⟨uri', hin⟩
    exact Nat.lt_irrefl _ (h.built _ hin)
  · exact fun hid => Nat.lt_irrefl _ (isCancelled_lt ((isCancelled_build text).mp hid))

theorem Sound.upsert (h : s.Sound) : (s.upsert uri text).2.Sound := by
  rw [upsert_snd]
  refine (h.build_swap text).cancelDisplaced ?_
  rintro id hid ⟨uri', hin⟩
  rcases mem_entries_swap.mp hin with heq | ⟨hin, hne⟩
  · cases heq
    exact Nat.lt_irrefl _ (h.get?_lt hid)
  · exact hne (h.uri_unique hin (h.get?_eq_some_iff.mp hid))

theorem Sound.snapshot?_upsert (h : s.Sound) :
    (s.upsert uri text).2.snapshot? (s.upsert uri text).1 = some ⟨.ofSource text, false⟩ := by
  rw [upsert_snd, upsert_fst, snapshot?_cancelDisplaced]
  · exact (snapshot?_build text).trans (if_pos rfl)
  · exact fun hid => Nat.lt_irrefl _ (h.get?_lt hid)

/-- An opened or changed document has the new text, and nothing changes for the others. -/
theorem Sound.current?_upsert (h : s.Sound) : (s.upsert uri text).2.current? uri' =
    if uri' = uri then some ⟨.ofSource text, false⟩ else s.current? uri' := by
  have hget : (s.upsert uri text).2.get? uri' =
      if uri' = uri then some s.snapshots.length else s.get? uri' := by
    refine Option.ext fun id => ?_
    rw [(h.upsert text).get?_eq_some_iff, upsert_snd, entries_cancelDisplaced, mem_entries_swap]
    split
    · rename_i heq
      simp [heq, eq_comm]
    · rename_i hne
      simp [hne, h.get?_eq_some_iff]
  rw [current?, hget]
  split
  · exact h.snapshot?_upsert text
  · rename_i hne
    refine Option.bind_congr fun id hid => ?_
    rw [upsert_snd, snapshot?_cancelDisplaced]
    · exact (snapshot?_build text).trans (if_neg (Nat.ne_of_lt (h.get?_lt hid)))
    · intro hdisplaced
      exact hne (h.uri_unique (h.get?_eq_some_iff.mp hid) (h.get?_eq_some_iff.mp hdisplaced))

end Upsert

end PayFormula.Store
