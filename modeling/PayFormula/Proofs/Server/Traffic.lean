import Mathlib.Data.List.Induction
import Mathlib.Data.List.Infix
import PayFormula.Proofs.Server.Entries

/-!
# Calls in progress

Several calls on one store may be in progress at once, on the same document as
well. Each call takes its steps one after another, and between any two of them
the other calls may take any of theirs: it builds a snapshot, puts it into the
map or takes an entry out, and cancels what it displaced. Main statement: a
snapshot is built, enters the map, leaves it for good and is then cancelled.

A list of actions is one interleaving. Reading an entry changes nothing and is
no action.
-/
namespace PayFormula

inductive Operation where
  | opened (uri : Uri) (text : String)
  | changed (uri : Uri) (text : String)
  | closed (uri : Uri)
  deriving DecidableEq, Repr, Inhabited

/-- What a call does next. -/
inductive Stage where
  | build (uri : Uri) (text : String)
  | swap (uri : Uri) (id : SnapshotId)
  | remove (uri : Uri)
  | cancel (displaced : Option SnapshotId)
  | done
  deriving DecidableEq, Repr, Inhabited

namespace Operation

def firstStage : Operation → Stage
  | .opened uri text | .changed uri text => .build uri text
  | .closed uri => .remove uri

/-- What a call does to the store when no other one is in progress. -/
def perform (s : Store) : Operation → Store
  | .opened uri text | .changed uri text => (s.upsert uri text).2
  | .closed uri => s.close uri

end Operation

/-- Takes the step, and says what comes after it. -/
def Stage.advance (s : Store) : Stage → Stage × Store
  | .build uri text =>
    let (id, s) := s.build text
    (.swap uri id, s)
  | .swap uri id =>
    let (displaced, s) := s.swap uri id
    (.cancel displaced, s)
  | .remove uri =>
    let (displaced, s) := s.remove uri
    (.cancel displaced, s)
  | .cancel displaced => (.done, s.cancelDisplaced displaced)
  | .done => (.done, s)

inductive Action where
  | call (operation : Operation)
  /-- A call takes its next step. Calls are numbered as they were made. -/
  | advance (number : Nat)
  deriving DecidableEq, Repr, Inhabited

structure Traffic where
  store : Store
  /-- What each call made so far does next. -/
  stages : List Stage
  deriving Repr, Inhabited

namespace Traffic

def start : Traffic := ⟨.empty, []⟩

def act (t : Traffic) : Action → Traffic
  | .call operation => { t with stages := t.stages ++ [operation.firstStage] }
  | .advance number =>
    match t.stages[number]? with
    | some stage =>
      let (next, store) := stage.advance t.store
      ⟨store, t.stages.set number next⟩
    | none => t

def run (actions : List Action) : Traffic := actions.foldl act start

/-- No call is in progress. -/
def IsIdle (t : Traffic) : Prop := ∀ stage ∈ t.stages, stage = .done

/-- The snapshot stood in the map at some time up to the end of the actions. -/
def EverHeld (actions : List Action) (id : SnapshotId) : Prop :=
  ∃ earlier, earlier <+: actions ∧ (run earlier).store.Holds id

variable {t : Traffic} {ever : SnapshotId → Prop} {id : SnapshotId}

theorem run_concat (actions : List Action) (action : Action) :
    run (actions ++ [action]) = (run actions).act action := by
  rw [run, List.foldl_append]
  rfl

theorem act_advance {number : Nat} {stage : Stage} (h : t.stages[number]? = some stage) :
    t.act (.advance number) =
      ⟨(stage.advance t.store).2, t.stages.set number (stage.advance t.store).1⟩ := by
  rw [act, h]

theorem act_swap {number : Nat} {uri : Uri} (h : t.stages[number]? = some (.swap uri id)) :
    t.act (.advance number) =
      ⟨(t.store.swap uri id).2, t.stages.set number (.cancel (t.store.get? uri))⟩ := act_advance h

theorem act_remove {number : Nat} {uri : Uri} (h : t.stages[number]? = some (.remove uri)) :
    t.act (.advance number) =
      ⟨(t.store.remove uri).2, t.stages.set number (.cancel (t.store.get? uri))⟩ := act_advance h

theorem act_done {number : Nat} (h : t.stages[number]? = some .done) :
    t.act (.advance number) = t := by
  obtain ⟨hlt, heq⟩ := List.getElem?_eq_some_iff.mp h
  rw [act_advance h]
  change Traffic.mk t.store (t.stages.set number .done) = t
  rw [← heq, List.set_getElem_self]

theorem act_of_none {number : Nat} (h : t.stages[number]? = none) :
    t.act (.advance number) = t := by
  rw [act, h]

theorem act_advance_last (s : Store) (stages : List Stage) (stage : Stage) :
    (Traffic.mk s (stages ++ [stage])).act (.advance stages.length) =
      ⟨(stage.advance s).2, stages ++ [(stage.advance s).1]⟩ := by
  have hlast : (stages ++ [stage])[stages.length]? = some stage := List.getElem?_concat_length
  rw [act_advance hlast]
  simp

/-- The steps of a call that no other call interrupts do what the call does alone. -/
theorem act_uninterrupted (t : Traffic) (operation : Operation) :
    (Action.call operation :: List.replicate 3 (Action.advance t.stages.length)).foldl act t =
      ⟨operation.perform t.store, t.stages ++ [Stage.done]⟩ := by
  have hcall : t.act (.call operation) = ⟨t.store, t.stages ++ [operation.firstStage]⟩ := rfl
  simp only [List.replicate_succ, List.replicate_zero, List.foldl_cons, List.foldl_nil, hcall,
    act_advance_last]
  cases operation <;> rfl

/-! ### Where snapshots stand

Between its two last steps a call holds the snapshot that it displaced: it has left the map and
is not cancelled yet. -/

/-- What holds between any two steps. A snapshot that was ever in the map is in it, or held by a
call that is about to cancel it, or cancelled. -/
structure Sound (ever : SnapshotId → Prop) (t : Traffic) : Prop where
  store : t.store.Sound
  bound : ∀ id, ever id → id < t.store.snapshots.length
  held : ∀ id, t.store.Holds id → ever id
  built : ∀ uri id, .swap uri id ∈ t.stages → id < t.store.snapshots.length ∧ ¬ ever id
  distinct : ∀ {i j : Nat} {uri uri' id}, t.stages[i]? = some (.swap uri id) →
    t.stages[j]? = some (.swap uri' id) → i = j
  displaced : ∀ id, .cancel (some id) ∈ t.stages → ever id ∧ ¬ t.store.Holds id
  cancelled : ∀ id, t.store.IsCancelled id → ever id ∧ ¬ t.store.Holds id
  pending : ∀ id, ever id → t.store.Holds id ∨ .cancel (some id) ∈ t.stages ∨ t.store.IsCancelled id

theorem sound_start : Sound (fun _ => False) start where
  store := Store.sound_empty
  bound _ h := h.elim
  held id := fun ⟨_, h⟩ => by cases h
  built _ _ h := by cases h
  distinct h := by cases h
  displaced _ h := by cases h
  cancelled id h := by cases h.choose_spec.1
  pending _ h := h.elim

/-! ### What one step does to the stages -/

section Stages

variable {stages : List Stage} {number : Nat} {stage old next : Stage}

theorem mem_set_of_ne (hold : stages[number]? = some old) (hne : stage ≠ old)
    (hmem : stage ∈ stages) : stage ∈ stages.set number next := by
  obtain ⟨i, hi⟩ := List.mem_iff_getElem?.mp hmem
  have hi' : number ≠ i := by
    rintro rfl
    exact hne (Option.some.inj (hi.symm.trans hold))
  exact List.mem_iff_getElem?.mpr ⟨i, (List.getElem?_set_ne hi').trans hi⟩

theorem mem_set_self (hold : stages[number]? = some old) : next ∈ stages.set number next :=
  List.mem_set (List.getElem?_eq_some_iff.mp hold).1 next

theorem getElem?_of_set {i : Nat} (hne : stage ≠ next)
    (h : (stages.set number next)[i]? = some stage) : stages[i]? = some stage := by
  by_cases hi : number = i
  · subst hi
    have hmem := List.mem_iff_getElem?.mpr ⟨_, h⟩
    rw [List.getElem?_set_self'] at h
    obtain ⟨_, -, heq⟩ := Option.map_eq_some_iff.mp h
    exact absurd heq.symm hne
  · exact (List.getElem?_set_ne hi).symm.trans h

end Stages

/-- Nothing changes where no snapshot enters the map. -/
theorem Sound.held_or (h : t.Sound ever) : t.Sound fun id => ever id ∨ t.store.Holds id := by
  have hever : (fun id => ever id ∨ t.store.Holds id) = ever :=
    funext fun id => propext (or_iff_left_of_imp (h.held id))
  rw [hever]
  exact h

theorem Sound.call (h : t.Sound ever) (operation : Operation) :
    (t.act (.call operation)).Sound ever := by
  have hswap (uri : Uri) (id : SnapshotId) : operation.firstStage ≠ .swap uri id := by
    cases operation <;> simp [Operation.firstStage]
  have hcancel (displaced : Option SnapshotId) : operation.firstStage ≠ .cancel displaced := by
    cases operation <;> simp [Operation.firstStage]
  have hmem {stage : Stage} (hs : stage ∈ t.stages ++ [operation.firstStage])
      (hne : operation.firstStage ≠ stage) : stage ∈ t.stages := by
    rcases List.mem_append.mp hs with hs | hs
    · exact hs
    · exact absurd (List.mem_singleton.mp hs).symm hne
  have hget {i : Nat} {uri : Uri} {id : SnapshotId}
      (hi : (t.stages ++ [operation.firstStage])[i]? = some (.swap uri id)) :
      t.stages[i]? = some (.swap uri id) := by
    rw [List.getElem?_append] at hi
    split at hi
    · exact hi
    · have hlast := List.mem_iff_getElem?.mpr ⟨_, hi⟩
      exact absurd (List.mem_singleton.mp hlast).symm (hswap uri id)
  exact {
    store := h.store
    bound := h.bound
    held := h.held
    built := fun uri id hs => h.built uri id (hmem hs (hswap uri id))
    distinct := fun hi hj => h.distinct (hget hi) (hget hj)
    displaced := fun id hs => h.displaced id (hmem hs (hcancel _))
    cancelled := h.cancelled
    pending := fun id hid =>
      (h.pending id hid).imp_right (.imp_left fun hs => List.mem_append_left _ hs) }

section Advance

variable {number : Nat} {uri : Uri} {text : String}

theorem Sound.build (h : t.Sound ever) (hstage : t.stages[number]? = some (.build uri text)) :
    (t.act (.advance number)).Sound ever := by
  rw [act_advance hstage]
  have hlength : (t.store.build text).2.snapshots.length = t.store.snapshots.length + 1 := by
    simp [Store.build]
  have hold {i : Nat} {uri' : Uri} {id : SnapshotId}
      (hi : (t.stages.set number (.swap uri t.store.snapshots.length))[i]? = some (.swap uri' id)) :
      i = number ∧ id = t.store.snapshots.length ∨ t.stages[i]? = some (.swap uri' id) := by
    by_cases hnumber : number = i
    · subst hnumber
      rw [List.getElem?_set_self (List.getElem?_eq_some_iff.mp hstage).1] at hi
      cases hi
      exact .inl ⟨rfl, rfl⟩
    · exact .inr ((List.getElem?_set_ne hnumber).symm.trans hi)
  have hnew {i : Nat} {uri' : Uri} {id : SnapshotId} (hi : t.stages[i]? = some (.swap uri' id)) :
      id < t.store.snapshots.length := (h.built uri' id (List.mem_iff_getElem?.mpr ⟨i, hi⟩)).1
  constructor
  · exact h.store.build text
  · intro id hid
    exact Nat.lt_of_lt_of_le (h.bound id hid)
      (Nat.le_of_lt (Nat.lt_of_lt_of_eq (Nat.lt_succ_self _) hlength.symm))
  · exact h.held
  · intro uri' id hs
    obtain ⟨i, hi⟩ := List.mem_iff_getElem?.mp hs
    rcases hold hi with ⟨-, rfl⟩ | hi
    · exact ⟨Nat.lt_of_lt_of_eq (Nat.lt_succ_self _) hlength.symm,
        fun hid => Nat.lt_irrefl _ (h.bound _ hid)⟩
    · obtain ⟨hlt, hever⟩ := h.built uri' id (List.mem_iff_getElem?.mpr ⟨i, hi⟩)
      exact ⟨Nat.lt_of_lt_of_eq (Nat.lt_succ_of_lt hlt) hlength.symm, hever⟩
  · intro i j uri₁ uri₂ id hi hj
    rcases hold hi with ⟨hi₁, hid⟩ | hi' <;> rcases hold hj with ⟨hj₁, hid'⟩ | hj'
    · exact hi₁.trans hj₁.symm
    · exact absurd (hid ▸ hnew hj') (Nat.lt_irrefl _)
    · exact absurd (hid' ▸ hnew hi') (Nat.lt_irrefl _)
    · exact h.distinct hi' hj'
  · intro id hs
    rcases List.mem_or_eq_of_mem_set hs with hs | heq
    · exact h.displaced id hs
    · cases heq
  · intro id hid
    exact h.cancelled id ((Store.isCancelled_build text).mp hid)
  · intro id hid
    refine (h.pending id hid).imp_right (.imp ?_ ?_)
    · exact mem_set_of_ne hstage (by simp)
    · exact (Store.isCancelled_build text).mpr

/-- The step that changes the map leaves the snapshot it displaces to the call. -/
theorem Sound.displace {s : Store} {old : Stage} (h : t.Sound ever)
    (hstage : t.stages[number]? = some old) (hs : s.Sound)
    (hsnapshots : s.snapshots = t.store.snapshots) (hold : ∀ displaced, old ≠ .cancel displaced)
    (hmem : ∀ uri' id, (uri', id) ∈ s.entries ↔
      old = .swap uri' id ∨ (uri', id) ∈ t.store.entries ∧ uri' ≠ uri) :
    Sound (fun id => ever id ∨ s.Holds id)
      ⟨s, t.stages.set number (.cancel (t.store.get? uri))⟩ := by
  have hcancelled (id : SnapshotId) : s.IsCancelled id ↔ t.store.IsCancelled id :=
    Store.isCancelled_congr hsnapshots
  -- the snapshot that is put in was never in the map
  have hgone {id : SnapshotId} (hid : ever id) (hout : ¬ t.store.Holds id) : ¬ s.Holds id := by
    rintro ⟨uri', hin⟩
    rcases (hmem uri' id).mp hin with rfl | ⟨hin, -⟩
    · exact (h.built uri' id (List.mem_iff_getElem?.mpr ⟨number, hstage⟩)).2 hid
    · exact hout ⟨uri', hin⟩
  have hdisplaced {id : SnapshotId} (hid : t.store.get? uri = some id) :
      ever id ∧ ¬ s.Holds id := by
    have hentry := h.store.get?_eq_some_iff.mp hid
    refine ⟨h.held id ⟨uri, hentry⟩, ?_⟩
    rintro ⟨uri', hin⟩
    rcases (hmem uri' id).mp hin with rfl | ⟨hin, hne⟩
    · exact (h.built uri' id (List.mem_iff_getElem?.mpr ⟨number, hstage⟩)).2
        (h.held id ⟨uri, hentry⟩)
    · exact hne (h.store.uri_unique hin hentry)
  constructor
  · exact hs
  · rintro id (hid | ⟨uri', hin⟩)
    · exact Nat.lt_of_lt_of_eq (h.bound id hid) (congrArg List.length hsnapshots).symm
    · exact hs.built _ hin
  · exact fun id hid => .inr hid
  · intro uri' id hmem'
    obtain ⟨i, hi⟩ := List.mem_iff_getElem?.mp hmem'
    have hi' := getElem?_of_set (by simp) hi
    obtain ⟨hlt, hever⟩ := h.built uri' id (List.mem_iff_getElem?.mpr ⟨i, hi'⟩)
    refine ⟨Nat.lt_of_lt_of_eq hlt (congrArg List.length hsnapshots).symm, ?_⟩
    rintro (hid | ⟨uri₁, hin⟩)
    · exact hever hid
    · rcases (hmem uri₁ id).mp hin with rfl | ⟨hin, -⟩
      · -- the call that puts it in has another number
        obtain rfl := h.distinct hi' hstage
        rw [List.getElem?_set_self (List.getElem?_eq_some_iff.mp hstage).1] at hi
        cases hi
      · exact hever (h.held id ⟨uri₁, hin⟩)
  · exact fun hi hj => h.distinct (getElem?_of_set (by simp) hi) (getElem?_of_set (by simp) hj)
  · intro id hmem'
    rcases List.mem_or_eq_of_mem_set hmem' with hin | heq
    · obtain ⟨hid, hout⟩ := h.displaced id hin
      exact ⟨.inl hid, hgone hid hout⟩
    · obtain ⟨hid, hout⟩ := hdisplaced (Stage.cancel.inj heq).symm
      exact ⟨.inl hid, hout⟩
  · intro id hid
    obtain ⟨hid, hout⟩ := h.cancelled id ((hcancelled id).mp hid)
    exact ⟨.inl hid, hgone hid hout⟩
  · rintro id (hid | hid)
    · rcases h.pending id hid with ⟨uri', hin⟩ | hin | hin
      · by_cases hne : uri' = uri
        · subst hne
          rw [h.store.get?_eq_some_iff.mpr hin]
          exact .inr (.inl (mem_set_self hstage))
        · exact .inl ⟨uri', (hmem uri' id).mpr (.inr ⟨hin, hne⟩)⟩
      · exact .inr (.inl (mem_set_of_ne hstage (hold _).symm hin))
      · exact .inr (.inr ((hcancelled id).mpr hin))
    · exact .inl hid

theorem Sound.cancel {displaced : Option SnapshotId} (h : t.Sound ever)
    (hstage : t.stages[number]? = some (.cancel displaced)) :
    (t.act (.advance number)).Sound ever := by
  rw [act_advance hstage]
  have hmem : Stage.cancel displaced ∈ t.stages := List.mem_iff_getElem?.mpr ⟨number, hstage⟩
  have hlength : (t.store.cancelDisplaced displaced).snapshots.length =
      t.store.snapshots.length := by
    cases displaced with
    | none => rfl
    | some id => exact List.length_modify ..
  have hholds (id : SnapshotId) :
      (t.store.cancelDisplaced displaced).Holds id ↔ t.store.Holds id := by
    simp only [Store.Holds, Store.entries_cancelDisplaced]
  have hcancelled (id : SnapshotId) : (t.store.cancelDisplaced displaced).IsCancelled id ↔
      t.store.IsCancelled id ∨ displaced = some id := by
    cases displaced with
    | none => simp [Store.cancelDisplaced]
    | some id' =>
      have hlt := h.bound id' (h.displaced id' hmem).1
      rw [Store.cancelDisplaced, Store.isCancelled_cancel, Option.some.injEq, eq_comm (a := id')]
      simp [hlt]
  constructor
  · cases displaced with
    | none => exact h.store
    | some id => exact h.store.cancel (h.displaced id hmem).2
  · exact fun id hid => Nat.lt_of_lt_of_eq (h.bound id hid) hlength.symm
  · exact fun id hid => h.held id ((hholds id).mp hid)
  · intro uri id hs
    rcases List.mem_or_eq_of_mem_set hs with hs | heq
    · obtain ⟨hlt, hever⟩ := h.built uri id hs
      exact ⟨Nat.lt_of_lt_of_eq hlt hlength.symm, hever⟩
    · cases heq
  · exact fun hi hj => h.distinct (getElem?_of_set (by simp [Stage.advance]) hi)
      (getElem?_of_set (by simp [Stage.advance]) hj)
  · intro id hs
    rcases List.mem_or_eq_of_mem_set hs with hs | heq
    · obtain ⟨hid, hout⟩ := h.displaced id hs
      exact ⟨hid, fun hin => hout ((hholds id).mp hin)⟩
    · cases heq
  · intro id hid
    rcases (hcancelled id).mp hid with hid | rfl
    · obtain ⟨hever, hout⟩ := h.cancelled id hid
      exact ⟨hever, fun hin => hout ((hholds id).mp hin)⟩
    · obtain ⟨hever, hout⟩ := h.displaced id hmem
      exact ⟨hever, fun hin => hout ((hholds id).mp hin)⟩
  · intro id hid
    rcases h.pending id hid with hin | hin | hin
    · exact .inl ((hholds id).mpr hin)
    · by_cases heq : displaced = some id
      · exact .inr (.inr ((hcancelled id).mpr (.inr heq)))
      · refine .inr (.inl (mem_set_of_ne hstage ?_ hin))
        exact fun hstages => heq (Stage.cancel.inj hstages).symm
    · exact .inr (.inr ((hcancelled id).mpr (.inl hin)))

end Advance

/-- Each action keeps the snapshots where they may be. -/
theorem Sound.act (h : t.Sound ever) (action : Action) :
    (t.act action).Sound fun id => ever id ∨ (t.act action).store.Holds id := by
  cases action with
  | call operation => exact (h.call operation).held_or
  | advance number =>
    cases hstage : t.stages[number]? with
    | none =>
      rw [act_of_none hstage]
      exact h.held_or
    | some stage =>
      cases stage with
      | build uri text => exact (h.build hstage).held_or
      | swap uri id =>
        obtain ⟨hlt, hever⟩ := h.built uri id (List.mem_iff_getElem?.mpr ⟨number, hstage⟩)
        have hlive : ¬ t.store.IsCancelled id := fun hid => hever (h.cancelled id hid).1
        rw [act_swap hstage]
        refine h.displace hstage (h.store.swap hlt (fun hin => hever (h.held id hin)) hlive) rfl
          (by simp) fun uri' id' => ?_
        rw [Store.mem_entries_swap]
        simp [eq_comm]
      | remove uri =>
        rw [act_remove hstage]
        refine h.displace hstage h.store.remove rfl (by simp) fun uri' id' => ?_
        rw [Store.mem_entries_remove]
        simp
      | cancel displaced => exact (h.cancel hstage).held_or
      | done =>
        rw [act_done hstage]
        exact h.held_or

/-- Only what a call has just built enters the map. -/
theorem holds_of_act {action : Action} (h : (t.act action).store.Holds id) :
    t.store.Holds id ∨ ∃ uri, .swap uri id ∈ t.stages := by
  cases action with
  | call operation => exact .inl h
  | advance number =>
    cases hstage : t.stages[number]? with
    | none =>
      rw [act_of_none hstage] at h
      exact .inl h
    | some stage =>
      cases stage with
      | build uri text =>
        rw [act_advance hstage] at h
        exact .inl h
      | swap uri id' =>
        rw [act_swap hstage] at h
        obtain ⟨uri', hin⟩ := h
        rcases Store.mem_entries_swap.mp hin with heq | ⟨hin, -⟩
        · cases heq
          exact .inr ⟨uri, List.mem_iff_getElem?.mpr ⟨number, hstage⟩⟩
        · exact .inl ⟨uri', hin⟩
      | remove uri =>
        rw [act_remove hstage] at h
        obtain ⟨uri', hin⟩ := h
        exact .inl ⟨uri', (Store.mem_entries_remove.mp hin).1⟩
      | cancel displaced =>
        rw [act_advance hstage] at h
        obtain ⟨uri', hin⟩ := h
        exact .inl ⟨uri', Store.entries_cancelDisplaced displaced ▸ hin⟩
      | done =>
        rw [act_done hstage] at h
        exact .inl h

/-! ### Whole runs -/

theorem everHeld_concat (actions : List Action) (action : Action) :
    EverHeld (actions ++ [action]) =
      fun id => EverHeld actions id ∨ ((run actions).act action).store.Holds id := by
  funext id
  simp only [EverHeld, List.prefix_concat_iff, or_and_right, exists_or, exists_eq_left,
    run_concat, or_comm]

theorem EverHeld.mono {earlier actions : List Action} (h : EverHeld earlier id)
    (hearlier : earlier <+: actions) : EverHeld actions id := by
  obtain ⟨front, hfront, hid⟩ := h
  exact ⟨front, hfront.trans hearlier, hid⟩

theorem run_sound (actions : List Action) : (run actions).Sound (EverHeld actions) := by
  induction actions using List.reverseRecOn with
  | nil =>
    have hnone : EverHeld [] = fun _ => False := by
      funext id
      simp [EverHeld, List.prefix_nil, run, start, Store.Holds, Store.empty]
    rw [hnone]
    exact sound_start
  | append_singleton actions action ih =>
    rw [run_concat, everHeld_concat]
    exact ih.act action

/-- A snapshot that has left the map does not come back. -/
theorem run_not_holds {earlier : List Action} (hid : EverHeld earlier id)
    (hout : ¬ (run earlier).store.Holds id) (later : List Action) :
    ¬ (run (earlier ++ later)).store.Holds id := by
  induction later using List.reverseRecOn with
  | nil => rwa [List.append_nil]
  | append_singleton later action ih =>
    rw [← List.append_assoc, run_concat]
    intro hin
    rcases holds_of_act hin with hin | ⟨uri, hswap⟩
    · exact ih hin
    · have hever := ((run_sound (earlier ++ later)).built uri id hswap).2
      exact hever (hid.mono (List.prefix_append _ _))

/-- However calls on a store are interleaved, at the end of any run a snapshot in the map is not
cancelled, one that is cancelled was in the map and is not any more, and one that has left the map
does not come back. When no call is in progress, the snapshots that were ever in the map and are
not cancelled are those in the map, and there is no more than one for each document. -/
theorem snapshot_lifecycle (actions : List Action) :
    (∀ id, (run actions).store.Holds id → ¬ (run actions).store.IsCancelled id) ∧
      (∀ id, (run actions).store.IsCancelled id →
        EverHeld actions id ∧ ¬ (run actions).store.Holds id) ∧
      (∀ earlier middle id, earlier <+: middle → middle <+: actions →
        (run earlier).store.Holds id → ¬ (run middle).store.Holds id →
        ¬ (run actions).store.Holds id) ∧
      ((run actions).IsIdle → ∀ id, EverHeld actions id ∧ ¬ (run actions).store.IsCancelled id ↔
        (run actions).store.Holds id) ∧
      (run actions).store.entries.Pairwise fun e e' => e.1 ≠ e'.1 := by
  have h := run_sound actions
  refine ⟨h.store.live, h.cancelled, ?_, ?_, h.store.uris⟩
  · intro earlier middle id hearlier hmiddle hin hout
    obtain ⟨later, rfl⟩ := hmiddle
    exact run_not_holds ⟨earlier, hearlier, hin⟩ hout later
  · intro hidle id
    constructor
    · rintro ⟨hid, hlive⟩
      rcases h.pending id hid with hin | hstage | hcancelled
      · exact hin
      · cases hidle _ hstage
      · exact absurd hcancelled hlive
    · exact fun hin => ⟨h.held id hin, h.store.live id hin⟩

/-- Two changes of one document cross: the second one to be made enters the map first and is
displaced by the first one, and each then cancels the snapshot it displaced. -/
theorem snapshot_lifecycle_crossing :
    let uri : Uri := ⟨"file", some "", "/a", none, none⟩
    let swapped := [.call (.changed uri "1"), .call (.changed uri "2"), .advance 0, .advance 1,
      .advance 1]
    let displaced := swapped ++ [.advance 0]
    let settled := displaced ++ [.advance 0, .advance 1]
    ((run swapped).store.Holds 1 ∧ ¬ (run displaced).store.Holds 1 ∧
      ¬ (run settled).store.Holds 1) ∧
    ((run settled).store.Holds 0 ∧ ¬ (run settled).store.IsCancelled 0) ∧
    ((run settled).store.IsCancelled 1 ∧ EverHeld settled 1) ∧
    (run settled).IsIdle ∧
      ∀ id, EverHeld settled id ∧ ¬ (run settled).store.IsCancelled id ↔ id = 0 := by
  intro uri swapped displaced settled
  obtain ⟨live, cancelled, gone, idle, -⟩ := snapshot_lifecycle settled
  have hswapped : (run swapped).store.entries = [(uri, 1)] := by decide +kernel
  have hdisplaced : (run displaced).store.entries = [(uri, 0)] := by decide +kernel
  have hsettled : (run settled).store.entries = [(uri, 0)] := by decide +kernel
  have hidle : (run settled).IsIdle := by
    unfold IsIdle
    decide +kernel
  have hin : (run swapped).store.Holds 1 := ⟨uri, by simp [hswapped]⟩
  have hout : ¬ (run displaced).store.Holds 1 := by simp [Store.Holds, hdisplaced]
  have hheld (id : SnapshotId) : (run settled).store.Holds id ↔ id = 0 := by
    simp [Store.Holds, hsettled]
  have hcancelled : (run settled).store.IsCancelled 1 := ⟨⟨.ofSource "2", true⟩, rfl, rfl⟩
  have hprefix : swapped <+: displaced ∧ displaced <+: settled :=
    ⟨List.prefix_append _ _, List.prefix_append _ _⟩
  exact ⟨⟨hin, hout, gone swapped displaced 1 hprefix.1 hprefix.2 hin hout⟩,
    ⟨(hheld 0).mpr rfl, live 0 ((hheld 0).mpr rfl)⟩, ⟨hcancelled, (cancelled 1 hcancelled).1⟩,
    hidle, fun id => (idle hidle id).trans (hheld id)⟩

end Traffic

end PayFormula
