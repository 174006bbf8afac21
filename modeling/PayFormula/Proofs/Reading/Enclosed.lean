import Mathlib.Data.List.Induction
import PayFormula.Proofs.Reading.Steady

/-!
# What lies between brackets

Recovery passes over tokens up to a stop outside the brackets opened on the way,
and counts brackets without looking which is which. Counted like this a token
lies between brackets if one is open in front of it, and if behind it one is
closed that is not opened there.
-/
namespace PayFormula

/-- The number of brackets left open by tokens in front of which some are open. -/
def openAfter (depth : Nat) (tokens : List Token) : Nat :=
  tokens.foldl (fun depth t => t.kind.depthAfter depth) depth

def openings : List TokenKind := [.mark .lparen, .mark .lbracket]

def closings : List TokenKind := [.mark .rparen, .mark .rbracket]

/-- A bracket opened in front of the tokens is closed among them. -/
def closes (tokens : List Token) : Bool := (splitAtStop? closings 0 tokens).isSome

/-- Some bracket is opened among the tokens in front, and its matching closing bracket is among the
ones behind. -/
def Encloses (front back : List Token) : Prop :=
  ∃ before opening inner, front = before ++ opening :: inner ∧ opening.kind ∈ openings ∧
    closes inner = false ∧ closes (inner ++ back)

section Brackets

variable {kind : TokenKind}

theorem depthAfter_of_opening (h : kind ∈ openings) (depth : Nat) :
    kind.depthAfter depth = depth + 1 := by
  simp only [openings, List.mem_cons, List.not_mem_nil, or_false] at h
  rcases h with rfl | rfl <;> rfl

theorem depthAfter_of_closing (h : kind ∈ closings) (depth : Nat) :
    kind.depthAfter depth = depth - 1 := by
  simp only [closings, List.mem_cons, List.not_mem_nil, or_false] at h
  rcases h with rfl | rfl <;> rfl

theorem depthAfter_of_neither (ho : kind ∉ openings) (hc : kind ∉ closings) (depth : Nat) :
    kind.depthAfter depth = depth := by
  unfold TokenKind.depthAfter
  split <;> first | rfl | simp [openings, closings] at ho hc

theorem not_closing_of_opening (h : kind ∈ openings) : kind ∉ closings := by
  simp only [openings, List.mem_cons, List.not_mem_nil, or_false] at h
  rcases h with rfl | rfl <;> simp [closings]

variable {stops : List TokenKind} {depth : Nat} {tokens front back skipped : List Token}

theorem openAfter_append (depth : Nat) (front back : List Token) :
    openAfter depth (front ++ back) = openAfter (openAfter depth front) back := List.foldl_append

theorem splitAtStop?_append (h : splitAtStop? stops depth front = none) (back : List Token) :
    splitAtStop? stops depth (front ++ back) =
      (splitAtStop? stops (openAfter depth front) back).map fun (skipped, stop) =>
        (front ++ skipped, stop) := by
  induction front generalizing depth with
  | nil => simp [openAfter]
  | cons t front ih =>
    rw [splitAtStop?] at h
    split at h
    · cases h
    · rename_i hstop
      rw [List.cons_append, splitAtStop?, if_neg hstop, ih (Option.map_eq_none_iff.mp h),
        Option.map_map]
      rfl

/-- A split stands at the first stop outside the brackets opened on the way. -/
theorem splitAtStop?_eq_some_iff {stop : List Token} :
    splitAtStop? stops depth tokens = some (skipped, stop) ↔
      tokens = skipped ++ stop ∧ splitAtStop? stops depth skipped = none ∧
        openAfter depth skipped = 0 ∧ ∃ t rest, stop = t :: rest ∧ t.kind ∈ stops := by
  constructor
  · intro h
    refine ⟨splitAtStop?_eq_append h, ?_⟩
    induction tokens generalizing depth skipped with
    | nil => cases h
    | cons t rest ih =>
      rw [splitAtStop?] at h
      split at h
      · rename_i ht
        cases h
        exact ⟨rfl, ht.1, t, rest, rfl, ht.2⟩
      · rename_i ht
        obtain ⟨⟨inner, after⟩, hinner, heq⟩ := Option.map_eq_some_iff.mp h
        cases heq
        obtain ⟨hnone, hzero, hstop⟩ := ih hinner
        refine ⟨?_, hzero, hstop⟩
        rw [splitAtStop?, if_neg ht, hnone, Option.map_none]
  · rintro ⟨rfl, hnone, hzero, t, rest, rfl, ht⟩
    rw [splitAtStop?_append hnone, hzero, splitAtStop?, if_pos ⟨rfl, ht⟩]
    simp

/-- Only the kinds of the tokens in front of a split matter, and that of its stop. -/
theorem splitAtStop?_congr {front' after : List Token} {stop stop' : Token}
    (h : splitAtStop? stops depth (front ++ stop :: after) = some (front, stop :: after))
    (hfront : front'.map (·.kind) = front.map (·.kind)) (hstop : stop'.kind = stop.kind)
    (after' : List Token) :
    splitAtStop? stops depth (front' ++ stop' :: after') = some (front', stop' :: after') := by
  induction front generalizing depth front' with
  | nil =>
    obtain rfl := List.map_eq_nil_iff.mp hfront
    rw [List.nil_append, splitAtStop?] at h ⊢
    split at h
    · rename_i ht
      rw [if_pos (hstop ▸ ht)]
    · obtain ⟨_, -, heq⟩ := Option.map_eq_some_iff.mp h
      cases (Prod.mk.inj heq).1
  | cons t front ih =>
    obtain ⟨t', front', rfl, ht, hfront⟩ := List.map_eq_cons_iff.mp hfront
    rw [List.cons_append, splitAtStop?] at h ⊢
    split at h
    · cases (Prod.mk.inj (Option.some.inj h)).1
    · rename_i hk
      obtain ⟨⟨inner, rest⟩, hinner, heq⟩ := Option.map_eq_some_iff.mp h
      obtain ⟨hcons, rfl⟩ := Prod.mk.inj heq
      obtain rfl := (List.cons.inj hcons).2
      rw [if_neg (ht ▸ hk), ht, ih hinner hfront, Option.map_some]

/-- A stop that is passed over lies in a bracket opened on the way. -/
theorem openAfter_ne_zero {t : Token} (h : splitAtStop? stops depth (front ++ t :: back) = none)
    (ht : t.kind ∈ stops) : openAfter depth front ≠ 0 := by
  induction front generalizing depth with
  | nil =>
    intro hzero
    rw [List.nil_append, splitAtStop?, if_pos ⟨hzero, ht⟩] at h
    cases h
  | cons u front ih =>
    rw [List.cons_append, splitAtStop?] at h
    split at h
    · cases h
    · have hback := Option.map_eq_none_iff.mp h
      exact ih hback

/-- Brackets that stay open all the way do not matter to those inside. -/
theorem splitAtStop?_add (h : splitAtStop? closings depth tokens = none) (outer : Nat) :
    splitAtStop? closings (outer + depth) tokens = none ∧
      openAfter (outer + depth) tokens = outer + openAfter depth tokens := by
  induction tokens generalizing depth with
  | nil => exact ⟨rfl, rfl⟩
  | cons t rest ih =>
    rw [splitAtStop?] at h
    split at h
    · cases h
    · rename_i hstop
      have hopen (hk : t.kind ∈ closings) : depth ≠ 0 := fun hzero => hstop ⟨hzero, hk⟩
      have hdepth : t.kind.depthAfter (outer + depth) = outer + t.kind.depthAfter depth := by
        by_cases hopening : t.kind ∈ openings
        · rw [depthAfter_of_opening hopening, depthAfter_of_opening hopening, Nat.add_assoc]
        by_cases hclosing : t.kind ∈ closings
        · have := hopen hclosing
          rw [depthAfter_of_closing hclosing, depthAfter_of_closing hclosing]
          omega
        · rw [depthAfter_of_neither hopening hclosing, depthAfter_of_neither hopening hclosing]
      obtain ⟨hnone, hrest⟩ := ih (Option.map_eq_none_iff.mp h)
      rw [← hdepth] at hnone hrest
      refine ⟨?_, hrest⟩
      rw [splitAtStop?, if_neg, hnone, Option.map_none]
      exact fun hstop' => hopen hstop'.2 (by omega)

theorem closes_eq_false_iff : closes tokens = false ↔ splitAtStop? closings 0 tokens = none := by
  rw [closes, Option.isSome_eq_false_iff, Option.isNone_iff_eq_none]

theorem openAfter_of_not_closes (h : closes tokens = false) (outer : Nat) :
    openAfter outer tokens = outer + openAfter 0 tokens :=
  (splitAtStop?_add (closes_eq_false_iff.mp h) outer).2

theorem closes_append (h : closes front = false) (back : List Token) :
    closes (front ++ back) = (splitAtStop? closings (openAfter 0 front) back).isSome := by
  rw [closes, splitAtStop?_append (closes_eq_false_iff.mp h), Option.isSome_map]

/-- A bracket is closed only behind those that were opened later. -/
theorem closes_of_deeper (h : (splitAtStop? closings depth tokens).isSome) : closes tokens := by
  rw [← Bool.not_eq_false]
  intro hnone
  rw [← Nat.add_zero depth, (splitAtStop?_add (closes_eq_false_iff.mp hnone) depth).1] at h
  cases h

/-- For each number below that of the brackets left open there is one behind which as many are. -/
theorem exists_opening {inside : Nat} (h : inside < openAfter 0 tokens) :
    ∃ before opening inner, tokens = before ++ opening :: inner ∧ opening.kind ∈ openings ∧
      closes inner = false ∧ openAfter 0 inner = inside := by
  induction tokens using List.reverseRecOn generalizing inside with
  | nil => cases h
  | append_singleton tokens t ih =>
    -- a bracket that is open in front of the token and not closed by it
    have hkeep {inside' : Nat} (h : inside' < openAfter 0 tokens)
        (hinside : t.kind.depthAfter inside' = inside) (hopen : t.kind ∈ closings → inside' ≠ 0) :
        ∃ before opening inner, tokens ++ [t] = before ++ opening :: inner ∧
          opening.kind ∈ openings ∧ closes inner = false ∧ openAfter 0 inner = inside := by
      obtain ⟨before, opening, inner, rfl, hopening, hcloses, rfl⟩ := ih h
      refine ⟨before, opening, inner ++ [t], by simp, hopening, ?_, ?_⟩
      · rw [closes_append hcloses, splitAtStop?, if_neg fun hstop => hopen hstop.2 hstop.1]
        rfl
      · rw [openAfter_append]
        exact hinside
    rw [openAfter_append] at h
    change inside < t.kind.depthAfter (openAfter 0 tokens) at h
    by_cases hopening : t.kind ∈ openings
    · have hdepth (depth : Nat) := depthAfter_of_opening hopening depth
      rw [hdepth] at h
      cases inside with
      | zero => exact ⟨tokens, t, [], rfl, hopening, rfl, rfl⟩
      | succ inside =>
        refine hkeep (by omega) (hdepth inside) fun hk => ?_
        exact absurd hk (not_closing_of_opening hopening)
    by_cases hclosing : t.kind ∈ closings
    · have hdepth (depth : Nat) := depthAfter_of_closing hclosing depth
      rw [hdepth] at h
      exact hkeep (by omega) (hdepth (inside + 1)) fun _ => Nat.succ_ne_zero _
    · have hdepth (depth : Nat) := depthAfter_of_neither hopening hclosing depth
      rw [hdepth] at h
      exact hkeep h (hdepth inside) fun hk => absurd hk hclosing

theorem encloses_iff : Encloses front back ↔ openAfter 0 front ≠ 0 ∧ closes back := by
  constructor
  · rintro ⟨before, opening, inner, rfl, hopening, hinner, hback⟩
    rw [closes_append hinner] at hback
    refine ⟨?_, closes_of_deeper hback⟩
    rw [openAfter_append]
    change openAfter (opening.kind.depthAfter _) inner ≠ 0
    rw [depthAfter_of_opening hopening, openAfter_of_not_closes hinner]
    omega
  · rintro ⟨hopen, hback⟩
    obtain ⟨before, opening, inner, rfl, hopening, hinner, hzero⟩ :=
      exists_opening (Nat.pos_of_ne_zero hopen)
    refine ⟨before, opening, inner, rfl, hopening, hinner, ?_⟩
    rw [closes_append hinner, hzero]
    exact hback

/-- A `;` that recovery passes over lies in a bracket opened on the way. -/
theorem encloses_of_skipped {stop : List Token} {t : Token}
    (h : splitAtStop? [.mark .semicolon] 0 tokens = some (front ++ t :: back, stop))
    (ht : t.kind = .mark .semicolon) : Encloses front (t :: back) := by
  obtain ⟨-, hnone, hend, -⟩ := splitAtStop?_eq_some_iff.mp h
  have hopen := openAfter_ne_zero hnone (List.mem_singleton.mpr ht)
  refine encloses_iff.mpr ⟨hopen, ?_⟩
  rw [← Bool.not_eq_false]
  intro hcloses
  rw [openAfter_append, openAfter_of_not_closes hcloses] at hend
  omega

end Brackets

end PayFormula
