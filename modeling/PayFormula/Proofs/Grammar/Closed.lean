import PayFormula.Proofs.Grammar
import PayFormula.Proofs.Reading.Enclosed

/-!
# Phrases close their brackets

What is read without errors closes each bracket that it opens, and no others. A
phrase may have separators of its own in brackets: an expression has no comma
outside them, and the arguments of a call have theirs inside its parentheses.
-/
namespace PayFormula

/-- Neither a bracket nor a comma or semicolon. -/
def TokenKind.isFlat : TokenKind → Bool
  | .mark m => m ∉ [.lparen, .rparen, .lbracket, .rbracket, .comma, .semicolon]
  | _ => true

theorem TokenKind.neither_of_isFlat {kind : TokenKind} (h : kind.isFlat) :
    kind ∉ openings ∧ kind ∉ closings := by
  cases kind with
  | mark m => cases m <;> first | cases h; done | simp [openings, closings]
  | _ => simp [openings, closings]

theorem TokenKind.ne_of_isFlat {kind : TokenKind} (h : kind.isFlat) :
    kind ≠ .mark .comma ∧ kind ≠ .mark .semicolon := by
  constructor <;> (rintro rfl; cases h)

/-- Tokens that close the brackets they open and no others, with none of some kinds outside them. -/
structure Closed (kinds : List TokenKind) (toks : List Token) : Prop where
  level (depth : Nat) : openAfter depth toks = depth
  none (depth : Nat) : splitAtStop? (kinds ++ closings) depth toks = none

theorem splitAtStop?_of_inside {stops : List TokenKind} {tokens : List Token} {inner : Nat}
    (h : splitAtStop? closings inner tokens = none) (depth : Nat) :
    splitAtStop? stops (inner + depth + 1) tokens = none := by
  induction tokens generalizing inner with
  | nil => rfl
  | cons t tokens ih =>
    rw [splitAtStop?] at h ⊢
    rw [if_neg (by omega), Option.map_eq_none_iff]
    split at h
    · cases h
    · rename_i hclosing
      have hrest := Option.map_eq_none_iff.mp h
      by_cases ho : t.kind ∈ openings
      · rw [depthAfter_of_opening ho] at hrest ⊢
        have := ih hrest
        rwa [show inner + depth + 1 + 1 = inner + 1 + depth + 1 by omega]
      · by_cases hc : t.kind ∈ closings
        · have hinner : inner ≠ 0 := fun hzero => hclosing ⟨hzero, hc⟩
          rw [depthAfter_of_closing hc] at hrest ⊢
          have := ih hrest
          rwa [show inner + depth + 1 - 1 = inner - 1 + depth + 1 by omega]
        · rw [depthAfter_of_neither ho hc] at hrest ⊢
          exact ih hrest

theorem splitAtStop?_of_subset {stops stops' : List TokenKind} (hs : stops' ⊆ stops)
    {tokens : List Token} {depth : Nat} (h : splitAtStop? stops depth tokens = none) :
    splitAtStop? stops' depth tokens = none := by
  induction tokens generalizing depth with
  | nil => rfl
  | cons t tokens ih =>
    rw [splitAtStop?] at h ⊢
    split at h
    · cases h
    · rename_i hstop
      rw [if_neg fun hstop' => hstop ⟨hstop'.1, hs hstop'.2⟩, ih (Option.map_eq_none_iff.mp h)]
      rfl

theorem splitAtStop?_front {stops : List TokenKind} {front back : List Token} {depth : Nat}
    (h : splitAtStop? stops depth (front ++ back) = none) :
    splitAtStop? stops depth front = none := by
  induction front generalizing depth with
  | nil => rfl
  | cons t front ih =>
    rw [List.cons_append, splitAtStop?] at h
    rw [splitAtStop?]
    split at h
    · cases h
    · rename_i hstop
      rw [if_neg hstop, ih (Option.map_eq_none_iff.mp h)]
      rfl

namespace Closed

variable {kinds kinds' : List TokenKind} {t l r : Token} {toks front back : List Token}

theorem nil : Closed kinds [] := ⟨fun _ => rfl, fun _ => rfl⟩

theorem append (h : Closed kinds front) (h' : Closed kinds back) :
    Closed kinds (front ++ back) where
  level depth := by rw [openAfter_append, h.level, h'.level]
  none depth := by rw [splitAtStop?_append (h.none depth), h.level, h'.none]; rfl

theorem mono (hs : kinds' ⊆ kinds) (h : Closed kinds toks) : Closed kinds' toks :=
  ⟨h.level, fun depth => splitAtStop?_of_subset (by grind) (h.none depth)⟩

theorem token (ho : t.kind ∉ openings) (hc : t.kind ∉ closings) (hk : t.kind ∉ kinds)
    (h : Closed kinds toks) : Closed kinds (t :: toks) where
  level depth := by
    change openAfter (t.kind.depthAfter depth) toks = depth
    rw [depthAfter_of_neither ho hc, h.level]
  none depth := by
    rw [splitAtStop?, if_neg (by simp [hk, hc]), depthAfter_of_neither ho hc, h.none]
    rfl

theorem flat (ht : t.kind.isFlat) (h : Closed [.mark .comma] toks) :
    Closed [.mark .comma] (t :: toks) :=
  have ⟨ho, hc⟩ := TokenKind.neither_of_isFlat ht
  h.token ho hc (by simpa using (TokenKind.ne_of_isFlat ht).1)

theorem of_isFlat (h : ∀ t ∈ toks, t.kind.isFlat) : Closed [.mark .comma] toks := by
  induction toks with
  | nil => exact nil
  | cons t toks ih =>
    obtain ⟨ht, htoks⟩ := List.forall_mem_cons.mp h
    exact (ih htoks).flat ht

theorem comma (ht : t.kind = .mark .comma) (h : Closed [] toks) : Closed [] (t :: toks) :=
  h.token (by simp [ht, openings]) (by simp [ht, closings]) List.not_mem_nil

theorem semicolon (ht : t.kind = .mark .semicolon) (h : Closed [.mark .comma] toks) :
    Closed [.mark .comma] (t :: toks) :=
  h.token (by simp [ht, openings]) (by simp [ht, closings]) (by simp [ht])

theorem inside (h : Closed [] toks) (stops : List TokenKind) (depth : Nat) :
    splitAtStop? stops (depth + 1) toks = Option.none := by
  have hinside : splitAtStop? stops (0 + depth + 1) toks = Option.none :=
    splitAtStop?_of_inside (h.none 0) depth
  rwa [Nat.zero_add] at hinside

theorem group (hl : l.kind ∈ openings) (hk : l.kind ∉ kinds) (h : Closed [] toks)
    (hr : r.kind ∈ closings) : Closed kinds (l :: toks ++ [r]) := by
  constructor
  · intro depth
    rw [List.cons_append]
    change openAfter (l.kind.depthAfter depth) (toks ++ [r]) = depth
    rw [depthAfter_of_opening hl, openAfter_append, h.level]
    change r.kind.depthAfter (depth + 1) = depth
    rw [depthAfter_of_closing hr, Nat.add_sub_cancel]
  · intro depth
    rw [List.cons_append, splitAtStop?, if_neg (by simp [hk, not_closing_of_opening hl]),
      depthAfter_of_opening hl, splitAtStop?_append (h.inside _ _), h.level, splitAtStop?,
      if_neg (by simp)]
    rfl

/-- A bracket and what it encloses, in front of what closes it. -/
theorem round (hl : l.kind = .mark .lparen) (h : Closed [] toks) (hr : r.kind = .mark .rparen) :
    Closed [.mark .comma] (l :: toks ++ [r]) :=
  h.group (by simp [hl, openings]) (by simp [hl]) (by simp [hr, closings])

end Closed

namespace Grammar

theorem isFlat_of_kind {t : Token} {kind : TokenKind} (h : t.kind = kind) (hk : kind.isFlat) :
    t.kind.isFlat := h ▸ hk

theorem name_isFlat {n : Token} (h : n.IsName) : n.kind.isFlat := isFlat_of_kind h.kind rfl

theorem unary_isFlat {t : Token} {op : UnaryOp} (h : t.kind = .mark op.mark) : t.kind.isFlat := by
  cases op <;> exact isFlat_of_kind h rfl

theorem binary_isFlat {t : Token} {op : BinaryOp} (h : t.kind = .mark op.mark) : t.kind.isFlat := by
  cases op <;> exact isFlat_of_kind h rfl

variable {toks : List Token} {next : Token}

theorem clause_isFlat {word : Keyword} {c : NameClause} (h : Clause word toks next c) :
    ∀ t ∈ toks, t.kind.isFlat := by
  cases h with
  | intro hk hn =>
    exact List.forall_mem_cons.mpr
      ⟨isFlat_of_kind hk rfl, List.forall_mem_singleton.mpr (name_isFlat hn)⟩

theorem clause_closed {word : Keyword} {c : NameClause} (h : Clause word toks next c) :
    Closed [.mark .comma] toks := .of_isFlat (clause_isFlat h)

theorem strings_closed {ss : List StringLiteral} (h : Strings toks ss) : Closed [] toks := by
  have string {s : Token} {toks : List Token} (hs : s.kind = .string) (h : Closed [] toks) :
      Closed [] (s :: toks) :=
    h.token (by simp [hs, openings]) (by simp [hs, closings]) List.not_mem_nil
  induction h with
  | nil => exact .nil
  | last hs => exact string hs .nil
  | cons hs hcomma _ ih => exact string hs (ih.comma hcomma)

theorem listing_closed {l : ListLiteral} (h : Listing toks next l) :
    Closed [.mark .comma] toks := by
  cases h with
  | intro hl hstrings hr =>
    exact (strings_closed hstrings).group (by simp [hl, openings]) (by simp [hl])
      (by simp [hr, closings])

section Sub

/-- Expressions close their brackets and have no comma outside them. -/
structure SubClosed (R : SubPhrase) : Prop where
  closed : ∀ {power toks next e}, R power toks next e → Closed [.mark .comma] toks

variable {R : SubPhrase} (hs : SubClosed R) {e : Expr}
include hs

theorem bound_closed {b : Binding} (h : Bound R toks b) : Closed [.mark .comma] toks := by
  cases h with
  | @intro t n eq semicolon _ _ ht hn heq hv hsemi =>
    have hvalue := (hs.closed hv).append (Closed.nil.semicolon hsemi)
    exact ((hvalue.flat (isFlat_of_kind heq rfl)).flat (name_isFlat hn)).flat
      (isFlat_of_kind ht rfl)

theorem bounds_closed {bs : List Binding} (h : Bounds R toks bs) : Closed [.mark .comma] toks := by
  induction h with
  | nil => exact .nil
  | cons hb _ ih => exact (bound_closed hs hb).append ih

theorem blocks_closed {b : Block} (h : Blocks R toks next b) : Closed [.mark .comma] toks := by
  cases h with
  | intro hbs hv => exact (bounds_closed hs hbs).append (hs.closed hv)

omit hs in
theorem items_closed {item : Phrase Expr}
    (hitem : ∀ {toks stop e}, item toks stop e → Closed [.mark .comma] toks) {stop : Token}
    {args : List Expr} (h : Items item toks stop args) : Closed [] toks := by
  induction h with
  | last ha => exact (hitem ha).mono (List.nil_subset _)
  | cons ha hcomma _ ih =>
    exact ((hitem ha).mono (List.nil_subset _)).append (ih.comma hcomma)

variable {levels : Nat}

theorem argument_closed {stop : Token} (h : Argument (Gaps.none levels) R toks stop e) :
    Closed [.mark .comma] toks := by
  cases h with
  | value hv => exact hs.closed hv
  | block hb _ => exact blocks_closed hs hb
  | failed hpassed _ => exact hpassed.elim

theorem primary_closed (h : Primary (Gaps.none levels) R toks next e) :
    Closed [.mark .comma] toks := by
  have single {t : Token} (ht : t.kind.isFlat) : Closed [.mark .comma] [t] := Closed.nil.flat ht
  cases h with
  | number hk _ => rcases hk with hk | hk <;> exact single (isFlat_of_kind hk rfl)
  | ident hn => exact single (name_isFlat hn)
  | string hk | date hk _ | time hk _ => exact single (isFlat_of_kind hk rfl)
  | boolean hk => exact single (isFlat_of_kind hk rfl)
  | unary hk ho => exact (hs.closed ho).flat (unary_isFlat hk)
  | unit hl hr => exact Closed.round hl .nil hr
  | paren hl hb hr => exact Closed.round hl ((blocks_closed hs hb).mono (List.nil_subset _)) hr
  | @macroUnit d n l r closing _ hd hn hl hr hc =>
    have hround := (Closed.round hl .nil hr).append (single (isFlat_of_kind hc rfl))
    exact (hround.flat (name_isFlat hn)).flat (isFlat_of_kind hd rfl)
  | @macroCall d n l r closing _ toks _ hd hn hl hargs hr hc =>
    have hround := (Closed.round hl (items_closed hs.closed hargs) hr).append
      (single (isFlat_of_kind hc rfl))
    have hall := (hround.flat (name_isFlat hn)).flat (isFlat_of_kind hd rfl)
    simpa using hall
  | callUnit hk hl hr => exact (Closed.round hl .nil hr).flat (isFlat_of_kind hk rfl)
  | call hk hl _ hargs hr =>
    exact (Closed.round hl (items_closed (argument_closed hs) hargs) hr).flat
      (isFlat_of_kind hk rfl)
  | overClause hk he _ => exact (hs.closed he).flat (isFlat_of_kind hk rfl)
  | overAlias hk he ha hn =>
    have hclause := (single (name_isFlat hn)).flat (isFlat_of_kind ha rfl)
    exact ((hs.closed he).append hclause).flat (isFlat_of_kind hk rfl)
  | filter hk he => exact (hs.closed he).flat (isFlat_of_kind hk rfl)
  | orderBy hk hword he _ _ =>
    exact ((hs.closed he).flat (isFlat_of_kind hword rfl)).flat (isFlat_of_kind hk rfl)
  | orderByDirection hk hword he hd =>
    have hkey := (hs.closed he).append (single (isFlat_of_kind hd rfl))
    exact (hkey.flat (isFlat_of_kind hword rfl)).flat (isFlat_of_kind hk rfl)
  | label hclause | set hclause => exact clause_closed hclause
  | list hlist => exact listing_closed hlist

theorem operation_closed {power : Precedence} {left : Expr}
    (h : Operation R power left toks next e) :
    Closed [.mark .comma] toks := by
  cases h with
  | binary hk _ hright => exact (hs.closed hright).flat (binary_isFlat hk)
  | memberList hk _ hlist => exact (listing_closed hlist).flat (isFlat_of_kind hk rfl)
  | memberSet hk _ hclause => exact (clause_closed hclause).flat (isFlat_of_kind hk rfl)

end Sub

theorem subClosed_and_chain (levels : Nat) :
    SubClosed (Expression Gaps.none levels) ∧ ∀ {power left toks next e},
      Chain Gaps.none levels power left toks next e → Closed [.mark .comma] toks := by
  induction levels with
  | zero =>
    refine ⟨⟨fun h => h.elim⟩, fun h => ?_⟩
    cases h
    exact .nil
  | succ levels ih =>
    refine ⟨⟨fun h => ?_⟩, fun h => ?_⟩
    · cases h with
      | intro hprimary hchain => exact (primary_closed ih.1 hprimary).append (ih.2 hchain)
    · rcases h with hstop | hgo
      · cases hstop
        exact .nil
      · cases hgo with
        | intro hop hchain => exact (operation_closed ih.1 hop).append (ih.2 hchain)

/-- Expressions without errors close their brackets. -/
theorem expression_closed (levels : Nat) : SubClosed (Expression Gaps.none levels) :=
  (subClosed_and_chain levels).1

end Grammar

end PayFormula
