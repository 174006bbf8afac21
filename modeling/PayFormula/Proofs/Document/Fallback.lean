import PayFormula.Proofs.Document.Passing
import PayFormula.Proofs.Document.Signature

/-!
# What is found without the tree

The search that goes back through the tokens finds the call that the tree has
around a place, with two exceptions, in which it finds none. A parenthesis of the
grouping kind that is open at the place ends the search, because it stands behind
no name. And a semicolon outside brackets ends it, as if it ended a statement,
though it may end a binding of an argument.

Parentheses and calls that are closed in front of the place, or opened behind it,
make no difference, nor do lists.
-/
namespace PayFormula

variable {place : Position}

namespace Expr

/-- A parenthesis is not open at the place. -/
def ParenShut (place : Position) : Expr → Prop
  | .paren l _ r => ¬ OpenAt place l r
  | _ => True

/-- A call or macro is not open at the place. -/
def CallShut (place : Position) : Expr → Prop
  | .macroCall _ _ l _ r _ => ¬ OpenAt place l r
  | .call _ l _ r => ¬ OpenAt place l r
  | _ => True

/-- No binding of the argument itself ends in front of the place. -/
def Unbroken (place : Position) : Expr → Prop
  | .block b => ∀ binding ∈ b.bindings, ¬ binding.semicolon.first < place
  | _ => True

instance : DecidablePred (ParenShut place)
  | .paren l _ r => inferInstanceAs (Decidable (¬ OpenAt place l r))
  | .ident _ | .number .. | .string _ | .boolean .. | .date .. | .time .. | .blank _ | .unary ..
  | .binary .. | .block _ | .macroCall .. | .call .. | .overClause .. | .filter .. | .orderBy ..
  | .label _ | .set _ | .list _ | .member .. | .failed .. => .isTrue trivial

end Expr

namespace Grammar

open CallSite

/-- Below brackets that are not open at a place no parenthesis is. -/
theorem parenShut_inside {l r : Token} {toks : List Token} (ho : Ordered (l :: toks ++ [r]))
    (h : ¬ OpenAt place l r) {node : Node} (hn : node.EveryExpr (Located Gaps.none toks)) :
    node.EveryExpr (Expr.ParenShut place) := by
  intro e he
  cases e with
  | paren l' b r' =>
    obtain ⟨_, own, _, hown, hprimary⟩ := hn _ he rfl
    have hends : l' ∈ own ∧ r' ∈ own := by cases hprimary <;> simp
    rintro ⟨hl, hr⟩
    rcases ho.all_or_none h with hall | hnone
    · exact absurd (hall r' (by simp [hown.subset hends.2])) (not_lt_of_ge hr)
    · exact hnone l' (by simp [hown.subset hends.1]) hl
  | _ => trivial

theorem plain_of_kind {t : Token} {kind : TokenKind} (h : t.kind = kind) (hk : kind.isFlat) :
    ∀ u ∈ [t], Plain u.kind :=
  List.forall_mem_singleton.mpr (plain_of_isFlat (isFlat_of_kind h hk))

section Sub

/-- A search goes through all expressions in which no parenthesis is open at the place, if no call
is, and ends in the others. -/
structure SubScans (place : Position) (sub : SubPhrase) : Prop where
  scans : ∀ {power toks next e}, sub power toks next e → Ordered toks →
    (Node.expr e).EveryExpr (Expr.CallShut place) →
    Scans place toks ((Node.expr e).EveryExpr (Expr.ParenShut place))

variable {sub : SubPhrase} {levels : Nat} {toks : List Token} {next : Token} {e : Expr}

theorem bound_unnamed {b : Binding} (h : Bound sub toks b) (before : List Token) :
    Unnamed (toks.reverse ++ before) := by
  cases h with
  | intro _ _ _ _ hsemicolon =>
    rw [List.reverse_append, List.append_assoc]
    exact unnamed_of_mark hsemicolon _

theorem bounds_unnamed {bs : List Binding} (h : Bounds sub toks bs) (before : List Token)
    (hbefore : Unnamed before) : Unnamed (toks.reverse ++ before) := by
  induction h generalizing before with
  | nil => exact hbefore
  | cons hb _ ih =>
    rw [List.reverse_append, List.append_assoc]
    exact ih _ (bound_unnamed hb before)

theorem strings_plain {ss : List StringLiteral} (h : Strings toks ss) :
    ∀ t ∈ toks, Plain t.kind := by
  have hstring {s : Token} (hs : s.kind = .string) : Plain s.kind :=
    plain_of_isFlat (isFlat_of_kind hs rfl)
  induction h with
  | nil => exact List.forall_mem_nil _
  | last hs => exact List.forall_mem_singleton.mpr (hstring hs)
  | cons hs hcomma _ ih =>
    have hseparator := plain_of_isLead (isLead_of_kind hcomma rfl)
    exact List.forall_mem_cons.mpr ⟨hstring hs, List.forall_mem_cons.mpr ⟨hseparator, ih⟩⟩

theorem listing_scans {l : ListLiteral} (h : Listing toks next l) (ho : Ordered toks) :
    Scans place toks True := by
  cases h with
  | intro hl hstrings hr => exact .list ho hl (strings_plain hstrings) (strings_closed hstrings) hr

variable (hs : SubScans place sub)
include hs

theorem bound_scans {b : Binding} (h : Bound sub toks b) (ho : Ordered toks)
    (hc : (Node.binding b).EveryExpr (Expr.CallShut place)) :
    Scans place toks ((Node.binding b).EveryExpr (Expr.ParenShut place) ∧
      ¬ b.semicolon.first < place) := by
  cases h with
  | @intro t n eq semicolon toks _ ht hn heq hv hsemicolon =>
    have hvalue := hs.scans hv (ho.sublist (by grind)) (Node.everyExpr_binding.mp hc)
    have hname : Scans place [t, n] True :=
      .plain (plain_all_of_isFlat (by simp [isFlat_of_kind ht rfl, name_isFlat hn]))
    have hall := (hname.join (isLead_of_kind heq rfl) hvalue).semicolon hsemicolon
    exact hall.of_iff (by rw [Node.everyExpr_binding, true_and])

theorem bounds_scans {bs : List Binding} (h : Bounds sub toks bs) (ho : Ordered toks)
    (hc : ∀ b ∈ bs, (Node.binding b).EveryExpr (Expr.CallShut place)) :
    Scans place toks (∀ b ∈ bs, (Node.binding b).EveryExpr (Expr.ParenShut place) ∧
      ¬ b.semicolon.first < place) := by
  induction h with
  | nil => exact (Scans.plain (List.forall_mem_nil _)).of_iff (by simp)
  | cons hb _ ih =>
    obtain ⟨hfirst, hrest⟩ := List.forall_mem_cons.mp hc
    have hbound := bound_scans hs hb ho.left hfirst
    have hall := hbound.append (fun before _ => bound_unnamed hb before) (ih ho.right hrest)
    exact hall.of_iff List.forall_mem_cons.symm

theorem blocks_scans {b : Block} (h : Blocks sub toks next b) (ho : Ordered toks)
    (hc : ∀ child ∈ b.children, child.EveryExpr (Expr.CallShut place)) :
    Scans place toks ((∀ child ∈ b.children, child.EveryExpr (Expr.ParenShut place)) ∧
      ∀ binding ∈ b.bindings, ¬ binding.semicolon.first < place) := by
  cases h with
  | @intro _ _ _ bs value hbs hv =>
    simp only [BlockOf.children, List.mem_append, List.mem_map, List.mem_singleton, or_imp,
      forall_and, forall_exists_index, and_imp, forall_apply_eq_imp_iff₂, forall_eq] at hc ⊢
    have hbounds := bounds_scans hs hbs ho.left hc.1
    have hall := hbounds.append (bounds_unnamed hbs) (hs.scans hv ho.right hc.2)
    refine hall.of_iff ?_
    simp only [forall_and]
    tauto

theorem argument_scans {stop : Token} (hexpr : ∀ {power toks next e}, sub power toks next e →
    (Node.expr e).isFree = false) (h : Argument (Gaps.none levels) sub toks stop e)
    (ho : Ordered toks) (hc : (Node.expr e).EveryExpr (Expr.CallShut place)) :
    Scans place toks ((Node.expr e).EveryExpr (Expr.ParenShut place) ∧ e.Unbroken place) := by
  cases h with
  | value hv =>
    -- An expression is no block, so it has no bindings of its own.
    have hunbroken : e.Unbroken place := by
      cases e with
      | block b => cases hexpr hv
      | _ => trivial
    exact (hs.scans hv ho hc).of_iff (and_iff_left hunbroken).symm
  | block hb _ =>
    refine (blocks_scans hs hb ho (Node.everyExpr_expr.mp hc).2).of_iff (and_congr_left' ?_)
    rw [Node.everyExpr_expr]
    exact (and_iff_right trivial).symm
  | failed hpassed _ => exact hpassed.elim

/-- In front of the first operator. The names of functions and macros only stand in front of
parentheses that are not open at the place. -/
theorem primary_scans (hclosed : SubClosed sub) (hlocated : SubEvery (Located Gaps.none) sub)
    (h : Primary (Gaps.none levels) sub toks next e) (ho : Ordered toks)
    (hc : (Node.expr e).EveryExpr (Expr.CallShut place)) :
    Scans place toks ((Node.expr e).EveryExpr (Expr.ParenShut place)) := by
  rw [Node.everyExpr_expr] at hc ⊢
  have leaf {toks : List Token} {e : Expr} (ht : ∀ t ∈ toks, Plain t.kind)
      (he : e.ParenShut place ∧ ∀ child ∈ e.children, child.EveryExpr (Expr.ParenShut place)) :
      Scans place toks (e.ParenShut place ∧
        ∀ child ∈ e.children, child.EveryExpr (Expr.ParenShut place)) :=
    (Scans.plain ht).of_iff (iff_of_true trivial he)
  cases h with
  | number hk _ =>
    rcases hk with hk | hk
    · exact leaf (plain_of_kind hk rfl) (by simp [Expr.children, Expr.ParenShut])
    · exact leaf (plain_of_kind hk rfl) (by simp [Expr.children, Expr.ParenShut])
  | ident hn =>
    exact leaf (plain_all_of_isFlat (List.forall_mem_singleton.mpr (name_isFlat hn)))
      (by simp [Expr.children, Expr.ParenShut])
  | string hk | boolean hk | date hk _ | time hk _ =>
    exact leaf (plain_of_kind hk rfl) (by simp [Expr.children, Expr.ParenShut])
  | @unary t _ op _ _ hk he =>
    have hoperand := hs.scans he ho.tail (by simpa [Expr.children] using hc.2)
    refine (hoperand.lead ?_).of_iff (by simp [Expr.children, Expr.ParenShut])
    cases op <;> exact isLead_of_kind hk rfl
  | @unit l r _ hl hr =>
    have ho : Ordered (l :: [] ++ [r]) := ho
    have hinside : Scans place [] True := .plain (List.forall_mem_nil _)
    refine (hinside.paren ho hl .nil hr fun _ => trivial).of_iff ?_
    simp [Expr.children, Expr.ParenShut, BlockOf.children]
  | @paren l r _ toks b hl hb hr =>
    have hblock := blocks_scans hs hb (ho.sublist (by grind)) (by simpa [Expr.children] using hc.2)
    have hbelow := Node.everyExpr_block.mpr (blocks_every located_widens hlocated hb)
    have hbrackets := (blocks_closed hclosed hb).mono (List.nil_subset _)
    have hinside (h : ¬ OpenAt place l r) := parenShut_inside ho h hbelow
    exact (hblock.paren ho hl hbrackets hr hinside).of_iff (by simp [Expr.children, Expr.ParenShut])
  | @macroUnit d n l r closing _ hd hn hl hr hclosing =>
    have ho : Ordered (l :: [] ++ [r]) := ho.sublist (by simp)
    have hname : ∀ t ∈ [d, n], t.kind.isFlat := by simp [isFlat_of_kind hd rfl, name_isFlat hn]
    have hround := Scans.shut ho hc.1 (by simp [hl, openings]) .nil (by simp [hr, closings])
    have hall := (hround.preceded (plain_all_of_isFlat hname)).followed (plain_of_kind hclosing rfl)
    exact hall.of_iff (by simp [Expr.children, Expr.ParenShut])
  | @macroCall d n l r closing _ toks args hd hn hl ha hr hclosing =>
    have hown : d :: n :: l :: toks ++ [r, closing] =
        [d, n] ++ (l :: toks ++ [r]) ++ [closing] := by simp
    rw [hown] at ho ⊢
    have hname : ∀ t ∈ [d, n], t.kind.isFlat := by simp [isFlat_of_kind hd rfl, name_isFlat hn]
    have hbrackets := items_closed hclosed.closed ha
    have hround := Scans.shut ho.left.right hc.1 (by simp [hl, openings]) hbrackets
      (by simp [hr, closings])
    have hall := (hround.preceded (plain_all_of_isFlat hname)).followed (plain_of_kind hclosing rfl)
    have hbelow := items_every located_widens hlocated ha
    have hinside : ∀ a ∈ args, (Node.expr a).EveryExpr (Expr.ParenShut place) :=
      fun a harg => parenShut_inside ho.left.right hc.1 (hbelow a harg)
    exact hall.of_iff (by simpa [Expr.children, Expr.ParenShut] using hinside)
  | @callUnit t l r _ hk hl hr =>
    have ho : Ordered (l :: [] ++ [r]) := ho.tail
    have hround := Scans.shut ho hc.1 (by simp [hl, openings]) .nil (by simp [hr, closings])
    exact (hround.preceded (plain_of_kind hk rfl)).of_iff (by simp [Expr.children, Expr.ParenShut])
  | @call t l r _ toks args hk hl _ ha hr =>
    have hbrackets := items_closed (argument_closed hclosed) ha
    have hround := Scans.shut ho.tail hc.1 (by simp [hl, openings]) hbrackets
      (by simp [hr, closings])
    have hbelow := items_every located_widens
      (argument_every located_widens hlocated located_of_isFree) ha
    have hinside : ∀ a ∈ args, (Node.expr a).EveryExpr (Expr.ParenShut place) :=
      fun a harg => parenShut_inside ho.tail hc.1 (hbelow a harg)
    refine (hround.preceded (plain_of_kind hk rfl)).of_iff ?_
    simpa [Expr.children, Expr.ParenShut] using hinside
  | overClause hk he _ =>
    have hoperand := hs.scans he ho.tail (by simpa [Expr.children] using hc.2)
    exact (hoperand.lead (isLead_of_kind hk rfl)).of_iff (by simp [Expr.children, Expr.ParenShut])
  | overAlias hk he ha hn =>
    have hoperand := hs.scans he (ho.sublist (by grind)) (by simpa [Expr.children] using hc.2)
    have hclause := clause_isFlat (.intro ha hn : Clause .aliasWord _ next _)
    have hfront := hoperand.lead (isLead_of_kind hk rfl)
    refine (hfront.followed (plain_all_of_isFlat hclause)).of_iff ?_
    simp [Expr.children, Expr.ParenShut]
  | filter hk he =>
    have hoperand := hs.scans he ho.tail (by simpa [Expr.children] using hc.2)
    exact (hoperand.lead (isLead_of_kind hk rfl)).of_iff (by simp [Expr.children, Expr.ParenShut])
  | orderBy hk hword he _ _ =>
    have hoperand := hs.scans he ho.tail.tail (by simpa [Expr.children] using hc.2)
    refine ((hoperand.lead (isLead_of_kind hword rfl)).lead (isLead_of_kind hk rfl)).of_iff ?_
    simp [Expr.children, Expr.ParenShut]
  | orderByDirection hk hword he hd =>
    have hoperand := hs.scans he (ho.sublist (by grind)) (by simpa [Expr.children] using hc.2)
    have hfront := (hoperand.lead (isLead_of_kind hword rfl)).lead (isLead_of_kind hk rfl)
    exact (hfront.followed (plain_of_kind hd rfl)).of_iff (by simp [Expr.children, Expr.ParenShut])
  | label hclause | set hclause =>
    exact leaf (plain_all_of_isFlat (clause_isFlat hclause))
      (by simp [Expr.children, Expr.ParenShut])
  | list hlist =>
    exact (listing_scans hlist ho).of_iff (by simp [Expr.children, Expr.ParenShut])

/-- Behind a left operand. -/
theorem operation_scans {power : Precedence} {left : Expr} {front : List Token}
    (h : Operation sub power left toks next e) (ho : Ordered (front ++ toks))
    (hl : Scans place front ((Node.expr left).EveryExpr (Expr.ParenShut place)))
    (hc : (Node.expr e).EveryExpr (Expr.CallShut place)) :
    Scans place (front ++ toks) ((Node.expr e).EveryExpr (Expr.ParenShut place)) := by
  rw [Node.everyExpr_expr] at hc ⊢
  cases h with
  | @binary _ _ op _ _ hk _ hr =>
    have hright := hs.scans hr ho.right.tail (hc.2 _ (by simp [Expr.children]))
    refine (hl.join ?_ hright).of_iff (by simp [Expr.children, Expr.ParenShut])
    cases op <;> exact isLead_of_kind hk rfl
  | memberList hk _ hlist =>
    refine (hl.join (isLead_of_kind hk rfl) (listing_scans hlist ho.right.tail)).of_iff ?_
    simp [Expr.children, Expr.ParenShut]
  | memberSet hk _ hclause =>
    have hset := plain_all_of_isFlat (clause_isFlat hclause)
    refine (hl.join (isLead_of_kind hk rfl) (.plain hset)).of_iff ?_
    simp [Expr.children, Expr.ParenShut]

end Sub

theorem chain_scans {levels : Nat}
    (hs : ∀ k < levels, SubScans place (Expression Gaps.none k))
    {power : Precedence} {left e : Expr} {front toks : List Token} {next : Token}
    (h : Chain Gaps.none levels power left toks next e) (ho : Ordered (front ++ toks))
    (hl : (Node.expr left).EveryExpr (Expr.CallShut place) →
      Scans place front ((Node.expr left).EveryExpr (Expr.ParenShut place)))
    (hc : (Node.expr e).EveryExpr (Expr.CallShut place)) :
    Scans place (front ++ toks) ((Node.expr e).EveryExpr (Expr.ParenShut place)) := by
  induction levels generalizing left front toks with
  | zero =>
    cases h
    rw [List.append_nil]
    exact hl hc
  | succ levels ih =>
    rcases h with h | h
    · cases h
      rw [List.append_nil]
      exact hl hc
    · cases h with
      | intro hop hrest =>
        rw [← List.append_assoc] at ho ⊢
        refine ih (fun k hk => hs k (hk.trans levels.lt_succ_self)) hrest ho fun hc => ?_
        refine operation_scans (hs levels levels.lt_succ_self) hop ho.left (hl ?_) hc
        cases hop with
        | binary | memberList | memberSet =>
          exact (Node.everyExpr_expr.mp hc).2 _ (by simp [Expr.children])

theorem expression_scans (place : Position) (levels : Nat) :
    SubScans place (Expression Gaps.none levels) := by
  induction levels using Nat.strong_induction_on with
  | _ levels ih =>
    constructor
    intro power toks next e h ho hc
    cases levels with
    | zero => exact h.elim
    | succ levels =>
      cases h with
      | intro hp hrest =>
        refine chain_scans (fun k hk => ih k (hk.trans levels.lt_succ_self)) hrest ho
          (fun hc => ?_) hc
        exact primary_scans (ih levels levels.lt_succ_self) (expression_closed levels)
          (expression_located levels) hp ho.left hc

/-- The arguments of a call, up to the parenthesis in front of them. -/
theorem items_scans {levels : Nat} {toks : List Token} {stop : Token} {args : List Expr}
    (h : Items (Argument (Gaps.none levels) (Expression Gaps.none levels)) toks stop args)
    (ho : Ordered toks) (hc : ∀ a ∈ args, (Node.expr a).EveryExpr (Expr.CallShut place)) :
    Scans place toks (∀ a ∈ args, (Node.expr a).EveryExpr (Expr.ParenShut place) ∧
      a.Unbroken place) := by
  induction h with
  | last ha =>
    have harg := argument_scans (expression_scans place levels) expression_isFree ha ho
      (hc _ List.mem_cons_self)
    exact harg.of_iff List.forall_mem_singleton.symm
  | cons ha hcomma _ ih =>
    obtain ⟨hfirst, hrest⟩ := List.forall_mem_cons.mp hc
    have harg := argument_scans (expression_scans place levels) expression_isFree ha ho.left hfirst
    exact (harg.join (isLead_of_kind hcomma rfl) (ih ho.right.tail hrest)).of_iff
      List.forall_mem_cons.symm

/-- Calls and macros that are not around the character before a place are not open there. -/
theorem callShut_of_apart {gaps : Gaps} {toks : List Token} {e : Expr} (ho : Ordered toks)
    (hlocated : Located gaps toks e)
    (h : (CallSite.ofExpr? e).isSome → ¬ e.span.contains (place.left 1)) : e.CallShut place := by
  have hshut {l r : Token} {own : List Token} (ho : Ordered own) (hcovers : Covers own e.span)
      (hl : l ∈ own) (hr : r ∈ own) (he : ¬ e.span.contains (place.left 1)) :
      ¬ OpenAt place l r := by
    rintro ⟨hstart, hend⟩
    refine he (Span.contains_iff.mpr ⟨?_, ?_⟩)
    · exact (hcovers.all l hl).1.trans (Position.le_left_of_lt hstart)
    · have hlast := (ho.forward r hr).trans (hcovers.all r hr).2
      exact ((Position.left_le place 1).trans hend).trans hlast
  cases e with
  | call | macroCall =>
    obtain ⟨levels, own, next, hown, hprimary⟩ := hlocated rfl
    have ho' := ho.sublist hown.sublist
    have hfills := primary_fills (expression_fills levels) hprimary ho'
    refine hshut ho' hfills.covers ?_ ?_ (h rfl) <;> cases hprimary <;> simp
  | _ => trivial

end Grammar

open Grammar CallSite

/-- Among tokens without comments a call is found from between its parentheses if no other call and
no parenthesis below it is open at the place, and no binding of its own arguments ends in front of
it. Otherwise, if only no other call is open there, no call is found at all. -/
theorem scan_call {levels : Nat} {front toks back : List Token} {t l r : Token} {args : List Expr}
    (ho : Ordered (front ++ t :: l :: (toks ++ r :: back))) (ht : t.kind = .builtin)
    (hl : l.kind = .mark .lparen) (hopen : OpenAt place l r)
    (hargs : toks = [] ∧ args = [] ∨
      Items (Argument (Gaps.none levels) (Expression Gaps.none levels)) toks r args)
    (hc : ∀ a ∈ args, (Node.expr a).EveryExpr (Expr.CallShut place)) :
    scan? (front ++ t :: l :: (toks ++ r :: back)) place = some (.function t.literal l) ∧
        (∀ a ∈ args, (Node.expr a).EveryExpr (Expr.ParenShut place) ∧ a.Unbroken place) ∨
      scan? (front ++ t :: l :: (toks ++ r :: back)) place = none ∧
        ¬ ∀ a ∈ args, (Node.expr a).EveryExpr (Expr.ParenShut place) ∧ a.Unbroken place := by
  have hinside := ho.right.tail.tail
  have hscans : Scans place toks (∀ a ∈ args, (Node.expr a).EveryExpr (Expr.ParenShut place) ∧
      a.Unbroken place) := by
    rcases hargs with ⟨rfl, rfl⟩ | hargs
    · exact (Scans.plain (List.forall_mem_nil _)).of_iff (by simp)
    · exact items_scans hargs hinside.left hc
  have hbehind : ∀ u ∈ r :: back, ¬ u.first < place :=
    fun u hu => not_lt_of_ge (hopen.2.trans (hinside.right.head_le u hu))
  have hscan : scan? (front ++ t :: l :: (toks ++ r :: back)) place =
      siteBefore? place (toks.reverse ++ l :: t :: front.reverse) := by
    have hreverse : (front ++ t :: l :: (toks ++ r :: back)).reverse =
        (r :: back).reverse ++ (toks.reverse ++ l :: t :: front.reverse) := by simp
    rw [scan?, hreverse, openParen?_behind_all hbehind]
    rfl
  rw [hscan]
  by_cases hclear : ∀ a ∈ args, (Node.expr a).EveryExpr (Expr.ParenShut place) ∧ a.Unbroken place
  · refine .inl ⟨?_, hclear⟩
    rw [siteBefore?, hscans.passes hclear, openParen?_lparen hopen.1 hl]
    change ofParen? l (t :: front.reverse) = _
    rw [ofParen?, List.find?_cons_of_pos (by rw [ht]; rfl)]
    simp only [ht]
  · exact .inr ⟨hscans.stops hclear _ (unnamed_of_mark hl _), hclear⟩

/-- In a text without errors the search through the tokens finds the call that the tree has around
the character before a place between its parentheses, unless a parenthesis inside the call is open
at the place or a binding of an argument ends in front of the place, and then it finds none. -/
theorem scan_of_innermost_call {source : String}
    (hsize : byteLength source.toList < 0x100000000) (h : (parse source).errors = [])
    {t l r : Token} {args : List Expr}
    (hcall : .expr (.call t l args r) ∈ (Node.program (parse source).program).walk)
    (hopen : OpenAt place l r)
    (hinner : (Expr.call t l args r).InnermostAt (place.left 1)) :
    (Document.ofSource source).callAround place false =
        .ok (some (.function (Text.lowercase t.literal) l)) ∧
      ((∀ l' b r', .expr (.paren l' b r') ∈ (Node.expr (.call t l args r)).walk →
          ¬ OpenAt place l' r') →
        (∀ b, .block b ∈ args → ∀ binding ∈ b.bindings, place ≤ binding.semicolon.first) →
        scan? (Document.ofSource source).tokens place = some (.function t.literal l)) ∧
      ((∃ l' b r', .expr (.paren l' b r') ∈ (Node.expr (.call t l args r)).walk ∧
          OpenAt place l' r') ∨
        (∃ b, .block b ∈ args ∧ ∃ binding ∈ b.bindings, binding.semicolon.first < place) →
        scan? (Document.ofSource source).tokens place = none) := by
  obtain ⟨ht, hl, -, levels, toks, ⟨front, back, hall⟩, hargs⟩ := exists_tokens_of_call h hcall
  replace hall : (tokenize source).filter (!·.kind.isComment) =
      front ++ t :: l :: (toks ++ r :: back) := by rw [← hall]; simp
  have ho : Ordered (front ++ t :: l :: (toks ++ r :: back)) :=
    hall ▸ (Token.ofChars_ordered hsize).left.sublist List.filter_sublist
  have hcontains : (Expr.call t l args r).span.contains (place.left 1) :=
    call_contains_left ho.right hopen.1 hopen.2
  have hshut : ∀ a ∈ args, (Node.expr a).EveryExpr (Expr.CallShut place) := by
    intro a ha e he
    have hlocated : Located Gaps.none toks e := by
      rcases hargs with ⟨-, rfl⟩ | hargs
      · cases ha
      · exact items_every located_widens (argument_every located_widens
          (expression_located levels) located_of_isFree) hargs a ha e he
    refine callShut_of_apart ho.right.tail.tail.left hlocated (hinner e ?_)
    rw [Node.walk_eq, List.tail_cons]
    exact List.mem_flatMap.mpr ⟨.expr a, List.mem_map_of_mem ha, he⟩
  have hparens : (Node.expr (.call t l args r)).EveryExpr (Expr.ParenShut place) ↔
      ∀ a ∈ args, (Node.expr a).EveryExpr (Expr.ParenShut place) := by
    simp [Expr.children, Expr.ParenShut]
  -- What is found is no macro, so no comment hides it.
  have hraw {site : Option CallSite} (hsite : site ≠ some .macroCall)
      (hscan : scan? (front ++ t :: l :: (toks ++ r :: back)) place = site) :
      scan? (Document.ofSource source).tokens place = site := by
    rw [← hall] at hscan
    rw [Document.ofSource_tokens, ← scan_of_not_hidden, hscan]
    exact fun hhidden => hsite (hscan.symm.trans (scan_of_hidden hhidden).2)
  refine ⟨callAround_eq hsize hcall rfl hcontains hinner, ?_⟩
  rcases scan_call ho ht hl hopen hargs hshut with ⟨hscan, hclear⟩ | ⟨hscan, hclear⟩
  · refine ⟨fun _ _ => hraw (by simp) hscan, ?_⟩
    rintro (⟨l', b, r', hparen, hopen'⟩ | ⟨b, hb, binding, hbinding, hbefore⟩)
    · exact absurd hopen' (hparens.mpr (fun a ha => (hclear a ha).1) _ hparen)
    · exact absurd hbefore ((hclear _ hb).2 binding hbinding)
  · refine ⟨fun hnone hbindings => absurd ?_ hclear, fun _ => hraw (by simp) hscan⟩
    have hevery : (Node.expr (.call t l args r)).EveryExpr (Expr.ParenShut place) := by
      intro e he
      cases e with
      | paren l' b r' => exact hnone l' b r' he
      | _ => trivial
    refine fun a ha => ⟨hparens.mp hevery a ha, ?_⟩
    cases a with
    | block b => exact fun binding hb => not_lt_of_ge (hbindings b ha binding hb)
    | _ => trivial

theorem scan_of_innermost_call_behind_binding :
    let d := Document.ofSource "max([\"a\"], sum(var y = (1); y), /*(*/ 3)"
    byteLength d.source.toList < 0x100000000 ∧ (parse d.source).errors = [] ∧
      ∃ t l args r, .expr (.call t l args r) ∈ (Node.program (parse d.source).program).walk ∧
        OpenAt ⟨0, 39⟩ l r ∧ (Expr.call t l args r).InnermostAt ⟨0, 38⟩ ∧
        d.callAround ⟨0, 39⟩ false = .ok (some (.function "max" l)) ∧
        scan? d.tokens ⟨0, 39⟩ = some (.function "max" l) := by
  intro d
  let test (t l : Token) (args : List Expr) (r : Token) : Bool :=
    t.literal == "max" && decide (OpenAt ⟨0, 39⟩ l r) &&
      decide ((Expr.call t l args r).InnermostAt ⟨0, 38⟩) &&
      (Node.expr (.call t l args r)).walk.all
        (fun node => node.expr?.all fun e => decide (Expr.ParenShut ⟨0, 39⟩ e)) &&
      args.all fun a => !(Node.expr a).isFree
  obtain ⟨hsize, herrors, hany⟩ : byteLength d.source.toList < 0x100000000 ∧
      (parse d.source).errors = [] ∧ (Node.program (parse d.source).program).anyCall test := by
    decide +kernel
  obtain ⟨t, l, args, r, hcall, htest⟩ := Node.anyCall_iff.mp hany
  simp only [test, Bool.and_eq_true, beq_iff_eq, decide_eq_true_eq] at htest
  obtain ⟨⟨⟨⟨hname, hopen⟩, hinner⟩, hparens⟩, hblocks⟩ := htest
  obtain ⟨htree, hfound, -⟩ := scan_of_innermost_call hsize herrors hcall hopen hinner
  rw [hname] at htree hfound
  refine ⟨hsize, herrors, t, l, args, r, hcall, hopen, hinner, htree, hfound ?_ ?_⟩
  · exact fun l' b r' hparen => of_decide_eq_true (List.all_eq_true.mp hparens _ hparen)
  · intro b hb
    cases List.all_eq_true.mp hblocks _ hb

/-- The tree has a call without another one below it around the place, and the search finds none. -/
def CallSite.Missed (source : String) (place : Position) : Prop :=
  (parse source).errors = [] ∧ scan? (Document.ofSource source).tokens place = none ∧
    ∃ t l args r, .expr (.call t l args r) ∈ (Node.program (parse source).program).walk ∧
      OpenAt place l r ∧ (Expr.call t l args r).InnermostAt (place.left 1)

theorem CallSite.missed_iff {source : String} : Missed source place ↔ (parse source).errors = [] ∧
    scan? (Document.ofSource source).tokens place = none ∧
    (Node.program (parse source).program).anyCall (fun t l args r => decide (OpenAt place l r) &&
      decide ((Expr.call t l args r).InnermostAt (place.left 1))) := by
  simp only [Missed, Node.anyCall_iff, Bool.and_eq_true, decide_eq_true_eq]

instance {source : String} : Decidable (Missed source place) := decidable_of_iff' _ missed_iff

/-- A call is missed from inside a parenthesis within it and from behind a binding of an argument,
and as long as the call is not closed there is no help at these places. -/
theorem scan_misses_innermost_call :
    Missed "max((1), 2)" ⟨0, 6⟩ ∧ Missed "sum(var y = 1; y)" ⟨0, 16⟩ ∧
      (Document.ofSource "max((1").signatureHelp ⟨0, 6⟩ false = .ok none ∧
      (Document.ofSource "sum(var y = 1; y").signatureHelp ⟨0, 16⟩ false = .ok none := by
  decide +kernel

end PayFormula
