import Mathlib.Order.Filter.AtTopBot.Basic
import PayFormula.Proofs.Grammar.Formed
import PayFormula.Proofs.Grammar.Unplaced

/-!
# Well-formed trees are phrases

The tokens that are printed for a well-formed tree are a phrase for it, if enough
levels of nesting are left.

An operator goes on behind its left operand. So of an operand it is said what
becomes of it in front of any tokens that go on with it, and not only of the
tokens of the operand alone. This is about the binding powers on its left edge,
which a tree has in common with the tree of its printed tokens.
-/
namespace PayFormula

open Filter Grammar

theorem Precedence.not_unary_lt (power : Precedence) : ¬ unary < power := by
  cases power <;> decide

namespace Expr

theorem lowest_lt_leftPowers (e : Expr) : ∀ power ∈ e.leftPowers, .lowest < power := by
  intro power h
  fun_induction leftPowers e with
  | case1 _ left op _ ih =>
    rcases List.mem_cons.mp h with rfl | h
    · cases op <;> decide
    · exact ih h
  | case2 _ left _ ih =>
    rcases List.mem_cons.mp h with rfl | h
    · decide
    · exact ih h
  | case3 => cases h

theorem bindsAtLeast_of_stop {e : Expr} {power : Precedence} {kind : TokenKind}
    (h : ∀ p ∈ e.leftPowers, power < p) (hstop : ¬ power < .of kind) :
    e.BindsAtLeast (.of kind) := by
  cases e with
  | binary _ left op _ =>
    exact Nat.le_trans (Precedence.not_lt.mp hstop) (Nat.le_of_lt (h _ List.mem_cons_self))
  | _ => trivial

end Expr

/-- Tokens of these kinds go on with no expression. -/
def TokenKind.closes : TokenKind → Bool
  | .eof | .mark .comma | .mark .semicolon | .mark .rparen => true
  | _ => false

namespace TokenKind

variable {kind : TokenKind}

theorem not_lt_of_closes (h : kind.closes) (power : Precedence) : ¬ power < .of kind := by
  unfold closes at h
  split at h
  · exact Nat.not_lt_zero power.rank
  · exact Nat.not_lt_zero power.rank
  · exact Nat.not_lt_zero power.rank
  · exact Nat.not_lt_zero power.rank
  · cases h

theorem ne_keyword_of_closes (h : kind.closes) (w : Keyword) : kind ≠ .keyword w := by
  rintro rfl
  cases h

end TokenKind

/-- Some tokens with the given pieces can be read and are a phrase for the tree, with any number of
levels from some number on. -/
def Written {α : Type} (pieces : α → List Piece) (phrase : Nat → List Token → α → Prop) (a : α) :
    Prop :=
  ∃ toks, Legible toks ∧ toks.map Token.piece = pieces a ∧ ∀ᶠ levels in atTop, phrase levels toks a

def PrimaryPhrase (levels : Nat) (toks : List Token) (e : Expr) : Prop :=
  ∀ next, Primary (Gaps.none levels) (Expression Gaps.none levels) toks next e

/-- The tokens are read as an operand wherever an operator above all those on the left edge stands
in front of it, and operators go on behind it. -/
def OperandPhrase (edge : Expr) (levels : Nat) (toks : List Token) (e : Expr) : Prop :=
  ∀ power rest next f, (∀ p ∈ edge.leftPowers, power < p) →
    edge.BindsAtLeast (.of (rest.headD next).kind) → Chain Gaps.none levels power e rest next f →
    Expression Gaps.none (levels + edge.leftPowers.length + 1) power (toks ++ rest) next f

def WholePhrase (levels : Nat) (toks : List Token) (e : Expr) : Prop :=
  ∀ next, next.kind.closes → Expression Gaps.none levels .lowest toks next e

def BlockPhrase (levels : Nat) (toks : List Token) (b : Block) : Prop :=
  ∀ next, next.kind.closes → Blocks (Expression Gaps.none levels) toks next b

def ArgumentPhrase (levels : Nat) (toks : List Token) (e : Expr) : Prop :=
  ∀ next, next.kind.closes → Argument (Gaps.none levels) (Expression Gaps.none levels) toks next e

/-- What is read where an expression stands. -/
def Role.Phrase (edge : Expr) : Role → Nat → List Token → Expr → Prop
  | .operand => OperandPhrase edge
  | .whole => WholePhrase
  | .argument => ArgumentPhrase

theorem eventually_of_add {p : Nat → Prop} (k : Nat) (h : ∀ᶠ n in atTop, p (n + k)) :
    ∀ᶠ n in atTop, p n := by
  rw [← map_add_atTop_eq_nat k]
  exact eventually_map.mpr h

namespace Written

variable {edge e : Expr}

/-- What stands in front of no operator may be an operand. -/
theorem of_primary (hedge : edge.leftPowers = []) (h : Written Expr.pieces PrimaryPhrase e) :
    Written Expr.pieces (OperandPhrase edge) e := by
  obtain ⟨toks, hl, hpieces, h⟩ := h
  refine ⟨toks, hl, hpieces, ?_⟩
  filter_upwards [h] with levels h power rest next f _ _ hchain
  rw [hedge, Expression]
  exact .intro (h _) hchain

/-- An operand is read above any power below those on its left edge, in front of anything that is
no operator above that power. -/
theorem expression (h : Written Expr.pieces (OperandPhrase edge) e) :
    Written Expr.pieces (fun levels toks e => ∀ (power : Precedence) (next : Token),
      (∀ p ∈ edge.leftPowers, power < p) → ¬ power < .of next.kind →
      Expression Gaps.none levels power toks next e) e := by
  obtain ⟨toks, hl, hpieces, h⟩ := h
  refine ⟨toks, hl, hpieces, eventually_of_add (edge.leftPowers.length + 1) ?_⟩
  filter_upwards [h] with levels h power next hpowers hstop
  have hsettled := Expr.bindsAtLeast_of_stop hpowers hstop
  have hread := h power [] next e hpowers hsettled (Stop.chain (.intro hstop))
  rwa [List.append_nil] at hread

theorem whole (h : Written Expr.pieces (OperandPhrase edge) e) :
    Written Expr.pieces WholePhrase e := by
  obtain ⟨toks, hl, hpieces, h⟩ := h.expression
  refine ⟨toks, hl, hpieces, ?_⟩
  filter_upwards [h] with levels h next hnext
  exact h .lowest next edge.lowest_lt_leftPowers (TokenKind.not_lt_of_closes hnext _)

/-- A clause is a whole expression. -/
theorem of_clause (h : Written Expr.pieces (fun levels toks e => ∀ next : Token,
      next.kind.closes → Primary (Gaps.none levels) (Expression Gaps.none levels) toks next e) e) :
    Written Expr.pieces WholePhrase e := by
  obtain ⟨toks, hl, hpieces, h⟩ := h
  refine ⟨toks, hl, hpieces, eventually_of_add 1 ?_⟩
  filter_upwards [h] with levels h next hnext
  exact Primary.expression (h next hnext) (TokenKind.not_lt_of_closes hnext _)

theorem argument (h : Written Expr.pieces WholePhrase e) :
    Written Expr.pieces ArgumentPhrase e := by
  obtain ⟨toks, hl, hpieces, h⟩ := h
  refine ⟨toks, hl, hpieces, ?_⟩
  filter_upwards [h] with levels h next hnext
  exact .value (h next hnext)

/-- A single token is an operand. -/
theorem leaf (t : Token) (hread : t.piece.IsRead) (hpieces : [t.piece] = e.pieces)
    (h : ∀ gap sub next, Primary gap sub [t] next e) : Written Expr.pieces PrimaryPhrase e :=
  ⟨[t], by simpa using hread, hpieces, .of_forall fun _ next => h _ _ next⟩

end Written

/-! ### Names, strings and lists -/

theorem Ident.Formed.isRead {i : Ident} (h : i.Formed) : i.token.piece.IsRead := by
  have hread := isRead_name h.valid
  rw [← h.kind] at hread
  exact hread

theorem Ident.Formed.map_printed {i : Ident} (h : i.Formed) : i.map Token.printed = i.plain :=
  congrArg Ident.mk (Token.printed_of_other (by simp [h.kind]) (by simp [h.kind]))

theorem Ident.Formed.plain {i : Ident} (h : i.Formed) : i.plain.Formed := ⟨h.kind, h.valid⟩

theorem StringLiteral.Formed.isRead {s : StringLiteral} (h : s.Formed) : s.token.piece.IsRead := by
  have hread := isRead_string h.unquoted
  rw [← h.kind] at hread
  exact hread

theorem StringLiteral.Formed.map_printed {s : StringLiteral} (h : s.Formed) :
    s.map Token.printed = s.plain :=
  congrArg StringLiteral.mk (Token.printed_of_other (by simp [h.kind]) (by simp [h.kind]))

theorem StringLiteral.Formed.plain {s : StringLiteral} (h : s.Formed) : s.plain.Formed :=
  ⟨h.kind, h.unquoted⟩

theorem NameClause.Formed.map_printed {word : Keyword} {c : NameClause} (h : c.Formed word) :
    c.map Token.printed = ⟨unplacedKeyword word, c.name.plain⟩ := by
  rw [NameClause.map, Token.printed_of_keyword h.kind, h.name.map_printed]

theorem ListLiteral.Formed.map_printed {l : ListLiteral} (h : l.Formed) :
    l.map Token.printed =
      ⟨unplacedMark .lbracket, l.strings.map StringLiteral.plain, unplacedMark .rbracket⟩ := by
  have hstrings : l.strings.map (·.map Token.printed) = l.strings.map StringLiteral.plain :=
    List.map_congr_left fun s hs => (h.strings s hs).map_printed
  rw [ListLiteral.map, Token.printed_of_mark h.lbracket, Token.printed_of_mark h.rbracket, hstrings]

theorem strings_written {ss : List StringLiteral} (h : ∀ s ∈ ss, s.Formed) :
    ∃ toks, Legible toks ∧ toks.map Token.piece = commaSeparated (ss.map ([·.piece])) ∧
      Strings toks ss := by
  induction ss with
  | nil => exact ⟨[], .nil, rfl, .nil⟩
  | cons s ss ih =>
    obtain ⟨hs, hss⟩ := List.forall_mem_cons.mp h
    cases ss with
    | nil => exact ⟨[s.token], by simpa using hs.isRead, rfl, .last hs.kind⟩
    | cons s' ss =>
      obtain ⟨toks, hl, hpieces, hstrings⟩ := ih hss
      refine ⟨s.token :: unplacedMark .comma :: toks, by simp [hl, hs.isRead], ?_,
        .cons hs.kind rfl hstrings⟩
      rw [List.map_cons, List.map_cons, hpieces]
      exact (@commaSeparated_cons [s.piece] ((s' :: ss).map ([·.piece])) (by simp)).symm

theorem listing_written {l : ListLiteral} (h : l.Formed) :
    ∃ toks, Legible toks ∧ toks.map Token.piece = (l.map Token.printed).pieces ∧
      ∀ next, Listing toks next (l.map Token.printed) := by
  have hplain : ∀ s ∈ l.strings.map StringLiteral.plain, s.Formed :=
    List.forall_mem_map.mpr fun s hs => (h.strings s hs).plain
  obtain ⟨toks, hl, hpieces, hstrings⟩ := strings_written hplain
  rw [h.map_printed]
  refine ⟨unplacedMark .lbracket :: toks ++ [unplacedMark .rbracket], by simp [hl], ?_,
    fun next => .intro rfl hstrings rfl⟩
  simp [ListLiteral.pieces, hpieces]

theorem clause_written {word : Keyword} {c : NameClause} (h : c.Formed word) :
    ∃ toks, Legible toks ∧ toks.map Token.piece = (c.map Token.printed).pieces word ∧
      ∀ next, Clause word toks next (c.map Token.printed) := by
  rw [h.map_printed]
  refine ⟨[unplacedKeyword word, c.name.plain.token], ?_, rfl,
    fun next => .intro rfl h.name.plain.isName⟩
  simp [h.name.plain.isRead]

theorem collection_written {c : Collection} (h : c.Formed) :
    ∃ toks, Legible toks ∧ toks.map Token.piece = (c.map Token.printed).pieces ∧
      ∀ sub power left next, power < .membership →
        Operation sub power left (unplacedKeyword .inWord :: toks) next
          (.member (unplacedKeyword .inWord) left (c.map Token.printed)) := by
  cases c with
  | list l =>
    obtain ⟨toks, hl, hpieces, hlist⟩ := listing_written h
    exact ⟨toks, hl, hpieces, fun _ _ _ next hpower => .memberList rfl hpower (hlist next)⟩
  | set clause =>
    obtain ⟨toks, hl, hpieces, hclause⟩ := clause_written h
    exact ⟨toks, hl, hpieces, fun _ _ _ next hpower => .memberSet rfl hpower (hclause next)⟩

/-! ### Parts of expressions -/

/-- Expressions in front of what closes them, with commas between them. -/
theorem items_written {item : Nat → Grammar.Phrase Expr} {args : List Expr} (hne : args ≠ [])
    (h : ∀ arg ∈ args, Written Expr.pieces (fun levels toks arg => ∀ next : Token,
      next.kind.closes → item levels toks next arg) arg) :
    Written (fun args => commaSeparated (argsPieces args)) (fun levels toks args =>
      ∀ stop : Token, stop.kind.closes → Items (item levels) toks stop args) args := by
  induction args with
  | nil => exact absurd rfl hne
  | cons arg args ih =>
    obtain ⟨harg, hargs⟩ := List.forall_mem_cons.mp h
    obtain ⟨toks, hl, hpieces, harg⟩ := harg
    cases args with
    | nil =>
      refine ⟨toks, hl, by simp [argsPieces, commaSeparated, hpieces], ?_⟩
      filter_upwards [harg] with levels harg stop hstop
      exact .last (harg stop hstop)
    | cons second others =>
      obtain ⟨rest, hl', hpieces', hargs⟩ := ih (List.cons_ne_nil _ _) hargs
      refine ⟨toks ++ unplacedMark .comma :: rest, by simp [hl, hl'], ?_, ?_⟩
      · rw [List.map_append, List.map_cons, hpieces, hpieces']
        exact (commaSeparated_cons (by simp [argsPieces])).symm
      · filter_upwards [harg, hargs] with levels harg hargs stop hstop
        exact .cons (harg _ rfl) rfl (hargs stop hstop)

theorem bounds_written {bs : List Binding} (hframed : ∀ b ∈ bs, b.Framed)
    (h : ∀ b ∈ bs, Written Expr.pieces WholePhrase (b.value.map Token.printed)) :
    Written bindingsPieces (fun levels => Bounds (Expression Gaps.none levels))
      (bs.map (BindingOf.map Token.printed)) := by
  induction bs with
  | nil => exact ⟨[], .nil, rfl, .of_forall fun _ => .nil⟩
  | cons b bs ih =>
    obtain ⟨hb, hbs⟩ := List.forall_mem_cons.mp hframed
    obtain ⟨hvalue, hvalues⟩ := List.forall_mem_cons.mp h
    obtain ⟨toks, hl, hpieces, hvalue⟩ := hvalue
    obtain ⟨rest, hl', hpieces', hrest⟩ := ih hbs hvalues
    have hname := hb.name.plain
    rw [List.map_cons, BindingOf.map, Token.printed_of_keyword hb.kind,
      Token.printed_of_mark hb.semicolon, hb.name.map_printed]
    refine ⟨unplacedKeyword .varWord :: b.name.plain.token :: unplacedMark .eq :: toks ++
      [unplacedMark .semicolon] ++ rest, by simp [hl, hl', hname.isRead], ?_, ?_⟩
    · rw [bindingsPieces_cons, BindingOf.pieces, ← hpieces, ← hpieces']
      simp [Ident.piece]
    · filter_upwards [hvalue, hrest] with levels hvalue hrest
      exact .cons (.intro rfl hname.isName rfl (hvalue _ rfl) rfl) hrest

theorem blocks_written {bs : List Binding} {value : Expr} (hframed : ∀ b ∈ bs, b.Framed)
    (hbs : ∀ b ∈ bs, Written Expr.pieces WholePhrase (b.value.map Token.printed))
    (hvalue : Written Expr.pieces WholePhrase (value.map Token.printed)) :
    Written BlockOf.pieces BlockPhrase (BlockOf.map Token.printed ⟨bs, value⟩) := by
  obtain ⟨front, hl, hpieces, hbs⟩ := bounds_written hframed hbs
  obtain ⟨back, hl', hpieces', hvalue⟩ := hvalue
  refine ⟨front ++ back, by simp [hl, hl'], ?_, ?_⟩
  · rw [BlockOf.pieces, List.map_append, hpieces, hpieces']
    rfl
  · filter_upwards [hbs, hvalue] with levels hbs hvalue next hnext
    exact .intro hbs (hvalue next hnext)

namespace Expr

variable {edge e left right : Expr}

theorem number_written {t : Token} {d : Decimal} (hd : Decimal.ofChars? t.literal.toList = some d)
    (hk : t.kind = if '.' ∈ t.literal.toList then .float else .int) :
    Written Expr.pieces PrimaryPhrase (.number t.printed d.toDouble) := by
  have hnumber : t.kind = .int ∨ t.kind = .float := by
    rw [hk]
    split
    · exact .inr rfl
    · exact .inl rfl
  have hread := isRead_numeral hd
  rw [← hk] at hread
  rw [Token.printed_of_other (by rcases hnumber with h | h <;> simp [h])
    (by rcases hnumber with h | h <;> simp [h])]
  exact .leaf t.unplaced hread rfl fun _ _ _ => .number hnumber hd

theorem date_written {t : Token} {d : Date} (hk : t.kind = .date) (hl : t.literal = d.render)
    (he : d.exists?) (hb : d.inBounds) :
    Written Expr.pieces PrimaryPhrase (.date t.printed d) := by
  have hpiece : t.piece = (.date, d.render) := Prod.ext hk hl
  have hread := isRead_date he hb
  rw [Token.printed_of_other (by simp [hk]) (by simp [hk])]
  refine .leaf t.unplaced (hpiece ▸ hread) (congrArg (fun p => [p]) hpiece) fun _ _ _ => .date hk ?_
  exact (congrArg (Date.ofChars ·.toList) hl).trans (Date.ofChars_render he hb)

theorem time_written {t : Token} {c : Clock} (hk : t.kind = .time) (hl : t.literal = c.render)
    (h : c.inRange) : Written Expr.pieces PrimaryPhrase (.time t.printed c) := by
  have hpiece : t.piece = (.time, c.render) := Prod.ext hk hl
  have hread := isRead_time h
  rw [Token.printed_of_other (by simp [hk]) (by simp [hk])]
  refine .leaf t.unplaced (hpiece ▸ hread) (congrArg (fun p => [p]) hpiece) fun _ _ _ => .time hk ?_
  exact (congrArg (Clock.ofChars ·.toList) hl).trans (Clock.ofChars_render h)

theorem unit_written {b : Token} (hb : b.kind = .mark .lparen) :
    Written Expr.pieces PrimaryPhrase (.paren (unplacedMark .lparen)
      (BlockOf.map Token.printed ⟨[], .blank b⟩) (unplacedMark .rparen)) := by
  have hblank : BlockOf.map Token.printed ⟨[], .blank b⟩ = ⟨[], .blank (unplacedMark .lparen)⟩ := by
    rw [BlockOf.map, Expr.map, Token.printed_of_mark hb]
    rfl
  rw [hblank]
  exact ⟨[unplacedMark .lparen, unplacedMark .rparen], by simp, rfl,
    .of_forall fun _ _ => .unit rfl rfl⟩

theorem paren_written {b : Block} (hb : Written BlockOf.pieces BlockPhrase b) :
    Written Expr.pieces PrimaryPhrase
      (.paren (unplacedMark .lparen) b (unplacedMark .rparen)) := by
  obtain ⟨toks, hl, hpieces, hb⟩ := hb
  refine ⟨unplacedMark .lparen :: toks ++ [unplacedMark .rparen], by simp [hl], ?_, ?_⟩
  · cases b
    simp [Expr.pieces, hpieces, BlockOf.pieces]
  · filter_upwards [hb] with levels hb next
    exact .paren rfl (hb _ rfl) rfl

theorem macroCall_written {name : Ident} {args : List Expr} (hname : name.Formed)
    (hargs : ∀ arg ∈ args, Written Expr.pieces WholePhrase arg) :
    Written Expr.pieces PrimaryPhrase (.macroCall (unplacedMark .dollar) name
      (unplacedMark .lparen) args (unplacedMark .rparen) (unplacedMark .dollar)) := by
  rcases eq_or_ne args [] with rfl | hne
  · refine ⟨[unplacedMark .dollar, name.token, unplacedMark .lparen, unplacedMark .rparen,
      unplacedMark .dollar], by simp [hname.isRead], rfl, .of_forall fun _ _ => ?_⟩
    exact .macroUnit rfl hname.isName rfl rfl rfl
  · obtain ⟨toks, hl, hpieces, hargs⟩ := items_written hne hargs
    refine ⟨unplacedMark .dollar :: name.token :: unplacedMark .lparen :: toks ++
      [unplacedMark .rparen, unplacedMark .dollar], by simp [hl, hname.isRead], ?_, ?_⟩
    · simp [Expr.pieces, Ident.piece, hpieces]
    · filter_upwards [hargs] with levels hargs next
      exact .macroCall rfl hname.isName rfl (hargs _ rfl) rfl rfl

theorem call_written {t : Token} {args : List Expr} (hk : t.kind = .builtin)
    (hbuiltin : Catalog.isBuiltin t.literal)
    (hargs : ∀ arg ∈ args, Written Expr.pieces ArgumentPhrase arg) :
    Written Expr.pieces PrimaryPhrase
      (.call t (unplacedMark .lparen) args (unplacedMark .rparen)) := by
  have hread : t.piece.IsRead := by
    have hread := isRead_builtin hbuiltin
    rw [← hk] at hread
    exact hread
  rcases eq_or_ne args [] with rfl | hne
  · exact ⟨[t, unplacedMark .lparen, unplacedMark .rparen], by simp [hread], rfl,
      .of_forall fun _ _ => .callUnit hk rfl rfl⟩
  · obtain ⟨toks, hl, hpieces, hargs⟩ := items_written hne hargs
    refine ⟨t :: unplacedMark .lparen :: toks ++ [unplacedMark .rparen], ?_, ?_, ?_⟩
    · simp [hl, hread]
    · simp [Expr.pieces, hpieces]
    · filter_upwards [hargs] with levels hargs next
      have hargs := hargs (unplacedMark .rparen) rfl
      exact .call hk rfl (arguments_strict expression_starts hargs) hargs rfl

theorem unary_written {op : UnaryOp} (hedge : edge.leftPowers = [])
    (h : Written Expr.pieces (OperandPhrase edge) e) :
    Written Expr.pieces PrimaryPhrase (.unary (unplacedMark op.mark) op e) := by
  obtain ⟨toks, hl, hpieces, h⟩ := h.expression
  refine ⟨unplacedMark op.mark :: toks, by simp [hl], by simp [Expr.pieces, hpieces], ?_⟩
  filter_upwards [h] with levels h next
  exact .unary rfl (h .unary next (by simp [hedge]) (Precedence.not_unary_lt _))

/-- An operator goes on behind its left operand, and what goes on behind its right operand goes on
behind it. -/
theorem binary_written {t : Token} {op : BinaryOp} {edge' : Expr}
    (hl : Written Expr.pieces (OperandPhrase edge) left)
    (hr : Written Expr.pieces (OperandPhrase edge') right)
    (hg : Grouped (.binary t edge op edge')) :
    Written Expr.pieces (OperandPhrase (.binary t edge op edge'))
      (.binary (unplacedMark op.mark) left op right) := by
  obtain ⟨front, hfront, hpieces, hl⟩ := hl
  obtain ⟨back, hback, hpieces', hr⟩ := hr.expression
  refine ⟨front ++ unplacedMark op.mark :: back, by simp [hfront, hback],
    by simp [Expr.pieces, hpieces, hpieces'], ?_⟩
  filter_upwards [(tendsto_add_atTop_nat 1).eventually hl, hr] with levels hl hr power rest next f
    hpowers hsettled hchain
  obtain ⟨hpower, hpowers⟩ := List.forall_mem_cons.mp hpowers
  have hright := hr _ (rest.headD next) hg.2 (Precedence.not_lt.mpr hsettled)
  have hgo :
      Chain Gaps.none (levels + 1) power left (unplacedMark op.mark :: back ++ rest) next f :=
    .inr (.intro (.binary rfl hpower hright) hchain)
  have hread := hl power (unplacedMark op.mark :: back ++ rest) next f hpowers hg.1 hgo
  rw [List.append_assoc]
  rwa [Nat.add_right_comm levels 1] at hread

theorem member_written {t : Token} {collection : Collection}
    (hl : Written Expr.pieces (OperandPhrase edge) left) (hc : collection.Formed)
    (hg : Grouped (.member t edge collection)) :
    Written Expr.pieces (OperandPhrase (.member t edge collection))
      (.member (unplacedKeyword .inWord) left (collection.map Token.printed)) := by
  obtain ⟨front, hfront, hpieces, hl⟩ := hl
  obtain ⟨back, hback, hpieces', hc⟩ := collection_written hc
  refine ⟨front ++ unplacedKeyword .inWord :: back, by simp [hfront, hback],
    by simp [Expr.pieces, hpieces, hpieces'], ?_⟩
  filter_upwards [(tendsto_add_atTop_nat 1).eventually hl] with levels hl power rest next f hpowers
    _ hchain
  obtain ⟨hpower, hpowers⟩ := List.forall_mem_cons.mp hpowers
  have hgo :
      Chain Gaps.none (levels + 1) power left (unplacedKeyword .inWord :: back ++ rest) next f :=
    .inr (.intro (hc _ _ _ _ hpower) hchain)
  have hread := hl power (unplacedKeyword .inWord :: back ++ rest) next f hpowers hg hgo
  rw [List.append_assoc]
  rwa [Nat.add_right_comm levels 1] at hread

theorem over_written (h : Written Expr.pieces (OperandPhrase edge) e) :
    Written Expr.pieces WholePhrase (.overClause (unplacedKeyword .overWord) e none) := by
  obtain ⟨toks, hl, hpieces, h⟩ := h.whole
  refine .of_clause ⟨unplacedKeyword .overWord :: toks, by simp [hl],
    by simp [Expr.pieces, hpieces], ?_⟩
  filter_upwards [h] with levels h next hnext
  exact .overClause rfl (h next hnext) (TokenKind.ne_keyword_of_closes hnext _)

theorem overAlias_written {clause : NameClause} (h : Written Expr.pieces (OperandPhrase edge) e)
    (hc : clause.Formed .aliasWord) :
    Written Expr.pieces WholePhrase
      (.overClause (unplacedKeyword .overWord) e (some (clause.map Token.printed))) := by
  obtain ⟨toks, hl, hpieces, h⟩ := h.expression
  have hname := hc.name.plain
  rw [hc.map_printed]
  refine .of_clause ⟨unplacedKeyword .overWord :: toks ++
    [unplacedKeyword .aliasWord, clause.name.plain.token], by simp [hl, hname.isRead], ?_, ?_⟩
  · simp [Expr.pieces, NameClause.pieces, Ident.piece, hpieces]
  · filter_upwards [h] with levels h next _
    have hcontext := h .lowest (unplacedKeyword .aliasWord) edge.lowest_lt_leftPowers (by decide)
    exact .overAlias rfl hcontext rfl hname.isName

theorem filter_written (h : Written Expr.pieces (OperandPhrase edge) e) :
    Written Expr.pieces WholePhrase (.filter (unplacedKeyword .whereWord) e) := by
  obtain ⟨toks, hl, hpieces, h⟩ := h.whole
  refine .of_clause ⟨unplacedKeyword .whereWord :: toks, by simp [hl],
    by simp [Expr.pieces, hpieces], ?_⟩
  filter_upwards [h] with levels h next hnext
  exact .filter rfl (h next hnext)

theorem orderBy_written (h : Written Expr.pieces (OperandPhrase edge) e) :
    Written Expr.pieces WholePhrase
      (.orderBy (unplacedKeyword .orderWord) (unplacedKeyword .byWord) e none) := by
  obtain ⟨toks, hl, hpieces, h⟩ := h.whole
  refine .of_clause ⟨unplacedKeyword .orderWord :: unplacedKeyword .byWord :: toks, by simp [hl],
    by simp [Expr.pieces, hpieces], ?_⟩
  filter_upwards [h] with levels h next hnext
  exact .orderBy rfl rfl (h next hnext) (TokenKind.ne_keyword_of_closes hnext _)
    (TokenKind.ne_keyword_of_closes hnext _)

theorem orderByDirection_written (h : Written Expr.pieces (OperandPhrase edge) e)
    (direction : Direction) :
    Written Expr.pieces WholePhrase
      (.orderBy (unplacedKeyword .orderWord) (unplacedKeyword .byWord) e
        (some ⟨unplacedKeyword direction.word, direction⟩)) := by
  obtain ⟨toks, hl, hpieces, h⟩ := h.expression
  refine .of_clause ⟨unplacedKeyword .orderWord :: unplacedKeyword .byWord :: toks ++
    [unplacedKeyword direction.word], by simp [hl], by simp [Expr.pieces, hpieces], ?_⟩
  have hword : (unplacedKeyword direction.word).kind =
      .keyword (if direction = .ascending then .ascWord else .descWord) := by
    cases direction <;> rfl
  have hstop : ¬ .lowest < Precedence.of (unplacedKeyword direction.word).kind := by
    cases direction <;> decide
  filter_upwards [h] with levels h next _
  have hkey := h .lowest (unplacedKeyword direction.word) edge.lowest_lt_leftPowers hstop
  exact .orderByDirection rfl rfl hkey hword

theorem block_written {b : Block} (hne : b.bindings ≠ [])
    (h : Written BlockOf.pieces BlockPhrase b) : Written Expr.pieces ArgumentPhrase (.block b) := by
  obtain ⟨toks, hl, hpieces, h⟩ := h
  refine ⟨toks, hl, ?_, ?_⟩
  · cases b
    rw [Expr.pieces, hpieces, BlockOf.pieces]
  · filter_upwards [h] with levels h next hnext
    exact .block (h next hnext) hne

namespace Formed

/-- The tokens that are printed for a well-formed tree are a phrase, if enough levels are left. -/
theorem written {role : Role} {e : Expr} (h : Formed role e) :
    Written Expr.pieces (role.Phrase e) (e.map Token.printed) := by
  induction h with
  | number hd hk =>
    rw [Expr.map]
    exact .of_primary rfl (number_written hd hk)
  | @string s h =>
    rw [Expr.map, h.map_printed]
    exact .of_primary rfl (.leaf s.plain.token h.plain.isRead rfl fun _ _ _ => .string h.kind)
  | @boolean t value hk =>
    rw [Expr.map, Token.printed_of_keyword hk]
    exact .of_primary rfl (.leaf (unplacedKeyword _) (Keyword.isRead _) rfl
      fun _ _ _ => .boolean rfl)
  | date hk hl he hb =>
    rw [Expr.map]
    exact .of_primary rfl (date_written hk hl he hb)
  | time hk hl h =>
    rw [Expr.map]
    exact .of_primary rfl (time_written hk hl h)
  | @ident i h =>
    rw [Expr.map, h.map_printed]
    exact .of_primary rfl
      (.leaf i.plain.token h.plain.isRead rfl fun _ _ _ => .ident h.plain.isName)
  | unit hl hb hr =>
    rw [Expr.map_paren, Token.printed_of_mark hl, Token.printed_of_mark hr]
    exact .of_primary rfl (unit_written hb)
  | paren hl hframed _ _ hr ihb ihv =>
    rw [Expr.map_paren, Token.printed_of_mark hl, Token.printed_of_mark hr]
    exact .of_primary rfl (paren_written (blocks_written hframed ihb ihv))
  | @list l h =>
    obtain ⟨toks, hl, hpieces, hlist⟩ := listing_written h
    rw [Expr.map]
    exact .of_primary rfl ⟨toks, hl, hpieces, .of_forall fun _ next => .list (hlist next)⟩
  | macroCall hd hname hl _ hr hc ih =>
    rw [Expr.map, mapArgs_eq_map, hname.map_printed, Token.printed_of_mark hd,
      Token.printed_of_mark hl, Token.printed_of_mark hr, Token.printed_of_mark hc]
    exact .of_primary rfl (macroCall_written hname.plain (List.forall_mem_map.mpr ih))
  | call hk hbuiltin hl _ hr ih =>
    rw [Expr.map, mapArgs_eq_map, Token.printed_of_mark hl, Token.printed_of_mark hr,
      Token.printed_of_other (by simp [hk]) (by simp [hk])]
    exact .of_primary rfl (call_written hk hbuiltin (List.forall_mem_map.mpr ih))
  | unary hk _ hg ih =>
    rw [Expr.map, Token.printed_of_mark hk]
    exact .of_primary rfl (unary_written hg ih)
  | binary hk _ _ hg ihl ihr =>
    rw [Expr.map, Token.printed_of_mark hk]
    exact binary_written ihl ihr hg
  | member hk _ hc hg ih =>
    rw [Expr.map, Token.printed_of_keyword hk]
    exact member_written ih hc hg
  | whole _ ih => exact ih.whole
  | @overClause t context aliased hk _ ha ih =>
    rw [Expr.map, Token.printed_of_keyword hk]
    cases aliased with
    | none => exact over_written ih
    | some clause => exact overAlias_written ih (ha clause rfl)
  | filter hk _ ih =>
    rw [Expr.map, Token.printed_of_keyword hk]
    exact filter_written ih
  | @orderBy t byToken key direction hk hby _ hd ih =>
    rw [Expr.map, Token.printed_of_keyword hk, Token.printed_of_keyword hby]
    cases direction with
    | none => exact orderBy_written ih
    | some d =>
      rw [Option.map, OrderDirection.map, Token.printed_of_keyword (hd d rfl)]
      exact orderByDirection_written ih d.direction
  | @label clause h =>
    obtain ⟨toks, hl, hpieces, hclause⟩ := clause_written h
    rw [Expr.map]
    exact .of_clause ⟨toks, hl, hpieces, .of_forall fun _ next _ => .label (hclause next)⟩
  | @set clause h =>
    obtain ⟨toks, hl, hpieces, hclause⟩ := clause_written h
    rw [Expr.map]
    exact .of_clause ⟨toks, hl, hpieces, .of_forall fun _ next _ => .set (hclause next)⟩
  | argument _ ih => exact ih.argument
  | block hne hframed _ _ ihb ihv =>
    rw [Expr.map_block]
    exact block_written (by simpa [BlockOf.map] using hne) (blocks_written hframed ihb ihv)

end Formed

end Expr

end PayFormula
