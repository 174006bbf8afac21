import PayFormula.Proofs.Calendar
import PayFormula.Proofs.Grammar.Complete
import PayFormula.Proofs.Tree.Pieces
import PayFormula.Proofs.Tree.Plain

/-!
# Printed phrases

Tokens that have the pieces of a phrase are such a phrase themselves, and stand
for the same plain tree, if so is what may be passed over. What follows them may
be something else than before if nothing goes on with it.
-/
namespace PayFormula

namespace Token

variable {t t' : Token}

theorem unplaced_of_piece (h : t'.piece = t.piece) : t'.unplaced = t.unplaced :=
  unplaced_congr (kind_of_piece h) (literal_of_piece h)

theorem IsName.of_piece (hn : t.IsName) (h : t'.piece = t.piece) : t'.IsName := by
  have hk : t'.kind = t.kind := kind_of_piece h
  have hl : t'.literal = t.literal := literal_of_piece h
  exact ⟨hk.trans hn.kind, hl ▸ hn.nonempty, hl ▸ hn.not_blank, hl ▸ hn.not_reserved⟩

variable {toks : List Token} {p : Piece} {ps : List Piece}

/-- The first token, in the place of a mark or a word, of which the kind says it all. -/
theorem exists_cons_bare (hp : toks.map piece = p :: ps) (ht : t.kind = p.1) :
    ∃ t' ts, toks = t' :: ts ∧ t'.kind = t.kind ∧ t'.bare = t.bare ∧ ts.map piece = ps := by
  obtain ⟨t', ts, rfl, ht', hts⟩ := List.map_eq_cons_iff.mp hp
  have hk : t'.kind = t.kind := (kind_of_piece ht').trans ht.symm
  exact ⟨t', ts, rfl, hk, bare_congr hk, hts⟩

theorem exists_singleton_bare (hp : toks.map piece = [p]) (ht : t.kind = p.1) :
    ∃ t', toks = [t'] ∧ t'.kind = t.kind ∧ t'.bare = t.bare := by
  obtain ⟨t', ts, rfl, hk, hbare, hts⟩ := exists_cons_bare hp ht
  obtain rfl := List.map_eq_nil_iff.mp hts
  exact ⟨t', rfl, hk, hbare⟩

end Token

theorem Ident.plain_of_piece {t : Token} {i : Ident} (h : t.piece = i.piece) :
    Ident.plain ⟨t⟩ = i.plain := congrArg Ident.mk (Token.unplaced_of_piece h)

theorem StringLiteral.plain_of_piece {t : Token} {s : StringLiteral} (h : t.piece = s.piece) :
    StringLiteral.plain ⟨t⟩ = s.plain := congrArg StringLiteral.mk (Token.unplaced_of_piece h)

namespace Grammar

/-- In front of the second token a phrase ends that ends in front of the first one. -/
def Follows (next next' : Token) : Prop :=
  next'.kind = next.kind ∨ next'.kind = .eof ∨ next'.kind = .mark .semicolon

variable {toks toks' : List Token} {next next' : Token}

namespace Follows

theorem ne_keyword {w : Keyword} (h : Follows next next') (hn : next.kind ≠ .keyword w) :
    next'.kind ≠ .keyword w := by
  rcases h with h | h | h <;> rw [h]
  · exact hn
  · simp
  · simp

theorem stop {power : Precedence} (h : Follows next next') (hn : ¬ power < .of next.kind) :
    ¬ power < .of next'.kind := by
  rcases h with h | h | h <;> rw [h]
  · exact hn
  · exact Nat.not_lt_zero power.rank
  · exact Nat.not_lt_zero power.rank

end Follows

theorem clause_reread {word : Keyword} {c : NameClause} (h : Clause word toks next c)
    (hp : toks'.map Token.piece = c.pieces word) :
    ∃ c', Clause word toks' next' c' ∧ c'.plain = c.plain := by
  cases h with
  | @intro t n _ hk hn =>
    obtain ⟨t', ts, rfl, htk, ht, hts⟩ := Token.exists_cons_bare hp hk
    obtain ⟨n', rfl, hn'⟩ := List.map_eq_singleton_iff.mp hts
    refine ⟨⟨t', ⟨n'⟩⟩, .intro (htk.trans hk) (hn.of_piece hn'), ?_⟩
    rw [NameClause.plain, NameClause.plain, ht, Ident.plain_of_piece hn']

theorem strings_are_strings {ss : List StringLiteral} (h : Strings toks ss) :
    ∀ s ∈ ss, s.token.kind = .string := by
  induction h with
  | nil => simp
  | last hs => simpa using hs
  | cons hs _ _ ih => simpa using ⟨hs, ih⟩

/-- A comma after the last string is not printed. -/
theorem strings_reread {ss : List StringLiteral} (h : ∀ s ∈ ss, s.token.kind = .string)
    (hp : toks'.map Token.piece = commaSeparated (ss.map ([·.piece]))) :
    ∃ ss', Strings toks' ss' ∧ ss'.map StringLiteral.plain = ss.map StringLiteral.plain := by
  induction ss generalizing toks' with
  | nil =>
    obtain rfl := List.map_eq_nil_iff.mp hp
    exact ⟨[], .nil, rfl⟩
  | cons s ss ih =>
    have hs := h s List.mem_cons_self
    cases ss with
    | nil =>
      obtain ⟨s', rfl, hs'⟩ := List.map_eq_singleton_iff.mp hp
      have hkind : s'.kind = .string := (Token.kind_of_piece hs').trans hs
      exact ⟨[⟨s'⟩], .last hkind, congrArg ([·]) (StringLiteral.plain_of_piece hs')⟩
    | cons s₂ ss =>
      rw [List.map_cons, List.map_cons, commaSeparated, List.intercalate_cons_cons] at hp
      obtain ⟨s', ts, rfl, hs', hts⟩ := List.map_eq_cons_iff.mp hp
      obtain ⟨comma, ts, rfl, hcomma, hts⟩ := List.map_eq_cons_iff.mp hts
      obtain ⟨ss', hstrings, hplain⟩ := ih (fun s hs => h s (List.mem_cons_of_mem _ hs)) hts
      have hkind : s'.kind = .string := (Token.kind_of_piece hs').trans hs
      refine ⟨⟨s'⟩ :: ss', .cons hkind (Token.kind_of_piece hcomma) hstrings, ?_⟩
      exact congrArg₂ List.cons (StringLiteral.plain_of_piece hs') hplain

theorem listing_reread {l : ListLiteral} (h : Listing toks next l)
    (hp : toks'.map Token.piece = l.pieces) :
    ∃ l', Listing toks' next' l' ∧ l'.plain = l.plain := by
  cases h with
  | @intro lb rb _ toks ss hl hstrings hr =>
    obtain ⟨front, ts, rfl, hfront, hr'⟩ := List.map_eq_append_iff.mp hp
    obtain ⟨lb', ts', rfl, hlk, hlb, hss⟩ := Token.exists_cons_bare hfront hl
    obtain ⟨rb', rfl, hrk, hrb⟩ := Token.exists_singleton_bare hr' hr
    obtain ⟨ss', hstrings', hplain⟩ := strings_reread (strings_are_strings hstrings) hss
    refine ⟨⟨lb', ss', rb'⟩, .intro (hlk.trans hl) hstrings' (hrk.trans hr), ?_⟩
    simp only [ListLiteral.plain, hplain, hlb, hrb]

variable {f : SyntaxError → List Token → Expr}

section Sub

/-- Expressions that any tokens with their pieces stand for. -/
structure SubReread (f : SyntaxError → List Token → Expr) (R : SubPhrase) : Prop where
  reread : ∀ {power toks next e}, R power toks next e → ∀ {toks' next'},
    toks'.map Token.piece = e.pieces → Follows next next' →
    ∃ e', R power toks' next' e' ∧ e'.plainWith f = e.plainWith f
  starts : SubStarts R

/-- Tokens with the pieces of what may be passed over may be passed over just so. -/
def GapReread (f : SyntaxError → List Token → Expr) (gap : Phrase SyntaxError) : Prop :=
  ∀ {toks stop e}, gap toks stop e → ∀ {toks' stop'},
    toks'.map Token.piece = toks.map Token.piece → stop'.kind = stop.kind →
    ∃ e', gap toks' stop' e' ∧ (toks' = [] → e'.token = stop') ∧ f e' toks' = f e toks

variable {R : SubPhrase} (hs : SubReread f R) {e : Expr}
include hs

theorem bound_reread {b : Binding} (h : Bound R toks b)
    (hp : toks'.map Token.piece = b.pieces) :
    ∃ b', Bound R toks' b' ∧ b'.plainWith f = b.plainWith f := by
  cases h with
  | @intro t n eq semicolon toks value ht hn heq hv hsemi =>
    obtain ⟨front, back, rfl, hfront, hback⟩ := List.map_eq_append_iff.mp hp
    obtain ⟨t', ts, rfl, htk, ht', hts⟩ := Token.exists_cons_bare hfront ht
    obtain ⟨n', ts, rfl, hn', hts⟩ := List.map_eq_cons_iff.mp hts
    obtain ⟨eq', ts, rfl, heqk, -, hvalue⟩ := Token.exists_cons_bare hts heq
    obtain ⟨semicolon', rfl, hsk, hsemi'⟩ := Token.exists_singleton_bare hback hsemi
    obtain ⟨value', hR, hplain⟩ := hs.reread hv hvalue (.inl hsk)
    refine ⟨⟨t', ⟨n'⟩, value', semicolon'⟩, ?_, ?_⟩
    · exact .intro (htk.trans ht) (hn.of_piece hn') (heqk.trans heq) hR (hsk.trans hsemi)
    · simp only [BindingOf.plainWith]
      rw [ht', Ident.plain_of_piece hn', hplain, hsemi']

theorem bounds_reread {bs : List Binding} (h : Bounds R toks bs)
    (hp : toks'.map Token.piece = bindingsPieces bs) :
    ∃ bs', Bounds R toks' bs' ∧ plainBindingsWith f bs' = plainBindingsWith f bs := by
  induction h generalizing toks' with
  | nil =>
    obtain rfl := List.map_eq_nil_iff.mp hp
    exact ⟨[], .nil, rfl⟩
  | @cons front back b bs hb _ ih =>
    rw [bindingsPieces_cons] at hp
    obtain ⟨front', back', rfl, hfront, hback⟩ := List.map_eq_append_iff.mp hp
    obtain ⟨b', hb', hplain⟩ := bound_reread hs hb hfront
    obtain ⟨bs', hbs', hplains⟩ := ih hback
    exact ⟨b' :: bs', .cons hb' hbs', congrArg₂ List.cons hplain hplains⟩

theorem blocks_reread {b : Block} (h : Blocks R toks next b)
    (hp : toks'.map Token.piece = b.pieces) (hnext : Follows next next') :
    ∃ b', Blocks R toks' next' b' ∧ b'.plainWith f = b.plainWith f := by
  cases h with
  | intro hbs hv =>
    obtain ⟨front, back, rfl, hfront, hback⟩ := List.map_eq_append_iff.mp hp
    obtain ⟨bs', hbs', hplains⟩ := bounds_reread hs hbs hfront
    obtain ⟨value', hv', hplain⟩ := hs.reread hv hback hnext
    exact ⟨⟨bs', value'⟩, .intro hbs' hv', congrArg₂ BlockOf.mk hplains hplain⟩

/-- Items in front of what separates or closes them. -/
def ItemReread (f : SyntaxError → List Token → Expr) (item : Phrase Expr) : Prop :=
  ∀ toks stop e, item toks stop e → ∀ toks' stop', toks'.map Token.piece = e.pieces →
    stop'.kind = stop.kind → ∃ e', item toks' stop' e' ∧ e'.plainWith f = e.plainWith f

omit hs in
/-- Where the pieces of the first item end and those of the others begin. -/
theorem items_cons_pieces {item : Phrase Expr} {stop : Token} {a : Expr} {as : List Expr}
    (has : Items item toks stop as)
    (hp : toks'.map Token.piece = commaSeparated (argsPieces (a :: as))) :
    ∃ front comma back, toks' = front ++ comma :: back ∧ front.map Token.piece = a.pieces ∧
      comma.kind = .mark .comma ∧ back.map Token.piece = commaSeparated (argsPieces as) := by
  have hpieces : commaSeparated (argsPieces (a :: as)) =
      a.pieces ++ Mark.comma.piece :: commaSeparated (argsPieces as) :=
    commaSeparated_cons (by cases has <;> simp [argsPieces])
  obtain ⟨front, back, rfl, hfront, hback⟩ := List.map_eq_append_iff.mp (hp.trans hpieces)
  obtain ⟨comma, back, rfl, hcomma, hback⟩ := List.map_eq_cons_iff.mp hback
  exact ⟨front, comma, back, rfl, hfront, Token.kind_of_piece hcomma, hback⟩

omit hs in
theorem items_reread {item : Phrase Expr} {stop stop' : Token} {args : List Expr}
    (hitem : ItemReread f item)
    (h : Items item toks stop args) (hstop : stop'.kind = stop.kind)
    (hp : toks'.map Token.piece = commaSeparated (argsPieces args)) :
    ∃ args', Items item toks' stop' args' ∧ plainArgsWith f args' = plainArgsWith f args := by
  induction h generalizing toks' with
  | @last toks stop a ha =>
    have hlast : toks'.map Token.piece = a.pieces := by
      simpa [argsPieces, commaSeparated] using hp
    obtain ⟨a', ha', hplain⟩ := hitem _ _ _ ha _ _ hlast hstop
    exact ⟨[a'], .last ha', congrArg ([·]) hplain⟩
  | @cons toks rest comma stop a as ha hcomma has ih =>
    obtain ⟨front, comma', back, rfl, hfront, hck, hback⟩ := items_cons_pieces has hp
    obtain ⟨a', ha', hplain⟩ := hitem _ _ _ ha _ _ hfront (hck.trans hcomma.symm)
    obtain ⟨as', has', hplains⟩ := ih hstop hback
    exact ⟨a' :: as', .cons ha' hck has', congrArg₂ List.cons hplain hplains⟩

theorem value_reread : ItemReread f (R .lowest) :=
  fun _ _ _ h _ _ hp hstop => hs.reread h hp (.inl hstop)

variable {gap : Phrase SyntaxError} (hgap : GapReread f gap)
include hgap

theorem argument_reread : ItemReread f (Argument gap R) := by
  intro toks stop e h toks' stop' hp hstop
  cases h with
  | value hv =>
    obtain ⟨e', he', hplain⟩ := hs.reread hv hp (.inl hstop)
    exact ⟨e', .value he', hplain⟩
  | @block _ _ b hb hne =>
    obtain ⟨b', hb', hplain⟩ := blocks_reread hs hb hp (.inl hstop)
    refine ⟨.block b', .block hb' ?_, congrArg Expr.block hplain⟩
    intro hnil
    have hbindings : plainBindingsWith f b.bindings = [] := by
      have := congrArg BlockOf.bindings hplain
      rw [BlockOf.plainWith, BlockOf.plainWith, hnil] at this
      exact this.symm
    cases hbs : b.bindings with
    | nil => exact hne hbs
    | cons first others =>
      rw [hbs] at hbindings
      cases hbindings
  | failed hpassed _ =>
    obtain ⟨e', hpassed', htoken, hf⟩ := hgap hpassed hp hstop
    refine ⟨.failed e' toks', .failed hpassed' htoken, ?_⟩
    rw [Expr.plainWith, Expr.plainWith, hf]

omit hgap in
/-- An argument that does not start with a closing parenthesis does not get one in front. -/
theorem argument_open {stop stop' : Token} (h : Argument gap R toks stop e)
    (hp : toks'.map Token.piece = e.pieces) (hstop : stop'.kind = stop.kind)
    (hopen : (toks.headD stop).kind ≠ .mark .rparen) :
    (toks'.headD stop').kind ≠ .mark .rparen := by
  cases h with
  | value hv =>
    obtain ⟨e', hv', -⟩ := hs.reread hv hp (.inl hstop)
    obtain ⟨t, ts, rfl, ht⟩ := hs.starts hv'
    intro hk
    rw [List.headD_cons] at hk
    rw [hk] at ht
    cases ht
  | block hb _ =>
    obtain ⟨b', hb', -⟩ := blocks_reread hs hb hp (.inl hstop)
    obtain ⟨t, ts, rfl, ht⟩ := blocks_starts hs.starts hb'
    intro hk
    rw [List.headD_cons] at hk
    rw [hk] at ht
    rcases ht with ht | ht <;> cases ht
  | failed _ _ =>
    cases toks with
    | nil =>
      obtain rfl := List.map_eq_nil_iff.mp hp
      exact hstop ▸ hopen
    | cons t toks =>
      obtain ⟨t', ts, rfl, ht, -⟩ := List.map_eq_cons_iff.mp hp
      have hk : t'.kind = t.kind := Token.kind_of_piece ht
      exact hk ▸ hopen

omit hgap in
theorem arguments_open {r r' : Token} {args : List Expr} (h : Items (Argument gap R) toks r args)
    (hp : toks'.map Token.piece = commaSeparated (argsPieces args)) (hr : r'.kind = r.kind)
    (hopen : (toks.headD r).kind ≠ .mark .rparen) :
    (toks'.headD r').kind ≠ .mark .rparen := by
  cases h with
  | last ha => exact argument_open hs ha (by simpa [argsPieces, commaSeparated] using hp) hr hopen
  | @cons toks rest comma _ a as ha hcomma has =>
    obtain ⟨front, comma', back, rfl, hfront, hcomma', -⟩ := items_cons_pieces has hp
    have hcomma' : comma'.kind = comma.kind := hcomma'.trans hcomma.symm
    have hhead (l m : List Token) (t u : Token) : (l ++ t :: m).headD u = l.headD t := by
      cases l <;> rfl
    rw [hhead] at hopen ⊢
    exact argument_open hs ha hfront hcomma' hopen

omit hs hgap in
/-- Arguments in front of the parenthesis that closes them. -/
theorem enclosed_reread {item : Phrase Expr} {r : Token} {args : List Expr} {ps : List Piece}
    (hitem : ItemReread f item)
    (h : Items item toks r args) (hr : r.kind = .mark .rparen)
    (hp : toks'.map Token.piece = commaSeparated (argsPieces args) ++ Mark.rparen.piece :: ps) :
    ∃ front r' back args', toks' = front ++ r' :: back ∧ back.map Token.piece = ps ∧
      front.map Token.piece = commaSeparated (argsPieces args) ∧ r'.kind = r.kind ∧
      r'.bare = r.bare ∧ Items item front r' args' ∧
      plainArgsWith f args' = plainArgsWith f args := by
  obtain ⟨front, back, rfl, hfront, hback⟩ := List.map_eq_append_iff.mp hp
  obtain ⟨r', back, rfl, hrk, hr', hps⟩ := Token.exists_cons_bare hback hr
  obtain ⟨args', hargs, hplain⟩ := items_reread hitem h hrk hfront
  exact ⟨front, r', back, args', rfl, hps, hfront, hrk, hr', hargs, hplain⟩

theorem primary_reread (h : Primary gap R toks next e)
    (hp : toks'.map Token.piece = e.pieces) (hnext : Follows next next') :
    ∃ e', Primary gap R toks' next' e' ∧ e'.plainWith f = e.plainWith f := by
  cases h with
  | @number t _ d hk hd =>
    obtain ⟨t', rfl, ht⟩ := List.map_eq_singleton_iff.mp hp
    have htk : t'.kind = t.kind := Token.kind_of_piece ht
    have htl : t'.literal = t.literal := Token.literal_of_piece ht
    refine ⟨.number t' d.toDouble, .number (htk ▸ hk) (htl ▸ hd), ?_⟩
    change Expr.plain _ = Expr.plain _
    rw [Expr.plain, Expr.plain, Token.unplaced_of_piece ht]
  | @ident t _ hn =>
    obtain ⟨t', rfl, ht⟩ := List.map_eq_singleton_iff.mp hp
    exact ⟨.ident ⟨t'⟩, .ident (hn.of_piece ht), congrArg Expr.ident (Ident.plain_of_piece ht)⟩
  | @string t _ hk =>
    obtain ⟨t', rfl, ht⟩ := List.map_eq_singleton_iff.mp hp
    have htk : t'.kind = t.kind := Token.kind_of_piece ht
    exact ⟨.string ⟨t'⟩, .string (htk.trans hk),
      congrArg Expr.string (StringLiteral.plain_of_piece ht)⟩
  | @boolean t _ value hk =>
    obtain ⟨t', rfl, htk, ht⟩ := Token.exists_singleton_bare hp hk
    refine ⟨.boolean t' value, .boolean (htk.trans hk), ?_⟩
    change Expr.plain _ = Expr.plain _
    rw [Expr.plain, Expr.plain, ht]
  | @date t _ d hk hd =>
    obtain ⟨t', rfl, ht⟩ := List.map_eq_singleton_iff.mp hp
    have htk : t'.kind = .date := Token.kind_of_piece ht
    have htl : t'.literal = d.render := Token.literal_of_piece ht
    rw [Date.render_of_ofChars hd] at htl
    refine ⟨.date t' d, .date htk (htl ▸ hd), ?_⟩
    change Expr.plain _ = Expr.plain _
    rw [Expr.plain, Expr.plain, Token.bare_congr (htk.trans hk.symm)]
  | @time t _ c hk hc =>
    obtain ⟨t', rfl, ht⟩ := List.map_eq_singleton_iff.mp hp
    have htk : t'.kind = .time := Token.kind_of_piece ht
    have htl : t'.literal = c.render := Token.literal_of_piece ht
    rw [Clock.render_of_ofChars hc] at htl
    refine ⟨.time t' c, .time htk (htl ▸ hc), ?_⟩
    change Expr.plain _ = Expr.plain _
    rw [Expr.plain, Expr.plain, Token.bare_congr (htk.trans hk.symm)]
  | @unary t _ op _ operand hk ho =>
    obtain ⟨t', ts, rfl, htk, ht, hoperand⟩ := Token.exists_cons_bare hp hk
    obtain ⟨operand', ho', hplain⟩ := hs.reread ho hoperand hnext
    refine ⟨.unary t' op operand', .unary (htk.trans hk) ho', ?_⟩
    rw [Expr.plainWith, Expr.plainWith, ht, hplain]
  | @unit l r _ hl hr =>
    obtain ⟨l', ts, rfl, hlk, hl', hts⟩ := Token.exists_cons_bare hp hl
    obtain ⟨r', rfl, hrk, hr'⟩ := Token.exists_singleton_bare hts hr
    refine ⟨_, .unit (hlk.trans hl) (hrk.trans hr), ?_⟩
    have hunit (l r : Token) : (Expr.paren l ⟨[], .blank l⟩ r).plainWith f =
        .paren l.bare ⟨[], .blank l.bare⟩ r.bare := rfl
    rw [hunit, hunit, hl', hr']
  | @paren l r _ toks b hl hb hr =>
    obtain ⟨front, back, rfl, hfront, hback⟩ := List.map_eq_append_iff.mp hp
    obtain ⟨l', ts, rfl, hlk, hl', hblock⟩ := Token.exists_cons_bare hfront hl
    obtain ⟨r', rfl, hrk, hr'⟩ := Token.exists_singleton_bare hback hr
    obtain ⟨b', hb', hplain⟩ := blocks_reread hs hb hblock (.inl hrk)
    refine ⟨.paren l' b' r', .paren (hlk.trans hl) hb' (hrk.trans hr), ?_⟩
    have hparen (l r : Token) (b : Block) :
        (Expr.paren l b r).plainWith f = .paren l.bare (b.plainWith f) r.bare := by
      rw [Expr.plainWith]
      rfl
    rw [hparen, hparen, hplain, hl', hr']
  | @macroUnit d n l r closing _ hd hn hl hr hclosing =>
    obtain ⟨d', ts, rfl, hdk, hd', hts⟩ := Token.exists_cons_bare hp hd
    obtain ⟨n', ts, rfl, hn', hts⟩ := List.map_eq_cons_iff.mp hts
    obtain ⟨l', ts, rfl, hlk, hl', hts⟩ := Token.exists_cons_bare hts hl
    obtain ⟨r', ts, rfl, hrk, hr', hts⟩ := Token.exists_cons_bare hts hr
    obtain ⟨closing', rfl, hck, hclosing'⟩ := Token.exists_singleton_bare hts hclosing
    refine ⟨_, .macroUnit (hdk.trans hd) (hn.of_piece hn') (hlk.trans hl) (hrk.trans hr)
      (hck.trans hclosing), ?_⟩
    rw [Expr.plainWith, Expr.plainWith, hd', Ident.plain_of_piece hn', hl', hr', hclosing']
  | @macroCall d n l r closing _ toks args hd hn hl hargs hr hclosing =>
    rw [Expr.pieces, List.cons_append, List.cons_append, List.cons_append] at hp
    obtain ⟨d', ts, rfl, hdk, hd', hts⟩ := Token.exists_cons_bare hp hd
    obtain ⟨n', ts, rfl, hn', hts⟩ := List.map_eq_cons_iff.mp hts
    obtain ⟨l', ts, rfl, hlk, hl', hts⟩ := Token.exists_cons_bare hts hl
    obtain ⟨front, r', back, args', rfl, hback, -, hrk, hr', hargs', hplain⟩ :=
      enclosed_reread (value_reread hs) hargs hr hts
    obtain ⟨closing', rfl, hck, hclosing'⟩ := Token.exists_singleton_bare hback hclosing
    refine ⟨_, .macroCall (hdk.trans hd) (hn.of_piece hn') (hlk.trans hl) hargs' (hrk.trans hr)
      (hck.trans hclosing), ?_⟩
    rw [Expr.plainWith, Expr.plainWith, hd', Ident.plain_of_piece hn', hl', hr', hclosing', hplain]
  | @callUnit t l r _ ht hl hr =>
    obtain ⟨t', ts, rfl, ht', hts⟩ := List.map_eq_cons_iff.mp hp
    obtain ⟨l', ts, rfl, hlk, hl', hts⟩ := Token.exists_cons_bare hts hl
    obtain ⟨r', rfl, hrk, hr'⟩ := Token.exists_singleton_bare hts hr
    have htk : t'.kind = t.kind := Token.kind_of_piece ht'
    refine ⟨_, .callUnit (htk.trans ht) (hlk.trans hl) (hrk.trans hr), ?_⟩
    rw [Expr.plainWith, Expr.plainWith, Token.unplaced_of_piece ht', hl', hr']
  | @call t l r _ toks args ht hl hopen hargs hr =>
    rw [Expr.pieces, List.cons_append, List.cons_append] at hp
    obtain ⟨t', ts, rfl, ht', hts⟩ := List.map_eq_cons_iff.mp hp
    obtain ⟨l', ts, rfl, hlk, hl', hts⟩ := Token.exists_cons_bare hts hl
    obtain ⟨front, r', back, args', rfl, hnil, hfront, hrk, hr', hargs', hplain⟩ :=
      enclosed_reread (argument_reread hs hgap) hargs hr hts
    obtain rfl := List.map_eq_nil_iff.mp hnil
    have htk : t'.kind = t.kind := Token.kind_of_piece ht'
    have hopen' := arguments_open hs hargs hfront hrk hopen
    refine ⟨_, .call (htk.trans ht) (hlk.trans hl) hopen' hargs' (hrk.trans hr), ?_⟩
    rw [Expr.plainWith, Expr.plainWith, Token.unplaced_of_piece ht', hl', hr', hplain]
  | @overClause t _ toks context ht hcontext halias =>
    rw [Expr.pieces, List.append_nil] at hp
    obtain ⟨t', ts, rfl, htk, ht', hts⟩ := Token.exists_cons_bare hp ht
    obtain ⟨context', hcontext', hplain⟩ := hs.reread hcontext hts hnext
    refine ⟨_, .overClause (htk.trans ht) hcontext' (hnext.ne_keyword halias), ?_⟩
    rw [Expr.plainWith, Expr.plainWith, ht', hplain]
  | @overAlias t a n _ toks context ht hcontext ha hn =>
    rw [Expr.pieces] at hp
    obtain ⟨front, back, rfl, hfront, hback⟩ := List.map_eq_append_iff.mp hp
    obtain ⟨t', ts, rfl, htk, ht', hts⟩ := Token.exists_cons_bare hfront ht
    obtain ⟨a', ts, rfl, hak, ha', hts'⟩ := Token.exists_cons_bare hback ha
    obtain ⟨n', rfl, hn'⟩ := List.map_eq_singleton_iff.mp hts'
    obtain ⟨context', hcontext', hplain⟩ := hs.reread hcontext hts (.inl hak)
    refine ⟨_, .overAlias (htk.trans ht) hcontext' (hak.trans ha) (hn.of_piece hn'), ?_⟩
    rw [Expr.plainWith, Expr.plainWith, ht', hplain, Option.map, Option.map,
      NameClause.plain, NameClause.plain, ha', Ident.plain_of_piece hn']
  | @filter t _ toks condition ht hcondition =>
    obtain ⟨t', ts, rfl, htk, ht', hts⟩ := Token.exists_cons_bare hp ht
    obtain ⟨condition', hcondition', hplain⟩ := hs.reread hcondition hts hnext
    refine ⟨_, .filter (htk.trans ht) hcondition', ?_⟩
    rw [Expr.plainWith, Expr.plainWith, ht', hplain]
  | @orderBy t word _ toks key ht hword hkey hasc hdesc =>
    rw [Expr.pieces, List.append_nil] at hp
    obtain ⟨t', ts, rfl, htk, ht', hts⟩ := Token.exists_cons_bare hp ht
    obtain ⟨word', ts, rfl, hwk, hword', hts⟩ := Token.exists_cons_bare hts hword
    obtain ⟨key', hkey', hplain⟩ := hs.reread hkey hts hnext
    refine ⟨_, .orderBy (htk.trans ht) (hwk.trans hword) hkey' (hnext.ne_keyword hasc)
      (hnext.ne_keyword hdesc), ?_⟩
    rw [Expr.plainWith, Expr.plainWith, ht', hword', hplain]
  | @orderByDirection t word d _ toks key direction ht hword hkey hd =>
    rw [Expr.pieces] at hp
    obtain ⟨front, back, rfl, hfront, hback⟩ := List.map_eq_append_iff.mp hp
    have hpiece : d.kind = direction.word.piece.1 := by
      rw [hd]
      cases direction <;> rfl
    obtain ⟨t', ts, rfl, htk, ht', hts⟩ := Token.exists_cons_bare hfront ht
    obtain ⟨word', ts, rfl, hwk, hword', hts⟩ := Token.exists_cons_bare hts hword
    obtain ⟨d', rfl, hdk, hd'⟩ := Token.exists_singleton_bare hback hpiece
    obtain ⟨key', hkey', hplain⟩ := hs.reread hkey hts (.inl hdk)
    refine ⟨_, .orderByDirection (htk.trans ht) (hwk.trans hword) hkey' (hdk.trans hd), ?_⟩
    rw [Expr.plainWith, Expr.plainWith, ht', hword', hplain, Option.map, Option.map,
      OrderDirection.plain, OrderDirection.plain, hd']
  | label hclause =>
    obtain ⟨clause', hclause', hplain⟩ := clause_reread hclause hp
    exact ⟨.label clause', .label hclause', congrArg Expr.label hplain⟩
  | set hclause =>
    obtain ⟨clause', hclause', hplain⟩ := clause_reread hclause hp
    exact ⟨.set clause', .set hclause', congrArg Expr.set hplain⟩
  | list hlist =>
    obtain ⟨list', hlist', hplain⟩ := listing_reread hlist hp
    exact ⟨.list list', .list hlist', congrArg Expr.list hplain⟩

omit hgap in
/-- An operation is one on any left operand with the same plain tree. -/
theorem operation_reread {power : Precedence} {left : Expr}
    (h : Operation R power left toks next e) :
    ∃ ps, e.pieces = left.pieces ++ ps ∧
      ∀ {left' toks' next'}, left'.plainWith f = left.plainWith f →
      toks'.map Token.piece = ps → Follows next next' →
      (∃ t t' ts ts', toks = t :: ts ∧ toks' = t' :: ts' ∧ t'.kind = t.kind) ∧
        ∃ e', Operation R power left' toks' next' e' ∧ e'.plainWith f = e.plainWith f := by
  cases h with
  | @binary t _ op toks right hk hpower hright =>
    refine ⟨_, rfl, fun hleft hp hnext => ?_⟩
    obtain ⟨t', ts, rfl, htk, ht, hts⟩ := Token.exists_cons_bare hp hk
    obtain ⟨right', hright', hplain⟩ := hs.reread hright hts hnext
    refine ⟨⟨_, _, _, _, rfl, rfl, htk⟩, _, .binary (htk.trans hk) hpower hright', ?_⟩
    rw [Expr.plainWith, Expr.plainWith, ht, hleft, hplain]
  | @memberList t _ toks l hk hpower hlist =>
    refine ⟨_, rfl, fun hleft hp hnext => ?_⟩
    obtain ⟨t', ts, rfl, htk, ht, hts⟩ := Token.exists_cons_bare hp hk
    obtain ⟨l', hlist', hplain⟩ := listing_reread hlist hts
    refine ⟨⟨_, _, _, _, rfl, rfl, htk⟩, _, .memberList (htk.trans hk) hpower hlist', ?_⟩
    rw [Expr.plainWith, Expr.plainWith, ht, hleft, Collection.plain, Collection.plain, hplain]
  | @memberSet t _ toks clause hk hpower hclause =>
    refine ⟨_, rfl, fun hleft hp hnext => ?_⟩
    obtain ⟨t', ts, rfl, htk, ht, hts⟩ := Token.exists_cons_bare hp hk
    obtain ⟨clause', hclause', hplain⟩ := clause_reread hclause hts
    refine ⟨⟨_, _, _, _, rfl, rfl, htk⟩, _, .memberSet (htk.trans hk) hpower hclause', ?_⟩
    rw [Expr.plainWith, Expr.plainWith, ht, hleft, Collection.plain, Collection.plain, hplain]

end Sub

section Levels

variable {gaps : Gaps}

/-- What goes on after a left operand goes on after any with the same plain tree. -/
def ChainReread (f : SyntaxError → List Token → Expr) (gaps : Gaps) (levels : Nat) : Prop :=
  ∀ power left toks next e, Chain gaps levels power left toks next e →
    ∃ ps, e.pieces = left.pieces ++ ps ∧
      ∀ {left' toks' next'}, left'.plainWith f = left.plainWith f →
      toks'.map Token.piece = ps → Follows next next' →
      Follows (toks.headD next) (toks'.headD next') ∧
        ∃ e', Chain gaps levels power left' toks' next' e' ∧ e'.plainWith f = e.plainWith f

theorem stop_reread {power : Precedence} {left e : Expr} (h : Stop power left toks next e) :
    ∃ ps, e.pieces = left.pieces ++ ps ∧
      ∀ {left' toks' next'}, left'.plainWith f = left.plainWith f →
      toks'.map Token.piece = ps → Follows next next' →
      Follows (toks.headD next) (toks'.headD next') ∧
        ∃ e', Stop power left' toks' next' e' ∧ e'.plainWith f = e.plainWith f := by
  cases h with
  | intro hpower =>
    refine ⟨[], (List.append_nil _).symm, fun hleft hp hnext => ?_⟩
    obtain rfl := List.map_eq_nil_iff.mp hp
    exact ⟨hnext, _, .intro (hnext.stop hpower), hleft⟩

theorem chain_succ_reread {levels : Nat} (hs : SubReread f (Expression gaps levels))
    (ih : ChainReread f gaps levels) : ChainReread f gaps (levels + 1) := by
  intro power left toks next e h
  rcases h with hstop | hgo
  · obtain ⟨ps, hpieces, hall⟩ := stop_reread hstop
    refine ⟨ps, hpieces, fun hleft hp hnext => ?_⟩
    obtain ⟨hfollows, e', hstop', hplain⟩ := hall hleft hp hnext
    exact ⟨hfollows, e', .inl hstop', hplain⟩
  · cases hgo with
    | @intro front back _ middle _ hop hchain =>
      obtain ⟨ps, hpieces, hop⟩ := operation_reread hs hop
      obtain ⟨qs, hpieces', hchain⟩ := ih _ _ _ _ _ hchain
      refine ⟨ps ++ qs, by rw [hpieces', hpieces, List.append_assoc], fun hleft hp hnext => ?_⟩
      obtain ⟨front', back', rfl, hfront, hback⟩ := List.map_eq_append_iff.mp hp
      -- The rest of the chain is read last, but says what stands behind the operation.
      have hfollows := (hchain rfl hback hnext).1
      obtain ⟨⟨t, t', ts, ts', rfl, rfl, hk⟩, middle', hop', hmiddle⟩ := hop hleft hfront hfollows
      obtain ⟨-, e', hchain', hplain⟩ := hchain hmiddle hback hnext
      exact ⟨.inl hk, e', .inr (.intro hop' hchain'), hplain⟩

variable (hgaps : ∀ levels, GapReread f (gaps levels))
include hgaps

theorem subReread_and_chain (levels : Nat) :
    SubReread f (Expression gaps levels) ∧ ChainReread f gaps levels := by
  induction levels with
  | zero => exact ⟨⟨fun h => h.elim, expression_starts⟩, fun _ _ _ _ _ h => stop_reread h⟩
  | succ levels ih =>
    refine ⟨⟨fun h toks' next' hp hnext => ?_, expression_starts⟩, chain_succ_reread ih.1 ih.2⟩
    cases h with
    | intro hprimary hchain =>
      obtain ⟨ps, hpieces, hchain⟩ := ih.2 _ _ _ _ _ hchain
      obtain ⟨front', back', rfl, hfront, hback⟩ := List.map_eq_append_iff.mp (hp.trans hpieces)
      have hfollows := (hchain rfl hback hnext).1
      obtain ⟨left', hprimary', hleft⟩ :=
        primary_reread ih.1 (hgaps levels) hprimary hfront hfollows
      obtain ⟨-, e', hchain', hplain⟩ := hchain hleft hback hnext
      exact ⟨e', .intro hprimary' hchain', hplain⟩

/-- Tokens with the pieces of an expression stand for the same plain tree. -/
theorem expression_reread (levels : Nat) : SubReread f (Expression gaps levels) :=
  (subReread_and_chain hgaps levels).1

end Levels

/-- In the strict grammar nothing is passed over. -/
theorem gapReread_none (levels : Nat) : GapReread f (Gaps.none levels) := fun h => h.elim

end Grammar

end PayFormula
