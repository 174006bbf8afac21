import PayFormula.Proofs.Grammar.RoundTrip

/-!
# Nothing is dropped and nothing made up

A text that is read without errors and the text that is printed for its tree say
the same, token by token. What may come and go is what the tree does not keep:
comments, which stand in it only between statements, semicolons, and the comma
after the last string of a list.

The tree stands between the two texts. Each rule of the strict grammar makes of
its tokens a tree whose pieces say the same.
-/
namespace PayFormula

/-- Tokens of these kinds are not all alike: they say what their literal says. -/
def TokenKind.isTelling : TokenKind → Bool
  | .ident | .builtin | .int | .float | .string | .date | .time => true
  | _ => false

/-- Comments and semicolons. -/
def TokenKind.isLoose (kind : TokenKind) : Bool := kind.isComment || kind == .mark .semicolon

/-- In front of tokens of these kinds a comma separates. -/
def TokenKind.KeepsComma (kind : TokenKind) : Prop :=
  kind.isLoose = false ∧ kind ≠ .mark .comma ∧ kind ≠ .mark .rbracket

theorem TokenKind.keepsComma_of_starts {kind : TokenKind} (h : kind.starts) : kind.KeepsComma := by
  refine ⟨?_, ?_, ?_⟩
  · cases kind with
    | mark m => cases m <;> first | rfl | cases h
    | _ => first | rfl | cases h
  · rintro rfl
    cases h
  · rintro rfl
    cases h

/-- A kind, with a literal for the kinds that have one to tell. -/
abbrev Gist := TokenKind × Option String

def Piece.gist (p : Piece) : Gist := (p.1, if p.1.isTelling then some p.2 else none)

/-- What pieces say, comments and semicolons left out. -/
def gists (ps : List Piece) : List Gist := (ps.filter (!·.1.isLoose)).map Piece.gist

/-- Every comma directly in front of a closing bracket is left out. -/
def withoutTrailing : List Gist → List Gist
  | [] => []
  | g :: gs =>
    if g.1 = .mark .comma ∧ gs.head?.map (·.1) = some (.mark .rbracket) then withoutTrailing gs
    else g :: withoutTrailing gs

/-- What the tokens of a text say. -/
def significant (source : String) : List Gist :=
  withoutTrailing (gists ((tokenize source).map Token.piece))

section Gists

variable {g : Gist} {gs : List Gist} {p q : Piece} {ps qs : List Piece}

theorem withoutTrailing_cons (h : g.1 ≠ .mark .comma) :
    withoutTrailing (g :: gs) = g :: withoutTrailing gs := by
  rw [withoutTrailing, if_neg (fun hc => h hc.1)]

theorem withoutTrailing_comma {g' : Gist} (h : g'.1 ≠ .mark .rbracket) :
    withoutTrailing (g :: g' :: gs) = g :: withoutTrailing (g' :: gs) := by
  rw [withoutTrailing, if_neg]
  rintro ⟨-, hr⟩
  exact h (Option.some.inj hr)

theorem withoutTrailing_trailing {g' : Gist} (hg : g.1 = .mark .comma)
    (h : g'.1 = .mark .rbracket) :
    withoutTrailing (g :: g' :: gs) = withoutTrailing (g' :: gs) := by
  rw [withoutTrailing, if_pos ⟨hg, congrArg some h⟩]

@[simp] theorem gists_nil : gists [] = [] := rfl

theorem gists_append (ps qs : List Piece) : gists (ps ++ qs) = gists ps ++ gists qs := by
  simp [gists]

theorem gists_cons (h : p.1.isLoose = false) : gists (p :: ps) = p.gist :: gists ps := by
  simp [gists, h]

theorem gists_cons_of_isLoose (h : p.1.isLoose) : gists (p :: ps) = gists ps := by
  simp [gists, h]

/-- Comments say nothing. -/
theorem gists_without_comments (toks : List Token) :
    gists ((toks.filter (!·.kind.isComment)).map Token.piece) = gists (toks.map Token.piece) := by
  have hloose (t : Token) : (!t.kind.isLoose && !t.kind.isComment) = !t.kind.isLoose := by
    cases hk : t.kind.isComment <;> simp [TokenKind.isLoose, hk]
  simp only [gists, List.filter_map, List.filter_filter]
  congr 2
  exact List.filter_congr fun t _ => hloose t

end Gists

/-- The first pieces say what the second ones say, which have no commas to leave out, whatever
stands behind them. -/
structure Trims (ps qs : List Piece) : Prop where
  read : ∀ gs, withoutTrailing (gists ps ++ gs) = gists qs ++ withoutTrailing gs
  printed : ∀ gs, withoutTrailing (gists qs ++ gs) = gists qs ++ withoutTrailing gs

namespace Trims

variable {p q : Piece} {ps qs ps' qs' : List Piece}

theorem nil : Trims [] [] := ⟨fun _ => rfl, fun _ => rfl⟩

theorem append (h : Trims ps qs) (h' : Trims ps' qs') : Trims (ps ++ ps') (qs ++ qs') where
  read gs := by
    rw [gists_append, gists_append, List.append_assoc, h.read, h'.read, List.append_assoc]
  printed gs := by
    rw [gists_append, List.append_assoc, h.printed, h'.printed, List.append_assoc]

/-- Pieces that say the same. -/
theorem single (hgist : p.gist = q.gist) (hp : p.1 ≠ .mark .comma) : Trims [p] [q] := by
  have hkind : p.1 = q.1 := congrArg (fun g : Gist => g.1) hgist
  have hcons (gs : List Gist) : withoutTrailing (gists [q] ++ gs) =
      gists [q] ++ withoutTrailing gs := by
    cases hq : q.1.isLoose with
    | true => simp [gists_cons_of_isLoose hq]
    | false =>
      rw [gists_cons hq]
      exact withoutTrailing_cons (g := q.gist) (hkind ▸ hp)
  refine ⟨fun gs => ?_, hcons⟩
  rw [← hcons, gists, gists, List.filter_singleton, List.filter_singleton, hkind]
  cases q.1.isLoose <;> simp [hgist]

theorem token {t : Token} (h : t.kind ≠ .mark .comma) : Trims [t.piece] [t.piece] :=
  single rfl h

/-- An operator or a delimiter says the same however it is spelled. -/
theorem mark {t : Token} {m : Mark} (h : t.kind = .mark m) (hm : decide (m = .comma) = false) :
    Trims [t.piece] [m.piece] :=
  single (by simp [Piece.gist, Token.piece, Mark.piece, h, TokenKind.isTelling])
    (by simpa [Token.piece, h] using hm)

theorem word {t : Token} {w : Keyword} (h : t.kind = .keyword w) : Trims [t.piece] [w.piece] :=
  single (by simp [Piece.gist, Token.piece, Keyword.piece, h, TokenKind.isTelling])
    (by simp [Token.piece, h])

theorem loose_left (h : Trims ps qs) (hp : p.1.isLoose) : Trims (p :: ps) qs :=
  ⟨fun gs => by rw [gists_cons_of_isLoose hp, h.read], h.printed⟩

theorem loose_right (hq : q.1.isLoose) : Trims [] [q] :=
  ⟨fun gs => by simp [gists_cons_of_isLoose hq], fun gs => by simp [gists_cons_of_isLoose hq]⟩

/-- What begins with a piece that stays says first what that one says. -/
theorem head (h : Trims (p :: ps) qs) (hloose : p.1.isLoose = false) (hc : p.1 ≠ .mark .comma) :
    ∃ gs, gists qs = p.gist :: gs := by
  have hread := h.read []
  rw [gists_cons hloose, List.cons_append, withoutTrailing_cons hc, withoutTrailing,
    List.append_nil, List.append_nil] at hread
  exact ⟨_, hread.symm⟩

/-- A comma stays in front of anything but a closing bracket. -/
theorem comma {t : Token} (h : Trims (p :: ps) qs) (ht : t.kind = .mark .comma)
    (hp : p.1.KeepsComma) : Trims (t.piece :: p :: ps) (Mark.comma.piece :: qs) := by
  obtain ⟨hloose, hc, hr⟩ := hp
  have hgist : t.piece.gist = Mark.comma.piece.gist := by
    simp [Piece.gist, Token.piece, Mark.piece, ht, TokenKind.isTelling]
  have hcomma (ps : List Piece) : gists (t.piece :: ps) = Mark.comma.piece.gist :: gists ps := by
    rw [gists_cons (by rw [Token.piece, ht]; rfl), hgist]
  have hcons (gs : List Gist) : withoutTrailing (Mark.comma.piece.gist :: p.gist :: gs) =
      Mark.comma.piece.gist :: withoutTrailing (p.gist :: gs) := withoutTrailing_comma hr
  obtain ⟨gs', hq⟩ := h.head hloose hc
  constructor
  · intro gs
    rw [hcomma, gists_cons (p := Mark.comma.piece) rfl, List.cons_append, List.cons_append,
      ← h.read, gists_cons hloose, List.cons_append, hcons]
  · intro gs
    rw [gists_cons (p := Mark.comma.piece) rfl, List.cons_append, List.cons_append,
      ← h.printed, hq, List.cons_append, hcons]

/-- A comma in front of a closing bracket is left out. -/
theorem trailing {t r : Token} (ht : t.kind = .mark .comma) (hr : r.kind = .mark .rbracket) :
    Trims [t.piece, r.piece] [Mark.rbracket.piece] := by
  have hread (gs : List Gist) : withoutTrailing (gists [t.piece, r.piece] ++ gs) =
      withoutTrailing (gists [r.piece] ++ gs) := by
    rw [gists_cons (by rw [Token.piece, ht]; rfl), gists_cons (by rw [Token.piece, hr]; rfl)]
    exact withoutTrailing_trailing ht hr
  have hbracket : Trims [r.piece] [Mark.rbracket.piece] := .mark hr rfl
  exact ⟨fun gs => (hread gs).trans (hbracket.read gs), hbracket.printed⟩

theorem eq (h : Trims ps qs) : withoutTrailing (gists ps) = withoutTrailing (gists qs) := by
  have hread := h.read []
  rwa [← h.printed, List.append_nil, List.append_nil] at hread

/-- What a phrase says among comments is what its tree says. -/
theorem between {before toks after : List Token} {ps qs : List Piece}
    (hb : Between before toks after) (h : Trims (toks.map Token.piece) ps)
    (hrest : Trims (after.map Token.piece) qs) : Trims (before.map Token.piece) (ps ++ qs) := by
  obtain ⟨raw, rfl, rfl⟩ := hb
  have hraw : Trims (raw.map Token.piece) ps :=
    ⟨fun gs => by rw [← gists_without_comments, h.read], h.printed⟩
  rw [List.map_append]
  exact hraw.append hrest

end Trims

namespace Grammar

/-- The first token is one in front of which a comma separates. -/
def Leads (toks : List Token) : Prop := ∃ t ts, toks = t :: ts ∧ t.kind.KeepsComma

theorem name_trims {n : Token} (h : n.IsName) : Trims [n.piece] [n.piece] :=
  .token (by rw [h.kind]; simp)

theorem builtin_trims {t : Token} (h : t.kind = .builtin) : Trims [t.piece] [t.piece] :=
  .token (by rw [h]; simp)

theorem clause_trims {word : Keyword} {toks : List Token} {next : Token} {c : NameClause}
    (h : Clause word toks next c) : Trims (toks.map Token.piece) (c.pieces word) := by
  cases h with
  | intro hk hn => exact (Trims.word hk).append (name_trims hn)

/-- Strings in front of the bracket that closes their list. -/
theorem strings_trims {toks : List Token} {strings : List StringLiteral} {r : Token}
    (h : Strings toks strings) (hr : r.kind = .mark .rbracket) :
    Trims ((toks ++ [r]).map Token.piece)
      (commaSeparated (strings.map ([·.piece])) ++ [Mark.rbracket.piece]) := by
  have hstring {s : Token} (hs : s.kind = .string) : Trims [s.piece] [s.piece] :=
    .token (by rw [hs]; simp)
  have hleads {s : Token} (hs : s.kind = .string) : s.piece.1.KeepsComma :=
    TokenKind.keepsComma_of_starts (by rw [Token.piece, hs]; rfl)
  induction h with
  | nil => exact .mark hr rfl
  | last hs => exact (hstring hs).append (.mark hr rfl)
  | cons hs hcomma hrest ih =>
    cases hrest with
    | nil => exact (hstring hs).append (.trailing hcomma hr)
    | last hs' => exact (hstring hs).append (ih.comma hcomma (hleads hs'))
    | cons hs' _ _ =>
      rw [List.map_cons, commaSeparated_cons (by simp)]
      exact (hstring hs).append (ih.comma hcomma (hleads hs'))

theorem listing_trims {toks : List Token} {next : Token} {l : ListLiteral}
    (h : Listing toks next l) : Trims (toks.map Token.piece) l.pieces := by
  cases h with
  | intro hl hstrings hr =>
    exact (Trims.mark hl rfl).append (strings_trims hstrings hr)

section Sub

/-- Expressions whose tokens say what their pieces say. -/
structure SubTrims (R : SubPhrase) : Prop where
  trims : ∀ {power toks next e}, R power toks next e → Trims (toks.map Token.piece) e.pieces
  leads : ∀ {power toks next e}, R power toks next e → Leads toks

variable {R : SubPhrase} (hs : SubTrims R) {toks : List Token} {next : Token} {e : Expr}
include hs

theorem bound_trims {b : Binding} (h : Bound R toks b) : Trims (toks.map Token.piece) b.pieces := by
  cases h with
  | intro ht hn heq hv hsemi =>
    have hvalue := (hs.trims hv).append (.mark hsemi rfl)
    rw [List.map_append]
    exact (Trims.word ht).append ((name_trims hn).append ((Trims.mark heq rfl).append hvalue))

theorem bounds_trims {bs : List Binding} (h : Bounds R toks bs) :
    Trims (toks.map Token.piece) (bindingsPieces bs) := by
  induction h with
  | nil => exact .nil
  | cons hb _ ih =>
    rw [List.map_append, bindingsPieces_cons]
    exact (bound_trims hs hb).append ih

theorem blocks_trims {b : Block} (h : Blocks R toks next b) :
    Trims (toks.map Token.piece) b.pieces := by
  cases h with
  | intro hbs hv =>
    rw [List.map_append]
    exact (bounds_trims hs hbs).append (hs.trims hv)

/-- An argument begins with what an expression or a binding begins with. -/
theorem argument_leads {levels : Nat} {stop : Token}
    (h : Argument (Gaps.none levels) R toks stop e) : Leads toks := by
  cases h with
  | value hv => exact hs.leads hv
  | block hb hne =>
    cases hb with
    | intro hbs _ =>
      cases hbs with
      | nil => exact absurd rfl hne
      | cons hb _ =>
        cases hb with
        | intro ht _ _ _ _ => exact ⟨_, _, rfl, by rw [ht]; exact ⟨rfl, by simp, by simp⟩⟩
  | failed hpassed _ => exact hpassed.elim

omit hs in
theorem items_trims {item : Phrase Expr} {stop : Token} {args : List Expr}
    (hitem : ∀ {toks stop e}, item toks stop e → Trims (toks.map Token.piece) e.pieces)
    (hleads : ∀ {toks stop e}, item toks stop e → Leads toks) (h : Items item toks stop args) :
    Leads toks ∧ Trims (toks.map Token.piece) (commaSeparated (argsPieces args)) := by
  induction h with
  | last ha =>
    rw [argsPieces, argsPieces, commaSeparated, List.intercalate_singleton]
    exact ⟨hleads ha, hitem ha⟩
  | @cons _ _ _ _ _ as ha hcomma has ih =>
    have hparts : argsPieces as ≠ [] := by cases has <;> simp [argsPieces]
    obtain ⟨⟨t, ts, rfl, ht⟩, htrims⟩ := ih
    constructor
    · obtain ⟨u, us, htoks, hu⟩ := hleads ha
      exact ⟨u, _, by rw [htoks, List.cons_append], hu⟩
    · rw [List.map_append, argsPieces, commaSeparated_cons hparts]
      exact (hitem ha).append (htrims.comma hcomma ht)

theorem argument_trims {levels : Nat} {stop : Token}
    (h : Argument (Gaps.none levels) R toks stop e) :
    Trims (toks.map Token.piece) e.pieces := by
  cases h with
  | value hv => exact hs.trims hv
  | block hb _ => exact blocks_trims hs hb
  | failed hpassed _ => exact hpassed.elim

theorem primary_trims {levels : Nat} (h : Primary (Gaps.none levels) R toks next e) :
    Trims (toks.map Token.piece) e.pieces := by
  cases h with
  | number hk _ => exact .token (by rcases hk with hk | hk <;> rw [hk] <;> simp)
  | ident hn => exact .token (by rw [hn.kind]; simp)
  | string hk => exact .token (by rw [hk]; simp)
  | @boolean _ _ value hk =>
    cases value with
    | true => exact .word hk
    | false => exact .word hk
  | date hk hd =>
    rw [Expr.pieces, Date.render_of_ofChars hd, ← hk]
    exact .token (by rw [hk]; simp)
  | time hk hc =>
    rw [Expr.pieces, Clock.render_of_ofChars hc, ← hk]
    exact .token (by rw [hk]; simp)
  | @unary _ _ op _ _ hk ho =>
    exact (Trims.mark hk (by cases op <;> decide)).append (hs.trims ho)
  | unit hl hr => exact (Trims.mark hl rfl).append (.mark hr rfl)
  | paren hl hb hr =>
    rw [List.map_append]
    exact (Trims.mark hl rfl).append ((blocks_trims hs hb).append (.mark hr rfl))
  | macroUnit hd hn hl hr hclosing =>
    exact (Trims.mark hd rfl).append ((name_trims hn).append ((Trims.mark hl rfl).append
      ((Trims.mark hr rfl).append (.mark hclosing rfl))))
  | macroCall hd hn hl hargs hr hclosing =>
    have hargs := (items_trims hs.trims hs.leads hargs).2
    rw [List.map_append]
    exact (Trims.mark hd rfl).append ((name_trims hn).append ((Trims.mark hl rfl).append
      (hargs.append ((Trims.mark hr rfl).append (.mark hclosing rfl)))))
  | callUnit hk hl hr =>
    exact (builtin_trims hk).append ((Trims.mark hl rfl).append (.mark hr rfl))
  | call hk hl _ hargs hr =>
    have hargs := (items_trims (argument_trims hs) (argument_leads hs) hargs).2
    rw [List.map_append]
    exact (builtin_trims hk).append ((Trims.mark hl rfl).append (hargs.append (.mark hr rfl)))
  | overClause hk hcontext _ =>
    rw [Expr.pieces, List.append_nil]
    exact (Trims.word hk).append (hs.trims hcontext)
  | overAlias hk hcontext ha hn =>
    rw [List.map_append]
    exact (Trims.word hk).append ((hs.trims hcontext).append
      ((Trims.word ha).append (name_trims hn)))
  | filter hk hcondition => exact (Trims.word hk).append (hs.trims hcondition)
  | orderBy hk hby hkey _ _ =>
    rw [Expr.pieces, List.append_nil]
    exact (Trims.word hk).append ((Trims.word hby).append (hs.trims hkey))
  | @orderByDirection _ _ d _ _ _ direction hk hby hkey hd =>
    have hdirection : Trims [d.piece] [direction.word.piece] := by
      cases direction with
      | ascending => exact .word hd
      | descending => exact .word hd
    rw [List.map_append]
    exact (Trims.word hk).append ((Trims.word hby).append ((hs.trims hkey).append hdirection))
  | label hc => exact clause_trims hc
  | set hc => exact clause_trims hc
  | list hl => exact listing_trims hl

theorem operation_trims {power : Precedence} {left : Expr}
    (h : Operation R power left toks next e) : ∃ ps, e.pieces = left.pieces ++ ps ∧
      Trims (toks.map Token.piece) ps := by
  cases h with
  | @binary _ _ op _ _ hk _ hr =>
    exact ⟨_, rfl, (Trims.mark hk (by cases op <;> decide)).append (hs.trims hr)⟩
  | memberList hk _ hl => exact ⟨_, rfl, (Trims.word hk).append (listing_trims hl)⟩
  | memberSet hk _ hc => exact ⟨_, rfl, (Trims.word hk).append (clause_trims hc)⟩

end Sub

theorem subTrims_and_chain (levels : Nat) :
    SubTrims (Expression Gaps.none levels) ∧
      ∀ {power left toks next e}, Chain Gaps.none levels power left toks next e →
        ∃ ps, e.pieces = left.pieces ++ ps ∧ Trims (toks.map Token.piece) ps := by
  have hstop {power : Precedence} {left e : Expr} {toks : List Token} {next : Token}
      (h : Stop power left toks next e) :
      ∃ ps, e.pieces = left.pieces ++ ps ∧ Trims (toks.map Token.piece) ps := by
    cases h
    exact ⟨[], (List.append_nil _).symm, .nil⟩
  have hleads {levels : Nat} {power : Precedence} {toks : List Token} {next : Token} {e : Expr}
      (h : Expression Gaps.none levels power toks next e) : Leads toks := by
    obtain ⟨t, ts, rfl, ht⟩ := expression_starts h
    exact ⟨t, ts, rfl, TokenKind.keepsComma_of_starts ht⟩
  induction levels with
  | zero => exact ⟨⟨fun h => h.elim, fun h => h.elim⟩, fun h => hstop h⟩
  | succ levels ih =>
    obtain ⟨hs, hchain⟩ := ih
    constructor
    · refine ⟨fun h => ?_, hleads⟩
      cases h with
      | intro hprimary hrest =>
        obtain ⟨ps, hpieces, hps⟩ := hchain hrest
        rw [List.map_append, hpieces]
        exact (primary_trims hs hprimary).append hps
    · intro power left toks next e h
      rcases h with h | h
      · exact hstop h
      · cases h with
        | intro hop hrest =>
          obtain ⟨ps, hpieces, hps⟩ := operation_trims hs hop
          obtain ⟨qs, hpieces', hqs⟩ := hchain hrest
          rw [List.map_append, hpieces', hpieces, List.append_assoc]
          exact ⟨_, rfl, hps.append hqs⟩

theorem lines_trims {eof : Token} {tokens : List Token} {ss : List Statement}
    (h : Lines False Gaps.none eof tokens ss) :
    Trims (tokens.map Token.piece) (linePieces ss).flatten := by
  have hs := (subTrims_and_chain nestingLimit).1
  have hsemicolon {t : Token} (ht : t.kind = .mark .semicolon) : t.piece.1.isLoose := by
    rw [Token.piece, ht]
    rfl
  -- a semicolon is printed behind an expression unless it is the last statement
  have hexpression {before toks after : List Token} {next : Token} {e : Expr}
      {ss : List Statement} (hb : Between before toks after)
      (he : Expression Gaps.none nestingLimit .lowest toks next e)
      (hss : Trims (after.map Token.piece) (linePieces ss).flatten) :
      Trims (before.map Token.piece) (linePieces (.expression e :: ss)).flatten := by
    cases ss with
    | nil => exact .between hb (hs.trims he) hss
    | cons s ss =>
      rw [linePieces, List.flatten_cons, List.append_assoc]
      · exact .between hb (hs.trims he) ((Trims.loose_right rfl).append hss)
      · simp
  have hcomment {t : Token} {tokens : List Token} {ps : List Piece} (ht : t.kind.isComment)
      (h : Trims (tokens.map Token.piece) ps) :
      Trims ((t :: tokens).map Token.piece) (t.piece :: ps) := by
    refine (Trims.token ?_).append h
    rintro hk
    rw [hk] at ht
    cases ht
  induction h with
  | nil => exact .nil
  | skip ht _ ih =>
    exact ih.loose_left (hsemicolon (ht.resolve_left id))
  | @lineComment t _ _ hk _ ih =>
    rw [(lines_cons (s := .lineComment ⟨t⟩) (by simp) _).2]
    exact hcomment (by rw [hk]; rfl) ih
  | @blockComment t _ _ hk _ ih =>
    rw [(lines_cons (s := .blockComment ⟨t⟩) (by simp) _).2]
    exact hcomment (by rw [hk]; rfl) ih
  | @binding _ _ _ b _ hb hbound _ ih =>
    rw [(lines_cons (s := .binding b) (by simp) _).2]
    exact .between hb (bound_trims hs hbound) ih
  | expression hb he _ ih => exact hexpression hb he ih
  | ended hb he hb' hk _ ih =>
    exact hexpression hb he (.between hb' (Trims.nil.loose_left (hsemicolon hk)) ih)

end Grammar

open Grammar

/-- A text that is read without errors and the text that is printed for its tree say the same. -/
theorem significant_render {source : String} (h : (parse source).errors = []) :
    significant (parse source).program.render = significant source := by
  have hlines := parse_lines_strict h
  have hreads := reads_lines (lines_spell spelled_none hlines fun _ ht => tokenize_isRead ht)
  rw [significant, significant, (lines_trims hlines).eq, ← tokenize_pieces_eq hreads]
  rfl

theorem significant_render_respelled :
    (parse "[\"a\", /* b */];; 1 AND 2").errors = [] ∧
      (parse "[\"a\", /* b */];; 1 AND 2").program.render = "[\"a\"];\n1 && 2" ∧
      significant "[\"a\"];\n1 && 2" = significant "[\"a\", /* b */];; 1 AND 2" := by
  have h : (parse "[\"a\", /* b */];; 1 AND 2").errors = [] := by decide +kernel
  have hprinted : (parse "[\"a\", /* b */];; 1 AND 2").program.render = "[\"a\"];\n1 && 2" := by
    decide +kernel
  have hsame := significant_render h
  rw [hprinted] at hsame
  exact ⟨h, hprinted, hsame⟩

end PayFormula
