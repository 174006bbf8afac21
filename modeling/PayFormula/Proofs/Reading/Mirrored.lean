import PayFormula.Proofs.Reading.Run
import PayFormula.Proofs.Token.Word
import PayFormula.Proofs.Tree.Replaced

/-!
# Reading other tokens

Readers tell tokens apart by their kinds, and by their texts only where these
are no names. So when each token is replaced by one of its kind that has the
same text or another name, a run goes the same way: it reads the tree with the
other tokens and meets the same errors at the other tokens.
-/
namespace PayFormula

/-- Keeps the kinds of tokens and all texts but those of names, and gives these other names. -/
structure Replaces (f : Token → Token) (g : String → String) : Prop where
  kind (t : Token) : (f t).kind = t.kind
  name {t : Token} (h : t.IsName) : (f t).IsName
  renamed {t : Token} (h : t.IsName) : (f t).literal = g t.literal
  other {t : Token} (h : ¬ t.IsName) : (f t).literal = t.literal

/-- Keeps the kinds of tokens and all texts but those of names. -/
structure Renames (f : Token → Token) : Prop where
  kind (t : Token) : (f t).kind = t.kind
  name {t : Token} (h : t.IsName) : (f t).literal = standIn
  other {t : Token} (h : ¬ t.IsName) : (f t).literal = t.literal

theorem isReserved_standIn : Word.isReserved standIn = false :=
  Word.isReserved_ofList (by decide) []

/-- What stands for all names is a name. -/
theorem Renames.replaces {f : Token → Token} (hf : Renames f) :
    Replaces f fun _ => standIn where
  kind := hf.kind
  name {t} h := by
    have hl := hf.name h
    exact ⟨(hf.kind t).trans h.kind, by rw [hl]; decide, by rw [hl]; decide,
      by rw [hl, isReserved_standIn]⟩
  renamed := hf.name
  other := hf.other

namespace Replaces

variable {f : Token → Token} {g : String → String} (hf : Replaces f g) {t : Token}
include hf

theorem literal (h : t.kind ≠ .ident) : (f t).literal = t.literal := hf.other fun hn => h hn.kind

theorem isBlank_iff :
    (f t).literal = "" ∨ (f t).literal = "_" ↔ t.literal = "" ∨ t.literal = "_" := by
  by_cases h : t.IsName
  · have h' := hf.name h
    exact iff_of_false (not_or.mpr ⟨h'.nonempty, h'.not_blank⟩)
      (not_or.mpr ⟨h.nonempty, h.not_blank⟩)
  · rw [hf.other h]

theorem isReserved : Word.isReserved (f t).literal = Word.isReserved t.literal := by
  by_cases h : t.IsName
  · rw [h.not_reserved, (hf.name h).not_reserved]
  · rw [hf.other h]

theorem filter_comments (tokens : List Token) :
    (tokens.map f).filter (!·.kind.isComment) = (tokens.filter (!·.kind.isComment)).map f := by
  rw [List.filter_map]
  simp only [Function.comp_def, hf.kind]

theorem dropWhile_comments (tokens : List Token) :
    (tokens.map f).dropWhile (·.kind.isComment) = (tokens.dropWhile (·.kind.isComment)).map f := by
  rw [List.dropWhile_map]
  simp only [Function.comp_def, hf.kind]

theorem splitAtStop?_map (stops : List TokenKind) (depth : Nat) (tokens : List Token) :
    splitAtStop? stops depth (tokens.map f) =
      (splitAtStop? stops depth tokens).map (Prod.map (List.map f) (List.map f)) := by
  induction tokens generalizing depth with
  | nil => rfl
  | cons t tokens ih =>
    rw [List.map_cons, splitAtStop?, splitAtStop?, hf.kind, ih]
    split
    · rfl
    · simp only [Option.map_map]
      rfl

end Replaces

namespace Cursor

def replace (f : Token → Token) (g : String → String) (c : Cursor) : Cursor :=
  ⟨c.rest.map f, f c.eof, c.errors.map (SyntaxError.replace f g)⟩

variable {f : Token → Token} {g : String → String} (c : Cursor)

theorem current_replace : (c.replace f g).current = f c.current := List.headD_map

theorem step_replace : (c.replace f g).step = c.step.replace f g := by
  simp only [step, replace, List.map_tail]

theorem record_replace (e : SyntaxError) :
    (c.replace f g).record (e.replace f g) = (c.record e).replace f g := by
  simp only [record, replace, List.map_append, List.map_cons, List.map_nil]

variable (hf : Replaces f g)
include hf

theorem following_replace : (c.replace f g).following = c.following.map f := by
  simp only [following, replace, ← List.map_tail, hf.dropWhile_comments]

theorem advance_replace : (c.replace f g).advance = c.advance.replace f g := by
  rw [advance, c.following_replace hf]
  rfl

theorem peek_replace : (c.replace f g).peek = f c.peek := by
  rw [peek, c.following_replace hf]
  exact List.headD_map

theorem synchronize_replace : (c.replace f g).synchronize = c.synchronize.replace f g := by
  simp only [synchronize, replace, hf.splitAtStop?_map]
  cases splitAtStop? [.mark .semicolon] 0 c.rest with
  | none => rfl
  | some split => simp only [Option.map_some, Prod.map, List.map_tail]

end Cursor

namespace Read

variable {α α' β β' : Type} {f : Token → Token} {g : String → String}

/-- What a reader makes of tokens, the other one makes of those in their place. -/
structure Mirrors (f : Token → Token) (g : String → String) (F : α → α') (x : Read α)
    (x' : Read α') : Prop where
  yields {c c' : Cursor} {a : α} (h : Yields x c a c') :
    Yields x' (c.replace f g) (F a) (c'.replace f g)
  fails {c c' : Cursor} {e : SyntaxError} (h : Fails x c e c') :
    Fails x' (c.replace f g) (e.replace f g) (c'.replace f g)

namespace Mirrors

variable {F : α → α'} {G : β → β'} {x y : Read α} {x' y' : Read α'}

/-- Runs in sequence, the second one after a value that the first one can yield. -/
theorem bind_of_yields {k : α → Read β} {k' : α' → Read β'} (hx : Mirrors f g F x x')
    (hk : ∀ a c c', Yields x c a c' → Mirrors f g G (k a) (k' (F a))) :
    Mirrors f g G (x >>= k) (x' >>= k') where
  yields h := by
    obtain ⟨a, c₁, ha, hb⟩ := bind_yields_iff.mp h
    exact bind_yields_iff.mpr ⟨F a, _, hx.yields ha, (hk a _ _ ha).yields hb⟩
  fails h := by
    rcases bind_fails_iff.mp h with ha | ⟨a, c₁, ha, hb⟩
    · exact bind_fails_iff.mpr (.inl (hx.fails ha))
    · exact bind_fails_iff.mpr (.inr ⟨F a, _, hx.yields ha, (hk a _ _ ha).fails hb⟩)

theorem bind {k : α → Read β} {k' : α' → Read β'} (hx : Mirrors f g F x x')
    (hk : ∀ a, Mirrors f g G (k a) (k' (F a))) : Mirrors f g G (x >>= k) (x' >>= k') :=
  hx.bind_of_yields fun a _ _ _ => hk a

theorem ite {p p' : Prop} [Decidable p] [Decidable p'] (hp : p' ↔ p) (hx : Mirrors f g F x x')
    (hy : Mirrors f g F y y') : Mirrors f g F (if p then x else y) (if p' then x' else y') := by
  by_cases h : p
  · rwa [if_pos h, if_pos (hp.mpr h)]
  · rwa [if_neg h, if_neg (mt hp.mp h)]

end Mirrors

theorem pure_mirrors {F : α → α'} {a : α} {a' : α'} (h : F a = a') :
    Mirrors f g F (pure a) (pure a') where
  yields hy := by
    obtain ⟨rfl, rfl⟩ := pure_yields_iff.mp hy
    exact pure_yields_iff.mpr ⟨h, rfl⟩
  fails h := by cases congrArg Prod.fst h

theorem throw_mirrors {F : α → α'} (e : SyntaxError) :
    Mirrors f g F (throw e) (throw (e.replace f g)) where
  yields h := (not_throw_yields h).elim
  fails h := by
    obtain ⟨rfl, rfl⟩ := throw_fails_iff.mp h
    exact throw_fails_iff.mpr ⟨rfl, rfl⟩

theorem fail_mirrors {F : α → α'} {cause cause' : SyntaxError.Cause} (h : cause.replace g = cause')
    (t : Token) : Mirrors f g F (fail cause t) (fail cause' (f t)) := h ▸ throw_mirrors ⟨cause, t⟩

theorem current_mirrors : Mirrors f g f current current where
  yields h := by cases h; exact congrArg (fun t => (Except.ok t, _)) (Cursor.current_replace _)
  fails h := by cases congrArg Prod.fst h

theorem rest_mirrors : Mirrors f g (List.map f) rest rest where
  yields h := by cases h; rfl
  fails h := by cases congrArg Prod.fst h

theorem remaining_mirrors : Mirrors f g id remaining remaining :=
  rest_mirrors.bind fun _ => pure_mirrors (List.length_map _).symm

theorem seek_mirrors (tokens : List Token) :
    Mirrors f g id (seek tokens) (seek (tokens.map f)) where
  yields h := by cases h; rfl
  fails h := by cases congrArg Prod.fst h

theorem record_mirrors (e : SyntaxError) : Mirrors f g id (record e) (record (e.replace f g)) where
  yields h := by cases h; exact congrArg (Prod.mk _) (Cursor.record_replace _ e)
  fails h := by cases congrArg Prod.fst h

/-- How a run ends, with other tokens. -/
def mapResult (f : Token → Token) (g : String → String) (F : α → α') :
    Except SyntaxError α → Except SyntaxError α'
  | .ok a => .ok (F a)
  | .error e => .error (e.replace f g)

theorem attempt_mirrors {F : α → α'} {x : Read α} {x' : Read α'} (hx : Mirrors f g F x x') :
    Mirrors f g (mapResult f g F) (attempt x) (attempt x') where
  yields {c c' r} h := by
    rcases yields_or_fails x c with ⟨a, c₁, ha⟩ | ⟨e, c₁, he⟩
    · have hr : attempt x c = (.ok (.ok a), c₁) := by rw [attempt, ha]
      cases hr.symm.trans h
      rw [Yields, attempt, hx.yields ha]
      rfl
    · have hr : attempt x c = (.ok (.error e), c₁) := by rw [attempt, he]
      cases hr.symm.trans h
      rw [Yields, attempt, hx.fails he]
      rfl
  fails h := by cases congrArg Prod.fst h

section

variable (hf : Replaces f g)
include hf

theorem peek_mirrors : Mirrors f g f peek peek where
  yields h := by cases h; exact congrArg (fun t => (Except.ok t, _)) (Cursor.peek_replace _ hf)
  fails h := by cases congrArg Prod.fst h

theorem advance_mirrors : Mirrors f g id advance advance where
  yields h := by cases h; exact congrArg (Prod.mk _) (Cursor.advance_replace _ hf)
  fails h := by cases congrArg Prod.fst h

theorem kind_eq_iff {t : Token} {kind : TokenKind} : (f t).kind = kind ↔ t.kind = kind := by
  rw [hf.kind]

theorem number_mirrors {t : Token} (h : t.kind ≠ .ident) :
    Mirrors f g (Expr.replace f g) (number t) (number (f t)) := by
  rw [number, number, hf.literal h]
  cases Decimal.ofChars? t.literal.toList with
  | some d => exact pure_mirrors rfl
  | none => exact fail_mirrors rfl t

theorem date_mirrors {t : Token} (h : t.kind ≠ .ident) :
    Mirrors f g (Expr.replace f g) (date t) (date (f t)) := by
  rw [date, date, hf.literal h]
  cases Date.ofChars t.literal.toList with
  | ok d => exact pure_mirrors rfl
  | error e => exact fail_mirrors rfl t

theorem time_mirrors {t : Token} (h : t.kind ≠ .ident) :
    Mirrors f g (Expr.replace f g) (time t) (time (f t)) := by
  rw [time, time, hf.literal h]
  cases Clock.ofChars t.literal.toList with
  | ok c => exact pure_mirrors rfl
  | error e => exact fail_mirrors rfl t

theorem ident_mirrors : Mirrors f g (Ident.map f) ident ident := by
  refine current_mirrors.bind fun t => ?_
  refine .ite hf.isBlank_iff (fail_mirrors rfl t) ?_
  exact .ite (by rw [hf.isReserved]) (fail_mirrors rfl t) (pure_mirrors rfl)

theorem expect_mirrors (kind : TokenKind) : Mirrors f g f (expect kind) (expect kind) := by
  refine (peek_mirrors hf).bind fun next => .ite (kind_eq_iff hf) ?_ (fail_mirrors rfl next)
  exact (advance_mirrors hf).bind fun _ => pure_mirrors rfl

theorem expectClosing_mirrors (opening closing : Mark) :
    Mirrors f g f (expectClosing opening closing) (expectClosing opening closing) := by
  refine (peek_mirrors hf).bind fun next => .ite (kind_eq_iff hf) ?_ (fail_mirrors rfl next)
  exact (advance_mirrors hf).bind fun _ => pure_mirrors rfl

theorem expectName_mirrors : Mirrors f g (Ident.map f) expectName expectName := by
  refine (peek_mirrors hf).bind fun next => ?_
  simp only [hf.kind]
  cases hk : next.kind with
  | ident => exact (advance_mirrors hf).bind fun _ => ident_mirrors hf
  | mark m =>
    rw [hf.literal (t := next) (by simp [hk])]
    exact .ite Iff.rfl (fail_mirrors rfl next) (fail_mirrors rfl next)
  | _ => exact fail_mirrors rfl next

theorem nameClause_mirrors : Mirrors f g (NameClause.map f) nameClause nameClause :=
  current_mirrors.bind fun _ => (expectName_mirrors hf).bind fun _ => pure_mirrors rfl

theorem strings_mirrors (n : Nat) :
    Mirrors f g (List.map (StringLiteral.map f)) (strings n) (strings n) := by
  induction n with
  | zero => exact pure_mirrors rfl
  | succ n ih =>
    refine (peek_mirrors hf).bind fun _ => .ite (kind_eq_iff hf) ?_ (pure_mirrors rfl)
    refine (advance_mirrors hf).bind fun _ => (peek_mirrors hf).bind fun _ =>
      .ite (kind_eq_iff hf) ?_ (pure_mirrors rfl)
    exact (advance_mirrors hf).bind fun _ => ih.bind fun _ => pure_mirrors rfl

theorem list_mirrors : Mirrors f g (ListLiteral.map f) list list := by
  refine current_mirrors.bind fun _ => (peek_mirrors hf).bind fun next =>
    .ite (by rw [hf.kind]) ?_ (fail_mirrors rfl next)
  exact remaining_mirrors.bind fun n => (strings_mirrors hf n).bind fun _ =>
    (expectClosing_mirrors hf _ _).bind fun _ => pure_mirrors rfl

section Sub

variable {sub : SubReader} (hs : ∀ power, Mirrors f g (Expr.replace f g) (sub power) (sub power))
include hs

theorem binding_mirrors : Mirrors f g (BindingOf.replace f g) (binding sub) (binding sub) := by
  refine current_mirrors.bind fun _ => (expectName_mirrors hf).bind_of_yields fun name _ _ hy => ?_
  -- the error of a missing semicolon mentions the name
  have hname : (name.map f).name = g name.name := by
    obtain ⟨hn, rfl, -⟩ := expectName_yields_iff.mp hy
    exact hf.renamed hn
  refine (expect_mirrors hf _).bind fun _ => (advance_mirrors hf).bind fun _ => (hs _).bind fun _ =>
    (peek_mirrors hf).bind fun next => .ite (kind_eq_iff hf) ?_ (fail_mirrors ?_ next)
  · exact (advance_mirrors hf).bind fun _ => pure_mirrors rfl
  · rw [hname]
    rfl

theorem bindings_mirrors (n : Nat) :
    Mirrors f g (List.map (BindingOf.replace f g)) (bindings sub n) (bindings sub n) := by
  induction n with
  | zero => exact pure_mirrors rfl
  | succ n ih =>
    refine current_mirrors.bind fun _ => .ite (kind_eq_iff hf) ?_ (pure_mirrors rfl)
    exact (binding_mirrors hf hs).bind fun _ => (advance_mirrors hf).bind fun _ =>
      ih.bind fun _ => pure_mirrors rfl

theorem block_mirrors : Mirrors f g (BlockOf.replace f g) (block sub) (block sub) :=
  remaining_mirrors.bind fun n => (bindings_mirrors hf hs n).bind fun _ => (hs _).bind fun _ =>
    pure_mirrors rfl

theorem paren_mirrors : Mirrors f g (Expr.replace f g) (paren sub) (paren sub) := by
  refine current_mirrors.bind fun _ => (peek_mirrors hf).bind fun _ => .ite (kind_eq_iff hf) ?_ ?_
  · exact (advance_mirrors hf).bind fun _ => pure_mirrors rfl
  · exact (advance_mirrors hf).bind fun _ => (block_mirrors hf hs).bind fun inner =>
      (expectClosing_mirrors hf _ _).bind fun _ => pure_mirrors (Expr.replace_paren f g _ inner _)

theorem macroArgs_mirrors (n : Nat) :
    Mirrors f g (List.map (Expr.replace f g)) (macroArgs sub n) (macroArgs sub n) := by
  induction n with
  | zero => exact pure_mirrors rfl
  | succ n ih =>
    refine (advance_mirrors hf).bind fun _ => (hs _).bind fun _ => (peek_mirrors hf).bind fun _ =>
      .ite (kind_eq_iff hf) ?_ (pure_mirrors rfl)
    exact (advance_mirrors hf).bind fun _ => ih.bind fun _ => pure_mirrors rfl

theorem macroCall_mirrors : Mirrors f g (Expr.replace f g) (macroCall sub) (macroCall sub) := by
  have close (dollar : Token) (name : Ident) (l : Token) (args : List Expr) :
      Mirrors f g (Expr.replace f g)
        (expectClosing .lparen .rparen >>= fun r => expectClosing .dollar .dollar >>= fun closing =>
          pure (.macroCall dollar name l args r closing))
        (expectClosing .lparen .rparen >>= fun r => expectClosing .dollar .dollar >>= fun closing =>
          pure (.macroCall (f dollar) (name.map f) (f l) (args.map (Expr.replace f g)) r
            closing)) :=
    (expectClosing_mirrors hf _ _).bind fun _ => (expectClosing_mirrors hf _ _).bind fun _ =>
      pure_mirrors (by rw [Expr.replace, replaceArgs_eq_map])
  refine current_mirrors.bind fun dollar => (expectName_mirrors hf).bind fun name =>
    (expect_mirrors hf _).bind fun l => (peek_mirrors hf).bind fun _ => .ite (kind_eq_iff hf) ?_ ?_
  · exact (pure_mirrors rfl).bind fun args => close dollar name l args
  · exact remaining_mirrors.bind fun n => (macroArgs_mirrors hf hs n).bind fun args =>
      close dollar name l args

theorem argument_mirrors : Mirrors f g (Expr.replace f g) (argument sub) (argument sub) := by
  refine (block_mirrors hf hs).bind fun inner => (peek_mirrors hf).bind fun next =>
    .ite (by rw [hf.kind]) (pure_mirrors ?_) (fail_mirrors rfl next)
  rw [apply_ite (Expr.replace f g), Expr.replace_block]
  simp only [BlockOf.replace, List.isEmpty_map]

omit hs in
theorem recover_mirrors (start : List Token) (e : SyntaxError) :
    Mirrors f g (Expr.replace f g) (recover start e) (recover (start.map f) (e.replace f g)) := by
  rw [recover, recover, hf.splitAtStop?_map]
  cases splitAtStop? [.mark .comma, .mark .rparen] 0 start with
  | none => exact throw_mirrors e
  | some split =>
    obtain ⟨skipped, stop⟩ := split
    refine (record_mirrors e).bind fun _ => (seek_mirrors stop).bind fun _ => pure_mirrors ?_
    rw [Expr.replace, hf.filter_comments]

theorem argumentOrPlaceholder_mirrors :
    Mirrors f g (Expr.replace f g) (argumentOrPlaceholder sub) (argumentOrPlaceholder sub) := by
  refine rest_mirrors.bind fun start => (attempt_mirrors (argument_mirrors hf hs)).bind fun r => ?_
  cases r with
  | ok arg => exact (advance_mirrors hf).bind fun _ => pure_mirrors rfl
  | error e => exact recover_mirrors hf start e

theorem arguments_mirrors (n : Nat) :
    Mirrors f g (Prod.map (List.map (Expr.replace f g)) f) (arguments sub n) (arguments sub n) := by
  induction n with
  | zero => exact (peek_mirrors hf).bind fun next => fail_mirrors rfl next
  | succ n ih =>
    refine (advance_mirrors hf).bind fun _ => (argumentOrPlaceholder_mirrors hf hs).bind fun _ =>
      current_mirrors.bind fun _ => .ite (kind_eq_iff hf) (pure_mirrors rfl) ?_
    exact ih.bind fun _ => pure_mirrors rfl

theorem call_mirrors : Mirrors f g (Expr.replace f g) (call sub) (call sub) := by
  refine current_mirrors.bind fun _ => (expect_mirrors hf _).bind fun _ =>
    (peek_mirrors hf).bind fun _ => .ite (kind_eq_iff hf) ?_ ?_
  · exact (advance_mirrors hf).bind fun _ => pure_mirrors rfl
  · exact remaining_mirrors.bind fun n => (arguments_mirrors hf hs n).bind fun _ =>
      pure_mirrors (by rw [Expr.replace, replaceArgs_eq_map])

theorem unary_mirrors (op : UnaryOp) :
    Mirrors f g (Expr.replace f g) (unary op sub) (unary op sub) :=
  current_mirrors.bind fun _ => (advance_mirrors hf).bind fun _ => (hs _).bind fun _ =>
    pure_mirrors (by rw [Expr.replace])

theorem overClause_mirrors : Mirrors f g (Expr.replace f g) (overClause sub) (overClause sub) := by
  refine current_mirrors.bind fun _ => (advance_mirrors hf).bind fun _ => (hs _).bind fun _ =>
    (peek_mirrors hf).bind fun _ => .ite (kind_eq_iff hf) ?_
      (pure_mirrors (by rw [Expr.replace]; rfl))
  exact (advance_mirrors hf).bind fun _ => (nameClause_mirrors hf).bind fun _ =>
    pure_mirrors (by rw [Expr.replace]; rfl)

theorem filter_mirrors : Mirrors f g (Expr.replace f g) (filter sub) (filter sub) :=
  current_mirrors.bind fun _ => (advance_mirrors hf).bind fun _ => (hs _).bind fun _ =>
    pure_mirrors (by rw [Expr.replace])

theorem orderBy_mirrors : Mirrors f g (Expr.replace f g) (orderBy sub) (orderBy sub) := by
  refine current_mirrors.bind fun t => (expect_mirrors hf _).bind fun byToken =>
    (advance_mirrors hf).bind fun _ => (hs _).bind fun key => (peek_mirrors hf).bind fun next => ?_
  have plain : Mirrors f g (Expr.replace f g) (pure (.orderBy t byToken key none))
      (pure (.orderBy (f t) (f byToken) (key.replace f g) none)) :=
    pure_mirrors (by rw [Expr.replace]; rfl)
  have directed (d : Direction) :
      Mirrors f g (Expr.replace f g)
        (advance >>= fun _ => pure (.orderBy t byToken key (some ⟨next, d⟩)))
        (advance >>= fun _ =>
          pure (.orderBy (f t) (f byToken) (key.replace f g) (some ⟨f next, d⟩))) :=
    (advance_mirrors hf).bind fun _ => pure_mirrors (by rw [Expr.replace]; rfl)
  simp only [hf.kind]
  cases next.kind with
  | keyword word =>
    cases word with
    | ascWord => exact directed .ascending
    | descWord => exact directed .descending
    | _ => exact plain
  | _ => exact plain

theorem primary_mirrors : Mirrors f g (Expr.replace f g) (primary sub) (primary sub) := by
  refine current_mirrors.bind fun t => ?_
  have none (cause : SyntaxError.Cause) (h : cause.replace g = cause) :
      Mirrors f g (Expr.replace f g) (fail cause t) (fail cause (f t)) := fail_mirrors h t
  simp only [hf.kind]
  cases hk : t.kind with
  | int => exact number_mirrors hf (by simp [hk])
  | float => exact number_mirrors hf (by simp [hk])
  | ident => exact (ident_mirrors hf).bind fun _ => pure_mirrors (by rw [Expr.replace])
  | string => exact pure_mirrors (by rw [Expr.replace]; rfl)
  | date => exact date_mirrors hf (by simp [hk])
  | time => exact time_mirrors hf (by simp [hk])
  | builtin => exact call_mirrors hf hs
  | keyword word =>
    cases word with
    | trueWord => exact pure_mirrors (by rw [Expr.replace])
    | falseWord => exact pure_mirrors (by rw [Expr.replace])
    | overWord => exact overClause_mirrors hf hs
    | whereWord => exact filter_mirrors hf hs
    | orderWord => exact orderBy_mirrors hf hs
    | aliasWord => exact (nameClause_mirrors hf).bind fun _ => pure_mirrors (by rw [Expr.replace])
    | setWord => exact (nameClause_mirrors hf).bind fun _ => pure_mirrors (by rw [Expr.replace])
    | _ => exact none _ rfl
  | mark m =>
    cases m with
    | minus => exact unary_mirrors hf hs .negate
    | bang => exact unary_mirrors hf hs .not
    | lparen => exact paren_mirrors hf hs
    | dollar => exact macroCall_mirrors hf hs
    | lbracket => exact (list_mirrors hf).bind fun _ => pure_mirrors (by rw [Expr.replace])
    | _ => exact none _ rfl
  | _ => exact none _ rfl

omit hs in
theorem member_mirrors (left : Expr) :
    Mirrors f g (Expr.replace f g) (member left) (member (left.replace f g)) := by
  refine current_mirrors.bind fun _ => (peek_mirrors hf).bind fun next => ?_
  simp only [hf.kind]
  cases next.kind with
  | mark m =>
    cases m with
    | lbracket =>
      exact (advance_mirrors hf).bind fun _ => (list_mirrors hf).bind fun _ =>
        pure_mirrors (by rw [Expr.replace]; rfl)
    | _ => exact fail_mirrors rfl next
  | keyword word =>
    cases word with
    | setWord =>
      exact (advance_mirrors hf).bind fun _ => (nameClause_mirrors hf).bind fun _ =>
        pure_mirrors (by rw [Expr.replace]; rfl)
    | _ => exact fail_mirrors rfl next
  | _ => exact fail_mirrors rfl next

theorem operator_mirrors (left : Expr) :
    Mirrors f g (Expr.replace f g) (operator sub left) (operator sub (left.replace f g)) := by
  refine current_mirrors.bind fun t => ?_
  simp only [hf.kind]
  cases t.kind with
  | mark m =>
    dsimp only
    cases hm : BinaryOp.ofMark? m with
    | some op =>
      exact (advance_mirrors hf).bind fun _ => (hs _).bind fun _ =>
        pure_mirrors (by rw [Expr.replace])
    | none =>
      refine fail_mirrors ?_ t
      simp [noPrimary, hm, SyntaxError.Cause.replace]
  | keyword word =>
    cases word with
    | inWord => exact member_mirrors hf left
    | _ => exact fail_mirrors rfl t
  | _ => exact fail_mirrors rfl t

end Sub

theorem expression_and_chain_mirrors (levels : Nat) :
    (∀ power, Mirrors f g (Expr.replace f g) (expression levels power) (expression levels power)) ∧
      ∀ power left,
        Mirrors f g (Expr.replace f g) (chain levels power left)
          (chain levels power (left.replace f g)) := by
  induction levels with
  | zero =>
    refine ⟨fun power => ?_, fun power left => ?_⟩
    · rw [expression]
      exact current_mirrors.bind fun t => fail_mirrors rfl t
    · rw [chain, chain]
      refine (peek_mirrors hf).bind fun _ => .ite (by rw [hf.kind]) ?_ (pure_mirrors rfl)
      exact (advance_mirrors hf).bind fun _ => current_mirrors.bind fun t => fail_mirrors rfl t
  | succ levels ih =>
    refine ⟨fun power => ?_, fun power left => ?_⟩
    · rw [expression]
      exact (primary_mirrors hf ih.1).bind fun left => ih.2 power left
    · rw [chain, chain]
      refine (peek_mirrors hf).bind fun _ => .ite (by rw [hf.kind]) ?_ (pure_mirrors rfl)
      exact (advance_mirrors hf).bind fun _ => (operator_mirrors hf ih.1 left).bind fun left =>
        ih.2 power left

theorem expression_mirrors (levels : Nat) (power : Precedence) :
    Mirrors f g (Expr.replace f g) (expression levels power) (expression levels power) :=
  (expression_and_chain_mirrors hf levels).1 power

theorem statement_mirrors : Mirrors f g (Statement.replace f g) statement statement := by
  refine current_mirrors.bind fun t => ?_
  have plain : Mirrors f g (Statement.replace f g)
      (expression nestingLimit .lowest >>= fun value => peek >>= fun next =>
        if next.kind = .mark .semicolon then advance >>= fun _ => pure (.expression value)
        else pure (.expression value))
      (expression nestingLimit .lowest >>= fun value => peek >>= fun next =>
        if next.kind = .mark .semicolon then advance >>= fun _ => pure (.expression value)
        else pure (.expression value)) := by
    refine (expression_mirrors hf _ _).bind fun _ => (peek_mirrors hf).bind fun _ =>
      .ite (kind_eq_iff hf) ?_ (pure_mirrors rfl)
    exact (advance_mirrors hf).bind fun _ => pure_mirrors rfl
  simp only [hf.kind]
  cases t.kind with
  | keyword word =>
    cases word with
    | varWord => exact (binding_mirrors hf (expression_mirrors hf _)).bind fun _ => pure_mirrors rfl
    | _ => exact plain
  | lineComment => exact pure_mirrors rfl
  | blockComment => exact pure_mirrors rfl
  | _ => exact plain

/-- The statements of other tokens are those of the tokens, with the other ones in them. -/
theorem statements_replace (steps : Nat) (c : Cursor) :
    statements steps (c.replace f g) =
      Prod.map (List.map (Statement.replace f g)) (Cursor.replace f g) (statements steps c) := by
  induction steps generalizing c with
  | zero => rfl
  | succ steps ih =>
    have hempty : (c.replace f g).rest.isEmpty = c.rest.isEmpty := List.isEmpty_map
    rw [statements, statements, hempty, c.current_replace, hf.kind]
    split
    · rfl
    · split
      · rw [c.step_replace, ih]
      · rcases yields_or_fails statement c with ⟨first, c₁, h⟩ | ⟨e, c₁, h⟩
        · rw [(statement_mirrors hf).yields h, h]
          simp only [Cursor.step_replace, ih]
          rfl
        · rw [(statement_mirrors hf).fails h, h]
          simp only [Cursor.record_replace, Cursor.synchronize_replace _ hf, ih]

end

end Read

/-- Other tokens are read as the same statements with these in them, and with the same errors. -/
theorem parseTokens_replace {f : Token → Token} {g : String → String} (hf : Replaces f g)
    (tokens : List Token) (eof : Token) :
    (parseTokens (tokens.map f) (f eof)).program.statements =
        (parseTokens tokens eof).program.statements.map (Statement.replace f g) ∧
      (parseTokens (tokens.map f) (f eof)).errors =
        (parseTokens tokens eof).errors.map (SyntaxError.replace f g) := by
  have h := Read.statements_replace hf tokens.length ⟨tokens, eof, []⟩
  rw [parseTokens, List.length_map]
  exact ⟨congrArg Prod.fst h, congrArg (fun run => run.2.errors) h⟩

/-- The program read from other tokens has the same statements with these in them. -/
theorem parseTokens_map {f : Token → Token} (hf : Renames f) (tokens : List Token) (eof : Token) :
    (parseTokens (tokens.map f) (f eof)).program.statements =
      (parseTokens tokens eof).program.statements.map (Statement.map f) := by
  rw [(parseTokens_replace hf.replaces tokens eof).1]
  exact List.map_congr_left fun s _ => s.replace_standIn f

end PayFormula
