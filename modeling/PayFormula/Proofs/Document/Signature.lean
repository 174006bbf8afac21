import PayFormula.Document.Signature
import PayFormula.Proofs.Catalog
import PayFormula.Proofs.Document.Queries
import PayFormula.Proofs.Grammar.Closed
import PayFormula.Proofs.Grammar.Located
import PayFormula.Proofs.Reading.Uncommented
import PayFormula.Proofs.Token.Respelled
import PayFormula.Proofs.Tree.Search

/-!
# Signature help follows the arguments

The call is found in the tree, from the character before the cursor, and the
number of its argument is counted in the tokens. The two agree: within an
argument there is no comma outside brackets, so the commas before the cursor are
those between the arguments in front of it.
-/
namespace PayFormula

namespace Ordered

variable {tokens : List Token} {place : Position}

/-- The tokens in front of a position are the first ones. -/
theorem filter_before_prefix (h : Ordered tokens) (place : Position) :
    tokens.filter (·.first < place) <+: tokens := by
  induction tokens with
  | nil => exact List.prefix_rfl
  | cons t tokens ih =>
    by_cases ht : t.first < place
    · rw [List.filter_cons_of_pos (by simpa using ht)]
      exact (List.prefix_cons_inj t).mpr (ih h.tail)
    · have hlater : ∀ u ∈ t :: tokens, ¬ u.first < place :=
        fun u hu hlt => ht ((h.head_le u hu).trans_lt hlt)
      rw [List.filter_eq_nil_iff.mpr (by simpa using hlater)]
      exact List.nil_prefix

end Ordered

namespace Signature

variable {depth : Nat} {toks front back : List Token} {place : Position}

theorem commasAt_append (depth : Nat) (front back : List Token) :
    commasAt depth (front ++ back) =
      commasAt depth front + commasAt (openAfter depth front) back := by
  induction front generalizing depth with
  | nil => exact (Nat.zero_add _).symm
  | cons t front ih =>
    rw [List.cons_append, commasAt, commasAt, ih, Nat.add_assoc]
    rfl

/-- Comments are no commas and open no brackets. -/
theorem commasAt_filter (depth : Nat) (toks : List Token) :
    commasAt depth (toks.filter (!·.kind.isComment)) = commasAt depth toks := by
  induction toks generalizing depth with
  | nil => rfl
  | cons t toks ih =>
    cases ht : t.kind.isComment with
    | true =>
      have hcomma : t.kind ≠ .mark .comma := fun hk => by rw [hk] at ht; cases ht
      rw [List.filter_cons_of_neg (by simp [ht]), commasAt, if_neg (by simp [hcomma]),
        TokenKind.depthAfter_of_isComment ht, Nat.zero_add, ih]
    | false => rw [List.filter_cons_of_pos (by simp [ht]), commasAt, commasAt, ih]

/-- No comma outside brackets is counted where none is found. -/
theorem commasAt_of_none {stops : List TokenKind} (hs : .mark .comma ∈ stops)
    (h : splitAtStop? stops depth toks = none) : commasAt depth toks = 0 := by
  induction toks generalizing depth with
  | nil => rfl
  | cons t toks ih =>
    rw [splitAtStop?] at h
    split at h
    · cases h
    · rename_i hstop
      have hcomma : ¬ (depth = 0 ∧ t.kind = .mark .comma) := fun h => hstop ⟨h.1, h.2 ▸ hs⟩
      rw [commasAt, if_neg hcomma, Nat.zero_add]
      exact ih (Option.map_eq_none_iff.mp h)

theorem commasAt_closed (h : Closed [.mark .comma] toks) (back : List Token) :
    commasAt 0 (toks ++ back) = commasAt 0 back := by
  rw [commasAt_append, commasAt_of_none (by simp) (h.none 0), h.level, Nat.zero_add]

/-- Of tokens that close their brackets no part up to some place has a comma to count. -/
theorem commasAt_before_closed (h : Closed [.mark .comma] toks) (ho : Ordered toks)
    (place : Position) : commasAt 0 (toks.filter (·.first < place)) = 0 := by
  obtain ⟨later, hlater⟩ := ho.filter_before_prefix place
  have hall := commasAt_closed h []
  rw [List.append_nil, ← hlater, commasAt_append] at hall
  exact Nat.eq_zero_of_add_eq_zero_right hall

end Signature

namespace Grammar

variable {sub : SubPhrase} {levels : Nat} {toks : List Token} {stop : Token} {e : Expr}

/-- Without errors an argument covers its tokens. -/
theorem argument_fills (hsub : SubFills sub) (h : Argument (Gaps.none levels) sub toks stop e)
    (ho : Ordered toks) : (Node.expr e).Fills toks := by
  cases h with
  | value hv => exact hsub hv ho
  | block hb _ => exact argument_block_fills hsub hb ho
  | failed hpassed _ => exact hpassed.elim

/-- The arguments of a call are read from the tokens between its parentheses. -/
theorem items_inside {args : List Expr}
    (h : Items (Argument (Gaps.none levels) (Expression Gaps.none levels)) toks stop args)
    (ho : Ordered toks) : ∀ arg ∈ args, Inside toks arg.span := by
  induction h with
  | last ha =>
    exact List.forall_mem_singleton.mpr
      (argument_fills (expression_fills levels) ha ho).covers.toInside
  | @cons toks rest comma _ _ _ ha _ _ ih =>
    refine List.forall_mem_cons.mpr ⟨?_, fun arg harg => ?_⟩
    · exact (argument_fills (expression_fills levels) ha ho.left).covers.toInside.mono (by simp)
    · exact (ih ho.right.tail arg harg).mono (by simp)

/-- As many commas are in front of a place in an argument as there are arguments. -/
theorem commasAt_items {args : List Expr}
    (h : Items (Argument (Gaps.none levels) (Expression Gaps.none levels)) toks stop args)
    (ho : Ordered toks) {k : Nat} {arg : Expr} (harg : args[k]? = some arg) {place : Position}
    (hfirst : arg.span.first ≤ place)
    (hlast : place ≤ ⟨arg.span.last.line, arg.span.last.column + 1⟩) :
    Signature.commasAt 0 (toks.filter (·.first < place)) = k := by
  have hclosed {toks : List Token} {stop : Token} {e : Expr}
      (h : Argument (Gaps.none levels) (Expression Gaps.none levels) toks stop e) :=
    argument_closed (expression_closed levels) h
  induction h generalizing k with
  | last ha =>
    obtain rfl : k = 0 := by
      have := (List.getElem?_eq_some_iff.mp harg).1
      simpa using this
    exact Signature.commasAt_before_closed (hclosed ha) ho place
  | @cons toks rest comma stop a args ha hcomma hrest ih =>
    rw [List.filter_append]
    cases k with
    | zero =>
      -- What stands behind the argument is not in front of the place.
      cases harg
      obtain ⟨b, hb, hend⟩ := (argument_fills (expression_fills levels) ha ho.left).covers.last
      have hbehind : ∀ u ∈ comma :: rest, ¬ u.first < place := by
        intro u hu hbefore
        have hle := (Position.le_left_of_lt hbefore).trans (Position.left_le_of_le_succ hlast)
        exact absurd (hle.trans hend) (not_le_of_gt (ho.lt hb hu))
      have hnone : (comma :: rest).filter (·.first < place) = [] :=
        List.filter_eq_nil_iff.mpr (by simpa using hbehind)
      rw [hnone, List.append_nil]
      exact Signature.commasAt_before_closed (hclosed ha) ho.left place
    | succ k =>
      -- All tokens in front of the later arguments are in front of the place.
      obtain ⟨b, hb, hstart⟩ :=
        (items_inside hrest ho.right.tail arg (List.mem_of_getElem? harg)).first
      have hbefore : ∀ u ∈ toks ++ [comma], u.first < place := by
        intro u hu
        have ho' : Ordered ((toks ++ [comma]) ++ rest) := by simpa using ho
        exact (ho'.left.forward u hu).trans_lt ((ho'.lt hu hb).trans_le (hstart.trans hfirst))
      simp only [List.mem_append, List.mem_singleton, or_imp, forall_and, forall_eq] at hbefore
      rw [List.filter_eq_self.mpr (by simpa using hbefore.1),
        List.filter_cons_of_pos (by simpa using hbefore.2), Signature.commasAt_closed (hclosed ha),
        Signature.commasAt, if_pos ⟨rfl, hcomma⟩, hcomma]
      have hlater : Signature.commasAt 0 (rest.filter (·.first < place)) = k :=
        ih ho.right.tail harg
      rw [show TokenKind.depthAfter 0 (.mark .comma) = 0 from rfl, hlater, Nat.add_comm]

end Grammar

namespace CallSite

/-- The last call on a way through the tree is the innermost one. -/
theorem innermost?_append (up below : List Node) {node : Node} {site : CallSite}
    (hsite : node.expr?.bind ofExpr? = some site)
    (hbelow : ∀ other ∈ below, other.expr?.bind ofExpr? = none) :
    innermost? (up ++ node :: below) = some site := by
  have hnone : below.reverse.findSome? (fun node => node.expr?.bind ofExpr?) = none :=
    List.findSome?_eq_none_iff.mpr fun other hother => hbelow other (List.mem_reverse.mp hother)
  rw [innermost?, List.reverse_append, List.reverse_cons, List.append_assoc, List.findSome?_append,
    hnone, List.singleton_append, List.findSome?_cons, hsite]
  rfl

end CallSite

namespace Expr

variable {e : Expr} {place : Position}

/-- No call or macro inside the expression is around the place. -/
def InnermostAt (place : Position) (e : Expr) : Prop :=
  ∀ inner, .expr inner ∈ (Node.expr e).walk.tail → (CallSite.ofExpr? inner).isSome →
    ¬ inner.span.contains place

theorem innermostAt_iff : e.InnermostAt place ↔ ∀ node ∈ (Node.expr e).walk.tail,
    ∀ inner ∈ node.expr?, (CallSite.ofExpr? inner).isSome → ¬ inner.span.contains place := by
  constructor
  · intro h node hnode inner hinner
    cases node with
    | expr e' =>
      obtain rfl := Option.some.inj hinner
      exact h e' hnode
    | _ => cases hinner
  · exact fun h inner hinner => h _ hinner inner rfl

instance : Decidable (e.InnermostAt place) := decidable_of_iff' _ innermostAt_iff

end Expr

theorem Document.signatureHelp_of_around {d : Document} {place : Position} {site : CallSite}
    (h : d.callAround place false = .ok (some site)) :
    d.signatureHelp place false = .ok (d.helpFor? place site) := by
  rw [signatureHelp, h]
  rfl

open Grammar

/-- A call is found from every place inside it that is in no other call inside it. -/
theorem callAround_eq {source : String} (hsize : byteLength source.toList < 0x100000000)
    {e : Expr} {site : CallSite} (hcall : .expr e ∈ (Node.program (parse source).program).walk)
    (hsite : CallSite.ofExpr? e = some site) {place : Position}
    (hplace : e.span.contains (place.left 1))
    (hinner : e.InnermostAt (place.left 1)) :
    (Document.ofSource source).callAround place false = .ok (some site) := by
  have hnested := parse_program_nested hsize
  have hprogram : (parse source).program.span.contains (place.left 1) :=
    Span.contains_of_encloses (hnested.of_mem_walk hcall).2.2 hplace
  have hhead (node : Node) (h : node.span.contains (place.left 1)) :
      node.walk.filter (·.span.contains (place.left 1)) =
        node :: node.walk.tail.filter (·.span.contains (place.left 1)) := by
    rw [Node.walk_eq, List.tail_cons, List.filter_cons, if_pos h]
  have hsuffix := hnested.filter_walk_suffix hcall hplace
  rw [hhead (.expr e) hplace, hhead (.program _) hprogram,
    List.suffix_cons_iff] at hsuffix
  obtain ⟨up, hup⟩ := hsuffix.resolve_left fun heq => by cases heq
  have haround := Program.enclosing_of_nested hnested hprogram
  rw [← hup] at haround
  have hbelow : ∀ other ∈ (Node.expr e).walk.tail.filter (·.span.contains (place.left 1)),
      other.expr?.bind CallSite.ofExpr? = none := by
    intro other hother
    obtain ⟨hmem, hcontains⟩ := List.mem_filter.mp hother
    cases other with
    | expr e' =>
      exact Option.not_isSome_iff_eq_none.mp fun hsome => hinner e' hmem hsome hcontains
    | _ => rfl
  have hinnermost :=
    CallSite.innermost?_append up _ (show (Node.expr e).expr?.bind _ = _ from hsite)
    hbelow
  have henclosing : (Document.ofSource source).program.enclosing (place.left 1) false = _ := haround
  rw [Document.callAround, henclosing]
  exact congrArg Except.ok hinnermost

/-- The tokens of a call without errors stand together, with its arguments between the
parentheses. -/
theorem exists_tokens_of_call {source : String} (h : (parse source).errors = []) {t l r : Token}
    {args : List Expr}
    (hcall : .expr (.call t l args r) ∈ (Node.program (parse source).program).walk) :
    t.kind = .builtin ∧ l.kind = .mark .lparen ∧ r.kind = .mark .rparen ∧ ∃ levels toks,
      t :: l :: toks ++ [r] <:+: (tokenize source).filter (!·.kind.isComment) ∧
        (toks = [] ∧ args = [] ∨
          Items (Argument (Gaps.none levels) (Expression Gaps.none levels)) toks r args) := by
  obtain ⟨levels, own, next, hown, hprimary⟩ := parse_located h _ hcall rfl
  cases hprimary with
  | callUnit hk hl hr => exact ⟨hk, hl, hr, levels, [], hown, .inl ⟨rfl, rfl⟩⟩
  | call hk hl _ hargs hr => exact ⟨hk, hl, hr, levels, _, hown, .inr hargs⟩

/-- The commas of a call up to a place in front of its end are those among its arguments. -/
theorem countCommas_eq {source : String} (hsize : byteLength source.toList < 0x100000000)
    {t l r : Token} {toks : List Token}
    (hown : t :: l :: toks ++ [r] <:+: (tokenize source).filter (!·.kind.isComment))
    {place : Position} (hplace : place ≤ r.first) :
    Signature.countCommas (tokenize source) l place =
      Signature.commasAt 0 (toks.filter (·.first < place)) := by
  obtain ⟨front, back, hall⟩ := hown
  replace hall : (tokenize source).filter (!·.kind.isComment) =
      (front ++ [t]) ++ l :: (toks ++ r :: back) := by rw [← hall]; simp
  have hsub : ((tokenize source).filter (!·.kind.isComment)).Sublist (tokenize source) :=
    List.filter_sublist
  have ho := (Token.ofChars_ordered hsize).left.sublist hsub
  have hbytes : ((tokenize source).filter (!·.kind.isComment)).Pairwise (·.stop ≤ ·.start) :=
    (Token.scan_pairwise (Nat.zero_add _)).sublist hsub
  have hpos : ∀ u ∈ (tokenize source).filter (!·.kind.isComment), u.start < u.stop :=
    fun u hu => (Token.start_lt_stop (hsub.subset hu)).1
  rw [hall] at ho hbytes hpos
  have hl := hpos l (by simp)
  have hfront : (front ++ [t]).filter
      (fun u => decide (l.stop ≤ u.start ∧ u.first < place)) = [] := by
    refine List.filter_eq_nil_iff.mpr fun u hu hkept => ?_
    have hlt := hpos u (List.mem_append_left _ hu)
    have hle := (List.pairwise_append.mp hbytes).2.2 u hu l List.mem_cons_self
    have hbehind := (of_decide_eq_true hkept).1
    omega
  have htoks : toks.filter (fun u => decide (l.stop ≤ u.start ∧ u.first < place)) =
      toks.filter (·.first < place) := by
    refine List.filter_congr fun u hu => ?_
    have hbehind := List.rel_of_pairwise_cons (List.pairwise_append.mp hbytes).2.1
      (List.mem_append_left (r :: back) hu)
    simp [hbehind]
  have hback : (r :: back).filter
      (fun u => decide (l.stop ≤ u.start ∧ u.first < place)) = [] := by
    refine List.filter_eq_nil_iff.mpr fun u hu hkept => ?_
    have hle := hplace.trans (ho.right.tail.right.head_le u hu)
    exact absurd (of_decide_eq_true hkept).2 (not_lt_of_ge hle)
  rw [Signature.countCommas, ← Signature.commasAt_filter, List.filter_comm, hall,
    List.filter_append (front ++ [t]), hfront, List.filter_cons_of_neg (by simp; omega),
    List.filter_append toks, htoks, hback, List.nil_append, List.append_nil]

/-- The character before a place between the parentheses of a call is within the call. -/
theorem call_contains_left {t l r : Token} {args : List Expr} {toks back : List Token}
    {place : Position} (ho : Ordered (t :: l :: (toks ++ r :: back))) (hl : l.first < place)
    (hr : place ≤ r.first) : (Expr.call t l args r).span.contains (place.left 1) :=
  Span.contains_iff.mpr
    ⟨Position.le_left_of_lt ((ho.head_le l (by simp)).trans_lt hl),
      (Position.left_le place 1).trans (hr.trans (ho.forward r (by simp)))⟩

/-- In a text without errors, and from the start of an argument up to one column past its end,
signature help shows the signature of the called function, each parameter at the place of its label,
and tells the parameter that takes this argument, unless there is another call around the character
before the cursor. -/
theorem signatureHelp_argument {source : String} (hsize : byteLength source.toList < 0x100000000)
    (h : (parse source).errors = []) {t l r : Token} {args : List Expr}
    (hcall : .expr (.call t l args r) ∈ (Node.program (parse source).program).walk) {k : Nat}
    {arg : Expr} (harg : args[k]? = some arg) {place : Position} (hfirst : arg.span.first ≤ place)
    (hlast : place ≤ ⟨arg.span.last.line, arg.span.last.column + 1⟩)
    (hinner : (Expr.call t l args r).InnermostAt (place.left 1)) :
    ∃ f help, Catalog.lookup? t.literal = some f ∧
      (Document.ofSource source).signatureHelp place false = .ok (some help) ∧
      help.label = f.signature ∧ help.active = f.paramIndex k ∧
      List.Forall₂ (fun p shown => Text.StandsAt f.signature.toList p.label.toList shown.range)
        f.params help.params := by
  obtain ⟨hk, -, -, levels, toks, hown, hargs⟩ := exists_tokens_of_call h hcall
  replace hargs := hargs.resolve_left fun ⟨_, hnil⟩ => by
    rw [hnil] at harg
    cases harg
  have hsub : (t :: l :: toks ++ [r]).Sublist (tokenize source) :=
    hown.sublist.trans List.filter_sublist
  have ho := (Token.ofChars_ordered hsize).left.sublist hsub
  obtain ⟨f, hf⟩ : ∃ f, Catalog.lookup? t.literal = some f :=
    (tokenize_isRead (hsub.subset (by simp))).exists_function hk
  -- The argument lies between the parentheses, and so does the place but for its last column.
  have ho' : Ordered (t :: l :: (toks ++ [r])) := ho
  have hin := items_inside hargs ho'.tail.tail.left arg (List.mem_of_getElem? harg)
  obtain ⟨a, ha, hstart⟩ := hin.first
  obtain ⟨b, hb, hend⟩ := hin.last
  have hleft := Position.left_le_of_le_succ hlast
  have hbr : b.last < r.first := ho'.tail.tail.lt hb (List.mem_singleton_self r)
  have hplace : place ≤ r.first := by
    by_contra hbehind
    have hle := Position.le_left_of_lt (not_le.mp hbehind)
    exact absurd ((hle.trans hleft).trans hend) (not_le_of_gt hbr)
  have hla : l.first < a.first :=
    (ho.forward l (by simp)).trans_lt (List.rel_of_pairwise_cons ho'.tail.pairwise (by simp [ha]))
  have hcontains : (Expr.call t l args r).span.contains (place.left 1) :=
    call_contains_left ho' (hla.trans_le (hstart.trans hfirst)) hplace
  have haround := callAround_eq hsize hcall rfl hcontains hinner
  have hcommas : Signature.countCommas (Document.ofSource source).tokens l place = k := by
    rw [Document.ofSource_tokens, countCommas_eq hsize hown hplace]
    exact commasAt_items hargs ho'.tail.tail.left harg hfirst hlast
  have hhelp : (Document.ofSource source).signatureHelp place false =
      .ok (some (.ofFunction f k)) := by
    rw [Document.signatureHelp_of_around haround, Document.helpFor?, Catalog.lookup?_lowercase, hf,
      Option.map_some, hcommas]
  have hsignature := Catalog.byteLength_signature f (Catalog.of_lookup? hf).1
  exact ⟨f, .ofFunction f k, hf, hhelp, rfl, SignatureHelp.ofFunction_active hsignature k,
    SignatureHelp.ofFunction_standAt hsignature k⟩

/-- Some call at or below the node passes the test. -/
def Node.anyCall (node : Node) (test : Token → Token → List Expr → Token → Bool) : Bool :=
  node.walk.any fun
    | .expr (.call t l args r) => test t l args r
    | _ => false

theorem Node.anyCall_iff {node : Node} {test : Token → Token → List Expr → Token → Bool} :
    node.anyCall test ↔
      ∃ t l args r, .expr (.call t l args r) ∈ node.walk ∧ test t l args r := by
  refine List.any_eq_true.trans ⟨?_, ?_⟩
  · rintro ⟨node', hnode, htest⟩
    cases node' with
    | expr e =>
      cases e with
      | call t l args r => exact ⟨t, l, args, r, hnode, htest⟩
      | _ => cases htest
    | _ => cases htest
  · rintro ⟨t, l, args, r, hcall, htest⟩
    exact ⟨_, hcall, htest⟩

theorem signatureHelp_argument_behind_call :
    let d := Document.ofSource "IF(x in [\"a\", \"b\"], max(1, (2)),\n /* , */ 3)"
    byteLength d.source.toList < 0x100000000 ∧ (parse d.source).errors = [] ∧
      (∃ t l args r arg, .expr (.call t l args r) ∈ (Node.program (parse d.source).program).walk ∧
        t.literal = "IF" ∧ args[2]? = some arg ∧ arg.span = ⟨⟨1, 9⟩, ⟨1, 9⟩⟩ ∧
        (Expr.call t l args r).InnermostAt ⟨1, 9⟩) ∧
      ∃ help, d.signatureHelp ⟨1, 10⟩ false = .ok (some help) ∧
        help.label = "if(condition: boolean, then: any, else: any)" ∧
        help.active = 2 := by
  intro d
  let test (t l : Token) (args : List Expr) (r : Token) : Bool :=
    t.literal == "IF" && args[2]?.any (·.span == ⟨⟨1, 9⟩, ⟨1, 9⟩⟩) &&
      decide ((Expr.call t l args r).InnermostAt ⟨1, 9⟩)
  -- all at once, for the kernel computes the names of the catalog anew in each proof
  obtain ⟨hsize, herrors, hany⟩ : byteLength d.source.toList < 0x100000000 ∧
      (parse d.source).errors = [] ∧ (Node.program (parse d.source).program).anyCall test := by
    decide +kernel
  obtain ⟨t, l, args, r, hcall, htest⟩ := Node.anyCall_iff.mp hany
  simp only [test, Bool.and_eq_true, beq_iff_eq, decide_eq_true_eq] at htest
  obtain ⟨⟨hname, harg⟩, hinner⟩ := htest
  obtain ⟨arg, harg, hspan⟩ := (Option.any_eq_true _ _).mp harg
  have hspan := eq_of_beq hspan
  have hfirst : arg.span.first ≤ ⟨1, 10⟩ := by rw [hspan]; decide
  have hlast : ⟨1, 10⟩ ≤ Position.mk arg.span.last.line (arg.span.last.column + 1) := by rw [hspan]
  obtain ⟨f, help, hf, hhelp, hlabel, hactive, -⟩ :=
    signatureHelp_argument hsize herrors hcall harg hfirst hlast hinner
  have hsignature : ∀ f ∈ Catalog.lookup? "IF", f.signature =
      "if(condition: boolean, then: any, else: any)" ∧ f.paramIndex 2 = 2 := by
    decide +kernel
  rw [hname] at hf
  obtain ⟨hshown, hthird⟩ := hsignature f hf
  exact ⟨hsize, herrors, ⟨t, l, args, r, arg, hcall, hname, harg, hspan, hinner⟩, help, hhelp,
    hlabel.trans hshown, hactive.trans hthird⟩

end PayFormula
