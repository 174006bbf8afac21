import PayFormula.Proofs.Reading.Between

/-!
# Relations between runs

Readers are built from a few primitive ones. So a relation between two runs that
the primitives respect, and that runs in sequence respect, holds between the runs
of a reader whose parts are related. The two runs may use different readers of
expressions, and need not start from the same cursor.

The tokens left bound every repetition, and any larger bound does as well. This
is why the runs may have different numbers of tokens left.

A reader that fails blames a token ahead, at which its cause is found: what the
token is a literal or a name of cannot be read, for example. So the relation has to
hold between failures of this kind only.
-/
namespace PayFormula

/-- What the cause of an error says of the token that is blamed. -/
def SyntaxError.Cause.FoundAt (t : Token) : SyntaxError.Cause → Prop
  | .reservedWord => Word.isReserved t.literal ∨ t.kind = .builtin ∨ ∃ w, t.kind = .keyword w
  | .blankName => t.kind = .ident ∧ (t.literal = "" ∨ t.literal = "_")
  | .lexical fault => t.kind = .illegal fault
  | .invalidDate error => t.kind = .date ∧ Date.ofChars t.literal.toList = .error error
  | .invalidTime error => t.kind = .time ∧ Clock.ofChars t.literal.toList = .error error
  | .invalidNumber =>
    (t.kind = .int ∨ t.kind = .float) ∧ Decimal.ofChars? t.literal.toList = none
  | _ => True

theorem Read.noPrimary_foundAt (t : Token) : (noPrimary t.kind).FoundAt t := by
  unfold noPrimary
  split
  · exact ‹t.kind = _›
  · trivial
  · split <;> trivial
  · trivial

/-- The error blames one of the tokens, and its cause is found there. -/
structure SyntaxError.Within (tokens : List Token) (e : SyntaxError) : Prop where
  token_mem : e.token ∈ tokens
  foundAt : e.cause.FoundAt e.token

namespace Cursor

/-- The tokens from the cursor to the end, both included. -/
def toEnd (c : Cursor) : List Token := c.rest ++ [c.eof]

theorem current_mem_toEnd (c : Cursor) : c.current ∈ c.toEnd := by
  rw [current, toEnd]
  cases c.rest <;> simp

/-- A cursor further on with the same end. -/
theorem toEnd_subset {c c' : Cursor} (hrest : c'.rest <:+ c.rest) (heof : c'.eof = c.eof) :
    c'.toEnd ⊆ c.toEnd := by
  rw [toEnd, toEnd, heof]
  exact List.append_subset.mpr
    ⟨fun _ ht => List.mem_append_left _ (hrest.subset ht), List.subset_append_right _ _⟩

theorem toEnd_advance_subset (c : Cursor) : c.advance.toEnd ⊆ c.toEnd :=
  toEnd_subset c.following_suffix rfl

theorem peek_mem_toEnd (c : Cursor) : c.peek ∈ c.toEnd :=
  c.toEnd_advance_subset c.advance.current_mem_toEnd

theorem length_following_le (c : Cursor) : c.following.length ≤ c.rest.length - 1 := by
  have h := c.following_suffix_tail.length_le
  rwa [List.length_tail] at h

theorem current_of_rest_nil {c : Cursor} (h : c.rest = []) : c.current = c.eof := by
  rw [current, h, List.headD_nil]

theorem peek_of_rest_nil {c : Cursor} (h : c.rest = []) : c.peek = c.eof := by
  rw [peek, following, h]
  rfl

theorem rest_ne_nil_of_isSolid {c : Cursor} (he : c.eof.kind = .eof) (hk : c.current.kind.isSolid) :
    c.rest ≠ [] := by
  rw [rest_eq_of_isSolid he hk]
  exact List.cons_ne_nil _ _

end Cursor

namespace Read

variable {α β : Type} {c : Cursor}

section Runs

/-- Readers that go on alike after all that a reader can yield. -/
theorem bind_run_congr {x : Read α} {f f' : α → Read β}
    (h : ∀ a c', Yields x c a c' → f' a c' = f a c') : (x >>= f') c = (x >>= f) c := by
  rcases yields_or_fails x c with ⟨a, c', hx⟩ | ⟨e, c', hx⟩
  · rw [bind_run, bind_run, hx]
    exact h a c' hx
  · rw [bind_run, bind_run, hx]

theorem ite_run_congr {p : Prop} [Decidable p] {x x' y : Read α} (h : p → x' c = x c) :
    (if p then x' else y) c = (if p then x else y) c := by
  by_cases hp : p
  · rw [if_pos hp, if_pos hp]
    exact h hp
  · rw [if_neg hp, if_neg hp]

end Runs

/-! ### Rounds of a repetition

As many rounds as tokens are left are enough, so more of them make no difference. -/

section Rounds

variable (he : c.eof.kind = .eof) {n m : Nat} (hn : c.rest.length ≤ n) (hm : n ≤ m)
include he hn hm

theorem strings_more : strings m c = strings n c := by
  induction n generalizing m c with
  | zero =>
    have hnil : c.rest = [] := List.length_eq_zero_iff.mp (Nat.le_zero.mp hn)
    cases m with
    | zero => rfl
    | succ m =>
      rw [strings, strings, peek_bind_run, Cursor.peek_of_rest_nil hnil, he, if_neg (by simp)]
  | succ n ih =>
    obtain ⟨m, rfl⟩ : ∃ k, m = k + 1 := ⟨m - 1, by omega⟩
    rw [strings, strings, peek_bind_run, peek_bind_run]
    apply ite_run_congr
    intro _
    rw [advance_bind_run, advance_bind_run, peek_bind_run, peek_bind_run]
    apply ite_run_congr
    intro _
    have h₁ := c.length_following_le
    have h₂ := c.advance.length_following_le
    rw [Cursor.advance_rest] at h₂
    rw [advance_bind_run, advance_bind_run, bind_run, bind_run, ih (c := c.advance.advance) he]
    · rw [Cursor.advance_rest]
      omega
    · omega

variable {sub : SubReader} (hs : ∀ power, Steady (sub power))
include hs

theorem bindings_more : bindings sub m c = bindings sub n c := by
  induction n generalizing m c with
  | zero =>
    have hnil : c.rest = [] := List.length_eq_zero_iff.mp (Nat.le_zero.mp hn)
    cases m with
    | zero => rfl
    | succ m =>
      rw [bindings, bindings, current_bind_run, Cursor.current_of_rest_nil hnil, he,
        if_neg (by simp)]
  | succ n ih =>
    obtain ⟨m, rfl⟩ : ∃ k, m = k + 1 := ⟨m - 1, by omega⟩
    rw [bindings, bindings, current_bind_run, current_bind_run]
    refine ite_run_congr fun hvar => bind_run_congr fun b c₁ hy => ?_
    have hp := (binding_steady hs).of_yields hy
    have hpos := List.length_pos_iff.mpr (Cursor.rest_ne_nil_of_isSolid he (by rw [hvar]; rfl))
    have h₁ := hp.rest.length_le
    have h₂ := c₁.length_following_le
    rw [advance_bind_run, advance_bind_run, bind_run, bind_run, ih (c := c₁.advance)]
    · rw [Cursor.advance_eof, hp.eof, he]
    · rw [Cursor.advance_rest]
      omega
    · omega

theorem macroArgs_more (hc : c.rest ≠ []) : macroArgs sub m c = macroArgs sub n c := by
  induction n generalizing m c with
  | zero => exact absurd (List.length_eq_zero_iff.mp (Nat.le_zero.mp hn)) hc
  | succ n ih =>
    obtain ⟨m, rfl⟩ : ∃ k, m = k + 1 := ⟨m - 1, by omega⟩
    rw [macroArgs, macroArgs, advance_bind_run, advance_bind_run]
    apply bind_run_congr
    intro arg c₁ hy
    have hp := (hs .lowest).of_yields hy
    have he₁ : c₁.eof.kind = .eof := hp.eof ▸ he
    have hpos := List.length_pos_iff.mpr hc
    have h₀ := c.length_following_le
    have h₁ := hp.rest.length_le
    have h₂ := c₁.length_following_le
    rw [Cursor.advance_rest] at h₁
    rw [peek_bind_run, peek_bind_run]
    apply ite_run_congr
    intro hcomma
    rw [advance_bind_run, advance_bind_run, bind_run, bind_run, ih (c := c₁.advance) he₁]
    · rw [Cursor.advance_rest]
      omega
    · omega
    · exact Cursor.rest_ne_nil_of_isSolid he₁ (by rw [Cursor.advance_current, hcomma]; rfl)

omit hn hm in
/-- An argument or its placeholder is read up to a token of the text. -/
theorem argumentOrPlaceholder_rest_ne_nil {c' : Cursor} {arg : Expr}
    (h : Yields (argumentOrPlaceholder sub) c arg c') : c'.rest ≠ [] := by
  rcases argumentOrPlaceholder_yields_iff.mp h with ⟨c₁, ha, rfl⟩ | ⟨err, c₁, -, hr⟩
  · have he₁ : c₁.eof.kind = .eof := ((argument_steady hs).of_yields ha).eof ▸ he
    rw [argument] at ha
    obtain ⟨inner, c₂, -, ha⟩ := bind_yields_iff.mp ha
    rw [peek_bind_yields_iff] at ha
    split at ha
    · rename_i hstop
      obtain ⟨-, rfl⟩ := pure_yields_iff.mp ha
      refine Cursor.rest_ne_nil_of_isSolid (c := c₁.advance) he₁ ?_
      rw [Cursor.advance_current]
      rcases hstop with hk | hk <;> rw [hk] <;> rfl
    · exact absurd ha not_fail_yields
  · obtain ⟨skipped, stop, hsplit, -, rfl⟩ := recover_yields_iff.mp hr
    obtain ⟨t, rest, rfl, -⟩ := splitAtStop?_stop hsplit
    exact List.cons_ne_nil t rest

theorem arguments_more (hc : c.rest ≠ []) : arguments sub m c = arguments sub n c := by
  induction n generalizing m c with
  | zero => exact absurd (List.length_eq_zero_iff.mp (Nat.le_zero.mp hn)) hc
  | succ n ih =>
    obtain ⟨m, rfl⟩ : ∃ k, m = k + 1 := ⟨m - 1, by omega⟩
    rw [arguments, arguments, advance_bind_run, advance_bind_run]
    apply bind_run_congr
    intro arg c₁ hy
    have hp := (argumentOrPlaceholder_steady hs).of_yields hy
    have hpos := List.length_pos_iff.mpr hc
    have h₀ := c.length_following_le
    have h₁ := hp.rest.length_le
    rw [Cursor.advance_rest] at h₁
    rw [current_bind_run, current_bind_run]
    split
    · rfl
    · rw [bind_run, bind_run, ih (hp.eof ▸ he)]
      · omega
      · omega
      · exact argumentOrPlaceholder_rest_ne_nil (c := c.advance) he hs hy

end Rounds

/-- As many rounds as tokens are left are enough. -/
def Enough (x : Nat → Read α) (c : Cursor) : Prop :=
  ∀ {n m}, c.rest.length ≤ n → n ≤ m → x m c = x n c

theorem Enough.bind {x : Nat → Read α} {f : α → Read β} (h : Enough x c) :
    Enough (fun n => x n >>= f) c := fun hn hm => by
  simp only [bind_run, h hn hm]

/-- A relation between runs from some cursor that the primitive readers and running in sequence
respect. In a repetition the other run may have another number of rounds, if they are enough. -/
structure Congruence (R : ∀ {α : Type}, Cursor → Read α → Read α → Prop) : Prop where
  pure {α : Type} {c : Cursor} (a : α) : R c (pure a) (pure a)
  throw {α : Type} {c : Cursor} {e : SyntaxError} (h : e.Within c.toEnd) :
    R c (throw e : Read α) (throw e)
  bind {α β : Type} {c : Cursor} {x x' : Read α} {f f' : α → Read β} (hx : R c x x')
    (hf : ∀ a c', Yields x c a c' → R c' (f a) (f' a)) : R c (x >>= f) (x' >>= f')
  current {c : Cursor} : R c current current
  peek {c : Cursor} : R c peek peek
  advance {c : Cursor} : R c advance advance
  remaining {α : Type} {c : Cursor} {x x' : Nat → Read α} (hx : ∀ n, R c (x n) (x' n))
    (henough : ∀ c' : Cursor, c'.eof.kind = .eof → c'.current = c.current → Enough x' c') :
    R c (remaining >>= x) (remaining >>= x')
  recovered {c : Cursor} {sub sub' : SubReader} (h : R c (argument sub) (argument sub')) :
    R c (argumentOrPlaceholder sub) (argumentOrPlaceholder sub')

namespace Congruence

variable {R : ∀ {α : Type}, Cursor → Read α → Read α → Prop} (hR : Congruence @R)

theorem ite {p : Prop} [Decidable p] {x x' y y' : Read α} (hx : p → R c x x')
    (hy : R c y y') : R c (if p then x else y) (if p then x' else y') := by
  by_cases hp : p
  · rw [if_pos hp, if_pos hp]
    exact hx hp
  · rwa [if_neg hp, if_neg hp]

include hR

theorem fail_current {cause : SyntaxError.Cause} (h : cause.FoundAt c.current) :
    R c (fail cause c.current : Read α) (fail cause c.current) :=
  hR.throw ⟨c.current_mem_toEnd, h⟩

theorem fail_peek {cause : SyntaxError.Cause} (h : cause.FoundAt c.peek) :
    R c (fail cause c.peek : Read α) (fail cause c.peek) := hR.throw ⟨c.peek_mem_toEnd, h⟩

theorem then_pure {x x' : Read α} (hx : R c x x') (f : α → β) :
    R c (x >>= fun a => Pure.pure (f a)) (x' >>= fun a => Pure.pure (f a)) :=
  hR.bind hx fun a _ _ => hR.pure (f a)

theorem current_then {f f' : Token → Read β} (h : R c (f c.current) (f' c.current)) :
    R c (Read.current >>= f) (Read.current >>= f') := hR.bind hR.current fun t c' hy => by
  cases hy
  exact h

theorem peek_then {f f' : Token → Read β} (h : R c (f c.peek) (f' c.peek)) :
    R c (Read.peek >>= f) (Read.peek >>= f') := hR.bind hR.peek fun t c' hy => by
  cases hy
  exact h

theorem advance_then {f f' : Unit → Read β} (h : R c.advance (f ()) (f' ())) :
    R c (Read.advance >>= f) (Read.advance >>= f') := hR.bind hR.advance fun _ c' hy => by
  cases hy
  exact h

theorem number (hk : c.current.kind = .int ∨ c.current.kind = .float) :
    R c (number c.current) (number c.current) := by
  unfold Read.number
  split
  · exact hR.pure _
  · exact hR.fail_current ⟨hk, ‹_›⟩

theorem date (hk : c.current.kind = .date) : R c (date c.current) (date c.current) := by
  unfold Read.date
  split
  · exact hR.pure _
  · exact hR.fail_current ⟨hk, ‹_›⟩

theorem time (hk : c.current.kind = .time) : R c (time c.current) (time c.current) := by
  unfold Read.time
  split
  · exact hR.pure _
  · exact hR.fail_current ⟨hk, ‹_›⟩

theorem ident (hk : c.current.kind = .ident) : R c ident ident := by
  refine hR.current_then ?_
  split
  · exact hR.fail_current ⟨hk, ‹_›⟩
  · split
    · exact hR.fail_current (.inl ‹_›)
    · exact hR.pure _

theorem expect (kind : TokenKind) : R c (expect kind) (expect kind) :=
  hR.peek_then (ite (fun _ => hR.advance_then (hR.pure _)) (hR.fail_peek trivial))

theorem expectClosing (opening closing : Mark) :
    R c (expectClosing opening closing) (expectClosing opening closing) :=
  hR.peek_then (ite (fun _ => hR.advance_then (hR.pure _)) (hR.fail_peek trivial))

theorem expectName : R c expectName expectName := by
  refine hR.peek_then ?_
  split
  · exact hR.advance_then (hR.ident ‹_›)
  · exact hR.fail_peek (.inr (.inl ‹_›))
  · exact hR.fail_peek (.inr (.inr ⟨_, ‹_›⟩))
  · exact ite (fun h => hR.fail_peek (.inl h.2)) (hR.fail_peek trivial)
  · exact hR.fail_peek trivial

theorem nameClause : R c nameClause nameClause :=
  hR.current_then (hR.then_pure hR.expectName _)

theorem strings (n : Nat) : R c (strings n) (strings n) := by
  induction n generalizing c with
  | zero => exact hR.pure _
  | succ n ih =>
    refine hR.peek_then (ite (fun _ => ?_) (hR.pure _))
    refine hR.advance_then (hR.peek_then (ite (fun _ => ?_) (hR.pure _)))
    exact hR.advance_then (hR.then_pure ih _)

theorem list : R c list list := by
  refine hR.current_then (hR.peek_then (ite (fun _ => ?_) (hR.fail_peek trivial)))
  refine hR.remaining (fun n => hR.bind (hR.strings n) fun _ _ _ => ?_) fun c' he _ => ?_
  · exact hR.then_pure (hR.expectClosing _ _) _
  · exact Enough.bind (strings_more he)

section Sub

variable {sub sub' : SubReader} (hs : ∀ {power c}, R c (sub power) (sub' power))
  (hsteady : ∀ power, Steady (sub' power))
include hs

theorem binding : R c (binding sub) (binding sub') := by
  refine hR.current_then (hR.bind hR.expectName fun _ _ _ => hR.bind (hR.expect _) fun _ _ _ =>
    hR.advance_then (hR.bind hs fun _ _ _ => hR.peek_then (ite (fun _ => ?_) ?_)))
  · exact hR.advance_then (hR.pure _)
  · exact hR.fail_peek trivial

theorem bindings (n : Nat) : R c (bindings sub n) (bindings sub' n) := by
  induction n generalizing c with
  | zero => exact hR.pure _
  | succ n ih =>
    refine hR.current_then (ite (fun _ => ?_) (hR.pure _))
    exact hR.bind (hR.binding hs) fun _ _ _ => hR.advance_then (hR.then_pure ih _)

theorem macroArgs (n : Nat) : R c (macroArgs sub n) (macroArgs sub' n) := by
  induction n generalizing c with
  | zero => exact hR.pure _
  | succ n ih =>
    refine hR.advance_then (hR.bind hs fun _ _ _ => hR.peek_then (ite (fun _ => ?_) (hR.pure _)))
    exact hR.advance_then (hR.then_pure ih _)

theorem unary (op : UnaryOp) : R c (unary op sub) (unary op sub') :=
  hR.current_then (hR.advance_then (hR.then_pure hs _))

theorem overClause : R c (overClause sub) (overClause sub') := by
  refine hR.current_then (hR.advance_then (hR.bind hs fun _ _ _ =>
    hR.peek_then (ite (fun _ => ?_) (hR.pure _))))
  exact hR.advance_then (hR.then_pure hR.nameClause _)

theorem filter : R c (filter sub) (filter sub') :=
  hR.current_then (hR.advance_then (hR.then_pure hs _))

theorem orderBy : R c (orderBy sub) (orderBy sub') := by
  refine hR.current_then (hR.bind (hR.expect _) fun _ _ _ => hR.advance_then (hR.bind hs
    fun key c₁ _ => hR.peek_then ?_))
  split
  · exact hR.advance_then (hR.pure _)
  · exact hR.advance_then (hR.pure _)
  · exact hR.pure _

include hsteady

theorem block : R c (block sub) (block sub') := by
  refine hR.remaining (fun n => hR.bind (hR.bindings hs n) fun _ _ _ => ?_) fun c' he _ => ?_
  · exact hR.then_pure hs _
  · exact Enough.bind fun hn hm => bindings_more he hn hm hsteady

theorem paren : R c (paren sub) (paren sub') := by
  refine hR.current_then (hR.peek_then (ite (fun _ => hR.advance_then (hR.pure _)) ?_))
  refine hR.advance_then (hR.bind (hR.block hs hsteady) fun _ _ _ => ?_)
  exact hR.then_pure (hR.expectClosing _ _) _

theorem macroCall : R c (macroCall sub) (macroCall sub') := by
  have close {c : Cursor} (f : Token → Token → Expr) :
      R c (Read.expectClosing .lparen .rparen >>= fun r =>
          Read.expectClosing .dollar .dollar >>= fun closing => Pure.pure (f r closing))
        (Read.expectClosing .lparen .rparen >>= fun r =>
          Read.expectClosing .dollar .dollar >>= fun closing => Pure.pure (f r closing)) :=
    hR.bind (hR.expectClosing _ _) fun _ _ _ => hR.then_pure (hR.expectClosing _ _) _
  refine hR.current_then (hR.bind hR.expectName fun name _ _ => hR.bind (hR.expect _)
    fun lparen c₁ hl => hR.peek_then (ite (fun _ => hR.bind (hR.pure []) fun _ _ _ => close _) ?_))
  obtain ⟨hlk, rfl, rfl⟩ := expect_yields_iff.mp hl
  refine hR.remaining (fun n => hR.bind (hR.macroArgs hs n) fun _ _ _ => close _) fun c' he hc => ?_
  refine Enough.bind fun hn hm => macroArgs_more he hn hm hsteady ?_
  exact Cursor.rest_ne_nil_of_isSolid he (by rw [hc, Cursor.advance_current, hlk]; rfl)

theorem argument : R c (argument sub) (argument sub') :=
  hR.bind (hR.block hs hsteady) fun _ _ _ =>
    hR.peek_then (ite (fun _ => hR.pure _) (hR.fail_peek trivial))

theorem arguments (n : Nat) : R c (arguments sub n) (arguments sub' n) := by
  induction n generalizing c with
  | zero => exact hR.peek_then (hR.fail_peek trivial)
  | succ n ih =>
    refine hR.advance_then (hR.bind (hR.recovered (hR.argument hs hsteady)) fun _ _ _ =>
      hR.current_then (ite (fun _ => hR.pure _) ?_))
    exact hR.then_pure ih _

theorem call : R c (call sub) (call sub') := by
  refine hR.current_then (hR.bind (hR.expect _) fun lparen c₁ hl => hR.peek_then
    (ite (fun _ => hR.advance_then (hR.pure _)) ?_))
  obtain ⟨hlk, rfl, rfl⟩ := expect_yields_iff.mp hl
  refine hR.remaining (fun n => hR.then_pure (hR.arguments hs hsteady n) _) fun c' he hc => ?_
  refine Enough.bind fun hn hm => arguments_more he hn hm hsteady ?_
  exact Cursor.rest_ne_nil_of_isSolid he (by rw [hc, Cursor.advance_current, hlk]; rfl)

theorem primary : R c (primary sub) (primary sub') := by
  refine hR.current_then ?_
  split
  · exact hR.number (.inl ‹_›)
  · exact hR.number (.inr ‹_›)
  · exact hR.then_pure (hR.ident ‹_›) _
  · exact hR.pure _
  · exact hR.pure _
  · exact hR.pure _
  · exact hR.date ‹_›
  · exact hR.time ‹_›
  · exact hR.unary hs _
  · exact hR.unary hs _
  · exact hR.paren hs hsteady
  · exact hR.macroCall hs hsteady
  · exact hR.call hs hsteady
  · exact hR.overClause hs
  · exact hR.filter hs
  · exact hR.orderBy hs
  · exact hR.then_pure hR.nameClause _
  · exact hR.then_pure hR.nameClause _
  · exact hR.then_pure hR.list _
  · exact hR.fail_current (noPrimary_foundAt _)

omit hs hsteady in
theorem member (left : Expr) : R c (member left) (member left) := by
  refine hR.current_then (hR.peek_then ?_)
  split
  · exact hR.advance_then (hR.then_pure hR.list _)
  · exact hR.advance_then (hR.then_pure hR.nameClause _)
  · exact hR.fail_peek trivial

omit hsteady in
theorem operator (left : Expr) : R c (operator sub left) (operator sub' left) := by
  refine hR.current_then ?_
  split
  · exact hR.member left
  · split
    · exact hR.advance_then (hR.then_pure hs _)
    · exact hR.fail_current (noPrimary_foundAt _)
  · exact hR.fail_current (noPrimary_foundAt _)

end Sub

/-- Readers of expressions with some levels left, and with more of them on the other side. -/
theorem expression_and_chain (more : Nat)
    (hzero : ∀ {power c}, R c (expression 0 power) (expression more power))
    (hchain : ∀ {power left c}, R c (chain 0 power left) (chain more power left)) (levels : Nat) :
    (∀ {power c}, R c (expression levels power) (expression (levels + more) power)) ∧
      ∀ {power left c}, R c (chain levels power left) (chain (levels + more) power left) := by
  induction levels with
  | zero =>
    rw [Nat.zero_add]
    exact ⟨hzero, hchain⟩
  | succ levels ih =>
    rw [Nat.succ_add]
    refine ⟨fun {power c} => ?_, fun {power left c} => ?_⟩
    · rw [expression, expression]
      exact hR.bind (hR.primary ih.1 (expression_steady _)) fun _ _ _ => ih.2
    · rw [chain, chain]
      refine hR.peek_then (ite (fun _ => ?_) (hR.pure _))
      exact hR.advance_then (hR.bind (hR.operator ih.1 left) fun _ _ _ => ih.2)

/-- The same reader of expressions on both sides. -/
theorem expression (levels : Nat) (power : Precedence) :
    R c (Read.expression levels power) (Read.expression levels power) := by
  refine (hR.expression_and_chain 0 (fun {power c} => ?_) (fun {power left c} => ?_) levels).1
  · rw [Read.expression]
    exact hR.current_then (hR.fail_current trivial)
  · rw [Read.chain]
    refine hR.peek_then (ite (fun _ => ?_) (hR.pure _))
    exact hR.advance_then (hR.current_then (hR.fail_current trivial))

theorem statement : R c statement statement := by
  refine hR.current_then ?_
  split
  · exact hR.then_pure (hR.binding (hR.expression _ _)) _
  · exact hR.pure _
  · exact hR.pure _
  · refine hR.bind (hR.expression _ _) fun value c₁ _ => hR.peek_then ?_
    exact ite (fun _ => hR.advance_then (hR.pure _)) (hR.pure _)

end Congruence

end Read

end PayFormula
