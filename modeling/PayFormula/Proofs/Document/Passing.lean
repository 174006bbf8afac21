import PayFormula.Proofs.Document.Scan
import PayFormula.Proofs.Grammar.Closed
import PayFormula.Proofs.Token.Order

/-!
# What the search for a call passes over

On its way back from a place the search passes over brackets that are not open
there, with all between them: those that are closed in front of the place, and
those that are opened behind it. It also goes through a list that is open there.

In tokens that are read as one phrase it either goes on to what stands before
them, as if they were not there, or ends without a call, whatever that is. The
rules by which phrases are put together are rules for this as well. That no name
stands in front of a phrase matters for the second half alone: the phrase may
begin with a parenthesis, and behind the name of a function that would be a call.
-/
namespace PayFormula

/-- The place is behind an opening bracket and not behind the closing one. -/
def OpenAt (place : Position) (l r : Token) : Prop := l.first < place ∧ place ≤ r.first

instance {place : Position} {l r : Token} : Decidable (OpenAt place l r) :=
  inferInstanceAs (Decidable (_ ∧ _))

/-- Brackets that are not open at a place are in front of it or behind it with all between them. -/
theorem Ordered.all_or_none {l r : Token} {toks : List Token} {place : Position}
    (ho : Ordered (l :: toks ++ [r])) (h : ¬ OpenAt place l r) :
    (∀ t ∈ l :: toks ++ [r], t.first < place) ∨ ∀ t ∈ l :: toks ++ [r], ¬ t.first < place := by
  by_cases hl : l.first < place
  · left
    have hr : r.first < place := not_le.mp fun hplace => h ⟨hl, hplace⟩
    intro t ht
    rcases List.mem_append.mp ht with ht' | ht'
    · exact ((ho.left.forward t ht').trans_lt (ho.lt ht' (List.mem_singleton_self r))).trans hr
    · rwa [List.mem_singleton.mp ht']
  · right
    exact fun t ht hbefore => hl ((head_le ho t ht).trans_lt hbefore)

namespace CallSite

variable {place : Position} {t l r s : Token} {toks front back before : List Token}

/-- The call that is found by a search through tokens, the last one first. -/
def siteBefore? (place : Position) (before : List Token) : Option CallSite :=
  (openParen? place 0 before).bind fun (lparen, before) => ofParen? lparen before

/-- No call begins with a parenthesis behind the tokens. -/
def Unnamed (before : List Token) : Prop := ∀ lparen, ofParen? lparen before = none

/-- A keyword, or a mark that is neither bracket nor semicolon. -/
def isLead : TokenKind → Bool
  | .keyword _ => true
  | .mark m => m ∉ [.lparen, .rparen, .lbracket, .rbracket, .semicolon]
  | _ => false

theorem isLead_of_kind {kind : TokenKind} (h : t.kind = kind) (hk : isLead kind) :
    isLead t.kind := h ▸ hk

theorem unnamed_of_mark {m : Mark} (hk : t.kind = .mark m) (before : List Token) :
    Unnamed (t :: before) := by
  intro lparen
  rw [ofParen?, List.find?_cons_of_pos (by rw [hk]; rfl)]
  simp only [hk]

theorem unnamed_of_isLead (h : isLead t.kind) (before : List Token) : Unnamed (t :: before) := by
  cases hk : t.kind with
  | keyword w =>
    intro lparen
    rw [ofParen?, List.find?_cons_of_pos (by rw [hk]; rfl)]
    simp only [hk]
  | mark m => exact unnamed_of_mark hk before
  | _ => rw [hk] at h; cases h

theorem plain_of_isLead {kind : TokenKind} (h : isLead kind) : Plain kind := by
  cases kind with
  | mark m => cases m <;> first | cases h; done | simp [Plain, openings, closings]
  | keyword => simp [Plain, openings, closings]
  | _ => cases h

theorem plain_of_isFlat {kind : TokenKind} (h : kind.isFlat) : Plain kind :=
  ⟨(TokenKind.neither_of_isFlat h).1, (TokenKind.neither_of_isFlat h).2,
    (TokenKind.ne_of_isFlat h).2⟩

theorem plain_all_of_isFlat (h : ∀ t ∈ toks, t.kind.isFlat) : ∀ t ∈ toks, Plain t.kind :=
  fun t ht => plain_of_isFlat (h t ht)

/-! ### Brackets -/

theorem openParen?_all (h : ∀ t ∈ toks, ∀ depth before,
      openParen? place depth (t :: before) = openParen? place depth before)
    (depth : Nat) (before : List Token) :
    openParen? place depth (toks.reverse ++ before) = openParen? place depth before := by
  induction toks generalizing before with
  | nil => rfl
  | cons t toks ih =>
    obtain ⟨ht, htoks⟩ := List.forall_mem_cons.mp h
    rw [List.reverse_cons, List.append_assoc, ih htoks]
    exact ht depth before

theorem openParen?_behind_all (h : ∀ t ∈ toks, ¬ t.first < place) (depth : Nat)
    (before : List Token) :
    openParen? place depth (toks.reverse ++ before) = openParen? place depth before :=
  openParen?_all (fun t ht _ _ => openParen?_behind (h t ht)) depth before

theorem openParen?_plain_all (h : ∀ t ∈ toks, Plain t.kind) (depth : Nat) (before : List Token) :
    openParen? place depth (toks.reverse ++ before) = openParen? place depth before :=
  openParen?_all (fun t ht _ _ => openParen?_plain (h t ht)) depth before

theorem reverse_brackets (l r : Token) (toks before : List Token) :
    (l :: toks ++ [r]).reverse ++ before = r :: (toks.reverse ++ l :: before) := by simp

/-- Inside a bracket that is closed, tokens that close their brackets are passed over. -/
theorem openParen?_inside (h : ∀ t ∈ toks, t.first < place)
    (hc : splitAtStop? closings 0 toks = none) (depth : Nat) (before : List Token) :
    openParen? place (depth + openAfter 0 toks + 1) (toks.reverse ++ before) =
      openParen? place (depth + 1) before := by
  induction toks using List.reverseRecOn generalizing depth with
  | nil => rfl
  | append_singleton toks t ih =>
    simp only [List.mem_append, List.mem_singleton, or_imp, forall_and, forall_eq] at h
    obtain ⟨htoks, ht⟩ := h
    have hpasses (depth : Nat) := ih htoks (splitAtStop?_front hc) depth
    rw [List.reverse_append, openAfter_append]
    change openParen? place (depth + t.kind.depthAfter (openAfter 0 toks) + 1)
      (t :: (toks.reverse ++ before)) = _
    by_cases ho : t.kind ∈ openings
    · rw [depthAfter_of_opening ho, openParen?_opening ht ho, ← Nat.add_assoc, hpasses]
    · by_cases hclosing : t.kind ∈ closings
      · have hopen := openAfter_ne_zero hc hclosing
        have hdepth : depth + (openAfter 0 toks - 1) + 1 + 1 = depth + openAfter 0 toks + 1 := by
          omega
        rw [depthAfter_of_closing hclosing, openParen?_closing ht hclosing, hdepth, hpasses]
      · rw [depthAfter_of_neither ho hclosing]
        by_cases hsemi : t.kind = .mark .semicolon
        · rw [openParen?_semicolon_inside hsemi, hpasses]
        · rw [openParen?_plain ⟨ho, hclosing, hsemi⟩, hpasses]

/-- Brackets that are closed in front of the place are passed over with all between them. -/
theorem openParen?_group (h : ∀ t ∈ l :: toks ++ [r], t.first < place) (hl : l.kind ∈ openings)
    (hc : Closed [] toks) (hr : r.kind ∈ closings) (depth : Nat) (before : List Token) :
    openParen? place depth ((l :: toks ++ [r]).reverse ++ before) =
      openParen? place depth before := by
  simp only [List.cons_append, List.mem_cons, List.mem_append, List.not_mem_nil, or_false, or_imp,
    forall_and, forall_eq] at h
  obtain ⟨hlp, htoks, hrp⟩ := h
  have hinside := openParen?_inside htoks (hc.none 0) depth (l :: before)
  rw [hc.level, Nat.add_zero] at hinside
  rw [reverse_brackets, openParen?_closing hrp hr, hinside, openParen?_opening hlp hl]

/-- Brackets that are not open at the place are passed over. -/
theorem openParen?_shut (ho : Ordered (l :: toks ++ [r])) (h : ¬ OpenAt place l r)
    (hl : l.kind ∈ openings) (hc : Closed [] toks) (hr : r.kind ∈ closings) (depth : Nat)
    (before : List Token) :
    openParen? place depth ((l :: toks ++ [r]).reverse ++ before) =
      openParen? place depth before := by
  rcases ho.all_or_none h with hall | hnone
  · exact openParen?_group hall hl hc hr depth before
  · exact openParen?_behind_all hnone depth before

/-! ### Phrases -/

/-- A search that comes to the tokens goes on to what stands before them if they are clear, and ends
without a call if they are not. -/
structure Scans (place : Position) (toks : List Token) (clear : Prop) : Prop where
  passes : clear → ∀ before,
    openParen? place 0 (toks.reverse ++ before) = openParen? place 0 before
  stops : ¬ clear → ∀ before, Unnamed before → siteBefore? place (toks.reverse ++ before) = none

namespace Scans

variable {clear clear' inside : Prop}

theorem of_iff (hc : clear ↔ clear') (h : Scans place toks clear) : Scans place toks clear' :=
  propext hc ▸ h

theorem of_passes (h : ∀ before,
    openParen? place 0 (toks.reverse ++ before) = openParen? place 0 before) :
    Scans place toks True := ⟨fun _ => h, fun hn => (hn trivial).elim⟩

theorem plain (h : ∀ t ∈ toks, Plain t.kind) : Scans place toks True :=
  of_passes (openParen?_plain_all h 0)

theorem append (hf : Scans place front clear)
    (hu : ∀ before, Unnamed before → Unnamed (front.reverse ++ before))
    (hb : Scans place back clear') : Scans place (front ++ back) (clear ∧ clear') where
  passes h before := by
    rw [List.reverse_append, List.append_assoc, hb.passes h.2, hf.passes h.1]
  stops h before hbefore := by
    rw [List.reverse_append, List.append_assoc]
    by_cases h' : clear'
    · rw [siteBefore?, hb.passes h']
      exact hf.stops (fun hclear => h ⟨hclear, h'⟩) before hbefore
    · exact hb.stops h' _ (hu before hbefore)

/-- Plain tokens behind others. -/
theorem followed (h : Scans place toks clear) (hb : ∀ t ∈ back, Plain t.kind) :
    Scans place (toks ++ back) clear where
  passes hc before := by
    rw [List.reverse_append, List.append_assoc, openParen?_plain_all hb, h.passes hc]
  stops hc before hbefore := by
    rw [List.reverse_append, List.append_assoc, siteBefore?, openParen?_plain_all hb]
    exact h.stops hc before hbefore

/-- Tokens on both sides of a keyword or mark. -/
theorem join (hf : Scans place front clear) (ht : isLead t.kind) (hb : Scans place back clear') :
    Scans place (front ++ t :: back) (clear ∧ clear') := by
  have hfront := hf.followed (List.forall_mem_singleton.mpr (plain_of_isLead ht))
  have hall := hfront.append (fun before _ => by simpa using unnamed_of_isLead ht _) hb
  rwa [List.append_assoc] at hall

theorem lead (ht : isLead t.kind) (h : Scans place toks clear) :
    Scans place (t :: toks) clear :=
  (join (plain (List.forall_mem_nil _)) ht h).of_iff (and_iff_right trivial)

/-- Plain tokens in front of what is passed over. -/
theorem preceded (h : Scans place toks True) (hf : ∀ t ∈ front, Plain t.kind) :
    Scans place (front ++ toks) True := by
  refine of_passes fun before => ?_
  rw [List.reverse_append, List.append_assoc, h.passes trivial, openParen?_plain_all hf]

/-- A semicolon ends the search, as it ends a statement. -/
theorem semicolon (h : Scans place toks clear) (hs : s.kind = .mark .semicolon) :
    Scans place (toks ++ [s]) (clear ∧ ¬ s.first < place) where
  passes hc before := by
    rw [List.reverse_append, List.append_assoc]
    exact (openParen?_behind hc.2).trans (h.passes hc.1 before)
  stops hc before hbefore := by
    rw [List.reverse_append, List.append_assoc, siteBefore?]
    by_cases hplace : s.first < place
    · rw [List.reverse_singleton, List.singleton_append, openParen?_semicolon hplace hs]
      rfl
    · rw [List.reverse_singleton, List.singleton_append, openParen?_behind hplace]
      exact h.stops (fun hclear => hc ⟨hclear, hplace⟩) before hbefore

theorem shut (ho : Ordered (l :: toks ++ [r])) (h : ¬ OpenAt place l r) (hl : l.kind ∈ openings)
    (hc : Closed [] toks) (hr : r.kind ∈ closings) : Scans place (l :: toks ++ [r]) True :=
  of_passes (openParen?_shut ho h hl hc hr 0)

/-- The search goes through a list that is open at the place. -/
theorem list (ho : Ordered (l :: toks ++ [r])) (hl : l.kind = .mark .lbracket)
    (htoks : ∀ t ∈ toks, Plain t.kind) (hc : Closed [] toks) (hr : r.kind = .mark .rbracket) :
    Scans place (l :: toks ++ [r]) True := by
  by_cases h : OpenAt place l r
  · refine of_passes fun before => ?_
    rw [reverse_brackets, openParen?_behind (not_lt_of_ge h.2), openParen?_plain_all htoks,
      openParen?_lbracket hl]
  · exact shut ho h (by simp [hl, openings]) hc (by simp [hr, closings])

/-- A parenthesis with no name in front of it ends the search if it is open at the place. -/
theorem paren (ho : Ordered (l :: toks ++ [r])) (hl : l.kind = .mark .lparen)
    (hc : Closed [] toks) (hr : r.kind = .mark .rparen) (h : Scans place toks clear)
    (hinside : ¬ OpenAt place l r → inside) :
    Scans place (l :: toks ++ [r]) (¬ OpenAt place l r ∧ inside) where
  passes hshut before :=
    openParen?_shut ho hshut.1 (by simp [hl, openings]) hc (by simp [hr, closings]) 0 before
  stops hclear before hbefore := by
    have hopen : OpenAt place l r := by
      by_contra hshut
      exact hclear ⟨hshut, hinside hshut⟩
    rw [reverse_brackets, siteBefore?, openParen?_behind (not_lt_of_ge hopen.2)]
    by_cases hc' : clear
    · rw [h.passes hc', openParen?_lparen hopen.1 hl]
      exact hbefore l
    · exact h.stops hc' _ (unnamed_of_mark hl before)

end Scans

end CallSite

end PayFormula
