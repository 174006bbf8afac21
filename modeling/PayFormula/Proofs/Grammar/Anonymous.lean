import PayFormula.Proofs.Grammar.Names
import PayFormula.Proofs.Reading.Mirrored
import PayFormula.Proofs.Scope.Declared
import PayFormula.Proofs.Token.Order
import PayFormula.Proofs.Token.Reads

/-!
# Programs up to names

Texts whose tokens differ in names only have programs of one shape. Their
identifiers stand in the same order, each at the same token of its text, and so
do their bindings.
-/
namespace PayFormula

namespace Token

instance : DecidablePred IsName := fun t =>
  decidable_of_iff
    (t.kind = .ident ∧ t.literal ≠ "" ∧ t.literal ≠ "_" ∧ Word.isReserved t.literal = false)
    ⟨fun ⟨hk, hempty, hblank, hreserved⟩ => ⟨hk, hempty, hblank, hreserved⟩,
      fun h => ⟨h.kind, h.nonempty, h.not_blank, h.not_reserved⟩⟩

/-- A token without its place, and without its text if that is a name. -/
def anonymous (t : Token) : Token :=
  ⟨t.kind, if t.IsName then standIn else t.literal, .origin, .origin, 0, 0⟩

/-- An anonymous token that still tells which one of some tokens it is. -/
def numbered (tokens : List Token) (t : Token) : Token :=
  { t.anonymous with start := tokens.idxOf t }

theorem anonymous_renames : Renames anonymous :=
  ⟨fun _ => rfl, fun h => if_pos h, fun h => if_neg h⟩

theorem numbered_renames (tokens : List Token) : Renames (numbered tokens) :=
  ⟨fun _ => rfl, fun h => if_pos h, fun h => if_neg h⟩

theorem anonymous_congr {t t' : Token} (hk : t.kind = t'.kind) (hl : t.literal = t'.literal) :
    t.anonymous = t'.anonymous := by
  have hname : t.IsName ↔ t'.IsName :=
    ⟨fun h => ⟨hk ▸ h.kind, hl ▸ h.nonempty, hl ▸ h.not_blank, hl ▸ h.not_reserved⟩,
      fun h => ⟨hk ▸ h.kind, hl ▸ h.nonempty, hl ▸ h.not_blank, hl ▸ h.not_reserved⟩⟩
  simp only [anonymous, hk, hl, hname]

theorem anonymous_of_isName {t t' : Token} (h : t.IsName) (h' : t'.IsName) :
    t.anonymous = t'.anonymous := by
  simp only [anonymous, if_pos h, if_pos h', h.kind, h'.kind]

end Token

theorem map_numbered {tokens tokens' : List Token} (hn : tokens.Nodup) (hn' : tokens'.Nodup)
    (h : tokens.map Token.anonymous = tokens'.map Token.anonymous) :
    tokens.map (Token.numbered tokens) = tokens'.map (Token.numbered tokens') := by
  have hlength := congrArg List.length h
  rw [List.length_map, List.length_map] at hlength
  refine List.ext_getElem (by rwa [List.length_map, List.length_map]) fun n hlt hlt' => ?_
  rw [List.length_map] at hlt hlt'
  have hanonymous : tokens[n].anonymous = tokens'[n].anonymous := by
    have hget := congrArg (·[n]?) h
    simpa [hlt, hlt'] using hget
  rw [List.getElem_map, List.getElem_map, Token.numbered, Token.numbered, hn.idxOf_getElem,
    hn'.idxOf_getElem, hanonymous]

/-- Identifiers whose tokens stand at the same place in two rows of tokens. -/
def Ident.Corresponds (tokens tokens' : List Token) (i i' : Ident) : Prop :=
  ∃ n : Nat, tokens[n]? = some i.token ∧ tokens'[n]? = some i'.token

theorem Ident.corresponds_of_numbered {tokens tokens' : List Token} {i i' : Ident}
    (hi : i.token ∈ tokens) (hi' : i'.token ∈ tokens')
    (h : i.map (Token.numbered tokens) = i'.map (Token.numbered tokens')) :
    i.Corresponds tokens tokens' i' := by
  have hindex : tokens.idxOf i.token = tokens'.idxOf i'.token :=
    congrArg (fun i : Ident => i.token.start) h
  refine ⟨tokens.idxOf i.token, List.getElem?_idxOf hi, ?_⟩
  rw [hindex]
  exact List.getElem?_idxOf hi'

theorem names_program_map {f f' : Token → Token} {p p' : Program}
    (h : p.statements.map (Statement.map f) = p'.statements.map (Statement.map f')) :
    (Node.program p).names.map (Ident.map f) = (Node.program p').names.map (Ident.map f') := by
  rw [← Node.names_map, ← Node.names_map, Node.names_of_ident?_none rfl,
    Node.names_of_ident?_none rfl]
  simp only [Node.map, Node.children, h]

theorem bound_program_map {f f' : Token → Token} {p p' : Program}
    (h : p.statements.map (Statement.map f) = p'.statements.map (Statement.map f')) :
    (Node.program p).bound.map (BindingOf.map f) =
      (Node.program p').bound.map (BindingOf.map f') := by
  rw [← Node.bound_map, ← Node.bound_map, Node.bound_of_binding?_none rfl,
    Node.bound_of_binding?_none rfl]
  simp only [Node.map, Node.children, h]

/-- The identifiers of a text are tokens of it. -/
theorem mem_tokenize_of_name {source : String} {i : Ident}
    (hi : i ∈ (Node.program (parse source).program).names) : i.token ∈ tokenize source :=
  (List.mem_filter.mp ((parse_named source).sublist.subset (List.mem_map_of_mem hi))).1

section Texts

variable {source source' : String} (hsize : byteLength source.toList < 0x100000000)
  (hsize' : byteLength source'.toList < 0x100000000)
  (h : (tokenize source).map Token.anonymous = (tokenize source').map Token.anonymous)
include h

/-- The statements differ in names only. -/
theorem parse_anonymous :
    (parse source).program.statements.map (Statement.map Token.anonymous) =
      (parse source').program.statements.map (Statement.map Token.anonymous) := by
  have hparse := parseTokens_map Token.anonymous_renames
  rw [parse, parse, ← hparse, ← hparse, h]
  rfl

include hsize hsize'

/-- The statements are the same even if tokens are told apart by their numbers. -/
theorem parse_numbered :
    (parse source).program.statements.map (Statement.map (Token.numbered (tokenize source))) =
      (parse source').program.statements.map
        (Statement.map (Token.numbered (tokenize source'))) := by
  have hordered := Token.ofChars_ordered hsize
  have hordered' := Token.ofChars_ordered hsize'
  have hmap : (tokenize source).map (Token.numbered (tokenize source)) =
      (tokenize source').map (Token.numbered (tokenize source')) :=
    map_numbered hordered.left.nodup hordered'.left.nodup h
  have hlength : (tokenize source).length = (tokenize source').length := by
    have hlength := congrArg List.length h
    rwa [List.length_map, List.length_map] at hlength
  -- the end token is none of the tokens
  have hend {text : String} (ho : Ordered (Token.ofChars text.toList ++
      [.endOf (LineIndex.ofString text)])) :
      (tokenize text).idxOf (.endOf (LineIndex.ofString text)) = (tokenize text).length :=
    List.idxOf_of_notMem fun hmem =>
      absurd (ho.lt hmem (List.mem_singleton_self _)) (not_lt_of_ge le_rfl)
  have heof : Token.numbered (tokenize source) (.endOf (LineIndex.ofString source)) =
      Token.numbered (tokenize source') (.endOf (LineIndex.ofString source')) := by
    rw [Token.numbered, Token.numbered, hend hordered, hend hordered', hlength]
    rfl
  rw [parse, parse, ← parseTokens_map (Token.numbered_renames _),
    ← parseTokens_map (Token.numbered_renames _), hmap, heof]

theorem names_correspond :
    List.Forall₂ (Ident.Corresponds (tokenize source) (tokenize source'))
      (Node.program (parse source).program).names (Node.program (parse source').program).names :=
  forall₂_of_map_eq (names_program_map (parse_numbered hsize hsize' h)) fun _ hi _ hi' =>
    Ident.corresponds_of_numbered (mem_tokenize_of_name hi) (mem_tokenize_of_name hi')

theorem bound_correspond :
    List.Forall₂ (fun b b' => b.name.Corresponds (tokenize source) (tokenize source') b'.name)
      (Node.program (parse source).program).bound (Node.program (parse source').program).bound :=
  forall₂_of_map_eq (bound_program_map (parse_numbered hsize hsize' h)) fun _ hb _ hb' heq =>
    Ident.corresponds_of_numbered (mem_tokenize_of_name (Node.name_mem_of_bound hb))
      (mem_tokenize_of_name (Node.name_mem_of_bound hb')) (congrArg BindingOf.name heq)

end Texts

end PayFormula
