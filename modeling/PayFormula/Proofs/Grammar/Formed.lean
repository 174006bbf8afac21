import PayFormula.Proofs.Document.Edited
import PayFormula.Proofs.Grammar.Precedence
import PayFormula.Proofs.Tree.Pieces

/-!
# Well-formed trees

The trees that can be written down without parentheses of their own: each token
has the kind that its place asks for, each leaf a text that is one token, and the
operands of each operator are grouped as the binding powers have it. A tree that
was never read can be well-formed as well; it says nothing of places, and of how
marks and keywords are spelled.

A clause is an expression of its own that goes on as far as it can, so it stands
only where something closes it.
-/
namespace PayFormula

/-- A name that is accepted as one. -/
structure Ident.Formed (i : Ident) : Prop where
  kind : i.token.kind = .ident
  valid : validateName i.name = .ok ()

structure StringLiteral.Formed (s : StringLiteral) : Prop where
  kind : s.token.kind = .string
  unquoted : '"' ∉ s.value.toList

structure ListLiteral.Formed (l : ListLiteral) : Prop where
  lbracket : l.lbracket.kind = .mark .lbracket
  strings : ∀ s ∈ l.strings, s.Formed
  rbracket : l.rbracket.kind = .mark .rbracket

/-- A name behind a keyword. -/
structure NameClause.Formed (word : Keyword) (c : NameClause) : Prop where
  kind : c.token.kind = .keyword word
  name : c.name.Formed

def Collection.Formed : Collection → Prop
  | .list l => l.Formed
  | .set c => c.Formed .setWord

/-- What is written around the value of a binding. -/
structure BindingOf.Framed (b : Binding) : Prop where
  kind : b.token.kind = .keyword .varWord
  name : b.name.Formed
  semicolon : b.semicolon.kind = .mark .semicolon

/-- Where an expression stands. -/
inductive Role where
  /-- As an operand or on its own. -/
  | operand
  /-- In front of what closes it, so that it may be a clause. -/
  | whole
  /-- As an argument of a builtin function, so that it may be a block. -/
  | argument

/-- The expression can be written where it stands, and is read as it is. -/
inductive Expr.Formed : Role → Expr → Prop
  | number {t : Token} {d : Decimal} : Decimal.ofChars? t.literal.toList = some d →
      t.kind = (if '.' ∈ t.literal.toList then .float else .int) →
      Formed .operand (.number t d.toDouble)
  | string {s : StringLiteral} : s.Formed → Formed .operand (.string s)
  | boolean {t : Token} {value : Bool} :
      t.kind = .keyword (if value then .trueWord else .falseWord) →
      Formed .operand (.boolean t value)
  | date {t : Token} {d : Date} : t.kind = .date → t.literal = d.render → d.exists? →
      d.inBounds → Formed .operand (.date t d)
  | time {t : Token} {c : Clock} : t.kind = .time → t.literal = c.render → c.inRange →
      Formed .operand (.time t c)
  | ident {i : Ident} : i.Formed → Formed .operand (.ident i)
  | unit {l b r : Token} : l.kind = .mark .lparen → b.kind = .mark .lparen →
      r.kind = .mark .rparen → Formed .operand (.paren l ⟨[], .blank b⟩ r)
  | paren {l r : Token} {bindings : List Binding} {value : Expr} : l.kind = .mark .lparen →
      (∀ b ∈ bindings, b.Framed) → (∀ b ∈ bindings, Formed .whole b.value) →
      Formed .whole value → r.kind = .mark .rparen →
      Formed .operand (.paren l ⟨bindings, value⟩ r)
  | list {l : ListLiteral} : l.Formed → Formed .operand (.list l)
  | macroCall {dollar l r closing : Token} {name : Ident} {args : List Expr} :
      dollar.kind = .mark .dollar → name.Formed → l.kind = .mark .lparen →
      (∀ arg ∈ args, Formed .whole arg) → r.kind = .mark .rparen →
      closing.kind = .mark .dollar → Formed .operand (.macroCall dollar name l args r closing)
  | call {t l r : Token} {args : List Expr} : t.kind = .builtin →
      Catalog.isBuiltin t.literal → l.kind = .mark .lparen →
      (∀ arg ∈ args, Formed .argument arg) → r.kind = .mark .rparen →
      Formed .operand (.call t l args r)
  | unary {t : Token} {op : UnaryOp} {operand : Expr} : t.kind = .mark op.mark →
      Formed .operand operand → Grouped (.unary t op operand) →
      Formed .operand (.unary t op operand)
  | binary {t : Token} {op : BinaryOp} {left right : Expr} : t.kind = .mark op.mark →
      Formed .operand left → Formed .operand right → Grouped (.binary t left op right) →
      Formed .operand (.binary t left op right)
  | member {t : Token} {left : Expr} {collection : Collection} : t.kind = .keyword .inWord →
      Formed .operand left → collection.Formed → Grouped (.member t left collection) →
      Formed .operand (.member t left collection)
  | whole {e : Expr} : Formed .operand e → Formed .whole e
  | overClause {t : Token} {context : Expr} {aliased : Option NameClause} :
      t.kind = .keyword .overWord → Formed .operand context →
      (∀ clause ∈ aliased, clause.Formed .aliasWord) →
      Formed .whole (.overClause t context aliased)
  | filter {t : Token} {condition : Expr} : t.kind = .keyword .whereWord →
      Formed .operand condition → Formed .whole (.filter t condition)
  | orderBy {t byToken : Token} {key : Expr} {direction : Option OrderDirection} :
      t.kind = .keyword .orderWord → byToken.kind = .keyword .byWord → Formed .operand key →
      (∀ d ∈ direction, d.token.kind = .keyword d.direction.word) →
      Formed .whole (.orderBy t byToken key direction)
  | label {clause : NameClause} : clause.Formed .aliasWord → Formed .whole (.label clause)
  | set {clause : NameClause} : clause.Formed .setWord → Formed .whole (.set clause)
  | argument {e : Expr} : Formed .whole e → Formed .argument e
  | block {bindings : List Binding} {value : Expr} : bindings ≠ [] →
      (∀ b ∈ bindings, b.Framed) → (∀ b ∈ bindings, Formed .whole b.value) →
      Formed .whole value → Formed .argument (.block ⟨bindings, value⟩)

theorem Ident.Formed.isName {i : Ident} (h : i.Formed) : i.token.IsName :=
  have hname := of_validateName h.valid
  Token.isName_of_text h.kind hname.1 hname.2

end PayFormula
