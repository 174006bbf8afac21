import PayFormula.Proofs.Reading.Run

/-!
# The grammar

Which tokens stand for which trees. A phrase relates the tokens that are read,
none of them a comment, and the token in front of which they stand to what they
are read as. The next token matters because clauses and operators go on as long
as they can.

Levels of nesting are counted as they are when reading. Tokens may be passed over
for an argument of a builtin call, in whose place an error stands. Which ones is
a parameter of the grammar: in the strict one there are none, so that its phrases
are those read without any error.
-/
namespace PayFormula

/-- The mark that is written for the operator. -/
def UnaryOp.mark : UnaryOp → Mark
  | .negate => .minus
  | .not => .bang

namespace Grammar

/-- Tokens, the token after them, and what they are read as. -/
abbrev Phrase (α : Type) := List Token → Token → α → Prop

/-- Expressions above each binding power. -/
abbrev SubPhrase := Precedence → Phrase Expr

/-- What may be passed over for an argument, and with which error, when some levels of nesting are
left. -/
abbrev Gaps := Nat → Phrase SyntaxError

/-- Nothing is passed over. -/
def Gaps.none : Gaps := fun _ _ _ _ => False

/-- Anything may be passed over. -/
def Gaps.any : Gaps := fun _ _ _ _ => True

/-- One phrase and then another, which may depend on what the first is read as. -/
inductive Then {α β : Type} (first : Phrase α) (second : α → Phrase β) : Phrase β
  | intro {front back : List Token} {next : Token} {a : α} {b : β} :
      first front (back.headD next) a → second a back next b →
      Then first second (front ++ back) next b

/-- `alias NAME` or `set NAME`, by its keyword. -/
inductive Clause (word : Keyword) : Phrase NameClause
  | intro {t n next : Token} : t.kind = .keyword word → n.IsName → Clause word [t, n] next ⟨t, ⟨n⟩⟩

/-- Strings with commas between them, and perhaps one after the last. -/
inductive Strings : List Token → List StringLiteral → Prop
  | nil : Strings [] []
  | last {s : Token} : s.kind = .string → Strings [s] [⟨s⟩]
  | cons {s comma : Token} {toks : List Token} {strings : List StringLiteral} :
      s.kind = .string → comma.kind = .mark .comma → Strings toks strings →
      Strings (s :: comma :: toks) (⟨s⟩ :: strings)

inductive Listing : Phrase ListLiteral
  | intro {l r next : Token} {toks : List Token} {strings : List StringLiteral} :
      l.kind = .mark .lbracket → Strings toks strings → r.kind = .mark .rbracket →
      Listing (l :: toks ++ [r]) next ⟨l, strings, r⟩

/-- One or more phrases with commas between them, in front of what closes them. -/
inductive Items {α : Type} (item : Phrase α) : Phrase (List α)
  | last {toks : List Token} {stop : Token} {a : α} : item toks stop a → Items item toks stop [a]
  | cons {toks rest : List Token} {comma stop : Token} {a : α} {as : List α} :
      item toks comma a → comma.kind = .mark .comma → Items item rest stop as →
      Items item (toks ++ comma :: rest) stop (a :: as)

section Sub

variable (gap : Phrase SyntaxError) (sub : SubPhrase)

/-- `var NAME = VALUE ;` -/
inductive Bound : List Token → Binding → Prop
  | intro {t n eq semicolon : Token} {toks : List Token} {value : Expr} :
      t.kind = .keyword .varWord → n.IsName → eq.kind = .mark .eq →
      sub .lowest toks semicolon value → semicolon.kind = .mark .semicolon →
      Bound (t :: n :: eq :: toks ++ [semicolon]) ⟨t, ⟨n⟩, value, semicolon⟩

inductive Bounds : List Token → List Binding → Prop
  | nil : Bounds [] []
  | cons {front back : List Token} {b : Binding} {bs : List Binding} :
      Bound sub front b → Bounds back bs → Bounds (front ++ back) (b :: bs)

/-- Bindings and the one value after them. -/
inductive Blocks : Phrase Block
  | intro {front back : List Token} {next : Token} {bs : List Binding} {value : Expr} :
      Bounds sub front bs → sub .lowest back next value → Blocks (front ++ back) next ⟨bs, value⟩

/-- An argument of a builtin call in front of the `,` or `)` that ends it. -/
inductive Argument : Phrase Expr
  | value {toks : List Token} {stop : Token} {e : Expr} :
      sub .lowest toks stop e → Argument toks stop e
  | block {toks : List Token} {stop : Token} {b : Block} :
      Blocks sub toks stop b → b.bindings ≠ [] → Argument toks stop (.block b)
  | failed {toks : List Token} {stop : Token} {e : SyntaxError} :
      gap toks stop e → (toks = [] → e.token = stop) → Argument toks stop (.failed e toks)

/-- What stands in front of the first operator. -/
inductive Primary : Phrase Expr
  | number {t next : Token} {d : Decimal} : t.kind = .int ∨ t.kind = .float →
      Decimal.ofChars? t.literal.toList = some d → Primary [t] next (.number t d.toDouble)
  | ident {t next : Token} : t.IsName → Primary [t] next (.ident ⟨t⟩)
  | string {t next : Token} : t.kind = .string → Primary [t] next (.string ⟨t⟩)
  | boolean {t next : Token} {value : Bool} :
      t.kind = .keyword (if value then .trueWord else .falseWord) →
      Primary [t] next (.boolean t value)
  | date {t next : Token} {d : Date} : t.kind = .date →
      Date.ofChars t.literal.toList = .ok d → Primary [t] next (.date t d)
  | time {t next : Token} {c : Clock} : t.kind = .time →
      Clock.ofChars t.literal.toList = .ok c → Primary [t] next (.time t c)
  | unary {t next : Token} {op : UnaryOp} {toks : List Token} {operand : Expr} :
      t.kind = .mark op.mark → sub .unary toks next operand →
      Primary (t :: toks) next (.unary t op operand)
  | unit {l r next : Token} : l.kind = .mark .lparen → r.kind = .mark .rparen →
      Primary [l, r] next (.paren l ⟨[], .blank l⟩ r)
  | paren {l r next : Token} {toks : List Token} {b : Block} :
      l.kind = .mark .lparen → Blocks sub toks r b → r.kind = .mark .rparen →
      Primary (l :: toks ++ [r]) next (.paren l b r)
  | macroUnit {d n l r closing next : Token} : d.kind = .mark .dollar → n.IsName →
      l.kind = .mark .lparen → r.kind = .mark .rparen → closing.kind = .mark .dollar →
      Primary [d, n, l, r, closing] next (.macroCall d ⟨n⟩ l [] r closing)
  | macroCall {d n l r closing next : Token} {toks : List Token} {args : List Expr} :
      d.kind = .mark .dollar → n.IsName → l.kind = .mark .lparen →
      Items (sub .lowest) toks r args → r.kind = .mark .rparen → closing.kind = .mark .dollar →
      Primary (d :: n :: l :: toks ++ [r, closing]) next (.macroCall d ⟨n⟩ l args r closing)
  | callUnit {t l r next : Token} : t.kind = .builtin → l.kind = .mark .lparen →
      r.kind = .mark .rparen → Primary [t, l, r] next (.call t l [] r)
  | call {t l r next : Token} {toks : List Token} {args : List Expr} :
      t.kind = .builtin → l.kind = .mark .lparen → (toks.headD r).kind ≠ .mark .rparen →
      Items (Argument gap sub) toks r args → r.kind = .mark .rparen →
      Primary (t :: l :: toks ++ [r]) next (.call t l args r)
  | overClause {t next : Token} {toks : List Token} {context : Expr} :
      t.kind = .keyword .overWord → sub .lowest toks next context →
      next.kind ≠ .keyword .aliasWord → Primary (t :: toks) next (.overClause t context none)
  | overAlias {t a n next : Token} {toks : List Token} {context : Expr} :
      t.kind = .keyword .overWord → sub .lowest toks a context → a.kind = .keyword .aliasWord →
      n.IsName → Primary (t :: toks ++ [a, n]) next (.overClause t context (some ⟨a, ⟨n⟩⟩))
  | filter {t next : Token} {toks : List Token} {condition : Expr} :
      t.kind = .keyword .whereWord → sub .lowest toks next condition →
      Primary (t :: toks) next (.filter t condition)
  | orderBy {t by_ next : Token} {toks : List Token} {key : Expr} :
      t.kind = .keyword .orderWord → by_.kind = .keyword .byWord → sub .lowest toks next key →
      next.kind ≠ .keyword .ascWord → next.kind ≠ .keyword .descWord →
      Primary (t :: by_ :: toks) next (.orderBy t by_ key none)
  | orderByDirection {t by_ d next : Token} {toks : List Token} {key : Expr}
      {direction : Direction} :
      t.kind = .keyword .orderWord → by_.kind = .keyword .byWord → sub .lowest toks d key →
      d.kind = .keyword (if direction = .ascending then .ascWord else .descWord) →
      Primary (t :: by_ :: toks ++ [d]) next (.orderBy t by_ key (some ⟨d, direction⟩))
  | label {toks : List Token} {next : Token} {clause : NameClause} :
      Clause .aliasWord toks next clause → Primary toks next (.label clause)
  | set {toks : List Token} {next : Token} {clause : NameClause} :
      Clause .setWord toks next clause → Primary toks next (.set clause)
  | list {toks : List Token} {next : Token} {l : ListLiteral} :
      Listing toks next l → Primary toks next (.list l)

/-- An operator that binds more tightly than `power`, and its operand on the right. -/
inductive Operation (power : Precedence) (left : Expr) : Phrase Expr
  | binary {t next : Token} {op : BinaryOp} {toks : List Token} {right : Expr} :
      t.kind = .mark op.mark → power < .ofMark op.mark →
      sub (.ofMark op.mark) toks next right →
      Operation power left (t :: toks) next (.binary t left op right)
  | memberList {t next : Token} {toks : List Token} {l : ListLiteral} :
      t.kind = .keyword .inWord → power < .membership → Listing toks next l →
      Operation power left (t :: toks) next (.member t left (.list l))
  | memberSet {t next : Token} {toks : List Token} {clause : NameClause} :
      t.kind = .keyword .inWord → power < .membership → Clause .setWord toks next clause →
      Operation power left (t :: toks) next (.member t left (.set clause))

end Sub

/-- No operator that binds more tightly than `power` follows. -/
inductive Stop (power : Precedence) (left : Expr) : Phrase Expr
  | intro {next : Token} : ¬ power < .of next.kind → Stop power left [] next left

mutual

/-- Expressions of operators above a binding power, with levels of nesting left. -/
def Expression (gaps : Gaps) : Nat → SubPhrase
  | 0 => fun _ _ _ _ => False
  | levels + 1 => fun power =>
    Then (Primary (gaps levels) (Expression gaps levels)) (Chain gaps levels power)

/-- What goes on after a left operand. -/
def Chain (gaps : Gaps) : Nat → Precedence → Expr → Phrase Expr
  | 0 => Stop
  | levels + 1 => fun power left toks next e =>
    Stop power left toks next e ∨
      Then (Operation (Expression gaps levels) power left) (Chain gaps levels power) toks next e

end

theorem Stop.chain {gaps : Gaps} {levels : Nat} {power : Precedence} {left e : Expr}
    {toks : List Token} {next : Token} (h : Stop power left toks next e) :
    Chain gaps levels power left toks next e := by
  cases levels with
  | zero => exact h
  | succ levels => exact .inl h

/-- What stands in front of no operator is a whole expression. -/
theorem Primary.expression {gaps : Gaps} {levels : Nat} {power : Precedence} {e : Expr}
    {toks : List Token} {next : Token}
    (h : Primary (gaps levels) (Expression gaps levels) toks next e)
    (hnext : ¬ power < .of next.kind) : Expression gaps (levels + 1) power toks next e := by
  rw [← List.append_nil toks, Expression]
  exact .intro h (Stop.chain (.intro hnext))

end Grammar

end PayFormula
