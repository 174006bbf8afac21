import PayFormula.Token

/-!
# Binding powers

How tightly an operator binds the operand on its left, loosest first. All
binary operators associate to the left.
-/
namespace PayFormula

inductive Precedence where
  | lowest
  | or
  | and
  | membership
  | equality
  | comparison
  | sum
  | product
  | unary
  deriving DecidableEq, Repr, Inhabited

namespace Precedence

def rank : Precedence → Nat
  | .lowest => 0
  | .or => 1
  | .and => 2
  | .membership => 3
  | .equality => 4
  | .comparison => 5
  | .sum => 6
  | .product => 7
  | .unary => 8

instance : LT Precedence where
  lt p q := p.rank < q.rank

instance : LE Precedence where
  le p q := p.rank ≤ q.rank

instance (p q : Precedence) : Decidable (p < q) := inferInstanceAs (Decidable (p.rank < q.rank))
instance (p q : Precedence) : Decidable (p ≤ q) := inferInstanceAs (Decidable (p.rank ≤ q.rank))

/-- The power of a mark between two operands. -/
def ofMark : Mark → Precedence
  | .or => .or
  | .and => .and
  | .eq | .neq => .equality
  | .lt | .gt | .lte | .gte => .comparison
  | .plus | .minus => .sum
  | .asterisk | .slash | .modulo => .product
  | _ => .lowest

/-- The power of a token between two operands, the lowest if it is no operator. -/
def of : TokenKind → Precedence
  | .mark m => ofMark m
  | .keyword .inWord => .membership
  | _ => .lowest

def name : Precedence → String
  | .lowest => "Lowest"
  | .or => "Or"
  | .and => "And"
  | .membership => "In"
  | .equality => "Equals"
  | .comparison => "Compare"
  | .sum => "Sum"
  | .product => "Product"
  | .unary => "Prefix"

end Precedence

end PayFormula
