import PayFormula.Proofs.Tree.Plain

/-!
# Depth

How many expressions stand one inside the other on the way down from a node. A
way is given by the numbers of the children that it takes.

Some expressions are free: they take no level of nesting beyond that of the
expression around them. The left operand of an operator has been read before the
operator is met; the block of an argument, the blank in `()` and the placeholder
of an argument that failed are made around or in place of what is read.
-/
namespace PayFormula.Node

def isExpr : Node → Bool
  | .expr _ => true
  | _ => false

/-- Nodes whose first child was read before them. -/
def isOperation : Node → Bool
  | .expr (.binary ..) => true
  | .expr (.member ..) => true
  | _ => false

/-- Expressions that take no level of nesting wherever they stand. -/
def isFree : Node → Bool
  | .expr (.block _) => true
  | .expr (.blank _) => true
  | .expr (.failed ..) => true
  | _ => false

/-- The nodes on a way down, as far as there are children to take. -/
def along : Node → List Nat → List Node
  | node, [] => [node]
  | node, i :: path =>
    match node.children[i]? with
    | some child => node :: along child path
    | none => [node]

/-- The number of expressions on a way down. -/
def exprsAlong (node : Node) (path : List Nat) : Nat := (node.along path).countP isExpr

/-- The number of free expressions below the start of a way down. -/
def freeAlong : Node → List Nat → Nat
  | _, [] => 0
  | node, i :: path =>
    match node.children[i]? with
    | some child => (node.isOperation && i == 0 || child.isFree).toNat + freeAlong child path
    | none => 0

/-- On no way down are there more than `levels` expressions without counting the free ones, or
more than `total` counting all of them. -/
def Deep (levels total : Nat) (node : Node) : Prop :=
  ∀ path, node.exprsAlong path ≤ levels + node.freeAlong path ∧ node.exprsAlong path ≤ total

/-- The same of a node that may itself be free. -/
def DeepBelow (levels total : Nat) (node : Node) : Prop :=
  ∀ path, node.exprsAlong path ≤ levels + node.isFree.toNat + node.freeAlong path ∧
    node.exprsAlong path ≤ total

variable {node child : Node} {levels total : Nat}

theorem exprsAlong_nil (node : Node) : node.exprsAlong [] = node.isExpr.toNat := by
  unfold exprsAlong along
  cases h : node.isExpr <;> simp [h]

theorem exprsAlong_cons_of_none {i : Nat} (h : node.children[i]? = none) (path : List Nat) :
    node.exprsAlong (i :: path) = node.isExpr.toNat := by
  rw [← exprsAlong_nil, exprsAlong, along, h]
  rfl

theorem exprsAlong_cons {i : Nat} (h : node.children[i]? = some child) (path : List Nat) :
    node.exprsAlong (i :: path) = node.isExpr.toNat + child.exprsAlong path := by
  unfold exprsAlong
  rw [along, h]
  cases he : node.isExpr <;> simp [he, Nat.add_comm]

theorem freeAlong_cons {i : Nat} (h : node.children[i]? = some child) (path : List Nat) :
    node.freeAlong (i :: path) =
      (node.isOperation && i == 0 || child.isFree).toNat + child.freeAlong path := by
  rw [freeAlong, h]

theorem isExpr_plain (node : Node) : node.plain.isExpr = node.isExpr := by
  cases node <;> rfl

/-- Depth does not depend on places and spelling. -/
theorem exprsAlong_plain (node : Node) (path : List Nat) :
    node.plain.exprsAlong path = node.exprsAlong path := by
  induction path generalizing node with
  | nil => rw [exprsAlong_nil, exprsAlong_nil, isExpr_plain]
  | cons i path ih =>
    cases hi : node.children[i]? with
    | none =>
      have hplain : node.plain.children[i]? = none := by
        rw [children_plain, List.getElem?_map, hi]
        rfl
      rw [exprsAlong_cons_of_none hi, exprsAlong_cons_of_none hplain, isExpr_plain]
    | some child =>
      have hplain : node.plain.children[i]? = some child.plain := by
        rw [children_plain, List.getElem?_map, hi]
        rfl
      rw [exprsAlong_cons hi, exprsAlong_cons hplain, isExpr_plain, ih]

theorem Deep.below (h : node.Deep levels total) : node.DeepBelow levels total := by
  intro path
  obtain ⟨hlevels, htotal⟩ := h path
  exact ⟨by omega, htotal⟩

theorem Deep.mono {levels' total' : Nat} (h : node.Deep levels total) (hl : levels ≤ levels')
    (ht : total ≤ total') : node.Deep levels' total' := by
  intro path
  obtain ⟨hlevels, htotal⟩ := h path
  exact ⟨by omega, by omega⟩

theorem DeepBelow.mono {levels' total' : Nat} (h : node.DeepBelow levels total)
    (hl : levels ≤ levels') (ht : total ≤ total') : node.DeepBelow levels' total' := by
  intro path
  obtain ⟨hlevels, htotal⟩ := h path
  exact ⟨by omega, by omega⟩

/-- Each node is followed down through one of its children. -/
theorem deep_of_children (hroot : node.isExpr.toNat ≤ levels ∧ node.isExpr.toNat ≤ total)
    (h : ∀ i child, node.children[i]? = some child → ∀ path,
      node.isExpr.toNat + child.exprsAlong path ≤
        levels + ((node.isOperation && i == 0 || child.isFree).toNat + child.freeAlong path) ∧
      node.isExpr.toNat + child.exprsAlong path ≤ total) : node.Deep levels total := by
  intro path
  cases path with
  | nil =>
    rw [exprsAlong_nil]
    exact ⟨by omega, hroot.2⟩
  | cons i path =>
    cases hi : node.children[i]? with
    | none =>
      rw [exprsAlong_cons_of_none hi]
      exact ⟨by omega, hroot.2⟩
    | some child =>
      rw [exprsAlong_cons hi, freeAlong_cons hi]
      exact h i child hi path

/-- A node that is no expression adds nothing. -/
theorem deep_of_not_isExpr (hn : node.isExpr = false)
    (h : ∀ child ∈ node.children, child.DeepBelow levels total) : node.Deep levels total := by
  refine deep_of_children (by simp [hn]) fun i child hi path => ?_
  obtain ⟨hlevels, htotal⟩ := h child (List.mem_of_getElem? hi) path
  have hfree : child.isFree.toNat ≤ (node.isOperation && i == 0 || child.isFree).toNat := by
    cases child.isFree <;> simp
  rw [hn, Bool.toNat_false]
  exact ⟨by omega, by omega⟩

/-- An expression adds one level to what is below it. -/
theorem deep_of_isExpr (hn : node.isExpr = true)
    (h : ∀ child ∈ node.children, child.DeepBelow levels total) :
    node.Deep (levels + 1) (total + 1) := by
  refine deep_of_children (by simp [hn]) fun i child hi path => ?_
  obtain ⟨hlevels, htotal⟩ := h child (List.mem_of_getElem? hi) path
  have hfree : child.isFree.toNat ≤ (node.isOperation && i == 0 || child.isFree).toNat := by
    cases child.isFree <;> simp
  rw [hn, Bool.toNat_true]
  exact ⟨by omega, by omega⟩

/-- An operation adds one level to its right operand, and one expression to its left one. -/
theorem deep_of_isOperation {left right : Node} {below : Nat} (hn : node.isExpr = true)
    (ho : node.isOperation = true) (hc : node.children = [left, right])
    (hl : left.Deep levels total) (hr : right.Deep below total) (hb : below < levels) :
    node.Deep levels (total + 1) := by
  refine deep_of_children (by rw [hn, Bool.toNat_true]; omega) fun i child hi path => ?_
  rw [hn, ho, Bool.toNat_true]
  rw [hc] at hi
  match i with
  | 0 =>
    obtain rfl : left = child := by simpa using hi
    obtain ⟨hlevels, htotal⟩ := hl path
    simp only [beq_self_eq_true, Bool.and_self, Bool.true_or, Bool.toNat_true]
    exact ⟨by omega, by omega⟩
  | 1 =>
    obtain rfl : right = child := by simpa using hi
    obtain ⟨hlevels, htotal⟩ := hr path
    exact ⟨by omega, by omega⟩
  | i + 2 => simp at hi

theorem deep_of_leaf (hn : node.isExpr = false) (hc : node.children = []) :
    node.Deep levels total := by
  refine deep_of_not_isExpr hn ?_
  rw [hc]
  simp

/-- A free expression takes no level of its own. -/
theorem deepBelow_of_isFree (hf : node.isFree = true) (h : node.Deep (levels + 1) total) :
    node.DeepBelow levels total := by
  intro path
  obtain ⟨hlevels, htotal⟩ := h path
  rw [hf, Bool.toNat_true]
  exact ⟨by omega, htotal⟩

end PayFormula.Node
