import PayFormula.Settings.Value

/-!
# Tables of TOML

Tables while a document is being read. No table is defined twice: a table that
was only mentioned on the way to another one can still get a header of its own,
one made by a dotted key can get further dotted keys, and nothing else can be
added to.
-/
namespace PayFormula.Settings.Toml

structure TableOf (ι : Type) where
  fields : List (String × ι)
  /-- Made on the way to another table. -/
  isImplicit : Bool
  /-- Made by a dotted key. -/
  isDotted : Bool
  deriving Repr, Inhabited

inductive Item where
  | value (value : Value)
  | table (table : TableOf Item)
  /-- The tables of an array, of which the last one can be added to. -/
  | tables (before : List (TableOf Item)) (last : TableOf Item)
  deriving Repr, Inhabited

abbrev Table := TableOf Item

namespace Table

def root : Table := ⟨[], false, false⟩

/-- Changes the table at the end of a path, making the tables on the way. -/
def descend? (dotted : Bool) (change : Table → Option Table) :
    List String → Table → Option Table
  | [], table => change table
  | name :: path, table => do
    let item ← match table.fields.lookup name with
      | none => (descend? dotted change path ⟨[], true, dotted⟩).map Item.table
      | some (.value _) => none
      | some (.table child) =>
        if dotted && !child.isImplicit then none
        else (descend? dotted change path child).map Item.table
      | some (.tables before last) => (descend? dotted change path last).map (Item.tables before)
    return { table with fields := put name item table.fields }

/-- Adds a field. Dotted keys do not reach into tables made otherwise. -/
def insert? (path : List String) (name : String) (value : Value) (table : Table) : Option Table :=
  table.descend? true (fun target =>
    if target.isDotted == path.isEmpty || (target.fields.lookup name).isSome then none
    else some { target with fields := target.fields ++ [(name, .value value)] }) path

/-- Opens the table of a header `[path.name]`. It comes after all other fields. -/
def openTable? (path : List String) (name : String) (root : Table) : Option Table :=
  root.descend? false (fun parent =>
    match parent.fields.lookup name with
    | none => some { parent with fields := put name (.table ⟨[], false, false⟩) parent.fields }
    | some (.table child) =>
      if child.isImplicit && !child.isDotted then
        let others := parent.fields.filter (·.1 ≠ name)
        some { parent with
          fields := others ++ [(name, .table { child with isImplicit := false })] }
      else none
    | some _ => none) path

/-- Adds a table to the array of a header `[[path.name]]`. -/
def openItem? (path : List String) (name : String) (root : Table) : Option Table :=
  root.descend? false (fun parent =>
    match parent.fields.lookup name with
    | none =>
      some { parent with fields := put name (.tables [] ⟨[], false, false⟩) parent.fields }
    | some (.tables before last) =>
      some { parent with
        fields := put name (.tables (before ++ [last]) ⟨[], false, false⟩) parent.fields }
    | some _ => none) path

end Table

mutual

def Item.toValue : Item → Value
  | .value value => value
  | .table ⟨fields, _, _⟩ => .table (fieldValues fields)
  | .tables before ⟨fields, _, _⟩ =>
    .array (tableValues before ++ [.table (fieldValues fields)])

def fieldValues : List (String × Item) → List (String × Value)
  | [] => []
  | (name, item) :: fields => (name, item.toValue) :: fieldValues fields

def tableValues : List (TableOf Item) → List Value
  | [] => []
  | ⟨fields, _, _⟩ :: tables => .table (fieldValues fields) :: tableValues tables

end

end PayFormula.Settings.Toml
