import PayFormula.LineIndex
import PayFormula.ValueType

/-!
# Function descriptions

What the catalog knows about a builtin function: its spelling, its parameters
and its documentation. The signature is one line of text, and
`Function.labelOffsets` says which bytes of it belong to which parameter.
-/
namespace PayFormula

/-- How often a parameter takes an argument: once, any number of times, or as
one half of a pair that may repeat. -/
inductive Repetition where
  | once
  | repeated
  | pairFirst
  | pairSecond
  deriving DecidableEq, Repr, Inhabited

structure Param where
  name : String
  /-- The argument types it permits. -/
  types : List ValueType
  doc : String
  isOptional : Bool
  repetition : Repetition
  deriving DecidableEq, Repr, Inhabited

namespace Param

/-- A parameter that takes exactly one argument. -/
def required (name : String) (types : List ValueType) (doc : String) : Param :=
  ⟨name, types, doc, false, .once⟩

/-- A parameter that takes at most one argument. -/
def optional (name : String) (types : List ValueType) (doc : String) : Param :=
  ⟨name, types, doc, true, .once⟩

/-- A parameter that takes any number of arguments. -/
def repeating (name : String) (types : List ValueType) (doc : String) : Param :=
  ⟨name, types, doc, false, .repeated⟩

def isVariadic (p : Param) : Bool := p.repetition != .once

/-- `name?: a|b...`, with `?` for an optional and `...` for a variadic one. -/
def label (p : Param) : String :=
  p.name ++ (if p.isOptional then "?" else "") ++ ": " ++
    "|".intercalate (p.types.map ValueType.name) ++ if p.isVariadic then "..." else ""

/-- The `@param` line of the documentation. -/
def docLine (p : Param) : String := "@param `" ++ p.label ++ "` - " ++ p.doc

end Param

structure Function where
  /-- The conventional spelling, e.g. `sumTime`. -/
  displayName : String
  returnType : ValueType
  params : List Param
  summary : String
  deriving DecidableEq, Repr, Inhabited

namespace Function

def isVariadic (f : Function) : Bool := f.params.any Param.isVariadic

def signature (f : Function) : String :=
  f.displayName ++ "(" ++ ", ".intercalate (f.params.map Param.label) ++ ")"

/-- Where labels lie that stand one after another from byte `start` on, two
bytes apart. -/
def offsetsFrom (start : Nat) : List String → List (Nat × Nat)
  | [] => []
  | label :: labels =>
    let stop := start + label.utf8ByteSize
    (start, stop) :: offsetsFrom (stop + 2) labels

/-- The half-open byte range of each parameter's label within the signature. Offsets are 32-bit
words like the coordinates of positions. -/
def labelOffsets (f : Function) : List (Nat × Nat) :=
  (offsetsFrom (f.displayName.utf8ByteSize + 1) (f.params.map Param.label)).map
    fun (start, stop) => (start % 0x100000000, stop % 0x100000000)

/-- The parameter that takes the argument of a given number. Past the end the
arguments cycle through the parameters from the first variadic one on, or stay
on the last parameter. -/
def paramIndex (f : Function) (argument : Nat) : Nat :=
  let count := f.params.length
  if count = 0 then 0
  else if argument < count then argument
  else match f.params.findIdx? Param.isVariadic with
    | some first => first + (argument - first) % (count - first)
    | none => count - 1

/-- The display name with its first letter raised. -/
def title (f : Function) : String :=
  match f.displayName.toList with
  | [] => ""
  | c :: rest => String.ofList (c.toUpper :: rest)

/-- Markdown: the signature with its return type, the heading, the summary and
a line for each parameter. -/
def docstring (f : Function) : String :=
  "```wflang\n" ++ f.signature ++ "\n// returns " ++ f.returnType.name ++ "\n```\n### " ++
    f.title ++ "\n" ++ f.summary ++ "\n\n" ++
    String.join (f.params.map fun p => p.docLine ++ "\n\n")

end Function

end PayFormula
