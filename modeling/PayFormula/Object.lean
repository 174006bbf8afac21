import PayFormula.Decimal.Shortest
import PayFormula.Syntax.Tree
import PayFormula.ValueType

/-!
# Objects

What is known of a value without any data: its type and, for literals, the
value itself.
-/
namespace PayFormula

/-- A declared variable: its name, which patterns leave out, the binding that introduced it and its
value. -/
structure VariableOf (ω : Type) where
  {name : String}
  binding : Binding
  value : ω
  deriving Repr

inductive Object where
  | number (value : Option Double)
  | string (value : Option String)
  | boolean (value : Option Bool)
  | date (value : Option Date)
  | time (value : Option Clock)
  | dateTime
  | dateRange
  | dateTimeRange
  /-- A value of a type whose values only the host knows. -/
  | opaqueValue (type : ValueType)
  | variable (declared : VariableOf Object)
  /-- Unresolved, with the span of the expression. -/
  | undefined (span : Span)
  deriving Repr

instance : Inhabited Object := ⟨.undefined default⟩

abbrev Variable := VariableOf Object

def VariableOf.nameSpan {ω : Type} (v : VariableOf ω) : Span := v.binding.name.span

namespace Object

def type : Object → ValueType
  | .number _ => .number
  | .string _ => .string
  | .boolean _ => .boolean
  | .date _ => .date
  | .time _ => .time
  | .dateTime => .dateTime
  | .dateRange => .dateRange
  | .dateTimeRange => .dateTimeRange
  | .opaqueValue type => type
  | .variable ⟨_, value⟩ => value.type
  | .undefined _ => .undefined

/-- An unknown value of a type; `span` is where it comes from. -/
def ofType (span : Span) : ValueType → Object
  | .number => .number none
  | .string => .string none
  | .boolean => .boolean none
  | .date => .date none
  | .time => .time none
  | .dateTime => .dateTime
  | .dateRange => .dateRange
  | .dateTimeRange => .dateTimeRange
  | .undefined => .undefined span
  | type => .opaqueValue type

/-- Whether the value itself is known. -/
def isStatic : Object → Bool
  | .number value => value.isSome
  | .string value => value.isSome
  | .boolean value => value.isSome
  | .date value => value.isSome
  | .time value => value.isSome
  | .variable ⟨_, value⟩ => value.isStatic
  | _ => false

end Object

def VariableOf.type (v : Variable) : ValueType := v.value.type

/-- `var NAME: TYPE`. -/
def VariableOf.render (v : Variable) : String := "var " ++ v.name ++ ": " ++ v.type.name

/-- The value if it is known, else its type in angle brackets. -/
def Object.render : Object → String
  | .number (some x) => x.render
  | .string (some s) => "\"" ++ s ++ "\""
  | .boolean (some b) => if b then "true" else "false"
  | .date (some d) => d.render
  | .time (some c) => c.render
  | .variable v => v.render
  | object => "<" ++ object.type.name ++ ">"

end PayFormula
