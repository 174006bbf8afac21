/-!
# Layouts

Nested records and lists, and their text over several lines: every part on
lines of its own, four blanks further in than what it is part of, and with a
comma after it.
-/
namespace PayFormula

inductive Layout where
  | leaf (text : String)
  | list (items : List Layout)
  /-- A name with parts in parentheses. -/
  | tagged (name : String) (items : List Layout)
  /-- A name with named parts in braces. -/
  | record (name : String) (fields : List (String × Layout))
  deriving Repr, Inhabited

namespace Layout

def ofNat (n : Nat) : Layout := .leaf (toString n)

def ofOption : Option Layout → Layout
  | none => .leaf "None"
  | some layout => .tagged "Some" [layout]

def enclose (opening closing indent : String) (parts : List String) : String :=
  if parts.isEmpty then opening ++ closing
  else
    opening ++ "\n" ++ String.join (parts.map fun part => indent ++ "    " ++ part ++ ",\n") ++
      indent ++ closing

mutual

/-- The text of a layout; `indent` is what the lines after the first start with. -/
def renderAt (indent : String) : Layout → String
  | .leaf text => text
  | .list items => enclose "[" "]" indent (renderItems (indent ++ "    ") items)
  | .tagged name items => enclose (name ++ "(") ")" indent (renderItems (indent ++ "    ") items)
  | .record name fields =>
    enclose (name ++ " \x7b") "\x7d" indent (renderFields (indent ++ "    ") fields)

def renderItems (indent : String) : List Layout → List String
  | [] => []
  | item :: items => renderAt indent item :: renderItems indent items

def renderFields (indent : String) : List (String × Layout) → List String
  | [] => []
  | (name, value) :: fields => (name ++ ": " ++ renderAt indent value) :: renderFields indent fields

end

def render (layout : Layout) : String := renderAt "" layout

end Layout

end PayFormula
