import PayFormula.Catalog.Table
import PayFormula.Text.Character

/-!
# Catalog of builtin functions

Look-up by name in the function table, whatever the case of the letters.
-/
namespace PayFormula

/-- The name under which the catalog files a function. -/
def Function.key (f : Function) : String := Text.lowercase f.displayName

namespace Catalog

def entries : List (String × Function) := functions.map fun f => (f.key, f)

def lookup? (name : String) : Option Function := entries.lookup (Text.lowercase name)

def isBuiltin (name : String) : Bool := (lookup? name).isSome

end Catalog

end PayFormula
