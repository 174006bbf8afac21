import PayFormula.Document.Outline

/-!
# Problem reports

One line for each problem of a text, with lines and columns counted from one, or
a single line that says there is none.
-/
namespace PayFormula

/-- One line on a problem of the text called `label`. Lines and columns are 32-bit words, which
counting from one does not leave as long as a text has fewer than 2^32 - 1 bytes; beyond that the
numbers go on here. -/
def Diagnostic.describe (label : String) (d : Diagnostic) : String :=
  label ++ ":" ++ toString (d.span.first.line + 1) ++ ":" ++ toString (d.span.first.column + 1) ++
    ": error[" ++ d.code ++ "]: " ++ d.message ++ "\n"

namespace Report

structure Check where
  text : String
  /-- Whether there is a problem. -/
  failed : Bool
  deriving DecidableEq, Repr, Inhabited

def check (label source : String) : Check :=
  match (Document.ofSource source).diagnostics with
  | [] => ⟨label ++ ": ok\n", false⟩
  | found => ⟨String.join (found.map (Diagnostic.describe label)), true⟩

end Report

end PayFormula
