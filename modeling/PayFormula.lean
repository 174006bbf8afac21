import PayFormula.Main
import PayFormula.Proofs.Document.Colored
import PayFormula.Proofs.Document.Renamed
import PayFormula.Proofs.Grammar.Deepest
import PayFormula.Proofs.Grammar.Rendered
import PayFormula.Proofs.Grammar.Significant
import PayFormula.Proofs.Reading.Uncommented
import PayFormula.Proofs.Scope.Resolve
import PayFormula.Server.Wire
import PayFormula.Proofs.Server.Entries
import PayFormula.Proofs.Server.Traffic
import PayFormula.Proofs.Server.Latest
import PayFormula.Proofs.Reading.Continued
import PayFormula.Proofs.Token.Joined
import PayFormula.Proofs.Grammar.Joined
import PayFormula.Proofs.Scope.Listed
import PayFormula.Proofs.Reading.Reported
import PayFormula.Proofs.Grammar.Resumed
import PayFormula.Proofs.Grammar.Recovered
import PayFormula.Proofs.Reading.Onward
import PayFormula.Proofs.Document.Fallback
import PayFormula.Proofs.Token.Alone
import PayFormula.Proofs.Reading.Blamed
import PayFormula.Proofs.Document.Accepted
import PayFormula.Proofs.LineIndex
import PayFormula.Proofs.Document.Completed
import PayFormula.Proofs.Report.Lines
import PayFormula.Proofs.Settings.Precedence
import PayFormula.Proofs.Catalog
