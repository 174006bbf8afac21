import PayFormula.Json
import PayFormula.Server

/-!
# Answers on the wire

The JSON form of what a server says, by the Language Server Protocol. Its ranges
end one column after the last place of a span, and fields without a value are
left out.
-/
namespace PayFormula.Wire

def position (p : Position) : Json :=
  .object [("line", .ofNat p.line), ("character", .ofNat p.column)]

def range (s : Span) : Json :=
  .object [("start", position s.first), ("end", position ⟨s.last.line, s.last.column + 1⟩)]

def markdown (text : String) : Json :=
  .object [("kind", .string "markdown"), ("value", .string text)]

def legend : Json :=
  .object [
    ("tokenTypes", .array (ColorKind.legend.map fun kind => .string kind.name)),
    ("tokenModifiers", .array [])]

/-- The number of the kind of a variable among kinds of symbols. -/
def variableSymbol : Nat := 13

def symbol (s : DocumentSymbol) : Json :=
  .object [
    ("name", .string s.name),
    ("detail", .string s.detail),
    ("kind", .ofNat variableSymbol),
    ("range", range s.range),
    ("selectionRange", range s.selection)]

/-- The number of an error among severities. -/
def errorSeverity : Nat := 1

def diagnostic (d : Diagnostic) : Json :=
  .object [
    ("range", range d.span),
    ("severity", .ofNat errorSeverity),
    ("code", .string d.code),
    ("source", .string "wflang"),
    ("message", .string d.message)]

def completionKind : CompletionKind → Nat
  | .function => 3
  | .variableName => 6
  | .keyword => 14

def completion (c : Completion) : Json :=
  .ofFields [
    ("label", some (.string c.label)),
    ("kind", some (.ofNat (completionKind c.kind))),
    ("detail", c.detail.map .string),
    ("documentation", c.documentation.map markdown),
    ("insertText", some (.string c.insertText))]

def signatureParam (p : SignatureParam) : Json :=
  .object [
    ("label", .array [.ofNat p.range.1, .ofNat p.range.2]),
    ("documentation", .string p.documentation)]

/-- A macro has no signature. -/
def signatureHelp (help : SignatureHelp) : Json :=
  if help.label.isEmpty then .object [("signatures", .array [])]
  else
    .object [
      ("signatures", .array [
        .object [
          ("label", .string help.label),
          ("documentation", markdown help.documentation),
          ("parameters", .array (help.params.map signatureParam)),
          ("activeParameter", .ofNat help.active)]]),
      ("activeSignature", .ofNat 0),
      ("activeParameter", .ofNat help.active)]

def textEdit (e : TextEdit) : Json :=
  .object [("range", range e.span), ("newText", .string e.newText)]

/-- What the server can do. It takes whole texts. -/
def capabilities : Json :=
  .object [
    ("capabilities", .object [
      ("textDocumentSync", .ofNat 1),
      ("hoverProvider", .bool true),
      ("completionProvider", .object []),
      ("signatureHelpProvider", .object [
        ("triggerCharacters", .array [.string "(", .string ","])]),
      ("definitionProvider", .bool true),
      ("documentSymbolProvider", .bool true),
      ("renameProvider", .bool true),
      ("semanticTokensProvider", .object [("legend", legend), ("full", .bool true)])]),
    ("serverInfo", .object [("name", .string "wflang-lsp"), ("version", .string "0.1.0")])]

def answer : Answer → Json
  | .nothing => .null
  | .capabilities => capabilities
  | .coloring data => .object [("data", .array (data.map .ofNat))]
  | .symbols symbols => .array (symbols.map symbol)
  | .hover h => .object [("contents", markdown h.value), ("range", range h.span)]
  | .completions items => .array (items.map completion)
  | .signatureHelp help => signatureHelp help
  | .definition uri span => .object [("uri", .string uri.text), ("range", range span)]
  | .edits uri edits => .object [("changes", .object [(uri.text, .array (edits.map textEdit))])]

def failure (f : Failure) : Json :=
  .object [("code", .int f.code), ("message", .string f.message)]

def publication (p : Publication) : Json :=
  .object [
    ("uri", .string p.uri.text),
    ("diagnostics", .array (p.diagnostics.map diagnostic)),
    ("version", match p.version with
      | some version => .int version
      | none => .null)]

end PayFormula.Wire
