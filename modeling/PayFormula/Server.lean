import PayFormula.Document.Completion
import PayFormula.Document.Hover
import PayFormula.Document.Outline
import PayFormula.Document.Rename
import PayFormula.Document.Signature
import PayFormula.Server.Store
import PayFormula.Settings

/-!
# The language server

Notifications open, change and close documents and may publish their problems;
requests are answered from the latest text of the document that they name. What
the server can do with a document is given by its features.
-/
namespace PayFormula

/-- What can be asked of a document. The flag of the searches tells whether the
document has been cancelled. -/
structure Features where
  coloring : Document → List Nat
  symbols : Document → List DocumentSymbol
  hover : Document → Position → Option Hover
  completions : Document → Position → CompletionOptions → List Completion
  signatureHelp : Document → Position → Bool → Except SearchError (Option SignatureHelp)
  definition : Document → Position → Bool → Except SearchError (Option Span)
  rename : Document → Position → String → Bool → Except RenameError (Option (List TextEdit))
  diagnostics : Document → List Diagnostic

def Features.standard : Features where
  coloring := Document.coloring
  symbols := Document.symbols
  hover := Document.hover?
  completions := Document.completions
  signatureHelp := Document.signatureHelp
  definition := Document.definition
  rename := Document.rename
  diagnostics := Document.diagnostics

inductive Notification where
  | ready
  | opened (uri : Uri) (text : String) (version : Int)
  /-- Every change carries the whole text; the last one counts. -/
  | changed (uri : Uri) (texts : List String) (version : Int)
  | closed (uri : Uri)
  deriving DecidableEq, Repr, Inhabited

/-- What is asked of an open document. -/
inductive Question where
  | coloring
  | symbols
  | hover (place : Position)
  | completion (place : Position)
  | signatureHelp (place : Position)
  | definition (place : Position)
  | rename (place : Position) (newName : String)
  deriving DecidableEq, Repr, Inhabited

inductive Request where
  | capabilities
  | shutdown
  | ask (uri : Uri) (question : Question)
  deriving DecidableEq, Repr, Inhabited

inductive Answer where
  | nothing
  | capabilities
  | coloring (data : List Nat)
  | symbols (symbols : List DocumentSymbol)
  | hover (hover : Hover)
  | completions (items : List Completion)
  | signatureHelp (help : SignatureHelp)
  | definition (uri : Uri) (span : Span)
  | edits (uri : Uri) (edits : List TextEdit)
  deriving DecidableEq, Repr, Inhabited

inductive Failure where
  /-- The document changed while the request ran. -/
  | contentModified
  | badPosition (place : Position)
  | badName (error : RenameError)
  deriving DecidableEq, Repr, Inhabited

namespace Failure

def code : Failure → Int
  | .contentModified => -32801
  | .badPosition _ => -32602
  | .badName _ => -32602

def message : Failure → String
  | .contentModified => "content modified"
  | .badPosition place => "position " ++ place.render ++ " is outside the document"
  | .badName error => error.message

def ofSearch : SearchError → Failure
  | .aborted => .contentModified
  | .outOfRange place => .badPosition place

def ofRename : RenameError → Failure
  | .aborted => .contentModified
  | error => .badName error

end Failure

/-- The problems of a document, as sent to the editor. -/
structure Publication where
  uri : Uri
  diagnostics : List Diagnostic
  version : Option Int
  deriving DecidableEq, Repr, Inhabited

structure Server where
  features : Features
  settings : Settings
  store : Store

namespace Server

def start (features : Features) (settings : Settings) : Server := ⟨features, settings, .empty⟩

def publish (server : Server) (publication : Publication) : List Publication :=
  if server.settings.publishDiagnostics then [publication] else []

/-- Stores a text and publishes its problems. -/
def update (server : Server) (uri : Uri) (text : String) (version : Int) :
    List Publication × Server :=
  let (id, store) := server.store.upsert uri text
  let found := match store.snapshot? id with
    | some snapshot => server.features.diagnostics snapshot.document
    | none => []
  (server.publish ⟨uri, found, some version⟩, { server with store })

def notify (server : Server) : Notification → List Publication × Server
  | .ready => ([], server)
  | .opened uri text version => server.update uri text version
  | .changed uri texts version =>
    match texts.getLast? with
    | some text => server.update uri text version
    | none => ([], server)
  | .closed uri =>
    (server.publish ⟨uri, [], none⟩, { server with store := server.store.close uri })

def completionOptions (server : Server) : CompletionOptions :=
  ⟨server.settings.offersVariables, server.settings.offersKeywords⟩

/-- Answers a question about a snapshot of the document called `uri`. -/
def answerOn (server : Server) (uri : Uri) (snapshot : Snapshot) :
    Question → Except Failure Answer
  | .coloring => .ok (.coloring (server.features.coloring snapshot.document))
  | .symbols => .ok (.symbols (server.features.symbols snapshot.document))
  | .hover place =>
    match server.features.hover snapshot.document place with
    | some hover => .ok (.hover hover)
    | none => .ok .nothing
  | .completion place =>
    .ok (.completions
      (server.features.completions snapshot.document place server.completionOptions))
  | .signatureHelp place =>
    match server.features.signatureHelp snapshot.document place snapshot.isCancelled with
    | .ok (some help) => .ok (.signatureHelp help)
    | .ok none => .ok .nothing
    | .error e => .error (.ofSearch e)
  | .definition place =>
    match server.features.definition snapshot.document place snapshot.isCancelled with
    | .ok (some span) => .ok (.definition uri span)
    | .ok none => .ok .nothing
    | .error e => .error (.ofSearch e)
  | .rename place newName =>
    match server.features.rename snapshot.document place newName snapshot.isCancelled with
    | .ok (some edits) => .ok (.edits uri edits)
    | .ok none => .ok .nothing
    | .error e => .error (.ofRename e)

/-- Answers a request; there is nothing to say about a document that is not open. -/
def answer (server : Server) : Request → Except Failure Answer
  | .capabilities => .ok .capabilities
  | .shutdown => .ok .nothing
  | .ask uri question =>
    match server.store.current? uri with
    | some snapshot => server.answerOn uri snapshot question
    | none => .ok .nothing

end Server

end PayFormula
