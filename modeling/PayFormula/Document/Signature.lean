import PayFormula.Document.Basic

/-!
# Signature help

Which call the cursor stands in, and on which of its parameters. The call is
the innermost one around the character before the cursor. While a call is being
typed it may not be in the tree; then the tokens before the cursor are searched
backwards for a parenthesis that is still open after a builtin name.
-/
namespace PayFormula

structure SignatureParam where
  /-- The half-open byte range of the parameter within the label. -/
  range : Nat × Nat
  documentation : String
  deriving DecidableEq, Repr, Inhabited

structure SignatureHelp where
  label : String
  params : List SignatureParam
  /-- The number of the parameter under the cursor, a 32-bit word. -/
  active : Nat
  documentation : String
  deriving DecidableEq, Repr, Inhabited

namespace SignatureHelp

/-- What is known of a macro: nothing. -/
def empty : SignatureHelp := ⟨"", [], 0, ""⟩

def ofFunction (f : Function) (commas : Nat) : SignatureHelp :=
  ⟨f.signature, List.zipWith (fun p range => ⟨range, p.docLine⟩) f.params f.labelOffsets,
    f.paramIndex commas % 0x100000000, f.docstring⟩

end SignatureHelp

/-- The call that a cursor stands in. -/
inductive CallSite where
  | function (name : String) (lparen : Token)
  | macroCall
  deriving DecidableEq, Repr, Inhabited

namespace CallSite

def ofExpr? : Expr → Option CallSite
  | .call t lparen _ _ => some (.function (Text.lowercase t.literal) lparen)
  | .macroCall .. => some .macroCall
  | _ => none

/-- The innermost call on a way through the tree. -/
def innermost? (path : List Node) : Option CallSite :=
  path.reverse.findSome? fun node => node.expr?.bind ofExpr?

/-- The call that a parenthesis opens, given the tokens before it in reverse. -/
def ofParen? (lparen : Token) (before : List Token) : Option CallSite :=
  match before.find? (!·.kind.isComment) with
  | none => none
  | some name =>
    match name.kind with
    | .builtin => some (.function name.literal lparen)
    | .ident => if before[1]?.any (·.kind == .mark .dollar) then some .macroCall else none
    | _ => none

/-- Goes back to the nearest parenthesis left open in front of a position, and
what stands before it. The tokens come in reverse; `depth` counts the brackets
that were closed on the way. -/
def openParen? (place : Position) (depth : Nat) : List Token → Option (Token × List Token)
  | [] => none
  | t :: before =>
    if t.first < place then
      match t.kind with
      | .mark .rparen | .mark .rbracket => openParen? place (depth + 1) before
      | .mark .lbracket => openParen? place (depth - 1) before
      | .mark .lparen =>
        if depth = 0 then some (t, before) else openParen? place (depth - 1) before
      | .mark .semicolon => if depth = 0 then none else openParen? place depth before
      | _ => openParen? place depth before
    else openParen? place depth before

/-- The call left open in front of a position. -/
def scan? (tokens : List Token) (place : Position) : Option CallSite :=
  (openParen? place 0 tokens.reverse).bind fun (lparen, before) => ofParen? lparen before

end CallSite

namespace Signature

/-- The commas outside brackets among tokens. -/
def commasAt (depth : Nat) : List Token → Nat
  | [] => 0
  | t :: tokens =>
    (if depth = 0 ∧ t.kind = .mark .comma then 1 else 0) +
      commasAt (t.kind.depthAfter depth) tokens

/-- The commas of a call between its parenthesis and a position. -/
def countCommas (tokens : List Token) (lparen : Token) (place : Position) : Nat :=
  commasAt 0 (tokens.filter fun t => decide (lparen.stop ≤ t.start ∧ t.first < place))

end Signature

namespace Document

/-- The innermost call around the character before a position, nothing if that
lies outside the document. -/
def callAround (d : Document) (place : Position) (cancelled : Bool) :
    Except SearchError (Option CallSite) :=
  match d.program.enclosing (place.left 1) cancelled with
  | .ok path => .ok (CallSite.innermost? path)
  | .error (.outOfRange _) => .ok none
  | .error .aborted => .error .aborted

def helpFor? (d : Document) (place : Position) : CallSite → Option SignatureHelp
  | .macroCall => some .empty
  | .function name lparen =>
    (Catalog.lookup? name).map fun f =>
      .ofFunction f (Signature.countCommas d.tokens lparen place)

def signatureHelp (d : Document) (place : Position) (cancelled : Bool) :
    Except SearchError (Option SignatureHelp) := do
  let site := (← d.callAround place cancelled).or (CallSite.scan? d.tokens place)
  return site.bind (d.helpFor? place)

end Document

end PayFormula
