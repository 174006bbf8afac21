import PayFormula.Syntax.Error

/-!
# Cursors

A cursor stands on a token of a text: it holds that token and all that follow
it, and the errors that were recovered from so far. Reading moves the cursor and
leaves it in place when it fails, because recovery goes on from there.

A reader starts with the cursor on the first token of what it reads and ends on
the last one. Looking ahead and advancing pass over comments.
-/
namespace PayFormula

structure Cursor where
  rest : List Token
  /-- The end token, which stands behind all others. -/
  eof : Token
  errors : List SyntaxError
  deriving DecidableEq, Repr, Inhabited

abbrev Read := ExceptT SyntaxError (StateM Cursor)

namespace Cursor

def current (c : Cursor) : Token := c.rest.headD c.eof

/-- What is left from the next token on that is no comment. -/
def following (c : Cursor) : List Token := c.rest.tail.dropWhile (·.kind.isComment)

def peek (c : Cursor) : Token := c.following.headD c.eof

def advance (c : Cursor) : Cursor := { c with rest := c.following }

/-- Moves by one token, be it a comment or not. -/
def step (c : Cursor) : Cursor := { c with rest := c.rest.tail }

def record (c : Cursor) (e : SyntaxError) : Cursor := { c with errors := c.errors ++ [e] }

end Cursor

/-- The depth of nesting after a token, in brackets opened since some start. -/
def TokenKind.depthAfter (depth : Nat) : TokenKind → Nat
  | .mark .lparen | .mark .lbracket => depth + 1
  | .mark .rparen | .mark .rbracket => depth - 1
  | _ => depth

/-- Splits tokens in front of the first of the given kinds that stands outside
the brackets opened on the way. -/
def splitAtStop? (stops : List TokenKind) (depth : Nat) :
    List Token → Option (List Token × List Token)
  | [] => none
  | t :: rest =>
    if depth = 0 ∧ t.kind ∈ stops then some ([], t :: rest)
    else (splitAtStop? stops (t.kind.depthAfter depth) rest).map fun (skipped, stop) =>
      (t :: skipped, stop)

/-- Moves past the next top-level `;`, or to the end if there is none. -/
def Cursor.synchronize (c : Cursor) : Cursor :=
  match splitAtStop? [.mark .semicolon] 0 c.rest with
  | some (_, stop) => { c with rest := stop.tail }
  | none => { c with rest := [] }

namespace Read

def current : Read Token := fun c => (.ok c.current, c)

def peek : Read Token := fun c => (.ok c.peek, c)

def advance : Read Unit := fun c => (.ok (), c.advance)

def fail {α : Type} (cause : SyntaxError.Cause) (t : Token) : Read α := throw ⟨cause, t⟩

/-- The tokens left, the current one included. -/
def rest : Read (List Token) := fun c => (.ok c.rest, c)

def seek (tokens : List Token) : Read Unit := fun c => (.ok (), { c with rest := tokens })

def record (e : SyntaxError) : Read Unit := fun c => (.ok (), c.record e)

/-- Hands out the error of a reader instead of failing with it. -/
def attempt {α : Type} (read : Read α) : Read (Except SyntaxError α) := fun c =>
  let (result, c) := read c
  (.ok result, c)

/-- Advances to the next token, which has to be of the given kind. -/
def expect (kind : TokenKind) : Read Token := do
  let next ← peek
  if next.kind = kind then
    advance
    return next
  else fail (.unexpectedToken [kind]) next

/-- Advances to the mark that closes a delimiter. -/
def expectClosing (opening closing : Mark) : Read Token := do
  let next ← peek
  if next.kind = .mark closing then
    advance
    return next
  else fail (.unclosed opening) next

end Read

end PayFormula
