import PayFormula.Uri.Host
import PayFormula.Uri.Route

/-!
# URIs

The names of documents. A URI is read from text in any of its spellings and has
one spelling of its own: `FILE:///a/../b c` names the document `file:///b%20c`.
-/
namespace PayFormula

/-- The parts of a URI in their normal forms. -/
structure Uri where
  scheme : String
  /-- The user, the host and the number of the socket. -/
  authority : Option String
  path : String
  query : Option String
  fragment : Option String
  deriving DecidableEq, Repr, Inhabited

namespace Uri

def text (uri : Uri) : String :=
  let part (mark : String) (part : Option String) := (part.map (mark ++ ·)).getD ""
  uri.scheme ++ ":" ++ part "//" uri.authority ++ uri.path ++ part "?" uri.query ++
    part "#" uri.fragment

/-- Special schemes, that of files apart, have a socket that goes without saying. -/
def usualSocket? : String → Option Nat
  | "http" | "ws" => some 80
  | "https" | "wss" => some 443
  | "ftp" => some 21
  | _ => none

/-- Blanks and control characters around a URI count for nothing. -/
def trim (text : List Char) : List Char :=
  ((text.dropWhile (· ≤ ' ')).reverse.dropWhile (· ≤ ' ')).reverse

def isSchemeChar (c : Char) : Bool := c.isAlphanum || c ∈ ['+', '-', '.']

/-- Reads a scheme and its colon. -/
def scheme? (text : List Char) : Option (String × List Char) :=
  let before := text.takeWhile (· ≠ ':')
  let name := Route.unbroken before
  match text.drop before.length with
  | ':' :: rest =>
    if name.head?.any Char.isAlpha && name.all isSchemeChar then
      some (String.ofList (name.map Char.toLower), rest)
    else none
  | _ => none

/-- The characters up to a query or fragment, the query and the fragment. -/
def splitTail (text : List Char) : List Char × Option (List Char) × Option (List Char) :=
  let path := text.takeWhile (· ∉ ['?', '#'])
  let fragment : List Char → Option (List Char)
    | '#' :: text => some text
    | _ => none
  match text.drop path.length with
  | '?' :: rest =>
    let query := rest.takeWhile (· ≠ '#')
    (path, some query, fragment (rest.drop query.length))
  | rest => (path, none, fragment rest)

/-- What stands before the last at sign, if there is one, and what follows it. -/
def splitUser (authority : List Char) : Option (List Char) × List Char :=
  let host := (authority.reverse.takeWhile (· ≠ '@')).reverse
  if host.length = authority.length then (none, authority)
  else (some (authority.take (authority.length - host.length - 1)), host)

/-- The host and, from its colon on, the socket. A colon in brackets is part of the
host. -/
def splitSocket (isInside : Bool) : List Char → List Char × List Char
  | [] => ([], [])
  | c :: text =>
    if c = ':' ∧ !isInside then ([], c :: text)
    else
      let (host, socket) := splitSocket (c = '[' || isInside && c ≠ ']') text
      (c :: host, socket)

/-- The normal form of a user and a password, with an at sign unless both are empty. -/
def user (text : List Char) : List Char :=
  let name := text.takeWhile (· ≠ ':')
  let password := text.drop (name.length + 1)
  let written := escape isForeignToUser name ++
    if password.isEmpty then [] else ':' :: escape isForeignToUser password
  if written.isEmpty then [] else written ++ ['@']

/-- The normal form of a socket after its colon, where the usual one is left out, and
what a backslash keeps off from it. -/
def socket? (usual : Option Nat) (text : List Char) : Option (List Char × List Char) :=
  let digits := text.takeWhile Char.isDigit
  let rest := text.drop digits.length
  let n := Text.valueOf 10 digits
  if !rest.head?.all (· == '\\') || n > 0xffff then none
  else if digits.isEmpty || usual == some n then some ([], rest)
  else some (':' :: Nat.toDigits 10 n, rest)

/-- The normal form of an authority and what belongs to the path behind it. `isLast`
says that nothing else follows. -/
def authority? (usual : Option Nat) (isLast : Bool) (text : List Char) :
    Option (List Char × List Char) := do
  let (before, rest) := splitUser text
  let user := user (before.getD [])
  let (host, socket) := splitSocket false rest
  let isAllowed :=
    !host.isEmpty ||
      usual.isNone && socket.isEmpty && user.isEmpty && (before != some [] || isLast)
  if !isAllowed then none
  else
    let host ← if usual.isSome then Host.normal? host else Host.anything? host
    let (socket, rest) ← socket? usual (socket.drop 1)
    return (user ++ host ++ socket, rest)

def slashed (steps : List (List Char)) : List Char := steps.flatMap ('/' :: ·)

def isSlash (c : Char) : Bool := c == '/' || c == '\\'

def afterSlash? (text : List Char) : Option (List Char) :=
  match text.dropWhile Route.isBreak with
  | c :: text => if isSlash c then some text else none
  | [] => none

/-- The authority and path of a file, read from what follows the scheme. A host is
left out if it is this one or if the path starts with a drive. Behind two slashes the
path of this host starts with a slash of its own. -/
def ofFile? (text : List Char) : Option (List Char × List Char) :=
  let follow := Route.ofText true true
  let written (host : List Char) (trail : Route.Trail) :=
    some (host, slashed (Route.trim trail.steps))
  match afterSlash? text with
  | none => written [] (follow text)
  | some once =>
    match afterSlash? once with
    | none => written [] (follow once)
    | some twice =>
      let before := twice.takeWhile (!isSlash ·)
      let rest := twice.drop before.length
      let host := Route.unbroken before
      if host.isEmpty || Route.isDrive host then written [] (follow twice)
      else do
        let host ← Host.normal? host
        if host = "localhost".toList then written [] (follow rest)
        else
          let trail := follow (rest.drop 1)
          written (if trail.hasDrive then [] else host) trail

/-- The authority and path of a URI with a usual socket. -/
def ofSpecial? (usual : Nat) (isLast : Bool) (text : List Char) :
    Option (List Char × List Char) := do
  let text := text.dropWhile isSlash
  let authority := text.takeWhile (!isSlash ·)
  let rest := text.drop authority.length
  let (name, _) ← authority? (some usual) (isLast && rest.isEmpty) authority
  return (name, slashed (Route.ofText true false (rest.drop 1)).steps)

/-- The authority and path of any other URI. Without an authority, a path does not
start with two slashes; one without a slash is taken as it is. -/
def ofOther? (isLast : Bool) (text : List Char) : Option (Option (List Char) × List Char) :=
  let path (text : List Char) := slashed (Route.ofText false false text).steps
  match text with
  | '/' :: '/' :: text => do
    let authority := text.takeWhile (· ≠ '/')
    let rest := text.drop authority.length
    let (name, start) ← authority? none (isLast && rest.isEmpty) authority
    let rest := if start.isEmpty then rest else '/' :: start ++ rest
    return (some name, if rest.isEmpty then [] else path (rest.drop 1))
  | '/' :: text =>
    let path := path text
    some (none, if path.take 2 = ['/', '/'] then ['/', '.'] ++ path else path)
  | text => some (none, escape isForeign text)

/-- Reads a URI. -/
def ofString? (text : String) : Option Uri := do
  let (scheme, rest) ← scheme? (trim text.toList)
  let (hierarchy, query, fragment) := splitTail rest
  let query := query.map Route.unbroken
  let fragment := fragment.map Route.unbroken
  let isLast := query.isNone && fragment.isNone
  let isSpecial := scheme == "file" || (usualSocket? scheme).isSome
  let (authority, path) ←
    if scheme = "file" then (ofFile? hierarchy).map fun (host, path) => (some host, path)
    else match usualSocket? scheme with
      | some usual =>
        (ofSpecial? usual isLast (Route.unbroken hierarchy)).map fun (name, path) =>
          (some name, path)
      | none => ofOther? isLast (Route.unbroken hierarchy)
  return {
    scheme
    authority := authority.map String.ofList
    path := String.ofList path
    query := query.map fun text => String.ofList (escape (isForeignToQuery isSpecial) text)
    fragment := fragment.map fun text => String.ofList (escape isForeignToFragment text) }

end Uri

end PayFormula
