import ContractMigration.Text.Hexadecimal
import ContractMigration.Text.Quoted

/-!
# Targets of requests

A request names what it asks for by a reference: a scheme before a colon, an authority behind two slashes, a path, a
query behind a question mark and a fragment behind a hash. Only the path and the query count. A path that is not
behind an authority and a scheme begins at the root, whatever slashes it begins with. Dot segments are resolved before
the path is decoded, so an encoded dot is a dot and not a step.

This is how one client takes references; the service itself is only asked for paths.
-/

namespace ContractMigration

open Text

/-- A path and the names and values of a query. -/
structure Target where
  path : String
  query : List (String × String) := []
deriving DecidableEq, Repr

namespace Target

/-- Why a reference is refused. -/
inductive Fault where
  | tooLong
  | unprintable (c : Char) (position : Nat)
  | leadingSlashes
  | leadingColon
deriving DecidableEq, Repr

/-- The wording of a fault. -/
def Fault.message : Fault → String
  | tooLong => "URL too long"
  | unprintable c position =>
    "Invalid non-printable ASCII character in URL, " ++ String.ofList (quoted [c]) ++ " at position " ++
      toString position ++ "."
  | leadingSlashes => "Relative URLs cannot have a path starting with '//'"
  | leadingColon => "Relative URLs cannot have a path starting with ':'"

/-- The most characters of a reference. -/
def mostCharacters : Nat :=
  65536

/-- The parts of a reference that tell which path is meant. -/
structure Parts where
  scheme : List Char
  authority : List Char
  path : List Char
  query : List Char
deriving DecidableEq, Repr

/-- A character of a scheme behind its first one. -/
def isSchemeChar (c : Char) : Bool :=
  c.isAlphanum || c == '+' || c == '.' || c == '-'

/-- Splits a scheme and its colon off a reference; the scheme may be empty. -/
def splitScheme (text : List Char) : List Char × List Char :=
  let scheme := text.takeWhile isSchemeChar
  match text.dropWhile isSchemeChar with
  | ':' :: rest => if (scheme.head?.map Char.isAlpha).getD true then (scheme, rest) else ([], text)
  | _ => ([], text)

/-- Whether a character ends an authority. -/
def endsAuthority (c : Char) : Bool :=
  c == '/' || c == '?' || c == '#'

/-- Splits an authority and its slashes off the rest of a reference. -/
def splitAuthority : List Char → List Char × List Char
  | '/' :: '/' :: rest => (rest.takeWhile (!endsAuthority ·), rest.dropWhile (!endsAuthority ·))
  | text => ([], text)

/-- Whether a character ends a path. -/
def endsPath (c : Char) : Bool :=
  c == '?' || c == '#'

/-- The parts of a reference. -/
def Parts.ofText (text : List Char) : Parts :=
  let (scheme, afterScheme) := splitScheme text
  let (authority, afterAuthority) := splitAuthority afterScheme
  { scheme
    authority
    path := afterAuthority.takeWhile (!endsPath ·)
    query := match afterAuthority.dropWhile (!endsPath ·) with
      | '?' :: rest => rest.takeWhile (· != '#')
      | _ => [] }

/-- Adds a segment to the reversed segments of a path: one dot stays, two dots go back, but not beyond the root. -/
def addSegment (done : List (List Char)) (segment : List Char) : List (List Char) :=
  if segment = ['.'] then done
  else if segment = ['.', '.'] then
    if done = [[]] then done else done.drop 1
  else segment :: done

/-- A path without dot segments. -/
def withoutDots (path : List Char) : List Char :=
  ['/'].intercalate ((path.splitOn '/').foldl addSegment []).reverse

/-- The path that the parts of a reference mean, not yet decoded. -/
def Parts.fullPath (parts : Parts) : List Char :=
  let resolved := if parts.scheme.isEmpty && parts.authority.isEmpty then parts.path else withoutDots parts.path
  if parts.scheme.isEmpty || parts.authority.isEmpty then withoutDots ('/' :: resolved.dropWhile (· == '/'))
  else resolved

/-- The fault of a reference, if it has one. -/
def fault? (text : List Char) (parts : Parts) : Option Fault :=
  if mostCharacters < text.length then some .tooLong
  else
    match text.findIdx? fun c => c.toNat < 32 || c.toNat = 127 with
    | some position => some (.unprintable (text.getD position ' ') position)
    | none =>
      if !parts.scheme.isEmpty || !parts.authority.isEmpty then none
      else if ['/', '/'].isPrefixOf parts.path then some .leadingSlashes
      else if [':'].isPrefixOf parts.path then some .leadingColon
      else none

/-- The target that a reference means. A path is decoded twice, once on its way and once where it arrives. -/
def ofReference (reference : String) : Except Fault Target :=
  let text := reference.toList
  let parts := Parts.ofText text
  match fault? text parts with
  | some fault => .error fault
  | none => .ok ⟨String.ofList (percentDecoded (percentDecoded parts.fullPath)), formPairs parts.query⟩

end Target

end ContractMigration
