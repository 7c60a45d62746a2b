import ContractMigration.Text.Blank
import ContractMigration.Text.Search

/-!
# The pragma and the imports

Both are found in the masked text, where no comment or string can look like one, and read from the source, where
the version and the path still stand. A statement ends at its semicolon; the text after the last semicolon counts
as a statement for imports but holds no pragma.
-/

namespace ContractMigration.Solidity

open Text

/-- Reads `pragma solidity` as two whole words, and gives what follows. -/
def readPragma (masked : List Char) : Option (List Char) :=
  match after? "pragma".toList masked with
  | none => none
  | some rest =>
    match rest with
    | [] => none
    | c :: _ => if isBlank c then wholeWord? "solidity".toList (trimLeft rest) else none

/-- The version expression of the first `pragma solidity`, or `unknown` when there is none, when it is empty or when
no semicolon ends it. -/
def versionExpression (source masked : List Char) : List Char :=
  let unknown := "unknown".toList
  match findWord isWordChar readPragma masked with
  | none => unknown
  | some (_, rest) =>
    let expression := rest.takeWhile (· != ';')
    if expression.length = rest.length then unknown
    else
      let version := trim ((source.drop (masked.length - rest.length)).take expression.length)
      if version.isEmpty then unknown else version

/-- Either of the two quotes. -/
def isQuote (c : Char) : Bool :=
  c == '"' || c == '\''

/-- The first text on one line between two quotes of any kind that is not empty and holds no quote. -/
def firstQuoted? : List Char → Option (List Char)
  | [] => none
  | c :: rest =>
    let inside := if isQuote c then rest.takeWhile (fun d => !isQuote d && d != '\n') else []
    match inside, rest.drop inside.length with
    | _ :: _, d :: _ => if isQuote d then some inside else firstQuoted? rest
    | _, _ => firstQuoted? rest

/-- The statements of a source: its pieces between the semicolons of the masked text, each with its masked form. -/
def statements (source masked : List Char) : List (List Char × List Char) :=
  ((source.zip masked).splitOnP (·.2 == ';')).map List.unzip

/-- The path that a statement imports: what is quoted after the first word `import`. -/
def importedPath? (source masked : List Char) : Option (List Char) :=
  match findWord isWordChar (wholeWord? "import".toList) masked with
  | none => none
  | some (_, rest) => firstQuoted? (source.drop (masked.length - rest.length))

/-- The imported paths, in order. -/
def importedPaths (source masked : List Char) : List (List Char) :=
  (statements source masked).filterMap fun (text, hidden) => importedPath? text hidden

end ContractMigration.Solidity
