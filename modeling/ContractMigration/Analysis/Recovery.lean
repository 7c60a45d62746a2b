import ContractMigration.Analysis.Facts
import ContractMigration.Solidity.Directive
import ContractMigration.Solidity.Extraction
import ContractMigration.Solidity.Lexeme

/-!
# Analysing a source

The analysis never fails. A body that is not closed ends the scan and leaves a diagnostic, and everything recovered
before it stays. The stages are also allowed to fail outright, as a schedule of faults prescribes: the reading of a
declaration then costs that declaration only, the scanner keeps what it has yielded, and the facts are looked for once
more in what was recovered before they are given up. A stage that may fail says so in its type (`Stage`), and what it
has found until then is kept beside its outcome.
-/

namespace ContractMigration

open Solidity

/-- A failure of a stage that is not supposed to fail. -/
structure Failure where
  kind : String
  message : String
deriving DecidableEq, Repr

/-- The failure as it is reported. -/
def Failure.describe (failure : Failure) : String :=
  failure.kind ++ ": " ++ failure.message

/-- Which stages fail: the reading of the declarations with certain names, the scanner before it yields the
declarations with certain numbers, and the search for facts at certain calls; numbers and calls count from zero. -/
structure Faults where
  extraction : String → Option Failure := fun _ => none
  scan : Nat → Option Failure := fun _ => none
  facts : Nat → Option Failure := fun _ => none

/-- What goes into the diagnostics of an analysis. -/
inductive Diagnostic where
  | extraction (kind : DeclarationKind) (name : String) (failure : Failure)
  | unterminated (failure : UnterminatedBody)
  | scanner (failure : Failure)
  | aborted (failure : Failure)
deriving DecidableEq, Repr

/-- The wording of a diagnostic. -/
def Diagnostic.message : Diagnostic → String
  | extraction kind name failure =>
    "Extraction failed for " ++ kind.word ++ " '" ++ name ++ "': " ++ failure.describe
  | unterminated failure => "Structural error: " ++ failure.message
  | scanner failure => "Scanner failure: " ++ failure.describe
  | aborted failure => "Analysis aborted: " ++ failure.describe

/-- What has been found so far. -/
structure Progress where
  contracts : List Contract := []
  pragma : List Char := "unknown".toList
  imports : List (List Char) := []
  diagnostics : List Diagnostic := []
  /-- How often the facts have been looked for. -/
  searches : Nat := 0
deriving DecidableEq, Repr

/-- A stage of an analysis. It may fail, and what was found until then stays found. -/
abbrev Stage :=
  ExceptT Failure (StateM Progress)

/-- Adds a diagnostic. -/
def Progress.note (progress : Progress) (diagnostic : Diagnostic) : Progress :=
  { progress with diagnostics := progress.diagnostics ++ [diagnostic] }

/-- Reads a declaration, unless a fault hits it. -/
def extract (faults : Faults) (declaration : Declaration) : Except Diagnostic Contract :=
  match faults.extraction declaration.name with
  | some failure => .error (.extraction declaration.kind declaration.name failure)
  | none => .ok declaration.contract

/-- Takes one declaration after the other from the scanner, onto the reversed contracts and diagnostics so far. A
declaration that cannot be read is noted and passed over; a failure of the scanner is noted and ends the loop. The
declaration at the head of the list has the number `number`, and `ending` is what stops the scanner behind the last. -/
def recoverOnto (faults : Faults) (ending : Option UnterminatedBody) (contracts : List Contract)
    (diagnostics : List Diagnostic) (number : Nat) : List Declaration → List Contract × List Diagnostic
  | [] =>
    match ending with
    | some failure => (contracts.reverse, (.unterminated failure :: diagnostics).reverse)
    | none => (contracts.reverse, diagnostics.reverse)
  | declaration :: rest =>
    match faults.scan number with
    | some failure => (contracts.reverse, (.scanner failure :: diagnostics).reverse)
    | none =>
      match extract faults declaration with
      | .ok contract => recoverOnto faults ending (contract :: contracts) diagnostics (number + 1) rest
      | .error diagnostic => recoverOnto faults ending contracts (diagnostic :: diagnostics) (number + 1) rest

/-- The contracts that are recovered from a masked source, and the diagnostics on the way. -/
def recover (faults : Faults) (source masked : List Char) : List Contract × List Diagnostic :=
  let found := scan source masked
  recoverOnto faults found.failure [] [] 0 found.declarations

/-- Looks for the facts in what has been recovered. Every call counts, also one that fails. -/
def findFacts (faults : Faults) (source : List Char) : Stage FileFacts := do
  let progress ← get
  set { progress with searches := progress.searches + 1 }
  match faults.facts progress.searches with
  | some failure => throw failure
  | none => return factsOf progress.contracts source

/-- All stages, one after the other. -/
def attempt (faults : Faults) (source : List Char) : Stage FileFacts := do
  let masked := mask source
  modify fun progress => { progress with pragma := versionExpression source masked }
  modify fun progress => { progress with imports := importedPaths source masked }
  let (contracts, diagnostics) := recover faults source masked
  modify fun progress => { progress with contracts, diagnostics := progress.diagnostics ++ diagnostics }
  findFacts faults source

/-- What is done when a stage has failed: the facts are looked for in what was recovered, and when that fails as well
nothing counts as detected. -/
def salvage (faults : Faults) (source : List Char) (failure : Failure) : StateM Progress FileFacts := do
  modify (·.note (.aborted failure))
  match ← (findFacts faults source).run with
  | .ok facts => return facts
  | .error _ => return { lineCount := lineCount source }

/-- All stages, and what is done when one fails. -/
def attemptOrSalvage (faults : Faults) (source : List Char) : StateM Progress FileFacts := do
  match ← (attempt faults source).run with
  | .ok facts => return facts
  | .error failure => salvage faults source failure

/-- Analyses a source under a schedule of faults. -/
def analyzeUnderFaults (faults : Faults) (source : List Char) : Analysis :=
  let (facts, progress) := (attemptOrSalvage faults source).run {}
  { toFileFacts := facts
    contracts := progress.contracts
    pragma := String.ofList progress.pragma
    imports := progress.imports.map String.ofList
    errors := progress.diagnostics.map Diagnostic.message }

/-- Analyses a source. -/
def analyze (source : List Char) : Analysis :=
  analyzeUnderFaults {} source

end ContractMigration
