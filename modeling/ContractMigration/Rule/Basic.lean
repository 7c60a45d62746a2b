import ContractMigration.Analysis.Basic

/-!
# Migration rules

A rule says what becomes of one concept of a contract: the concept on either side, why, how hard it is, and
optionally a snippet and a link. The ids are given in the report and are empty before.
-/

namespace ContractMigration

/-- What a rule is about. -/
inductive RuleCategory where
  | state
  | token
  | access
  | event
  | pattern
  | storage
deriving DecidableEq, Repr

/-- The word for a category. -/
def RuleCategory.word : RuleCategory → String
  | state => "state"
  | token => "token"
  | access => "access"
  | event => "event"
  | pattern => "pattern"
  | storage => "storage"

/-- What becomes of one concept. -/
structure MigrationRule where
  id : String := ""
  category : RuleCategory
  evmConcept : String
  evmDetail : String
  evmType : Option String := none
  solanaConcept : String
  solanaDetail : String
  solanaType : Option String := none
  rationale : String
  complexity : Complexity := .low
  snippet : Option String := none
  docsLink : Option String := none
deriving DecidableEq, Repr

/-- Lines with a line end between neighbours. -/
def lines (texts : List String) : String :=
  String.intercalate "\n" texts

end ContractMigration
