import ContractMigration.Analysis.Basic
import ContractMigration.Text.Case
import ContractMigration.Text.Search

/-!
# The facts about a file

Some facts come from the recovered contracts and some from substrings of the source, which are looked for without
regard to case; the test for mappings alone is exact. More contracts, more members in them or more text can only turn
a fact from false to true.
-/

namespace ContractMigration

open Text

/-- The functions in all contracts, constructors included and modifiers not. -/
def functionCount (contracts : List Contract) : Nat :=
  (contracts.flatMap fun contract => contract.functions.filter fun function => !function.isModifier).length

/-- More than fifteen functions or more than ten variables make a file highly complex, and more than six functions
moderately so. -/
def Complexity.ofCounts (functions stateVariables : Int) : Complexity :=
  if functions > 15 ∨ stateVariables > 10 then .high
  else if functions > 6 then .medium
  else .low

/-- The number of lines: one more than there are line ends. -/
def lineCount (source : List Char) : Nat :=
  source.count '\n' + 1

/-- The names of the functions that an ERC-20 token has besides its balance, in lower case. -/
def erc20Functions : List (List Char) :=
  ["transfer".toList, "approve".toList, "transferfrom".toList]

/-- The facts about a file, from its contracts and its source. -/
def factsOf (contracts : List Contract) (source : List Char) : FileFacts :=
  let functionNames := contracts.flatMap fun contract =>
    contract.functions.map fun function => lower function.name.toList
  let baseNames := contracts.flatMap fun contract => contract.bases.map fun base => lower base.toList
  let text := lower source
  { isErc20 := erc20Functions.all functionNames.contains
    isErc721 := functionNames.contains "safetransferfrom".toList || occursIn "erc721".toList text
    hasOwnable := baseNames.any (occursIn "ownable".toList) || occursIn "ownable".toList text
    hasAccessControl := occursIn "accesscontrol".toList text || occursIn "roles".toList text
    hasMappings := occursIn "mapping(".toList source
    hasEvents := contracts.any fun contract => !contract.events.isEmpty
    complexity := .ofCounts (functionCount contracts) (stateVariableCount contracts)
    lineCount := lineCount source }

end ContractMigration
