import ContractMigration.Json.Basic
import ContractMigration.Rule.Families

/-!
# The registry of rules

The modules of a registry run one after the other over one analysis. A module that fails is noted and
adds nothing, and the modules after it see what those before it made, so a report with failing modules has the same
rules as the report without them. The rules are numbered from one in the order in which they were made. In the written
form of a rule absent texts are null.
-/

namespace ContractMigration

/-- A module that makes rules from an analysis and the rules made before; it gives none when it fails. -/
structure RuleModule where
  id : String
  apply : Analysis → List MigrationRule → Option (List MigrationRule)

namespace RuleModule

/-- All modules, in the order in which they run by default. -/
def standard : List RuleModule := [
  ⟨"contract_state", fun analysis _ => some (contractStateRules analysis)⟩,
  ⟨"state_variables", fun analysis _ => some (stateVariableRules analysis)⟩,
  ⟨"instructions", fun analysis _ => some (instructionRules analysis)⟩,
  ⟨"events", fun analysis _ => some (eventRules analysis)⟩,
  ⟨"token_standards", fun analysis _ => some (tokenStandardRules analysis)⟩,
  ⟨"access_control", fun analysis emitted => some (accessControlRules analysis emitted)⟩,
  ⟨"patterns", fun _ emitted => some (missingPatternRules emitted)⟩]

/-- The module with an id; an unknown id is a module that always fails. -/
def named (id : String) : RuleModule :=
  (standard.find? fun ruleModule => ruleModule.id == id).getD ⟨id, fun _ _ => none⟩

/-- The modules that run when these are asked for; no modules at all mean all modules. -/
def orStandard (modules : List RuleModule) : List RuleModule :=
  if modules.isEmpty then standard else modules

/-- The modules with the given ids, each once at its first place; no ids at all mean all modules. -/
def registry (ids : List String) : List RuleModule :=
  orStandard (ids.eraseDups.map named)

end RuleModule

/-- What a run of the modules gives. -/
structure RuleReport where
  rules : List MigrationRule := []
  executed : List String := []
  failed : List String := []
deriving DecidableEq, Repr

namespace RuleReport

/-- The report after one more module; the rules are not numbered yet. -/
def extend (analysis : Analysis) (report : RuleReport) (ruleModule : RuleModule) : RuleReport :=
  match ruleModule.apply analysis report.rules with
  | some rules =>
    { report with rules := report.rules ++ rules, executed := report.executed ++ [ruleModule.id] }
  | none =>
    { report with executed := report.executed ++ [ruleModule.id], failed := report.failed ++ [ruleModule.id] }

/-- The report with its rules numbered from one. -/
def numbered (report : RuleReport) : RuleReport :=
  { report with rules := report.rules.mapIdx fun index rule => { rule with id := "rule-" ++ toString (index + 1) } }

end RuleReport

/-- Runs the modules of a registry over an analysis. -/
def runRules (registry : List RuleModule) (analysis : Analysis) : RuleReport :=
  (registry.foldl (RuleReport.extend analysis) {}).numbered

/-- The rules that all modules make of an analysis. -/
def standardRules (analysis : Analysis) : List MigrationRule :=
  (runRules RuleModule.standard analysis).rules

/-! ### The written form -/

/-- Writes a rule. -/
def MigrationRule.toJson (rule : MigrationRule) : Json :=
  .obj [("id", .str rule.id), ("category", .str rule.category.word), ("evm_concept", .str rule.evmConcept),
    ("evm_detail", .str rule.evmDetail), ("evm_type", .ofText? rule.evmType),
    ("solana_concept", .str rule.solanaConcept), ("solana_detail", .str rule.solanaDetail),
    ("solana_type", .ofText? rule.solanaType), ("rationale", .str rule.rationale),
    ("complexity", .str rule.complexity.word), ("anchor_snippet", .ofText? rule.snippet),
    ("docs_link", .ofText? rule.docsLink)]

/-- Writes a report. -/
def RuleReport.toJson (report : RuleReport) : Json :=
  .obj [("rules", .arr (report.rules.map MigrationRule.toJson)), ("rules_executed", .ofTexts report.executed),
    ("rules_failed", .ofTexts report.failed)]

end ContractMigration
