import ContractMigration.Proofs.Rust.HandlerNames
import ContractMigration.Rule.Registry
import Mathlib.Tactic.Tauto

/-!
# What stands in a report

The rules of all modules stand in a report one module behind the other, each numbered and otherwise as it was made
(`standardRules_eq`). So what a report says about a concept can be read off the modules.
-/

namespace ContractMigration

/-- The rules with their numbers for ids, from one. -/
def numberedRules (rules : List MigrationRule) : List MigrationRule :=
  rules.mapIdx fun index rule => { rule with id := "rule-" ++ toString (index + 1) }

/-- The rules that are made before the module with an id runs. -/
def rulesBefore (id : String) (analysis : Analysis) : List MigrationRule :=
  ((RuleModule.standard.takeWhile (·.id != id)).foldl (RuleReport.extend analysis) {}).rules

/-- The concept of the rule for a function. -/
def instructionConcept (function : Signature) : String :=
  "function " ++ function.name ++ "(" ++ parameterTypes function.parameters ++ ")"

theorem map_evmConcept_numberedRules (rules : List MigrationRule) :
    (numberedRules rules).map MigrationRule.evmConcept = rules.map MigrationRule.evmConcept := by
  apply List.ext_getElem
  · simp [numberedRules]
  · intro index hleft hright
    simp [numberedRules]

/-- Numbering changes nothing but the ids. -/
theorem forall₂_numberedRules (rules : List MigrationRule) :
    List.Forall₂ (fun rule numbered => numbered = { rule with id := numbered.id }) rules (numberedRules rules) := by
  rw [List.forall₂_iff_get]
  refine ⟨by simp [numberedRules], fun index hrule hnumbered => ?_⟩
  simp [numberedRules]

theorem rulesBefore_accessControl (analysis : Analysis) :
    rulesBefore "access_control" analysis =
      contractStateRules analysis ++ stateVariableRules analysis ++ instructionRules analysis ++ eventRules analysis ++
        tokenStandardRules analysis := rfl

theorem standardRules_eq (analysis : Analysis) :
    let before := rulesBefore "access_control" analysis
    let access := accessControlRules analysis before
    standardRules analysis = numberedRules (before ++ access ++ missingPatternRules (before ++ access)) := rfl

/-! ### The concepts of the modules -/

theorem evmConcept_variableRule (declared : StateVariable) :
    (variableRule declared).evmConcept =
      if declared.isMapping then "mapping: " ++ declared.name
      else if declared.isOwner then Concepts.ownable.evmConcept
      else declared.typeName ++ " " ++ declared.name := by
  unfold variableRule
  split
  · rfl
  · split
    · rfl
    · rfl

/-- Every function has its concept among the rules for functions, in order. -/
theorem map_evmConcept_instructionRule (functions : List Signature) :
    let handlers := handlerNames (functions.map Signature.name)
    (List.zipWith instructionRule functions handlers).map MigrationRule.evmConcept =
      functions.map instructionConcept := by
  intro handlers
  have hlength : functions.length = handlers.length := by
    rw [show handlers.length = _ from length_handlerNamesFrom .., List.length_map]
  apply List.ext_getElem
  · simp [← hlength]
  · intro index hleft hright
    simp [instructionRule, instructionConcept]

section Concepts

variable {analysis : Analysis} {p : String → Prop}

theorem exists_concept_map {α : Type} {items : List α} {rules : List MigrationRule} {concept : α → String}
    (hconcepts : rules.map MigrationRule.evmConcept = items.map concept) :
    (∃ rule ∈ rules, p rule.evmConcept) ↔ ∃ item ∈ items, p (concept item) := by
  have hrules : (∃ rule ∈ rules, p rule.evmConcept) ↔ ∃ text ∈ rules.map MigrationRule.evmConcept, p text := by
    simp only [List.mem_map, exists_exists_and_eq_and]
  rw [hrules, hconcepts]
  simp only [List.mem_map, exists_exists_and_eq_and]

theorem exists_concept_contractStateRules :
    (∃ rule ∈ contractStateRules analysis, p rule.evmConcept) ↔
      ∃ contract ∈ analysis.subject, p ("contract " ++ contract.name ++ " storage") := by
  unfold contractStateRules
  cases analysis.subject with
  | none => simp only [List.not_mem_nil, Option.not_mem_none, false_and, exists_false]
  | some contract =>
    simp only [List.mem_singleton, exists_eq_left, Option.mem_some, exists_eq_left']
    rfl

theorem exists_concept_stateVariableRules :
    (∃ rule ∈ stateVariableRules analysis, p rule.evmConcept) ↔
      ∃ contract ∈ analysis.contracts, ∃ declared ∈ contract.stateVariables, p (variableRule declared).evmConcept := by
  simp only [stateVariableRules, List.mem_flatMap, List.mem_map]
  constructor
  · rintro ⟨-, ⟨contract, hcontract, declared, hdeclared, rfl⟩, hp⟩
    exact ⟨contract, hcontract, declared, hdeclared, hp⟩
  · rintro ⟨contract, hcontract, declared, hdeclared, hp⟩
    exact ⟨_, ⟨contract, hcontract, declared, hdeclared, rfl⟩, hp⟩

theorem exists_concept_instructionRules :
    (∃ rule ∈ instructionRules analysis, p rule.evmConcept) ↔
      ∃ contract ∈ analysis.subject, ∃ function ∈ contract.instructions, p (instructionConcept function) := by
  unfold instructionRules
  cases analysis.subject with
  | none => simp only [List.not_mem_nil, Option.not_mem_none, false_and, exists_false]
  | some contract =>
    simp only [Option.mem_some, exists_eq_left']
    exact exists_concept_map (map_evmConcept_instructionRule contract.instructions)

theorem exists_concept_eventRules :
    (∃ rule ∈ eventRules analysis, p rule.evmConcept) ↔
      ∃ contract ∈ analysis.subject, ∃ event ∈ contract.events, p ("event " ++ event.name) := by
  unfold eventRules
  cases analysis.subject with
  | none => simp only [List.not_mem_nil, Option.not_mem_none, false_and, exists_false]
  | some contract =>
    simp only [Option.mem_some, exists_eq_left']
    exact exists_concept_map (List.map_map ..)

theorem not_exists_concept_tokenStandardRules (herc20 : ¬ p Concepts.erc20.evmConcept)
    (herc721 : ¬ p Concepts.erc721.evmConcept) : ¬ ∃ rule ∈ tokenStandardRules analysis, p rule.evmConcept := by
  rintro ⟨rule, hrule, hp⟩
  rcases List.mem_append.1 hrule with hmem | hmem
  · rw [List.mem_ite_nil_right] at hmem
    exact herc20 (List.mem_singleton.1 hmem.2 ▸ hp)
  · rw [List.mem_ite_nil_right] at hmem
    exact herc721 (List.mem_singleton.1 hmem.2 ▸ hp)

/-- A concept before the rules for access control is about the main contract, one of its instructions or events, a
variable of some contract, or a token standard. -/
theorem exists_concept_rulesBefore (herc20 : ¬ p Concepts.erc20.evmConcept) (herc721 : ¬ p Concepts.erc721.evmConcept) :
    (∃ rule ∈ rulesBefore "access_control" analysis, p rule.evmConcept) ↔
      (∃ contract ∈ analysis.subject, p ("contract " ++ contract.name ++ " storage") ∨
        (∃ function ∈ contract.instructions, p (instructionConcept function)) ∨
        ∃ event ∈ contract.events, p ("event " ++ event.name)) ∨
      ∃ contract ∈ analysis.contracts, ∃ declared ∈ contract.stateVariables, p (variableRule declared).evmConcept := by
  have hshape : ∀ storage fields instructions events : Prop,
      (((storage ∨ fields) ∨ instructions) ∨ events) ∨ False ↔ (storage ∨ instructions ∨ events) ∨ fields := by
    tauto
  simp only [rulesBefore_accessControl, List.mem_append, or_and_right, exists_or, and_or_left,
    exists_concept_contractStateRules, exists_concept_stateVariableRules, exists_concept_instructionRules,
    exists_concept_eventRules, not_exists_concept_tokenStandardRules herc20 herc721]
  exact hshape _ _ _ _

/-- A concept of a report is one before access control, one of access control, or a pattern. -/
theorem exists_concept_standardRules :
    let before := rulesBefore "access_control" analysis
    let access := accessControlRules analysis before
    (∃ rule ∈ standardRules analysis, p rule.evmConcept) ↔
      (∃ rule ∈ before, p rule.evmConcept) ∨ (∃ rule ∈ access, p rule.evmConcept) ∨
        ∃ rule ∈ missingPatternRules (before ++ access), p rule.evmConcept := by
  intro before access
  rw [standardRules_eq, exists_concept_map (map_evmConcept_numberedRules _)]
  simp only [List.mem_append, or_and_right, exists_or, or_assoc, before, access]

end Concepts

end ContractMigration
