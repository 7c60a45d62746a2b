import ContractMigration.Proofs.Rule.Mappings

/-!
# Variables in a report

Every variable of every contract has one rule in a report, in the order of contracts and declarations, whether its name
is the only one of its kind or not. What the rule records depends on the variable alone (`MigrationRule.Records`). The
rules for variables of mapping type can be told from all other rules by their concepts, so they can be found again
(`variables_reported_once`).
-/

namespace ContractMigration

open Text

/-- The rule is about the variable: its concept and detail name a mapping with its type, its detail names an owner, or
its concept is the declaration of a field. -/
def MigrationRule.Records (rule : MigrationRule) (declared : StateVariable) : Prop :=
  if declared.isMapping then rule.evmConcept = "mapping: " ++ declared.name ∧ rule.evmDetail = declared.typeName
  else if declared.isOwner then
    rule.evmConcept = Concepts.ownable.evmConcept ∧ rule.evmDetail = "address " ++ declared.name ++ " — owner/admin"
  else rule.evmConcept = declared.typeName ++ " " ++ declared.name

theorem records_variableRule (declared : StateVariable) : (variableRule declared).Records declared := by
  unfold MigrationRule.Records variableRule
  split_ifs
  · exact ⟨rfl, rfl⟩
  · exact ⟨rfl, rfl⟩
  · rfl

theorem stateVariableRules_eq (analysis : Analysis) :
    stateVariableRules analysis = (analysis.contracts.flatMap Contract.stateVariables).map variableRule := by
  rw [stateVariableRules, List.map_flatMap]

/-- The rules about mappings in a report are those for the variables of mapping type, one for each in their order. The
module for variables makes one rule for each variable of each contract, and in the report these stand together, with no
rule about a mapping in front or behind. -/
theorem variables_reported_once (analysis : Analysis) :
    List.Forall₂ (fun declared rule => rule.evmConcept = "mapping: " ++ declared.name ∧
        rule.evmDetail = declared.typeName) analysis.mappings (keyedRules (standardRules analysis)) ∧
      ∃ made, (∀ emitted, (RuleModule.named "state_variables").apply analysis emitted = some made) ∧
        List.Forall₂ (fun declared rule => rule.Records declared ∧
          (Begins "mapping: " rule.evmConcept ↔ declared.isMapping = true))
          (analysis.contracts.flatMap Contract.stateVariables) made ∧
        ∃ front behind, standardRules analysis = numberedRules (front ++ made ++ behind) ∧
          ∀ rule ∈ front ++ behind, ¬ Begins "mapping: " rule.evmConcept := by
  constructor
  · have hmapping : ∀ declared ∈ analysis.mappings, declared.isMapping = true := by
      intro declared hmem
      obtain ⟨contract, -, hdeclared⟩ := List.mem_flatMap.1 hmem
      exact (List.mem_filter.1 hdeclared).2
    have hkeyed := (List.forall₂_and_left _ _).2 ⟨hmapping, forall₂_keyedRules_standardRules analysis⟩
    refine hkeyed.imp fun declared rule ⟨hdeclared, hrule⟩ => ?_
    have hrecords := records_variableRule declared
    rw [MigrationRule.Records, if_pos hdeclared] at hrecords
    rw [hrule]
    exact hrecords
  · refine ⟨stateVariableRules analysis, fun emitted => rfl, ?_, contractStateRules analysis,
      rulesBehindVariables analysis, standardRules_eq_variables analysis, ?_⟩
    · rw [stateVariableRules_eq, List.forall₂_map_right_iff, List.forall₂_same]
      exact fun declared _ => ⟨records_variableRule declared, begins_variableRule declared⟩
    · apply not_begins_of_keyedRules_eq_nil
      rw [keyedRules_append, keyedRules_contractStateRules, keyedRules_rulesBehindVariables, List.append_nil]

end ContractMigration
