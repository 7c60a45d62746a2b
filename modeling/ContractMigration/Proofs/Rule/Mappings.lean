import ContractMigration.Proofs.Rule.Report
import ContractMigration.Proofs.Text.Search

/-!
# Mappings in a report

A rule about a mapping is known by its concept, which begins with `mapping: `. The rules of a report with such a
concept are the ones for the variables of mapping type, one for each and in their order
(`map_evmConcept_keyedRules_standardRules`): the concepts of all other rules begin with another word, or with the type
of a variable that is no mapping.
-/

namespace ContractMigration

open Text

/-- The rules about mappings among some rules. -/
def keyedRules (rules : List MigrationRule) : List MigrationRule :=
  rules.filter fun rule => Begins "mapping: " rule.evmConcept

/-! ### Concepts of mappings and of other things -/

/-- A field whose type is no mapping reads like none: the space behind its type comes too early, or the type begins
with other letters. -/
theorem not_begins_field {declared : StateVariable} (h : declared.isMapping = false) :
    ¬ Begins "mapping: " (declared.typeName ++ " " ++ declared.name) := by
  intro hkeyed
  rw [Begins, String.toList_append, String.toList_append, List.append_assoc] at hkeyed
  have hword : "mapping".toList <+: declared.typeName.toList ++ ' ' :: declared.name.toList :=
    List.IsPrefix.trans (by decide) hkeyed
  have htype : ¬ "mapping".toList <+: declared.typeName.toList := by
    rwa [StateVariable.isMapping, ← Bool.not_eq_true, List.isPrefixOf_iff_prefix] at h
  rcases List.prefix_or_prefix_of_prefix hword (List.prefix_append declared.typeName.toList _) with hlong | hshort
  · exact htype hlong
  · obtain ⟨behind, hbehind⟩ := hshort
    rw [← hbehind, List.prefix_append_right_inj] at hword
    cases behind with
    | nil => exact htype (by rw [← hbehind, List.append_nil])
    | cons c behind =>
      have hspace : ' ' ∈ "mapping".toList := by
        rw [← hbehind, (List.cons_prefix_cons.1 hword).1]
        exact List.mem_append_right _ List.mem_cons_self
      exact absurd hspace (by decide)

theorem begins_variableRule (declared : StateVariable) :
    Begins "mapping: " (variableRule declared).evmConcept ↔ declared.isMapping = true := by
  unfold variableRule
  cases hmapping : declared.isMapping with
  | true => exact iff_of_true (begins_append _ declared.name) rfl
  | false =>
    refine iff_of_false ?_ (by decide)
    rw [if_neg (by decide)]
    split
    · show ¬ Begins "mapping: " Concepts.ownable.evmConcept
      decide
    · exact not_begins_field hmapping

/-! ### Rules about mappings -/

theorem keyedRules_append (left right : List MigrationRule) :
    keyedRules (left ++ right) = keyedRules left ++ keyedRules right :=
  List.filter_append ..

theorem keyedRules_eq_nil {rules : List MigrationRule} (h : ¬ ∃ rule ∈ rules, Begins "mapping: " rule.evmConcept) :
    keyedRules rules = [] := by
  rw [keyedRules, List.filter_eq_nil_iff]
  exact fun rule hrule hkeyed => h ⟨rule, hrule, of_decide_eq_true hkeyed⟩

theorem not_begins_of_keyedRules_eq_nil {rules : List MigrationRule} (h : keyedRules rules = []) :
    ∀ rule ∈ rules, ¬ Begins "mapping: " rule.evmConcept := by
  intro rule hrule hkeyed
  exact List.filter_eq_nil_iff.1 h rule hrule (decide_eq_true hkeyed)

theorem keyedRules_stateVariableRules (analysis : Analysis) :
    keyedRules (stateVariableRules analysis) = analysis.mappings.map variableRule := by
  have hcontract : ∀ contract : Contract,
      keyedRules (contract.stateVariables.map variableRule) = contract.mappings.map variableRule := by
    intro contract
    rw [keyedRules, List.filter_map, Contract.mappings]
    congr 1
    apply List.filter_congr
    intro declared _
    rw [Function.comp_apply, Bool.eq_iff_iff, decide_eq_true_iff]
    exact begins_variableRule declared
  rw [stateVariableRules, Analysis.mappings, keyedRules, List.filter_flatMap, List.map_flatMap]
  exact congrArg (List.flatMap · analysis.contracts) (funext hcontract)

/-! ### The modules -/

theorem keyedRules_contractStateRules (analysis : Analysis) : keyedRules (contractStateRules analysis) = [] := by
  apply keyedRules_eq_nil
  rw [exists_concept_contractStateRules]
  rintro ⟨contract, -, hkeyed⟩
  rw [String.append_assoc] at hkeyed
  exact not_begins_append (by decide) (by decide) _ hkeyed

theorem keyedRules_instructionRules (analysis : Analysis) : keyedRules (instructionRules analysis) = [] := by
  apply keyedRules_eq_nil
  rw [exists_concept_instructionRules]
  rintro ⟨contract, -, function, -, hkeyed⟩
  rw [instructionConcept, String.append_assoc, String.append_assoc, String.append_assoc] at hkeyed
  exact not_begins_append (by decide) (by decide) _ hkeyed

theorem keyedRules_eventRules (analysis : Analysis) : keyedRules (eventRules analysis) = [] := by
  apply keyedRules_eq_nil
  rw [exists_concept_eventRules]
  rintro ⟨contract, -, event, -, hkeyed⟩
  exact not_begins_append (by decide) (by decide) _ hkeyed

theorem keyedRules_tokenStandardRules (analysis : Analysis) : keyedRules (tokenStandardRules analysis) = [] :=
  keyedRules_eq_nil (not_exists_concept_tokenStandardRules (show ¬ Begins "mapping: " _ by decide) (by decide))

theorem keyedRules_accessControlRules (analysis : Analysis) (emitted : List MigrationRule) :
    keyedRules (accessControlRules analysis emitted) = [] := by
  apply keyedRules_eq_nil
  rintro ⟨rule, hrule, hkeyed⟩
  rcases List.mem_append.1 hrule with hadded | hroles
  · obtain rfl := List.mem_singleton.1 (List.mem_ite_nil_right.1 hadded).2
    exact absurd hkeyed (by decide)
  · obtain rfl := List.mem_singleton.1 (List.mem_ite_nil_right.1 hroles).2
    exact absurd hkeyed (by decide)

theorem keyedRules_missingPatternRules (emitted : List MigrationRule) :
    keyedRules (missingPatternRules emitted) = [] := by
  apply keyedRules_eq_nil
  rintro ⟨rule, hrule, hkeyed⟩
  have hall : ∀ rule ∈ Concepts.patterns, ¬ Begins "mapping: " rule.evmConcept := by decide
  exact hall rule (List.mem_of_mem_filter hrule) hkeyed

/-! ### Reports -/

/-- The rules behind those for variables. -/
def rulesBehindVariables (analysis : Analysis) : List MigrationRule :=
  let before := rulesBefore "access_control" analysis
  let access := accessControlRules analysis before
  instructionRules analysis ++ eventRules analysis ++ tokenStandardRules analysis ++ access ++
    missingPatternRules (before ++ access)

theorem standardRules_eq_variables (analysis : Analysis) :
    standardRules analysis =
      numberedRules (contractStateRules analysis ++ stateVariableRules analysis ++ rulesBehindVariables analysis) := by
  rw [standardRules_eq, rulesBefore_accessControl, rulesBehindVariables]
  simp only [List.append_assoc, rulesBefore_accessControl]

theorem keyedRules_rulesBehindVariables (analysis : Analysis) : keyedRules (rulesBehindVariables analysis) = [] := by
  simp only [rulesBehindVariables, keyedRules_append, keyedRules_instructionRules, keyedRules_eventRules,
    keyedRules_tokenStandardRules, keyedRules_accessControlRules, keyedRules_missingPatternRules, List.append_nil]

/-- The concepts alone decide, so numbering the rules changes nothing. -/
theorem forall₂_keyedRules (rules : List MigrationRule) :
    List.Forall₂ (fun rule numbered => numbered = { rule with id := numbered.id }) (keyedRules rules)
      (keyedRules (numberedRules rules)) := by
  apply List.rel_filter _ (forall₂_numberedRules rules)
  intro rule numbered hsame
  rw [hsame]

/-- Up to its number, each rule of a report about a mapping is the rule for a variable of mapping type, in order. -/
theorem forall₂_keyedRules_standardRules (analysis : Analysis) :
    List.Forall₂ (fun declared rule => rule = { variableRule declared with id := rule.id }) analysis.mappings
      (keyedRules (standardRules analysis)) := by
  have hmade : keyedRules (contractStateRules analysis ++ stateVariableRules analysis ++ rulesBehindVariables analysis) =
      analysis.mappings.map variableRule := by
    simp only [keyedRules_append, keyedRules_contractStateRules, keyedRules_stateVariableRules,
      keyedRules_rulesBehindVariables, List.nil_append, List.append_nil]
  have hnumbered := forall₂_keyedRules
    (contractStateRules analysis ++ stateVariableRules analysis ++ rulesBehindVariables analysis)
  rw [hmade, ← standardRules_eq_variables] at hnumbered
  exact List.forall₂_map_left_iff.1 hnumbered

/-- The rules of a report about mappings have the concepts of the variables of mapping type. -/
theorem map_evmConcept_keyedRules_standardRules (analysis : Analysis) :
    (keyedRules (standardRules analysis)).map MigrationRule.evmConcept =
      analysis.mappings.map fun declared => (variableRule declared).evmConcept := by
  rw [eq_comm, ← List.forall₂_eq_eq_eq, List.forall₂_map_left_iff, List.forall₂_map_right_iff]
  exact (forall₂_keyedRules_standardRules analysis).imp fun declared rule hrule => by rw [hrule]

end ContractMigration
