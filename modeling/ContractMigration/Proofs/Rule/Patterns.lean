import ContractMigration.Proofs.Analysis.Growth
import ContractMigration.Proofs.Rule.Report
import ContractMigration.Proofs.Solidity.Identifier
import ContractMigration.Proofs.Solidity.TypeText
import ContractMigration.Proofs.Text.Search

/-!
# Patterns in a report

A pattern is left out of a report when a rule before has its concept. Nothing that is found in a source can bring this
about (`patterns_reported_once`): most concepts begin with a word that no pattern begins with, and the concept of a
field is its type and its name, of which the name is an identifier and the type has no space in it unless it begins with
one of a few words. The closest call is `ReentrancyGuard / nonReentrant`, which ends with an identifier behind something
that no type reads like.
-/

namespace ContractMigration

open Concepts Solidity Text

/-- A text that is the concept of a pattern. -/
def IsPattern (concept : String) : Prop :=
  concept ∈ patterns.map MigrationRule.evmConcept

instance (concept : String) : Decidable (IsPattern concept) :=
  inferInstanceAs (Decidable (concept ∈ patterns.map MigrationRule.evmConcept))

theorem not_isPattern_of_begins {word : String} (h : ∀ rule ∈ patterns, ¬ Begins word rule.evmConcept)
    (rest : String) : ¬ IsPattern (word ++ rest) := by
  intro hpattern
  obtain ⟨rule, hrule, hconcept⟩ := List.mem_map.1 hpattern
  exact h rule hrule (hconcept ▸ begins_append word rest)

/-! ### Fields -/

/-- What stands behind the last space of a text. -/
def lastWord (letters : List Char) : List Char :=
  (letters.reverse.takeWhile (· != ' ')).reverse

theorem lastWord_append {name : List Char} (h : ' ' ∉ name) (front : List Char) :
    lastWord (front ++ ' ' :: name) = name := by
  have hname : ∀ c ∈ name.reverse, (c != ' ') = true := by
    intro c hc
    rw [bne_iff_ne]
    rintro rfl
    exact h (List.mem_reverse.1 hc)
  rw [lastWord, List.reverse_append, List.reverse_cons, List.append_assoc, List.singleton_append,
    takeWhile_stop hname (by decide), List.reverse_reverse]

theorem space_not_mem_of_isIdentifier {name : List Char} (h : isIdentifier name = true) : ' ' ∉ name :=
  fun hmem => absurd (isIdentifierChar_of_isIdentifier h _ hmem) (by decide)

/-- Only one pattern ends with an identifier behind a space. -/
theorem eq_reentrancy_of_isIdentifier {rule : MigrationRule} (hrule : rule ∈ patterns)
    (h : isIdentifier (lastWord rule.evmConcept.toList) = true) : rule.evmConcept = reentrancyPattern.evmConcept := by
  have hall : ∀ rule ∈ patterns, isIdentifier (lastWord rule.evmConcept.toList) = true →
      rule.evmConcept = reentrancyPattern.evmConcept := by decide
  exact hall rule hrule h

theorem not_isPattern_field {fixings : Fixings} {text : List Char} {declared : StateVariable}
    (h : readVariable fixings text = some declared) : ¬ IsPattern (declared.typeName ++ " " ++ declared.name) := by
  intro hpattern
  obtain ⟨rule, hrule, hconcept⟩ := List.mem_map.1 hpattern
  have hname := isIdentifier_of_readVariable h
  have hletters : rule.evmConcept.toList = declared.typeName.toList ++ ' ' :: declared.name.toList := by
    rw [hconcept, String.toList_append, String.toList_append, List.append_assoc]
    rfl
  have hlast : lastWord rule.evmConcept.toList = declared.name.toList := by
    rw [hletters, lastWord_append (space_not_mem_of_isIdentifier hname)]
  have hreentrancy : rule.evmConcept = "ReentrancyGuard /" ++ " nonReentrant" :=
    eq_reentrancy_of_isIdentifier hrule (hlast ▸ hname)
  have hnonReentrant : declared.name.toList = "nonReentrant".toList := by
    rw [← hlast, hreentrancy]
    decide
  have htype : declared.typeName.toList = "ReentrancyGuard /".toList := by
    rw [hnonReentrant, hreentrancy] at hletters
    exact (List.append_cancel_right (hletters.trans rfl)).symm
  obtain ⟨word, hword, hprefix⟩ := prefix_of_space_mem h (by rw [htype]; decide)
  have hnone : ∀ word ∈ ["mapping".toList, "address payable".toList, "function".toList],
      ¬ word <+: "ReentrancyGuard /".toList := by decide
  exact hnone word hword (htype ▸ hprefix)

/-! ### Declarations -/

theorem not_isPattern_storage (contract : Contract) : ¬ IsPattern ("contract " ++ contract.name ++ " storage") := by
  rw [String.append_assoc]
  exact not_isPattern_of_begins (by decide) _

theorem not_isPattern_instruction (function : Signature) : ¬ IsPattern (instructionConcept function) := by
  rw [instructionConcept, String.append_assoc, String.append_assoc, String.append_assoc]
  exact not_isPattern_of_begins (by decide) _

theorem not_isPattern_event (event : Event) : ¬ IsPattern ("event " ++ event.name) :=
  not_isPattern_of_begins (by decide) event.name

theorem not_isPattern_variable {body : List Char} {declared : StateVariable} (h : declared ∈ stateVariables body) :
    ¬ IsPattern (variableRule declared).evmConcept := by
  rw [evmConcept_variableRule]
  split_ifs
  · exact not_isPattern_of_begins (by decide) declared.name
  · decide
  · obtain ⟨member, -, hread⟩ := List.mem_filterMap.1 h
    rw [Member.readVariable] at hread
    split at hread
    · exact absurd hread (by simp)
    · exact not_isPattern_field hread

theorem not_isPattern_declared {source : List Char} {contract : Contract} (h : contract ∈ (analyze source).contracts)
    {declared : StateVariable} (hdeclared : declared ∈ contract.stateVariables) :
    ¬ IsPattern (variableRule declared).evmConcept := by
  rw [analyze_contracts] at h
  obtain ⟨declaration, -, rfl⟩ := List.mem_map.1 h
  exact not_isPattern_variable hdeclared

/-! ### Reports -/

theorem missingPatternRules_eq {emitted : List MigrationRule} (h : ∀ rule ∈ emitted, ¬ IsPattern rule.evmConcept) :
    missingPatternRules emitted = patterns := by
  rw [missingPatternRules, List.filter_eq_self]
  intro rule hrule
  rw [Bool.not_eq_true', ← Bool.not_eq_true, List.contains_iff_mem]
  intro hmem
  obtain ⟨made, hmade, hconcept⟩ := List.mem_map.1 hmem
  exact h made hmade (hconcept ▸ List.mem_map_of_mem hrule)

theorem not_isPattern_rulesBefore (source : List Char) :
    ∀ rule ∈ rulesBefore "access_control" (analyze source), ¬ IsPattern rule.evmConcept := by
  intro rule hrule hpattern
  have hfound : ∃ rule ∈ rulesBefore "access_control" (analyze source), IsPattern rule.evmConcept :=
    ⟨rule, hrule, hpattern⟩
  rw [exists_concept_rulesBefore (by decide) (by decide)] at hfound
  rcases hfound with ⟨contract, -, hsubject⟩ | ⟨contract, hcontract, declared, hmem, hvariable⟩
  · rcases hsubject with hstorage | ⟨function, -, hfunction⟩ | ⟨event, -, hevent⟩
    · exact not_isPattern_storage contract hstorage
    · exact not_isPattern_instruction function hfunction
    · exact not_isPattern_event event hevent
  · exact not_isPattern_declared hcontract hmem hvariable

theorem not_isPattern_accessControlRules (analysis : Analysis) (emitted : List MigrationRule) :
    ∀ rule ∈ accessControlRules analysis emitted, ¬ IsPattern rule.evmConcept := by
  intro rule hrule
  rcases List.mem_append.1 hrule with hadded | hroles
  · obtain rfl := List.mem_singleton.1 (List.mem_ite_nil_right.1 hadded).2
    decide
  · obtain rfl := List.mem_singleton.1 (List.mem_ite_nil_right.1 hroles).2
    decide

/-- The report on a source ends with all five patterns, which are as they stand in the catalogue but for their numbers.
None of the concepts before is that of a pattern, and no declaration of the source could have such a concept. -/
theorem patterns_reported_once (source : List Char) :
    let analysis := analyze source
    (∃ others, standardRules analysis = numberedRules (others ++
          [constructorPattern, requirePattern, timestampPattern, reentrancyPattern, payablePattern]) ∧
        ∀ rule ∈ others, ¬ IsPattern rule.evmConcept) ∧
      (∀ rule ∈ patterns, ((standardRules analysis).map MigrationRule.evmConcept).count rule.evmConcept = 1) ∧
      ∀ contract ∈ analysis.contracts, ¬ IsPattern ("contract " ++ contract.name ++ " storage") ∧
        (∀ declared ∈ contract.stateVariables, ¬ IsPattern (variableRule declared).evmConcept) ∧
        (∀ function ∈ contract.functions, ¬ IsPattern (instructionConcept function)) ∧
        ∀ event ∈ contract.events, ¬ IsPattern ("event " ++ event.name) := by
  intro analysis
  let before := rulesBefore "access_control" analysis
  let others := before ++ accessControlRules analysis before
  have hothers : ∀ rule ∈ others, ¬ IsPattern rule.evmConcept :=
    List.forall_mem_append.2 ⟨not_isPattern_rulesBefore source, not_isPattern_accessControlRules analysis before⟩
  have hreport : standardRules analysis = numberedRules (others ++ patterns) := by
    rw [standardRules_eq, missingPatternRules_eq hothers]
  refine ⟨⟨others, hreport, hothers⟩, fun rule hrule => ?_, fun contract hcontract => ?_⟩
  · have hfront : rule.evmConcept ∉ others.map MigrationRule.evmConcept := by
      intro hmem
      obtain ⟨made, hmade, hconcept⟩ := List.mem_map.1 hmem
      exact hothers made hmade (hconcept ▸ List.mem_map_of_mem hrule)
    have honce : ∀ rule ∈ patterns, (patterns.map MigrationRule.evmConcept).count rule.evmConcept = 1 := by decide
    rw [hreport, map_evmConcept_numberedRules, List.map_append, List.count_append, List.count_eq_zero_of_not_mem hfront,
      honce rule hrule]
  · exact ⟨not_isPattern_storage contract, fun declared => not_isPattern_declared hcontract,
      fun function _ => not_isPattern_instruction function, fun event _ => not_isPattern_event event⟩

end ContractMigration
