import ContractMigration.Analysis.Recovery
import ContractMigration.Proofs.Rule.Report
import ContractMigration.Proofs.Text.Search

/-!
# Owners in a report

Whether the rule for an owner is added is decided by the letters of the concepts before it: it is left out as soon as
one of them has `owner` in it. These letters come from the names and types of declarations
(`exists_mentionsOwner_rulesBefore`), so an ownable file gets its rule exactly when it declares the address of an owner
or when no declaration that is looked at mentions one (`ownable_reported_iff`).
-/

namespace ContractMigration

open Concepts

/-- Whether a text has the letters `owner` in it. -/
def mentionsOwner (text : String) : Bool :=
  Text.occursIn "owner".toList text.toList

/-- Whether a variable mentions an owner. The type of a mapping does not count. -/
def StateVariable.mentionsOwner (declared : StateVariable) : Bool :=
  ContractMigration.mentionsOwner declared.name ||
    !declared.isMapping && ContractMigration.mentionsOwner declared.typeName

/-- Whether a function mentions an owner in its name or in the types of its parameters. -/
def Signature.mentionsOwner (function : Signature) : Bool :=
  ContractMigration.mentionsOwner function.name ||
    function.parameters.any fun parameter => ContractMigration.mentionsOwner parameter.typeName

/-- Whether a contract mentions an owner in its name, its instructions or the names of its events. -/
def Contract.mentionsOwner (contract : Contract) : Bool :=
  ContractMigration.mentionsOwner contract.name || contract.instructions.any Signature.mentionsOwner ||
    contract.events.any fun event => ContractMigration.mentionsOwner event.name

namespace Analysis

/-- Whether a variable of some contract is the address of an owner, or reads like the concept of one. -/
def declaresOwner (analysis : Analysis) : Bool :=
  analysis.contracts.any fun contract => contract.stateVariables.any fun declared =>
    declared.isOwner || declared.typeName ++ " " ++ declared.name == ownable.evmConcept

/-- Whether the main contract or a variable of some contract mentions an owner. -/
def mentionsOwner (analysis : Analysis) : Bool :=
  analysis.subject.any Contract.mentionsOwner ||
    analysis.contracts.any fun contract => contract.stateVariables.any StateVariable.mentionsOwner

end Analysis

/-! ### Letters in a concept -/

theorem occursIn_owner_append_cons {d : Char} (hd : d ∉ "owner".toList) (front rest : List Char) :
    Text.occursIn "owner".toList (front ++ d :: rest) =
      (Text.occursIn "owner".toList front || Text.occursIn "owner".toList rest) :=
  Text.occursIn_append_cons (by decide) hd front rest

theorem mentionsOwner_spaced (left right : String) :
    mentionsOwner (left ++ " " ++ right) = (mentionsOwner left || mentionsOwner right) := by
  rw [mentionsOwner, String.toList_append, String.toList_append, List.append_assoc]
  exact occursIn_owner_append_cons (by decide) left.toList right.toList

theorem mentionsOwner_storage (name : String) :
    mentionsOwner ("contract " ++ name ++ " storage") = mentionsOwner name := by
  have hletters : ("contract " ++ name ++ " storage").toList =
      "contract".toList ++ ' ' :: (name.toList ++ ' ' :: "storage".toList) := by
    rw [String.toList_append, String.toList_append, List.append_assoc]
    rfl
  rw [mentionsOwner, hletters, occursIn_owner_append_cons (by decide), occursIn_owner_append_cons (by decide)]
  exact Bool.or_false _

theorem mentionsOwner_mapping (name : String) : mentionsOwner ("mapping: " ++ name) = mentionsOwner name := by
  rw [mentionsOwner, String.toList_append]
  exact occursIn_owner_append_cons (by decide) "mapping:".toList name.toList

theorem mentionsOwner_event (name : String) : mentionsOwner ("event " ++ name) = mentionsOwner name := by
  rw [mentionsOwner, String.toList_append]
  exact occursIn_owner_append_cons (by decide) "event".toList name.toList

theorem mentionsOwner_parameterTypes (parameters : List Parameter) :
    mentionsOwner (parameterTypes parameters) = parameters.any fun parameter => mentionsOwner parameter.typeName := by
  rw [mentionsOwner, parameterTypes, String.toList_intercalate]
  induction parameters with
  | nil => rfl
  | cons parameter rest ih =>
    cases rest with
    | nil => simp [mentionsOwner]
    | cons next rest =>
      rw [List.map_cons, List.map_cons, List.map_cons, List.map_cons, List.intercalate_cons_cons, List.append_assoc]
      have hcomma := occursIn_owner_append_cons (d := ',') (by decide) parameter.typeName.toList
        (' ' :: List.intercalate [',', ' '] (((next :: rest).map Parameter.typeName).map String.toList))
      have hspace := occursIn_owner_append_cons (d := ' ') (by decide) []
        (List.intercalate [',', ' '] (((next :: rest).map Parameter.typeName).map String.toList))
      rw [List.any_cons, ← ih]
      exact hcomma.trans (congrArg _ hspace)

theorem mentionsOwner_instructionConcept (function : Signature) :
    mentionsOwner (instructionConcept function) = function.mentionsOwner := by
  have hletters : (instructionConcept function).toList =
      "function".toList ++ ' ' :: (function.name.toList ++
        '(' :: ((parameterTypes function.parameters).toList ++ ')' :: [])) := by
    simp only [instructionConcept, String.toList_append, List.append_assoc]
    rfl
  rw [mentionsOwner, hletters, occursIn_owner_append_cons (by decide), occursIn_owner_append_cons (by decide),
    occursIn_owner_append_cons (by decide), Signature.mentionsOwner, ← mentionsOwner_parameterTypes]
  exact congrArg (mentionsOwner function.name || ·) (Bool.or_false _)

/-! ### The concepts of each module -/

theorem isMapping_of_isOwner {declared : StateVariable} (h : declared.isOwner = true) : declared.isMapping = false := by
  simp only [StateVariable.isOwner, Bool.and_eq_true, Bool.or_eq_true, beq_iff_eq] at h
  rw [StateVariable.isMapping]
  rcases h.2 with htype | htype
  · rw [htype]
    rfl
  · rw [htype]
    rfl

theorem mentionsOwner_variableRule (declared : StateVariable) :
    mentionsOwner (variableRule declared).evmConcept = (declared.isOwner || declared.mentionsOwner) := by
  rw [evmConcept_variableRule, StateVariable.mentionsOwner]
  by_cases howner : declared.isOwner = true
  · simp only [howner, isMapping_of_isOwner howner, Bool.false_eq_true, if_false, if_true, Bool.true_or]
    decide
  · rw [Bool.not_eq_true] at howner
    cases hmapping : declared.isMapping with
    | true =>
      simp only [howner, if_true, mentionsOwner_mapping, Bool.not_true, Bool.false_and, Bool.or_false, Bool.false_or]
    | false =>
      simp only [howner, Bool.false_eq_true, if_false, mentionsOwner_spaced, Bool.not_false, Bool.true_and,
        Bool.false_or]
      exact Bool.or_comm _ _

/-- A text that begins otherwise is not the concept of an owner. -/
theorem ne_ownable {front : String} {c : Char} (hfront : front.toList.head? = some c) (hc : c ≠ 'a') (rest : String) :
    front ++ rest ≠ ownable.evmConcept := by
  intro heq
  have hhead := congrArg (fun text => text.toList.head?) heq
  rw [String.toList_append, List.head?_append, hfront] at hhead
  exact hc (Option.some.inj hhead)

theorem ne_ownable_of_isMapping {declared : StateVariable} (h : declared.isMapping = true) (rest : String) :
    declared.typeName ++ rest ≠ ownable.evmConcept := by
  obtain ⟨behind, hbehind⟩ := List.isPrefixOf_iff_prefix.1 h
  refine ne_ownable (c := 'm') ?_ (by decide) rest
  rw [← hbehind]
  rfl

theorem evmConcept_variableRule_eq_ownable (declared : StateVariable) :
    (variableRule declared).evmConcept = ownable.evmConcept ↔
      declared.isOwner = true ∨ declared.typeName ++ " " ++ declared.name = ownable.evmConcept := by
  rw [evmConcept_variableRule]
  cases hmapping : declared.isMapping with
  | true =>
    have howner : ¬ declared.isOwner = true := fun howner => by
      rw [isMapping_of_isOwner howner] at hmapping
      exact Bool.false_ne_true hmapping
    have hfield := ne_ownable_of_isMapping hmapping (" " ++ declared.name)
    rw [← String.append_assoc] at hfield
    have hkeyed : "mapping: " ++ declared.name ≠ ownable.evmConcept := ne_ownable rfl (by decide) declared.name
    rw [if_pos rfl]
    exact iff_of_false hkeyed (not_or.2 ⟨howner, hfield⟩)
  | false =>
    by_cases howner : declared.isOwner = true
    · simp only [howner, Bool.false_eq_true, if_false, if_true, true_or]
    · simp only [howner, Bool.false_eq_true, if_false, false_or]

/-! ### The rules before, and the decision -/

/-- The concept of an owner stands before the rules for access control exactly when the address of an owner is
declared. -/
theorem exists_ownable_rulesBefore (analysis : Analysis) :
    (∃ rule ∈ rulesBefore "access_control" analysis, rule.evmConcept = ownable.evmConcept) ↔
      analysis.declaresOwner = true := by
  have hsubject : ∀ contract : Contract, ¬ (("contract " ++ contract.name ++ " storage" = ownable.evmConcept) ∨
      (∃ function ∈ contract.instructions, instructionConcept function = ownable.evmConcept) ∨
      ∃ event ∈ contract.events, "event " ++ event.name = ownable.evmConcept) := by
    rintro contract (hstorage | ⟨function, -, hfunction⟩ | ⟨event, -, hevent⟩)
    · rw [String.append_assoc] at hstorage
      exact ne_ownable rfl (by decide) _ hstorage
    · rw [instructionConcept, String.append_assoc, String.append_assoc, String.append_assoc] at hfunction
      exact ne_ownable rfl (by decide) _ hfunction
    · exact ne_ownable rfl (by decide) _ hevent
  rw [exists_concept_rulesBefore (p := (· = ownable.evmConcept)) (by decide) (by decide)]
  simp only [hsubject, and_false, exists_false, false_or, evmConcept_variableRule_eq_ownable, Analysis.declaresOwner,
    List.any_eq_true, Bool.or_eq_true, beq_iff_eq]

/-- A variable that reads like the concept of an owner mentions one. -/
theorem mentionsOwner_of_reads {declared : StateVariable}
    (h : declared.typeName ++ " " ++ declared.name = ownable.evmConcept) : declared.mentionsOwner = true := by
  have hmapping : declared.isMapping = false := by
    rw [← Bool.not_eq_true]
    intro hmapping
    rw [String.append_assoc] at h
    exact ne_ownable_of_isMapping hmapping _ h
  have hletters : mentionsOwner (declared.typeName ++ " " ++ declared.name) = true := by
    rw [h]
    decide
  rw [StateVariable.mentionsOwner, hmapping, Bool.not_false, Bool.true_and, Bool.or_comm, ← mentionsOwner_spaced]
  exact hletters

theorem Contract.mentionsOwner_iff (contract : Contract) :
    contract.mentionsOwner = true ↔ ContractMigration.mentionsOwner contract.name = true ∨
      (∃ function ∈ contract.instructions, function.mentionsOwner = true) ∨
      ∃ event ∈ contract.events, ContractMigration.mentionsOwner event.name = true := by
  simp only [Contract.mentionsOwner, Bool.or_eq_true, List.any_eq_true, or_assoc]

/-- The letters `owner` stand in a concept before the rules for access control exactly when the address of an owner is
declared or some declaration mentions one. -/
theorem exists_mentionsOwner_rulesBefore (analysis : Analysis) :
    (∃ rule ∈ rulesBefore "access_control" analysis, mentionsOwner rule.evmConcept = true) ↔
      analysis.declaresOwner = true ∨ analysis.mentionsOwner = true := by
  have hvariables : (∃ contract ∈ analysis.contracts, ∃ declared ∈ contract.stateVariables,
        declared.isOwner = true ∨ declared.mentionsOwner = true) ↔
      analysis.declaresOwner = true ∨
        ∃ contract ∈ analysis.contracts, ∃ declared ∈ contract.stateVariables, declared.mentionsOwner = true := by
    simp only [Analysis.declaresOwner, List.any_eq_true, Bool.or_eq_true, beq_iff_eq]
    constructor
    · rintro ⟨contract, hcontract, declared, hdeclared, howner | hmention⟩
      · exact .inl ⟨contract, hcontract, declared, hdeclared, .inl howner⟩
      · exact .inr ⟨contract, hcontract, declared, hdeclared, hmention⟩
    · rintro (⟨contract, hcontract, declared, hdeclared, howner | hreads⟩ |
        ⟨contract, hcontract, declared, hdeclared, hmention⟩)
      · exact ⟨contract, hcontract, declared, hdeclared, .inl howner⟩
      · exact ⟨contract, hcontract, declared, hdeclared, .inr (mentionsOwner_of_reads hreads)⟩
      · exact ⟨contract, hcontract, declared, hdeclared, .inr hmention⟩
  rw [exists_concept_rulesBefore (p := (mentionsOwner · = true)) (by decide) (by decide)]
  simp only [mentionsOwner_storage, mentionsOwner_instructionConcept, mentionsOwner_event, mentionsOwner_variableRule,
    Bool.or_eq_true, ← Contract.mentionsOwner_iff, hvariables, Analysis.mentionsOwner, List.any_eq_true,
    Option.any_eq_true, Option.mem_def]
  exact or_left_comm

theorem ownable_mem_accessControlRules {analysis : Analysis} (h : analysis.hasOwnable = true)
    (emitted : List MigrationRule) :
    ownable ∈ accessControlRules analysis emitted ↔ ¬ ∃ rule ∈ emitted, mentionsOwner rule.evmConcept = true := by
  have hother : ownable ≠ accessControl := fun heq => absurd (congrArg MigrationRule.evmConcept heq) (by decide)
  simp only [accessControlRules, h, Bool.true_and, List.mem_append, List.mem_ite_nil_right, List.mem_singleton, hother,
    and_false, or_false, and_true, Bool.not_eq_true', ← Bool.not_eq_true, List.any_eq_true, mentionsOwner]

/-- An ownable file has the concept of an owner in its report exactly when a rule before has it or the rule is added. -/
theorem exists_ownable_standardRules (analysis : Analysis) :
    (∃ rule ∈ standardRules analysis, rule.evmConcept = ownable.evmConcept) ↔
      (∃ rule ∈ rulesBefore "access_control" analysis, rule.evmConcept = ownable.evmConcept) ∨
        ownable ∈ accessControlRules analysis (rulesBefore "access_control" analysis) := by
  have haccess : (∃ rule ∈ accessControlRules analysis (rulesBefore "access_control" analysis),
        rule.evmConcept = ownable.evmConcept) ↔
      ownable ∈ accessControlRules analysis (rulesBefore "access_control" analysis) := by
    refine ⟨fun ⟨rule, hrule, hconcept⟩ => ?_, fun hmem => ⟨ownable, hmem, rfl⟩⟩
    rcases List.mem_append.1 hrule with hadded | hroles
    · obtain rfl := List.mem_singleton.1 (List.mem_ite_nil_right.1 hadded).2
      exact hrule
    · obtain rfl := List.mem_singleton.1 (List.mem_ite_nil_right.1 hroles).2
      exact absurd hconcept (by decide)
  have hpatterns : ¬ ∃ rule ∈ missingPatternRules (rulesBefore "access_control" analysis ++
      accessControlRules analysis (rulesBefore "access_control" analysis)), rule.evmConcept = ownable.evmConcept := by
    rintro ⟨rule, hrule, hconcept⟩
    have hall : ∀ rule ∈ patterns, rule.evmConcept ≠ ownable.evmConcept := by decide
    exact hall rule (List.mem_of_mem_filter hrule) hconcept
  have hreport := @exists_concept_standardRules analysis (· = ownable.evmConcept)
  simp only [hpatterns, or_false] at hreport
  exact hreport.trans (or_congr_right haccess)

/-- An ownable file is reported as one, with the rule for an owner added exactly when no concept before is that of an
owner, if and only if it declares the address of an owner or none of its declarations mentions one. -/
theorem ownable_reported_iff {analysis : Analysis} (h : analysis.hasOwnable = true) :
    let before := rulesBefore "access_control" analysis
    let added := ownable ∈ accessControlRules analysis before
    ((∃ rule ∈ standardRules analysis, rule.evmConcept = ownable.evmConcept) ∧
        (added ↔ ∀ rule ∈ before, rule.evmConcept ≠ ownable.evmConcept)) ↔
      (analysis.declaresOwner = true ∨ analysis.mentionsOwner = false) := by
  intro before added
  have hlogic : ∀ declared mentioned : Prop,
      ((declared ∨ ¬ (declared ∨ mentioned)) ∧ (¬ (declared ∨ mentioned) ↔ ¬ declared)) ↔ declared ∨ ¬ mentioned := by
    tauto
  have hadded : added ↔ ¬ (analysis.declaresOwner = true ∨ analysis.mentionsOwner = true) :=
    (ownable_mem_accessControlRules h before).trans (not_congr (exists_mentionsOwner_rulesBefore analysis))
  have hnone : (∀ rule ∈ before, rule.evmConcept ≠ ownable.evmConcept) ↔ ¬ analysis.declaresOwner = true := by
    rw [← exists_ownable_rulesBefore analysis]
    simp only [not_exists, not_and, ne_eq, before]
  have hreported : (∃ rule ∈ standardRules analysis, rule.evmConcept = ownable.evmConcept) ↔
      analysis.declaresOwner = true ∨ ¬ (analysis.declaresOwner = true ∨ analysis.mentionsOwner = true) :=
    (exists_ownable_standardRules analysis).trans (or_congr (exists_ownable_rulesBefore analysis) hadded)
  rw [hreported, hadded, hnone, ← Bool.not_eq_true]
  exact hlogic _ _

/-- An ownable contract that calls its owner otherwise: nothing mentions one, so the rule is added. -/
theorem ownable_reported_admin :
    let vault : Contract := {
      name := "Vault"
      bases := ["Ownable"]
      stateVariables :=
        [{ name := "admin", typeName := "address" }, { name := "held", typeName := "mapping(uint => uint)" }]
      functions := [{ name := "transfer", parameters := [{ typeName := "address" }, { typeName := "uint256" }] }] }
    let analysis : Analysis := { contracts := [vault], hasOwnable := true }
    let before := rulesBefore "access_control" analysis
    analysis.hasOwnable = true ∧ (∃ rule ∈ standardRules analysis, rule.evmConcept = ownable.evmConcept) ∧
      (ownable ∈ accessControlRules analysis before ↔ ∀ rule ∈ before, rule.evmConcept ≠ ownable.evmConcept) := by
  intro vault analysis before
  have hownable : analysis.hasOwnable = true := rfl
  exact ⟨hownable, (ownable_reported_iff hownable).2 (.inr (by decide))⟩

/-- A mapping of owners has the letters in its name, so the ownable contract around it gets no rule for an owner,
although no rule before is one. -/
theorem ownable_unreported_owners :
    let analysis := analyze "contract Vault is Ownable \x7b mapping(address => bool) owners; \x7d".toList
    let before := rulesBefore "access_control" analysis
    analysis.hasOwnable = true ∧ (∀ rule ∈ before, rule.evmConcept ≠ ownable.evmConcept) ∧
      ownable ∉ accessControlRules analysis before ∧
      ∀ rule ∈ standardRules analysis, rule.evmConcept ≠ ownable.evmConcept := by
  decide +kernel

end ContractMigration
