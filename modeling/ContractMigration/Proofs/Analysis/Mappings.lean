import ContractMigration.Proofs.Analysis.Growth
import ContractMigration.Proofs.Checklist.Plans
import ContractMigration.Proofs.Rule.Mappings
import ContractMigration.Proofs.Solidity.Placement
import ContractMigration.Proofs.Solidity.TypeText

/-!
# How mappings are counted

Three outputs speak of the mappings of a file. The report has a rule for each variable of mapping type. Whether the
checklist has a task for them is decided by a look at the source, comments and strings included, that asks for the
letters `mapping(` with nothing in between; the text of the task gives the number of rules all the same. So the outputs
go together exactly as far as the look at the source goes (`analyze_mappings`). It never misses a type that is recorded
without a gap, but it misses one with a gap, and it finds mappings that are no variables.
-/

namespace ContractMigration

open Solidity Text

/-- The number of rules about mappings in the report of an analysis. -/
def Analysis.keyedRuleCount (analysis : Analysis) : Nat :=
  (keyedRules (standardRules analysis)).length

theorem keyedRuleCount_eq (analysis : Analysis) : analysis.keyedRuleCount = analysis.mappings.length := by
  have hconcepts := congrArg List.length (map_evmConcept_keyedRules_standardRules analysis)
  rwa [List.length_map, List.length_map] at hconcepts

/-- All outputs tell the same number of mappings: they are detected when there are some, and the task for them is there
when there are rules for them, and names their number. -/
def Analysis.MappingsAgree (analysis : Analysis) : Prop :=
  (analysis.hasMappings = true ↔ analysis.mappings ≠ []) ∧
    ∀ (skeleton : Option Skeleton) (now : Int) (count : Nat),
      (∃ item ∈ (Checklist.build analysis skeleton now).items, item.text = Checklist.seedText count) ↔
        0 < analysis.keyedRuleCount ∧ count = analysis.keyedRuleCount

/-- How the outputs about mappings depend on the source and on each other. -/
structure Analysis.CountsMappings (source : List Char) (analysis : Analysis) : Prop where
  detected_iff : analysis.hasMappings = true ↔ "mapping(".toList <:+: source
  detected_of_type : ∀ declared ∈ analysis.mappings, "mapping(".toList <+: declared.typeName.toList →
    analysis.hasMappings = true
  rules : analysis.keyedRuleCount = analysis.mappings.length
  task_iff : ∀ (skeleton : Option Skeleton) (now : Int) (count : Nat),
    (∃ item ∈ (Checklist.build analysis skeleton now).items, item.text = Checklist.seedText count) ↔
      analysis.hasMappings = true ∧ count = analysis.keyedRuleCount
  agree_iff : analysis.MappingsAgree ↔ ("mapping(".toList <:+: source ↔ analysis.mappings ≠ [])

theorem hasMappings_iff (source : List Char) :
    (analyze source).hasMappings = true ↔ "mapping(".toList <:+: source :=
  occursIn_iff

theorem Solidity.Declaration.StandsIn.infix_maskedBody {source : List Char} {declaration : Declaration}
    (h : declaration.StandsIn source) : declaration.maskedBody <:+: mask source := by
  rw [h.maskedBody_eq, slice]
  exact (List.drop_suffix _ _).isInfix.trans (List.take_prefix _ _).isInfix

/-- A type that begins with `mapping(` is written in the source as it is recorded. -/
theorem infix_of_mem_mappings {source : List Char} {declared : StateVariable}
    (h : declared ∈ (analyze source).mappings) (htype : "mapping(".toList <+: declared.typeName.toList) :
    "mapping(".toList <:+: source := by
  have hletters : "mapping(".toList.all (fun c => decide (isBlank c = false ∧ ShowsCode c)) = true := by decide
  have hcode : ∀ c ∈ "mapping(".toList, isBlank c = false ∧ ShowsCode c := fun c hc =>
    of_decide_eq_true (List.all_eq_true.1 hletters c hc)
  rw [Analysis.mappings, List.mem_flatMap, analyze_contracts] at h
  obtain ⟨contract, hcontract, hdeclared⟩ := h
  obtain ⟨declaration, hdeclaration, rfl⟩ := List.mem_map.1 hcontract
  have hbody : occursIn "mapping(".toList declaration.maskedBody = true :=
    occursIn_body (by decide) (fun c hc => (hcode c hc).1) (by decide) htype (List.mem_of_mem_filter hdeclared)
  obtain ⟨before, head, body, after, header, hdeclares, rfl⟩ := (scan_laidOut source).declared declaration hdeclaration
  have hmasked := hdeclares.standsIn.infix_maskedBody
  exact infix_of_infix_mask (fun c hc => (hcode c hc).2) ((occursIn_iff.1 hbody).trans hmasked)

/-- The rules always count the variables of mapping type, and so does the task, but whether there is a task depends on
the letters `mapping(` in the source. -/
theorem analyze_mappings (source : List Char) : (analyze source).CountsMappings source := by
  have hrules := keyedRuleCount_eq (analyze source)
  have hdetected := hasMappings_iff source
  have htask : ∀ (skeleton : Option Skeleton) (now : Int) (count : Nat),
      (∃ item ∈ (Checklist.build (analyze source) skeleton now).items, item.text = Checklist.seedText count) ↔
        (analyze source).hasMappings = true ∧ count = (analyze source).keyedRuleCount := by
    intro skeleton now count
    rw [Checklist.exists_seedText_iff, hrules]
  constructor
  case detected_iff => exact hdetected
  case detected_of_type =>
    intro declared hmem htype
    exact hdetected.2 (infix_of_mem_mappings hmem htype)
  case rules => exact hrules
  case task_iff => exact htask
  case agree_iff =>
    rw [Analysis.MappingsAgree, ← hdetected, and_iff_left_iff_imp]
    intro hsome skeleton now count
    rw [htask, hsome, hrules, List.length_pos_iff]

/-- A gap behind the keyword hides a mapping from the checklist, and a comment puts one there that does not exist. -/
theorem mappings_disagree :
    let spaced := analyze "contract M \x7b mapping (address => uint256) balances; \x7d".toList
    let noted := analyze "// mapping(address => uint256)\ncontract M \x7b uint256 total; \x7d".toList
    (¬ (spaced.hasMappings = true ↔ spaced.mappings ≠ []) ∧ spaced.keyedRuleCount = 1 ∧
        ¬ ∃ item ∈ (Checklist.build spaced none 0).items, item.text = Checklist.seedText 1) ∧
      ¬ (noted.hasMappings = true ↔ noted.mappings ≠ []) ∧ noted.keyedRuleCount = 0 ∧
        ∃ item ∈ (Checklist.build noted none 0).items, item.text = Checklist.seedText 0 := by
  intro spaced noted
  have hspaced : spaced.hasMappings = false ∧ spaced.mappings.length = 1 := by decide +kernel
  have hnoted : noted.hasMappings = true ∧ noted.mappings.length = 0 := by decide +kernel
  refine ⟨⟨?_, (keyedRuleCount_eq spaced).trans hspaced.2, ?_⟩, ?_, (keyedRuleCount_eq noted).trans hnoted.2, ?_⟩
  · rw [← List.length_pos_iff, hspaced.1, hspaced.2]
    decide
  · rw [Checklist.exists_seedText_iff, hspaced.1]
    decide
  · rw [← List.length_pos_iff, hnoted.1, hnoted.2]
    decide
  · exact (Checklist.exists_seedText_iff noted none 0 0).2 ⟨hnoted.1, hnoted.2.symm⟩

end ContractMigration
