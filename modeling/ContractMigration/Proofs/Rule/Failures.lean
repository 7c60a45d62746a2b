import ContractMigration.Rule.Registry
import Mathlib.Data.List.Basic

/-!
# Failing modules

A module that fails leaves no trace in the rules: those behind it see what they would see without it. So the rules of a
report, with their numbers, are the rules of the modules that do not fail (`failures_isolated`). Failing is noted beside
the rules, for each module in the order of the registry.
-/

namespace ContractMigration

namespace RuleModule

/-- The module fails on an analysis, whatever was made before. -/
def Fails (ruleModule : RuleModule) (analysis : Analysis) : Prop :=
  ∀ emitted, ruleModule.apply analysis emitted = none

/-- The module gives its rules for an analysis, whatever was made before. -/
def Works (ruleModule : RuleModule) (analysis : Analysis) : Prop :=
  ∀ emitted, (ruleModule.apply analysis emitted).isSome = true

theorem orStandard_of_ne_nil {modules : List RuleModule} (h : modules ≠ []) : orStandard modules = modules :=
  if_neg (by simpa using h)

end RuleModule

namespace RuleReport

variable {analysis : Analysis} {ruleModule : RuleModule} {modules : List RuleModule}

/-! ### One module -/

theorem executed_extend (analysis : Analysis) (report : RuleReport) (ruleModule : RuleModule) :
    (report.extend analysis ruleModule).executed = report.executed ++ [ruleModule.id] := by
  unfold extend
  split <;> rfl

theorem extend_of_fails (h : ruleModule.Fails analysis) (report : RuleReport) :
    (report.extend analysis ruleModule).rules = report.rules ∧
      (report.extend analysis ruleModule).failed = report.failed ++ [ruleModule.id] := by
  rw [extend, h]
  exact ⟨rfl, rfl⟩

theorem failed_extend_of_works (h : ruleModule.Works analysis) (report : RuleReport) :
    (report.extend analysis ruleModule).failed = report.failed := by
  obtain ⟨rules, hrules⟩ := Option.isSome_iff_exists.1 (h report.rules)
  rw [extend, hrules]

/-- What a module adds depends on the rules alone, not on what was noted about other modules. -/
theorem rules_extend_congr {left right : RuleReport} (h : left.rules = right.rules) (ruleModule : RuleModule) :
    (left.extend analysis ruleModule).rules = (right.extend analysis ruleModule).rules := by
  rw [extend, extend, h]
  split <;> rfl

/-! ### Runs -/

theorem executed_foldl (report : RuleReport) (modules : List RuleModule) :
    (modules.foldl (extend analysis) report).executed = report.executed ++ modules.map RuleModule.id := by
  induction modules generalizing report with
  | nil => exact (List.append_nil _).symm
  | cons ruleModule rest ih =>
    rw [List.foldl_cons, ih, executed_extend, List.append_assoc, List.map_cons, List.singleton_append]

section Broken

variable {broken : RuleModule → Bool}

/-- Two runs, one without modules that fail, that have made the same rules go on making the same rules. -/
theorem rules_foldl_filter (hbroken : ∀ ruleModule ∈ modules, broken ruleModule = true → ruleModule.Fails analysis)
    {left right : RuleReport} (h : left.rules = right.rules) :
    (modules.foldl (extend analysis) left).rules =
      ((modules.filter fun ruleModule => !broken ruleModule).foldl (extend analysis) right).rules := by
  induction modules generalizing left right with
  | nil => exact h
  | cons ruleModule rest ih =>
    rw [List.forall_mem_cons] at hbroken
    cases hfails : broken ruleModule with
    | true =>
      have hsame := ((extend_of_fails (hbroken.1 hfails) left).1).trans h
      rw [List.foldl_cons, List.filter_cons_of_neg (by simp [hfails])]
      exact ih hbroken.2 hsame
    | false =>
      rw [List.foldl_cons, List.filter_cons_of_pos (by simp [hfails]), List.foldl_cons]
      exact ih hbroken.2 (rules_extend_congr h ruleModule)

theorem failed_foldl (hbroken : ∀ ruleModule ∈ modules, broken ruleModule = true → ruleModule.Fails analysis)
    (hworks : ∀ ruleModule ∈ modules, broken ruleModule = false → ruleModule.Works analysis) (report : RuleReport) :
    (modules.foldl (extend analysis) report).failed =
      report.failed ++ (modules.filter broken).map RuleModule.id := by
  induction modules generalizing report with
  | nil => exact (List.append_nil _).symm
  | cons ruleModule rest ih =>
    rw [List.forall_mem_cons] at hbroken hworks
    rw [List.foldl_cons, ih hbroken.2 hworks.2]
    cases hfails : broken ruleModule with
    | true =>
      rw [(extend_of_fails (hbroken.1 hfails) report).2, List.filter_cons_of_pos hfails, List.append_assoc]
      rfl
    | false =>
      rw [failed_extend_of_works (hworks.1 hfails), List.filter_cons_of_neg (by simp [hfails])]

end Broken

theorem map_id_numbered (report : RuleReport) :
    report.numbered.rules.map MigrationRule.id =
      (List.range report.rules.length).map fun index => "rule-" ++ toString (index + 1) := by
  apply List.ext_getElem
  · simp [numbered]
  · intro index hleft hright
    simp [numbered]

end RuleReport

/-- Modules that fail are noted and otherwise as good as absent: the rules are those of the modules that do not fail,
numbered from one, and there are none when all modules fail. -/
theorem failures_isolated {analysis : Analysis} {modules : List RuleModule} {broken : RuleModule → Bool}
    (hne : modules ≠ [])
    (hbroken : ∀ ruleModule ∈ modules, broken ruleModule = true → ruleModule.Fails analysis)
    (hworks : ∀ ruleModule ∈ modules, broken ruleModule = false → ruleModule.Works analysis) :
    let report := runRules (RuleModule.orStandard modules) analysis
    let working := modules.filter fun ruleModule => !broken ruleModule
    (working ≠ [] → report.rules = (runRules (RuleModule.orStandard working) analysis).rules) ∧
      (working = [] → report.rules = []) ∧
      report.executed = modules.map RuleModule.id ∧
      report.failed = (modules.filter broken).map RuleModule.id ∧
      report.rules.map MigrationRule.id =
        (List.range report.rules.length).map fun index => "rule-" ++ toString (index + 1) := by
  intro report working
  have hreport : report = (modules.foldl (RuleReport.extend analysis) {}).numbered := by
    show runRules (RuleModule.orStandard modules) analysis = _
    rw [RuleModule.orStandard_of_ne_nil hne, runRules]
  have hrules : report.rules = (working.foldl (RuleReport.extend analysis) {}).numbered.rules := by
    rw [hreport, RuleReport.numbered, RuleReport.numbered, RuleReport.rules_foldl_filter hbroken rfl]
  refine ⟨fun hsome => ?_, fun hnone => ?_, ?_, ?_, ?_⟩
  · rw [hrules, RuleModule.orStandard_of_ne_nil hsome, runRules]
  · rw [hrules, hnone]
    rfl
  · rw [hreport]
    exact RuleReport.executed_foldl {} modules
  · rw [hreport]
    exact RuleReport.failed_foldl hbroken hworks {}
  · rw [hreport, RuleReport.map_id_numbered]
    exact congrArg (fun count => (List.range count).map _) List.length_mapIdx.symm

/-- Two modules without a known id fail, one at the beginning and one between the others. -/
theorem failures_isolated_unknown :
    let storage := RuleModule.named "contract_state"
    let patterns := RuleModule.named "patterns"
    let modules := [RuleModule.named "unknown", storage, RuleModule.named "broken", patterns]
    let analysis : Analysis := { contracts := [{ name := "Vault" }] }
    let broken := fun ruleModule : RuleModule => ruleModule.id == "unknown" || ruleModule.id == "broken"
    let report := runRules (RuleModule.orStandard modules) analysis
    modules ≠ [] ∧
      (∀ ruleModule ∈ modules, broken ruleModule = true → ruleModule.Fails analysis) ∧
      (∀ ruleModule ∈ modules, broken ruleModule = false → ruleModule.Works analysis) ∧
      report.rules = (runRules (RuleModule.orStandard [storage, patterns]) analysis).rules ∧
      report.executed = ["unknown", "contract_state", "broken", "patterns"] ∧
      report.failed = ["unknown", "broken"] := by
  intro storage patterns modules analysis broken report
  have hne : modules ≠ [] := List.cons_ne_nil _ _
  have hnone : ∀ {p : RuleModule → Prop}, ∀ ruleModule ∈ [], p ruleModule :=
    fun _ hmem => absurd hmem List.not_mem_nil
  have hbroken : ∀ ruleModule ∈ modules, broken ruleModule = true → ruleModule.Fails analysis := by
    simp only [modules, List.forall_mem_cons]
    exact ⟨fun _ _ => rfl, fun h => absurd h (by decide), fun _ _ => rfl, fun h => absurd h (by decide), hnone⟩
  have hworks : ∀ ruleModule ∈ modules, broken ruleModule = false → ruleModule.Works analysis := by
    simp only [modules, List.forall_mem_cons]
    exact ⟨fun h => absurd h (by decide), fun _ _ => rfl, fun h => absurd h (by decide), fun _ _ => rfl, hnone⟩
  obtain ⟨hrules, -, hexecuted, hfailed, -⟩ := failures_isolated hne hbroken hworks
  exact ⟨hne, hbroken, hworks, hrules (List.cons_ne_nil _ _), hexecuted, hfailed⟩

end ContractMigration
