import ContractMigration.Checklist.Tasks
import ContractMigration.Proofs.Checklist.Plans
import ContractMigration.Proofs.Checklist.Tally
import ContractMigration.Proofs.Numeric.Rounding
import ContractMigration.Proofs.Validation.Accepted

/-!
# The accounts of a checklist

Main statement: whatever the analysis and the skeleton, the record takes the checklist, and its numbers agree with its
items (`build_accounted`). The items of a section stand together because each section is put down once
(`ofSection_infix`). The progress is computed with two roundings to double precision. They do not show in it because
three or four out of thirty-six to sixty tasks are checked (`automated_sectionTasks`, `length_sectionTasks`), and for
these few quotients the rounded result is the exact one. Twenty-three out of forty would give another percentage.
-/

namespace ContractMigration.Checklist

open Text

/-- The numbers of a checklist agree with its items. -/
structure Accounted (checklist : Checklist) : Prop where
  nonempty : checklist.items ≠ []
  ids : checklist.items.map NumberedTask.id =
    (List.range checklist.items.length).map fun index => "chk-" ++ toString (index + 1)
  checked : ∀ item ∈ checklist.items, item.checked = item.automated
  sections : Counted checklist.items checklist.sections
  /-- The items of a section stand together. -/
  together : ∀ name, ofSection checklist.items name <:+: checklist.items
  progress : Numeric.RoundedHalfEven (100 * checkedCount checklist.items / checklist.items.length) checklist.progress
  least : 0 ≤ checklist.progress
  greatest : checklist.progress ≤ 100

/-! ### Numbered tasks -/

theorem map_id_number (sections : List (String × List MigrationTask)) :
    (number sections).map NumberedTask.id =
      (List.range (number sections).length).map fun index => "chk-" ++ toString (index + 1) := by
  apply List.ext_getElem
  · simp
  · intro index hleft hright
    simp [number, numbered]

theorem checked_of_mem_number {sections : List (String × List MigrationTask)} :
    ∀ item ∈ number sections, item.checked = item.automated := by
  intro item hmem
  obtain ⟨index, hindex, rfl⟩ := List.mem_mapIdx.1 hmem
  rfl

theorem length_number (sections : List (String × List MigrationTask)) :
    (number sections).length = (sections.flatMap Prod.snd).length := by
  rw [← map_snd_placed, List.length_map, number, List.length_mapIdx]

theorem checkedCount_number (sections : List (String × List MigrationTask)) :
    checkedCount (number sections) = (sections.flatMap Prod.snd).countP MigrationTask.automated := by
  have hflags := map_number NumberedTask.checked (MigrationTask.automated ∘ Prod.snd) (fun _ _ _ => rfl) sections
  have hcount := congrArg (List.countP id) hflags
  rw [List.countP_map, List.countP_map] at hcount
  rw [← map_snd_placed, List.countP_map]
  exact hcount

/-! ### Sections stand together -/

theorem ofSection_append (left right : List NumberedTask) (name : String) :
    ofSection (left ++ right) name = ofSection left name ++ ofSection right name :=
  List.filter_append ..

theorem mem_of_mem_placed {sections : List (String × List MigrationTask)} {name : String}
    (h : name ∈ (placed sections).map Prod.fst) : name ∈ sections.map Prod.fst := by
  obtain ⟨task, htask, rfl⟩ := List.mem_map.1 h
  obtain ⟨own, hown, hmem⟩ := List.mem_flatMap.1 htask
  obtain ⟨_, _, rfl⟩ := List.mem_map.1 hmem
  exact List.mem_map_of_mem hown

/-- Items that are placed section by section, each section once, stand together in each section. -/
theorem ofSection_infix {sections : List (String × List MigrationTask)} (h : (sections.map Prod.fst).Nodup)
    {items : List NumberedTask} (hitems : items.map NumberedTask.sectionName = (placed sections).map Prod.fst)
    (name : String) : ofSection items name <:+: items := by
  induction sections generalizing items with
  | nil =>
    rw [List.map_eq_nil_iff.1 hitems]
    exact List.infix_rfl
  | cons first rest ih =>
    obtain ⟨own, tasks⟩ := first
    rw [List.map_cons, List.nodup_cons] at h
    have hplaced : (placed ((own, tasks) :: rest)).map Prod.fst =
        List.replicate tasks.length own ++ (placed rest).map Prod.fst := by
      simp [placed, Function.comp_def]
    rw [hplaced, List.map_eq_append_iff] at hitems
    obtain ⟨front, back, rfl, hfront, hback⟩ := hitems
    rw [ofSection_append]
    -- the section that is asked for is the first one and does not come again, or all of it is in the rest
    by_cases hname : name = own
    · have hnone : ofSection back name = [] := by
        apply ofSection_eq_nil
        rw [hback, hname]
        exact fun hmem => h.1 (mem_of_mem_placed hmem)
      have hall : ofSection front name = front := by
        rw [ofSection, List.filter_eq_self]
        intro item hmem
        have hsection : item.sectionName ∈ List.replicate tasks.length own := hfront ▸ List.mem_map_of_mem hmem
        rw [List.eq_of_mem_replicate hsection, hname, beq_self_eq_true]
      rw [hnone, hall, List.append_nil]
      exact (List.prefix_append front back).isInfix
    · have hnone : ofSection front name = [] := by
        apply ofSection_eq_nil
        rw [hfront]
        exact fun hmem => hname (List.eq_of_mem_replicate hmem)
      rw [hnone, List.nil_append]
      exact (ih h.2 hback).trans (List.suffix_append front back).isInfix

theorem nodup_sectionTasks (analysis : Analysis) (skeleton : Option Skeleton) :
    ((sectionTasks analysis skeleton).map Prod.fst).Nodup := by
  unfold sectionTasks
  split
  · simp
  · simp

/-! ### The progress -/

section

variable (analysis : Analysis) (skeleton : Option Skeleton)

theorem length_analysisTasks : 6 ≤ (analysisTasks analysis).length ∧ (analysisTasks analysis).length ≤ 8 := by
  unfold analysisTasks
  cases analysis.errors <;> cases analysis.hasMappings <;> simp

theorem length_programTasks :
    6 ≤ (programTasks analysis skeleton).length ∧ (programTasks analysis skeleton).length ≤ 17 := by
  unfold programTasks
  cases skeleton <;> cases analysis.isErc20 <;> cases analysis.isErc721 <;>
    cases analysis.hasOwnable || analysis.hasAccessControl
  all_goals
    simp only [List.length_append, List.length_cons, List.length_nil, List.length_map, List.length_take,
      mostInstructionTasks, Bool.false_eq_true, if_true, if_false]
    omega

theorem automated_analysisTasks : (analysisTasks analysis).countP MigrationTask.automated = 3 := by
  unfold analysisTasks
  cases analysis.errors <;> cases analysis.hasMappings <;> rfl

/-- Of the tasks of the program only the one for the skeleton may be automated. -/
theorem automated_programTasks : (programTasks analysis skeleton).countP MigrationTask.automated ≤ 1 := by
  have hinstructions : ∀ instructions : List String,
      (instructions.map instructionTask).countP MigrationTask.automated = 0 := by
    intro instructions
    rw [List.countP_map, List.countP_eq_zero]
    exact fun name _ => Bool.false_ne_true
  unfold programTasks
  simp only [List.countP_append, hinstructions, Nat.add_zero]
  cases analysis.isErc20 <;> cases analysis.isErc721 <;> cases analysis.hasOwnable || analysis.hasAccessControl
  all_goals
    cases skeleton with
    | none => decide
    | some skeleton =>
      dsimp only
      cases skeleton.files.isEmpty <;> decide

theorem length_sectionTasks :
    36 ≤ ((sectionTasks analysis skeleton).flatMap Prod.snd).length ∧
      ((sectionTasks analysis skeleton).flatMap Prod.snd).length ≤ 60 := by
  have hanalysis := length_analysisTasks analysis
  have hprogram := length_programTasks analysis skeleton
  have htesting : testingTasks.length = 7 := rfl
  have hsecurity : securityTasks.length = 9 := rfl
  have htoken : tokenTasks.length = 11 := rfl
  have hdeployment : deploymentTasks.length = 8 := rfl
  unfold sectionTasks
  cases analysis.isErc20 || analysis.isErc721 <;>
    simp only [List.flatMap_append, List.flatMap_cons, List.flatMap_nil, List.length_append, List.length_nil,
      if_true, if_false, Bool.false_eq_true] <;> omega

theorem automated_sectionTasks :
    ((sectionTasks analysis skeleton).flatMap Prod.snd).countP MigrationTask.automated ∈ [3, 4] := by
  have hprogram := automated_programTasks analysis skeleton
  have htesting : testingTasks.countP MigrationTask.automated = 0 := rfl
  have hsecurity : securityTasks.countP MigrationTask.automated = 0 := rfl
  have htoken : tokenTasks.countP MigrationTask.automated = 0 := rfl
  have hdeployment : deploymentTasks.countP MigrationTask.automated = 0 := rfl
  unfold sectionTasks
  rw [List.mem_pair]
  cases analysis.isErc20 || analysis.isErc721 <;>
    simp only [List.flatMap_append, List.flatMap_cons, List.flatMap_nil, List.countP_append, List.countP_nil,
      automated_analysisTasks, if_true, if_false, Bool.false_eq_true] <;> omega

end

/-- For a few of at most sixty tasks the two roundings to double precision do not show in the percentage. -/
theorem percentage_exact : ∀ checked ∈ [3, 4], ∀ total ∈ List.range' 36 25,
    let exact := Numeric.roundHalfEven (100 * (checked : Nat) / (total : Nat))
    Numeric.roundHalfEven (Numeric.nearestDouble (Numeric.nearestDouble ((checked : Nat) / (total : Nat)) * 100)) =
        exact ∧ 0 ≤ exact ∧ exact ≤ 100 := by
  decide +kernel

section

variable (analysis : Analysis) (skeleton : Option Skeleton)

theorem progress_number :
    let items := number (sectionTasks analysis skeleton)
    progressOf items = Numeric.roundHalfEven (100 * checkedCount items / items.length) ∧
      0 ≤ progressOf items ∧ progressOf items ≤ 100 := by
  intro items
  have hchecked : checkedCount items ∈ [3, 4] := by
    rw [checkedCount_number]
    exact automated_sectionTasks analysis skeleton
  have hlength : 36 ≤ items.length ∧ items.length ≤ 60 := by
    rw [length_number]
    exact length_sectionTasks analysis skeleton
  have hnonempty : items.isEmpty = false := by
    rw [List.isEmpty_eq_false_iff_exists_mem]
    exact List.exists_mem_of_length_pos (by omega)
  obtain ⟨hexact, hleast, hgreatest⟩ := percentage_exact _ hchecked items.length (List.mem_range'_1.2 (by omega))
  rw [progressOf, hnonempty, if_neg Bool.false_ne_true, hexact]
  exact ⟨rfl, hleast, hgreatest⟩

/-- The record takes the checklist, its numbers agree with its items, and at most five instructions have a task of
their own. -/
theorem build_accounted (now : Int) :
    buildRecord analysis skeleton now = .accepted (build analysis skeleton now) ∧
      (build analysis skeleton now).Accounted ∧
      ((build analysis skeleton now).items.filter fun item => Begins "Implement instruction:" item.text).length =
        min 5 ((skeleton.map Skeleton.instructions).getD []).length := by
  obtain ⟨hexact, hleast, hgreatest⟩ := progress_number analysis skeleton
  have hlength := (length_sectionTasks analysis skeleton).1
  refine ⟨?recorded, ?accounted, ?instructions⟩
  case recorded =>
    have hprogress : Validation.within progressLimits (build analysis skeleton now).progress =
        .accepted (build analysis skeleton now).progress := Validation.within_accepted ⟨hleast, hgreatest⟩
    rw [buildRecord, record, hprogress]
    rfl
  case accounted =>
    constructor
    case nonempty =>
      apply List.ne_nil_of_length_pos
      show 0 < (number (sectionTasks analysis skeleton)).length
      rw [length_number]
      omega
    case ids => exact map_id_number _
    case checked => exact checked_of_mem_number
    case sections => exact counted_sectionsOf _
    case together =>
      refine ofSection_infix (nodup_sectionTasks analysis skeleton) ?_
      exact map_number _ Prod.fst (fun _ _ _ => rfl) _
    case progress => exact Numeric.eq_roundHalfEven_iff.1 hexact
    case least => exact hleast
    case greatest => exact hgreatest
  case instructions =>
    have htexts := map_text_number (sectionTasks analysis skeleton)
    have hlengths := congrArg List.length (instructionTexts_sectionTasks analysis skeleton)
    rw [textsBeginning, ← htexts, List.filter_map, List.length_map, List.length_map, List.length_take] at hlengths
    exact hlengths

end

end ContractMigration.Checklist
