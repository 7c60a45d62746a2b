import ContractMigration.Checklist.Tasks
import ContractMigration.Proofs.Text.Search
import Mathlib.Data.List.Basic

/-!
# Plans and instructions in a checklist

A task is a plan when its text begins with the word `Design`, and the tasks that implement one instruction begin with
words of their own, too. No other task begins with either, whatever the analysis says, so these tasks can be told from
the others by their texts. The checklist has at most one plan, the one for the accounts of the mappings
(`plans_sectionTasks`), and the number in its text tells how many mappings there are (`exists_seedText_iff`); it has
one task for each of the first instructions (`instructionTexts_sectionTasks`).
-/

namespace ContractMigration.Checklist

open Text

/-! ### Texts of tasks -/

/-- The text of the task that plans the accounts for some number of mappings. -/
def seedText (count : Nat) : String :=
  s!"Design PDA seed scheme for {count} mapping(s)"

theorem toList_seedText (count : Nat) :
    (seedText count).toList =
      "Design PDA seed scheme for ".toList ++ (Nat.toDigits 10 count ++ " mapping(s)".toList) := by
  show ("Design PDA seed scheme for " ++ count.repr ++ " mapping(s)").toList = _
  rw [String.toList_append, String.toList_append, Nat.toList_repr, List.append_assoc]

theorem seedText_injective : Function.Injective seedText := by
  intro left right h
  have htexts := congrArg String.toList h
  rw [toList_seedText, toList_seedText, List.append_cancel_left_eq, List.append_cancel_right_eq] at htexts
  rw [← @Nat.ofDigitChars_ten_toDigits left, htexts, Nat.ofDigitChars_ten_toDigits]

theorem begins_seedText (count : Nat) : Begins "Design" (seedText count) := by
  rw [Begins, toList_seedText]
  exact List.IsPrefix.trans (by decide) (List.prefix_append ..)

theorem not_begins_seedText (count : Nat) : ¬ Begins "Implement instruction:" (seedText count) := by
  show ¬ Begins _ ("Design PDA seed scheme for " ++ count.repr ++ " mapping(s)")
  rw [String.append_assoc]
  exact not_begins_append (by decide) (by decide) _

/-! ### Tasks by the beginning of their text -/

/-- The texts of tasks that begin with a word. -/
def textsBeginning (word : String) (tasks : List MigrationTask) : List String :=
  (tasks.map MigrationTask.text).filter fun text => Begins word text

section

variable {word : String}

theorem textsBeginning_append (left right : List MigrationTask) :
    textsBeginning word (left ++ right) = textsBeginning word left ++ textsBeginning word right := by
  rw [textsBeginning, List.map_append, List.filter_append]
  rfl

theorem textsBeginning_eq_nil {tasks : List MigrationTask} (h : ∀ task ∈ tasks, ¬ Begins word task.text) :
    textsBeginning word tasks = [] := by
  rw [textsBeginning, List.filter_eq_nil_iff, List.forall_mem_map]
  exact fun task hmem => by simpa using h task hmem

theorem textsBeginning_eq_map {tasks : List MigrationTask} (h : ∀ task ∈ tasks, Begins word task.text) :
    textsBeginning word tasks = tasks.map MigrationTask.text := by
  rw [textsBeginning, List.filter_eq_self, List.forall_mem_map]
  exact fun task hmem => decide_eq_true (h task hmem)

theorem textsBeginning_between {left middle right : List MigrationTask}
    (hleft : ∀ task ∈ left, ¬ Begins word task.text) (hright : ∀ task ∈ right, ¬ Begins word task.text) :
    textsBeginning word (left ++ middle ++ right) = textsBeginning word middle := by
  rw [textsBeginning_append, textsBeginning_append, textsBeginning_eq_nil hleft, textsBeginning_eq_nil hright,
    List.nil_append, List.append_nil]

theorem not_begins_optional {tasks : List MigrationTask} {flag : Bool} (h : ∀ task ∈ tasks, ¬ Begins word task.text) :
    ∀ task ∈ if flag then tasks else [], ¬ Begins word task.text :=
  fun task hmem => h task (List.mem_ite_nil_right.1 hmem).2

end

/-- The words that tell a kind of tasks from all other tasks. -/
def markers : List String :=
  ["Design", "Implement instruction:"]

/-- A text that is written out is compared with each marker, letter by letter. -/
theorem not_begins_literal {letters : List Char} (h : ∀ word ∈ markers, ¬ word.toList <+: letters) {word : String}
    (hword : word ∈ markers) : ¬ Begins word (String.ofList letters) :=
  not_begins_ofList (h word hword)

theorem not_begins_open :
    ∀ word ∈ markers, ∀ front ∈ ["Detected token standard: ", "Contract complexity: ", "Resolve "], ∀ rest,
      ¬ Begins word (front ++ rest) := by
  have hfronts : ∀ word ∈ markers, ∀ front ∈ ["Detected token standard: ", "Contract complexity: ", "Resolve "],
      ¬ Begins word front ∧ ¬ Begins front word := by decide
  intro word hword front hfront
  exact not_begins_append (hfronts word hword front hfront).1 (hfronts word hword front hfront).2

variable (analysis : Analysis) (skeleton : Option Skeleton)

/-- Among the tasks of the analysis only the one for the mappings has a beginning of its own. -/
theorem analysisTasks_eq :
    ∃ left plan right, analysisTasks analysis = left ++ (if analysis.hasMappings then [plan] else []) ++ right ∧
      plan.text = seedText analysis.mappings.length ∧
      ∀ word ∈ markers, (∀ task ∈ left, ¬ Begins word task.text) ∧ ∀ task ∈ right, ¬ Begins word task.text := by
  refine ⟨_, _, _, rfl, rfl, fun word hword => ?_⟩
  have hstandard := not_begins_open word hword "Detected token standard: " (by simp)
  have hcomplexity := not_begins_open word hword "Contract complexity: " (by simp)
  have herrors := not_begins_open word hword "Resolve " (by simp)
  constructor
  case left =>
    simp only [List.forall_mem_cons]
    refine ⟨not_begins_literal (by decide) hword, hstandard _, not_begins_literal (by decide) hword,
      not_begins_literal (by decide) hword, not_begins_literal (by decide) hword, ?_,
      fun _ hmem => absurd hmem List.not_mem_nil⟩
    rw [String.append_assoc, String.append_assoc, String.append_assoc]
    exact hcomplexity _
  case right =>
    cases analysis.errors with
    | nil => exact fun task hmem => absurd hmem List.not_mem_nil
    | cons first rest =>
      rw [List.forall_mem_singleton, String.append_assoc]
      exact herrors _

/-- Among the tasks of the program only those for single instructions have a beginning of their own. -/
theorem programTasks_eq :
    ∃ left right, programTasks analysis skeleton =
        left ++ (((skeleton.map Skeleton.instructions).getD []).take 5).map instructionTask ++ right ∧
      ∀ word ∈ markers, (∀ task ∈ left, ¬ Begins word task.text) ∧ ∀ task ∈ right, ¬ Begins word task.text := by
  cases skeleton
  all_goals
    refine ⟨_, _, (List.append_assoc ..).trans (List.append_assoc ..), fun word hword => ⟨?_, ?_⟩⟩
    case' refine_2 =>
      rw [List.forall_mem_append, List.forall_mem_append]
      refine ⟨not_begins_optional ?_, not_begins_optional ?_, not_begins_optional ?_⟩
    all_goals
      simp only [List.forall_mem_cons, List.not_mem_nil, false_implies, implies_true, and_true]
      repeat' apply And.intro
      all_goals exact not_begins_literal (by decide) hword

theorem not_begins_otherTasks {word : String} (hword : word ∈ markers) :
    ∀ task ∈ testingTasks ++ (securityTasks ++ (tokenTasks ++ deploymentTasks)), ¬ Begins word task.text := by
  simp only [testingTasks, securityTasks, tokenTasks, deploymentTasks, List.forall_mem_append, List.forall_mem_cons,
    List.not_mem_nil, false_implies, implies_true, and_true]
  repeat' apply And.intro
  all_goals exact not_begins_literal (by decide) hword

/-- Tasks with a beginning of their own are among those for the analysis and for the program. -/
theorem textsBeginning_sectionTasks {word : String} (hword : word ∈ markers) :
    textsBeginning word ((sectionTasks analysis skeleton).flatMap Prod.snd) =
      textsBeginning word (analysisTasks analysis) ++ textsBeginning word (programTasks analysis skeleton) := by
  have hother := not_begins_otherTasks hword
  simp only [List.forall_mem_append] at hother
  obtain ⟨htesting, hsecurity, htoken, hdeployment⟩ := hother
  have hoptional : ∀ flag : Bool,
      textsBeginning word ((if flag then [("Token Migration", tokenTasks)] else []).flatMap Prod.snd) = [] := by
    intro flag
    cases flag with
    | false => rfl
    | true => exact textsBeginning_eq_nil (by simpa using htoken)
  simp only [sectionTasks, List.flatMap_append, List.flatMap_cons, List.flatMap_nil, textsBeginning_append,
    textsBeginning_eq_nil htesting, textsBeginning_eq_nil hsecurity, textsBeginning_eq_nil hdeployment, hoptional,
    List.append_nil]

/-- The only plan among all tasks is the one for the mappings. -/
theorem plans_sectionTasks :
    textsBeginning "Design" ((sectionTasks analysis skeleton).flatMap Prod.snd) =
      if analysis.hasMappings then [seedText analysis.mappings.length] else [] := by
  have hword : "Design" ∈ markers := by simp [markers]
  obtain ⟨left, plan, right, heq, htext, hsides⟩ := analysisTasks_eq analysis
  obtain ⟨front, back, hprogram, hends⟩ := programTasks_eq analysis skeleton
  have hinstructions : ∀ instructions : List String, ∀ task ∈ instructions.map instructionTask,
      ¬ Begins "Design" task.text := by
    intro instructions
    rw [List.forall_mem_map]
    exact fun name _ => not_begins_append (by decide) (by decide) name
  rw [textsBeginning_sectionTasks analysis skeleton hword, heq, hprogram,
    textsBeginning_between (hsides _ hword).1 (hsides _ hword).2,
    textsBeginning_between (hends _ hword).1 (hends _ hword).2, textsBeginning_eq_nil (hinstructions _),
    List.append_nil]
  split
  · rw [textsBeginning_eq_map (by simpa [htext] using begins_seedText _), List.map_singleton, htext]
  · rfl

/-- The tasks for single instructions are those for the first five. -/
theorem instructionTexts_sectionTasks :
    textsBeginning "Implement instruction:" ((sectionTasks analysis skeleton).flatMap Prod.snd) =
      (((skeleton.map Skeleton.instructions).getD []).take 5).map fun name => "Implement instruction: " ++ name := by
  have hword : "Implement instruction:" ∈ markers := by simp [markers]
  obtain ⟨left, plan, right, heq, htext, hsides⟩ := analysisTasks_eq analysis
  obtain ⟨front, back, hprogram, hends⟩ := programTasks_eq analysis skeleton
  have hplan : ∀ task ∈ if analysis.hasMappings then [plan] else [], ¬ Begins "Implement instruction:" task.text := by
    apply not_begins_optional
    rw [List.forall_mem_singleton, htext]
    exact not_begins_seedText _
  have hinstructions : ∀ instructions : List String, ∀ task ∈ instructions.map instructionTask,
      Begins "Implement instruction:" task.text := by
    intro instructions
    rw [List.forall_mem_map]
    exact fun name _ => List.IsPrefix.trans (by decide) (begins_append "Implement instruction: " name)
  rw [textsBeginning_sectionTasks analysis skeleton hword, heq, hprogram,
    textsBeginning_between (hsides _ hword).1 (hsides _ hword).2,
    textsBeginning_between (hends _ hword).1 (hends _ hword).2, textsBeginning_eq_nil hplan, List.nil_append,
    textsBeginning_eq_map (hinstructions _), List.map_map]
  rfl

/-! ### The items of a checklist -/

/-- What is kept of each task is in the items as it is in the tasks of the sections, in order. -/
theorem map_number {β : Type} (kept : NumberedTask → β) (own : String × MigrationTask → β)
    (h : ∀ index name task, kept (numbered index name task) = own (name, task))
    (sections : List (String × List MigrationTask)) : (number sections).map kept = (placed sections).map own := by
  apply List.ext_getElem
  · simp [number]
  · intro index hleft hright
    simp [number, h]

theorem map_snd_placed (sections : List (String × List MigrationTask)) :
    (placed sections).map Prod.snd = sections.flatMap Prod.snd := by
  rw [placed, List.map_flatMap]
  simp only [List.map_map]
  exact congrArg (List.flatMap · sections) (funext fun _ => List.map_id _)

/-- The numbered tasks have the texts of the tasks of all sections, in order. -/
theorem map_text_number (sections : List (String × List MigrationTask)) :
    (number sections).map NumberedTask.text = (sections.flatMap Prod.snd).map MigrationTask.text := by
  rw [map_number _ (MigrationTask.text ∘ Prod.snd) fun _ _ _ => rfl, ← map_snd_placed, List.map_map]

/-- There is a task for a number of mappings exactly when mappings are detected and there are so many. -/
theorem exists_seedText_iff (now : Int) (count : Nat) :
    (∃ item ∈ (build analysis skeleton now).items, item.text = seedText count) ↔
      analysis.hasMappings = true ∧ count = analysis.mappings.length := by
  have htexts : (∃ item ∈ (build analysis skeleton now).items, item.text = seedText count) ↔
      seedText count ∈ textsBeginning "Design" ((sectionTasks analysis skeleton).flatMap Prod.snd) := by
    rw [textsBeginning, List.mem_filter, ← map_text_number, List.mem_map]
    exact (and_iff_left (decide_eq_true (begins_seedText count))).symm
  rw [htexts, plans_sectionTasks, List.mem_ite_nil_right, List.mem_singleton, seedText_injective.eq_iff]

end ContractMigration.Checklist
