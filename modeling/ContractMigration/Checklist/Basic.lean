import ContractMigration.Json.Basic
import ContractMigration.Numeric.Rounding

/-!
# Checklists

A checklist is a numbered list of tasks in sections. What has been done without help starts checked and nothing else
does. The progress of a section counts its tasks, and the progress of the checklist is the share of checked tasks in
percent.
-/

namespace ContractMigration

/-- How pressing a task is. -/
inductive Urgency where
  | critical
  | high
  | medium
  | low
deriving DecidableEq, Repr

/-- The word for an urgency. -/
def Urgency.word : Urgency → String
  | critical => "critical"
  | high => "high"
  | medium => "medium"
  | low => "low"

/-- A task before it is put into a section and numbered. -/
structure MigrationTask where
  text : String
  urgency : Urgency
  detail : Option String := none
  automated : Bool := false
deriving DecidableEq, Repr

/-- A numbered task. -/
structure NumberedTask where
  id : String
  sectionName : String
  text : String
  urgency : Urgency
  detail : Option String
  automated : Bool
  checked : Bool
deriving DecidableEq, Repr

/-- How far a section is. -/
structure SectionTally where
  sectionName : String
  done : Nat
  total : Nat
deriving DecidableEq, Repr

/-- A checklist with its progress. -/
structure Checklist where
  contract : String
  tokenStandard : String
  complexity : String
  generatedAt : String
  items : List NumberedTask
  sections : List SectionTally
  progress : Int
deriving DecidableEq, Repr

namespace Checklist

/-- The tasks of the sections in order, each with the name of its section. -/
def placed (sections : List (String × List MigrationTask)) : List (String × MigrationTask) :=
  sections.flatMap fun (name, tasks) => tasks.map (name, ·)

/-- A task of a section with the number behind an index. -/
def numbered (index : Nat) (sectionName : String) (task : MigrationTask) : NumberedTask where
  id := "chk-" ++ toString (index + 1)
  sectionName
  text := task.text
  urgency := task.urgency
  detail := task.detail
  automated := task.automated
  checked := task.automated

/-- Puts the tasks of the sections in order and numbers them from one. -/
def number (sections : List (String × List MigrationTask)) : List NumberedTask :=
  (placed sections).mapIdx fun index (name, task) => numbered index name task

/-- How many items are checked. -/
def checkedCount (items : List NumberedTask) : Nat :=
  items.countP NumberedTask.checked

/-- Counts a task in the tally of its section. A section without a tally gets one behind the others. -/
def countIn (item : NumberedTask) : List SectionTally → List SectionTally
  | [] => [⟨item.sectionName, item.checked.toNat, 1⟩]
  | tally :: rest =>
    if tally.sectionName == item.sectionName then
      { tally with done := tally.done + item.checked.toNat, total := tally.total + 1 } :: rest
    else tally :: countIn item rest

/-- The progress of each section, counted item by item. -/
def sectionsOf (items : List NumberedTask) : List SectionTally :=
  items.foldl (fun tallies item => countIn item tallies) []

/-- The share of checked items in percent, in double precision; no items are no progress. -/
def progressOf (items : List NumberedTask) : Int :=
  if items.isEmpty then 0
  else
    let share := Numeric.nearestDouble ((checkedCount items : Rat) / items.length)
    Numeric.roundHalfEven (Numeric.nearestDouble (share * 100))

end Checklist

/-! ### The written form -/

/-- Writes a task. -/
def NumberedTask.toJson (task : NumberedTask) : Json :=
  .obj [("id", .str task.id), ("section", .str task.sectionName), ("text", .str task.text),
    ("priority", .str task.urgency.word), ("detail", .ofText? task.detail), ("automated", .bool task.automated),
    ("checked", .bool task.checked)]

/-- Writes the tally of a section. -/
def SectionTally.toJson (tally : SectionTally) : Json :=
  .obj [("section", .str tally.sectionName), ("done", .int tally.done), ("total", .int tally.total)]

/-- Writes a checklist. -/
def Checklist.toJson (checklist : Checklist) : Json :=
  .obj [("contract", .str checklist.contract), ("token_standard", .str checklist.tokenStandard),
    ("complexity", .str checklist.complexity), ("generated_at", .str checklist.generatedAt),
    ("items", .arr (checklist.items.map NumberedTask.toJson)),
    ("sections", .arr (checklist.sections.map SectionTally.toJson)), ("progress", .int checklist.progress)]

end ContractMigration
