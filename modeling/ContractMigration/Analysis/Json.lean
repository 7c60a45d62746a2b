import ContractMigration.Analysis.Facts
import ContractMigration.Contract.Json

/-!
# Analyses as records

The declaration of an analysis, the record that it is, and what such a record stands for. What a library makes of the
record of an analysis is its JSON form, and what it reads is an analysis again if every text in it is Unicode text.
-/

namespace ContractMigration

open Validation

namespace FileFacts

/-- The fields of the facts about a file. -/
def fields : List (RecordField FieldType) :=
  [⟨"is_erc20", .boolean, some (.boolean false)⟩, ⟨"is_erc721", .boolean, some (.boolean false)⟩,
    ⟨"has_ownable", .boolean, some (.boolean false)⟩, ⟨"has_access_control", .boolean, some (.boolean false)⟩,
    ⟨"has_mappings", .boolean, some (.boolean false)⟩, ⟨"has_events", .boolean, some (.boolean false)⟩,
    ⟨"complexity", .oneOf (Complexity.all.map Complexity.word), some (.member Complexity.low.word)⟩,
    ⟨"line_count", .integer, some (.integer 0)⟩]

/-- The facts about a file as values of fields. -/
def values (facts : FileFacts) : List (String × Value) :=
  [("is_erc20", .boolean facts.isErc20), ("is_erc721", .boolean facts.isErc721),
    ("has_ownable", .boolean facts.hasOwnable), ("has_access_control", .boolean facts.hasAccessControl),
    ("has_mappings", .boolean facts.hasMappings), ("has_events", .boolean facts.hasEvents),
    ("complexity", .member facts.complexity.word), ("line_count", .integer facts.lineCount)]

/-- The facts about a file among the fields of a record. -/
def ofValue? (value : Value) : Option FileFacts := do
  return {
    isErc20 := ← value.boolean? "is_erc20"
    isErc721 := ← value.boolean? "is_erc721"
    hasOwnable := ← value.boolean? "has_ownable"
    hasAccessControl := ← value.boolean? "has_access_control"
    hasMappings := ← value.boolean? "has_mappings"
    hasEvents := ← value.boolean? "has_events"
    complexity := ← value.member? Complexity.word Complexity.all "complexity"
    lineCount := ← value.integer? "line_count" }

end FileFacts

namespace Analysis

/-- The fields of an analysis. -/
def declared : FieldType :=
  .record ([⟨"contracts", .sequence Contract.declared, some (.sequence [])⟩,
    ⟨"pragma_version", .text, some (.text "unknown")⟩, ⟨"imports", .sequence .text, some (.sequence [])⟩] ++
    FileFacts.fields ++ [⟨"errors", .sequence .text, some (.sequence [])⟩])

/-- An analysis as a record. -/
def toValue (analysis : Analysis) : Value :=
  .record ([("contracts", .sequence (analysis.contracts.map Contract.toValue)),
    ("pragma_version", .text analysis.pragma), ("imports", .ofTexts analysis.imports)] ++
    analysis.toFileFacts.values ++ [("errors", .ofTexts analysis.errors)])

/-- The analysis that a record is. -/
def ofValue? (value : Value) : Option Analysis := do
  return {
    toFileFacts := ← FileFacts.ofValue? value
    contracts := ← value.items? Contract.ofValue? "contracts"
    pragma := ← value.text? "pragma_version"
    imports := ← value.items? Value.ofText? "imports"
    errors := ← value.items? Value.ofText? "errors" }

/-- The JSON form of an analysis. -/
def toJson (library : RecordLibrary) (analysis : Analysis) : Json :=
  library.write declared analysis.toValue

/-- Reads the JSON form of an analysis. -/
def check (library : RecordLibrary) (json : Json) : Checked Analysis :=
  library.readAs declared ofValue? json

end Analysis

end ContractMigration
