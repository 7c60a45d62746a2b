import ContractMigration.Skeleton.Basic
import ContractMigration.Validation.Basic

/-!
# Skeletons as JSON

A skeleton is written as its files, each with its path and its content, and is read back with the same fields.
-/

namespace ContractMigration

open Validation

namespace WorkspaceFile

/-- Writes a file. -/
def toJson (file : WorkspaceFile) : Json :=
  .obj [("filename", .str file.filename), ("language", .str file.language.word), ("content", .str file.content)]

/-- Reads a file. -/
def check : Json → Checked WorkspaceFile :=
  record fun json =>
    WorkspaceFile.mk <$> required "filename" text json <*>
      required "language" (oneOf .notALiteral FileLanguage.word FileLanguage.all) json <*>
      required "content" text json

end WorkspaceFile

namespace Skeleton

/-- Writes a skeleton. -/
def toJson (skeleton : Skeleton) : Json :=
  .obj [("program_name", .str skeleton.programName), ("files", .arr (skeleton.files.map WorkspaceFile.toJson)),
    ("instructions", .ofTexts skeleton.instructions), ("account_structs", .ofTexts skeleton.accountStructs),
    ("warnings", .ofTexts skeleton.warnings)]

/-- Reads a skeleton. -/
def check : Json → Checked Skeleton :=
  record fun json =>
    Skeleton.mk <$> required "program_name" text json <*> optional "files" [] (listOf WorkspaceFile.check) json <*>
      optional "instructions" [] (listOf text) json <*> optional "account_structs" [] (listOf text) json <*>
      optional "warnings" [] (listOf text) json

end Skeleton

end ContractMigration
