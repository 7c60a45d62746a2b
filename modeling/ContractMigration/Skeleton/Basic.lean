/-!
# Skeletons

A skeleton is the beginning of the program that replaces a contract: the files of a workspace, the names of its
instructions and account structures, and warnings for the one who fills it in.
-/

namespace ContractMigration

/-- The languages of the files. -/
inductive FileLanguage where
  | rust
  | toml
  | typescript
deriving DecidableEq, Repr

namespace FileLanguage

/-- The word for a language. -/
def word : FileLanguage → String
  | rust => "rust"
  | toml => "toml"
  | typescript => "typescript"

/-- All languages. -/
def all : List FileLanguage :=
  [rust, toml, typescript]

end FileLanguage

/-- A file of a workspace; its name is a path from the root of the workspace. -/
structure WorkspaceFile where
  filename : String
  language : FileLanguage
  content : String
deriving DecidableEq, Repr

/-- A workspace with what there is to know about it. -/
structure Skeleton where
  programName : String
  files : List WorkspaceFile := []
  instructions : List String := []
  accountStructs : List String := []
  warnings : List String := []
deriving DecidableEq, Repr

/-- The first file with a name. -/
def Skeleton.file? (skeleton : Skeleton) (filename : String) : Option WorkspaceFile :=
  skeleton.files.find? fun file => file.filename == filename

end ContractMigration
