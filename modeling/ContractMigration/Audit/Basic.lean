import ContractMigration.Json.Printer
import ContractMigration.Json.Reader
import ContractMigration.Text.Blank
import ContractMigration.Time.Timestamp
import ContractMigration.Validation.Scalar

/-!
# The audit log

One line of JSON for each analysis, at the end of a file. The log does not get in the way: where there can be no file
nothing happens, and what cannot be read is passed over. Reading goes by lines with any of the three line ends, takes
the last lines that are not blank, and of these keeps the ones that are JSON. A line that is written ends with a line
end and has none inside, since every character beyond printable ASCII is escaped.

The limits of the runtime hold for both directions. A record with an integer beyond them is not written, and a line
beyond them stops the reading; there is also a greatest number of lines to ask for.
-/

namespace ContractMigration

/-- What is noted about one analysis. -/
structure AuditRecord where
  analysisId : CodeText
  filename : CodeText := ""
  contractsFound : Int
  complexity : CodeText
  tokenStandard : CodeText
  errorsFound : Int := 0
  cacheHit : Bool := false
  durationMs : Numeric.Double := .finite false 0
deriving DecidableEq, Repr

namespace AuditRecord

open Validation

/-- The fields of a record. -/
def members (entry : AuditRecord) : List (CodeText × Json) :=
  [("analysis_id", .str entry.analysisId), ("filename", .str entry.filename),
    ("contracts_found", .int entry.contractsFound), ("complexity", .str entry.complexity),
    ("token_standard", .str entry.tokenStandard), ("errors_found", .int entry.errorsFound),
    ("cache_hit", .bool entry.cacheHit), ("duration_ms", .real entry.durationMs)]

/-- Writes a record. -/
def toJson (entry : AuditRecord) : Json :=
  .obj entry.members

/-- Reads a record. -/
def check : Json → Checked AuditRecord :=
  record fun json =>
    AuditRecord.mk <$> required "analysis_id" codeText json <*> optional "filename" "" codeText json <*>
      required "contracts_found" integer json <*> required "complexity" codeText json <*>
      required "token_standard" codeText json <*> optional "errors_found" 0 integer json <*>
      optional "cache_hit" false boolean json <*> optional "duration_ms" (.finite false 0) double json

/-- A record as it is logged at some time. -/
def logged (entry : AuditRecord) (now : Int) : Json :=
  .obj (("timestamp", .str (timestamp now)) :: entry.members)

/-- The line for a record that is logged at some time. -/
def line (entry : AuditRecord) (now : Int) : List Char :=
  (entry.logged now).text .line ++ ['\n']

end AuditRecord

/-- What stands at the place of the log file. -/
inductive LogFile where
  | absent
  | text (content : List Char)
  | directory
  | unreachable
deriving DecidableEq, Repr

namespace LogFile

/-- The text of the file, if there is one. -/
def content? : LogFile → Option (List Char)
  | text content => some content
  | _ => none

/-- Whether the file can be opened to write at its end; if there is none, it is made. -/
def isWritable : LogFile → Bool
  | absent | text _ => true
  | directory | unreachable => false

/-- The file with a text at its end; where no file can be, nothing changes. -/
def append (file : LogFile) (more : List Char) : LogFile :=
  match file with
  | absent => text more
  | text content => text (content ++ more)
  | directory => directory
  | unreachable => unreachable

end LogFile

/-- The lines of a text without their line ends, onto the reversed ones; `current` is the line being read, reversed. -/
def textLinesOnto (done : List (List Char)) (current : List Char) : List Char → List (List Char)
  | [] => (if current.isEmpty then done else current.reverse :: done).reverse
  | '\r' :: '\n' :: rest => textLinesOnto (current.reverse :: done) [] rest
  | c :: rest =>
    if c == '\n' || c == '\r' then textLinesOnto (current.reverse :: done) [] rest
    else textLinesOnto done (c :: current) rest

/-- The lines of a text: a line feed, a carriage return, or the one after the other ends a line. -/
def textLines (content : List Char) : List (List Char) :=
  textLinesOnto [] [] content

/-- The last `count` items of a list. -/
def lastItems {α : Type} (count : Nat) (items : List α) : List α :=
  items.drop (items.length - count)

/-- The audit log, and the limits of the runtime that writes and reads it. -/
structure AuditLog where
  enabled : Bool := true
  file : LogFile := .absent
  limits : Json.Limits := .guarded
deriving DecidableEq, Repr

namespace AuditLog

/-- Why a log is not read. -/
inductive Refusal where
  | countTooLarge
  | lineBeyondLimits (excess : Json.Excess)
deriving DecidableEq, Repr

/-- Why a record cannot be logged, if it cannot. Where there is nothing to write to, nobody asks for its line. -/
def noteExcess? (audit : AuditLog) (now : Int) (entry : AuditRecord) : Option Json.Excess :=
  if audit.enabled && audit.file.isWritable then Json.excess? audit.limits (entry.logged now) else none

/-- The log after a record is to be logged at the end of its file. The file is opened first, so there is one also when
the line then cannot be written. -/
def note (audit : AuditLog) (now : Int) (entry : AuditRecord) : AuditLog :=
  if audit.enabled then
    { audit with file := audit.file.append (if (audit.noteExcess? now entry).isNone then entry.line now else []) }
  else audit

/-- The lines that are not blank. -/
def filledLines (content : List Char) : List (List Char) :=
  (textLines content).filter fun line => !(Text.trim line).isEmpty

/-- The most lines that can be asked for. -/
def mostLines : Int :=
  9223372036854775807

/-- What lines say that are read within limits; the first line beyond them stops the reading. -/
def readLines (limits : Json.Limits) : List (List Char) → Except Refusal (List Json)
  | [] => .ok []
  | line :: rest =>
    match Json.parseWithin limits line with
    | .ok entry => (readLines limits rest).map (entry :: ·)
    | .error (.stuck _) => readLines limits rest
    | .error (.beyond excess) => .error (.lineBeyondLimits excess)

/-- What the last `count` lines say, oldest first. -/
def read (audit : AuditLog) (count : Int) : Except Refusal (List Json) :=
  match audit.file.content? with
  | none => .ok []
  | some content =>
    if mostLines < count then .error .countTooLarge
    else readLines audit.limits (lastItems count.toNat (filledLines content))

end AuditLog

end ContractMigration
