import ContractMigration.Json.Basic

/-!
# Checking values from outside

A record that comes from outside is checked field by field. Every problem is reported with the path to it, in the
order of the fields and depth first, so two faulty fields give two problems: a check is an applicative and not a
monad. A record that passes is the value it describes, with the defaults of the fields that are not there.

The checks are those of the library and of the frontend that run. What is said of records and requests in general goes
by what is documented of any library (`RecordLibrary.Documented`) and of any frontend (`Frontend.Documented`).
-/

namespace ContractMigration.Validation

/-- One step of a path into a value. -/
inductive Step where
  | field (name : String)
  | index (n : Nat)
deriving DecidableEq, Repr

/-- What can be wrong with a value. -/
inductive ProblemKind where
  | missing
  | notText
  | notUnicode
  | notBool
  | unreadableBool
  | notInt
  | unreadableInt
  | intTooLong
  | fractionalInt
  | notFinite
  | notFloat
  | unreadableFloat
  | notAnEnumWord (words : List String)
  | notALiteral (words : List String)
  | notASequence
  | notAList
  | notARecord
  | notAnObject
  | notJson
  | tooSmall (bound : Int)
  | tooLarge (bound : Int)
deriving DecidableEq, Repr

namespace ProblemKind

/-- The word for a kind of problem. -/
def word : ProblemKind → String
  | missing => "missing"
  | notText => "string_type"
  | notUnicode => "string_unicode"
  | notBool => "bool_type"
  | unreadableBool => "bool_parsing"
  | notInt => "int_type"
  | unreadableInt => "int_parsing"
  | intTooLong => "int_parsing_size"
  | fractionalInt => "int_from_float"
  | notFinite => "finite_number"
  | notFloat => "float_type"
  | unreadableFloat => "float_parsing"
  | notAnEnumWord _ => "enum"
  | notALiteral _ => "literal_error"
  | notASequence => "tuple_type"
  | notAList => "list_type"
  | notARecord => "model_type"
  | notAnObject => "model_attributes_type"
  | notJson => "json_invalid"
  | tooSmall _ => "greater_than_equal"
  | tooLarge _ => "less_than_equal"

/-- Words in quotes, with `or` in front of the last one. -/
def alternatives : List String → String
  | [] => ""
  | [word] => "'" ++ word ++ "'"
  | [word, last] => "'" ++ word ++ "' or '" ++ last ++ "'"
  | word :: rest => "'" ++ word ++ "', " ++ alternatives rest

/-- The wording of a problem. -/
def message : ProblemKind → String
  | missing => "Field required"
  | notText => "Input should be a valid string"
  | notUnicode => "Input should be a valid string, unable to parse raw data as a unicode string"
  | notBool => "Input should be a valid boolean"
  | unreadableBool => "Input should be a valid boolean, unable to interpret input"
  | notInt => "Input should be a valid integer"
  | unreadableInt => "Input should be a valid integer, unable to parse string as an integer"
  | intTooLong => "Unable to parse input string as an integer, exceeded maximum size"
  | fractionalInt => "Input should be a valid integer, got a number with a fractional part"
  | notFinite => "Input should be a finite number"
  | notFloat => "Input should be a valid number"
  | unreadableFloat => "Input should be a valid number, unable to parse string as a number"
  | notAnEnumWord words => "Input should be " ++ alternatives words
  | notALiteral words => "Input should be " ++ alternatives words
  | notASequence => "Input should be a valid tuple"
  | notAList => "Input should be a valid list"
  | notARecord => "Input should be a valid dictionary"
  | notAnObject => "Input should be a valid dictionary or object to extract fields from"
  | notJson => "JSON decode error"
  | tooSmall bound => "Input should be greater than or equal to " ++ toString bound
  | tooLarge bound => "Input should be less than or equal to " ++ toString bound

end ProblemKind

/-- A problem and the path to it. -/
structure Problem where
  path : List Step
  kind : ProblemKind
deriving DecidableEq, Repr

/-- The outcome of a check. -/
inductive Checked (α : Type) where
  | accepted (value : α)
  | rejected (problems : List Problem)
deriving Repr

namespace Checked

/-- The problems, or none. -/
def problems {α : Type} : Checked α → List Problem
  | accepted _ => []
  | rejected problems => problems

/-- Applies a checked function to a checked argument; the problems of both are kept, in order. -/
def apply {α β : Type} (f : Checked (α → β)) (x : Checked α) : Checked β :=
  match f, x with
  | accepted f, accepted a => accepted (f a)
  | f, x => rejected (f.problems ++ x.problems)

instance : Applicative Checked where
  pure := accepted
  seq f x := f.apply (x ())

/-- The outcome seen from one step further out. -/
def under {α : Type} (step : Step) : Checked α → Checked α
  | accepted a => accepted a
  | rejected problems => rejected (problems.map fun problem => { problem with path := step :: problem.path })

/-- A further check of a value that was accepted. -/
def andThen {α β : Type} (outcome : Checked α) (check : α → Checked β) : Checked β :=
  match outcome with
  | accepted a => check a
  | rejected problems => rejected problems

/-- A single problem at the value itself. -/
def problem {α : Type} (kind : ProblemKind) : Checked α :=
  rejected [⟨[], kind⟩]

end Checked

/-! ### Fields -/

/-- A field that has to be there. -/
def required {α : Type} (name : String) (check : Json → Checked α) (record : Json) : Checked α :=
  (match record.member? name with
    | some value => check value
    | none => .problem .missing).under (.field name)

/-- A field with a default. -/
def optional {α : Type} (name : String) (default : α) (check : Json → Checked α) (record : Json) : Checked α :=
  match record.member? name with
  | some value => (check value).under (.field name)
  | none => .accepted default

/-- A record: only an object has fields at all. -/
def record {α : Type} (check : Json → Checked α) : Json → Checked α
  | .obj members => check (.obj members)
  | _ => .problem .notARecord

/-- Checks the items of a list, the first of which has the given index. -/
def items {α : Type} (check : Json → Checked α) : (index : Nat) → List Json → Checked (List α)
  | _, [] => .accepted []
  | index, item :: rest => List.cons <$> (check item).under (.index index) <*> items check (index + 1) rest

/-- A list, in a field that holds a fixed sequence. -/
def sequenceOf {α : Type} (check : Json → Checked α) : Json → Checked (List α)
  | .arr values => items check 0 values
  | _ => .problem .notASequence

/-- A list. -/
def listOf {α : Type} (check : Json → Checked α) : Json → Checked (List α)
  | .arr values => items check 0 values
  | _ => .problem .notAList

/-- A text, which may hold halves of surrogate pairs. -/
def codeText : Json → Checked CodeText
  | .str s => .accepted s
  | _ => .problem .notText

/-- A text in a field for Unicode text. -/
def text (json : Json) : Checked String :=
  (codeText json).andThen fun s =>
    match s.text? with
    | some characters => .accepted characters
    | none => .problem .notUnicode

/-- A number within limits, the least and the greatest that may be. -/
def within (limits : Int × Int) (n : Int) : Checked Int :=
  if n < limits.1 then .problem (.tooSmall limits.1)
  else if limits.2 < n then .problem (.tooLarge limits.2)
  else .accepted n

/-- One of some values, each given by its word; `kind` says what is wrong with any other value. -/
def oneOf {α : Type} (kind : List String → ProblemKind) (word : α → String) (values : List α) : Json → Checked α
  | .str s =>
    match values.find? fun value => CodeText.ofString (word value) == s with
    | some value => .accepted value
    | none => .problem (kind (values.map word))
  | _ => .problem (kind (values.map word))

end ContractMigration.Validation
