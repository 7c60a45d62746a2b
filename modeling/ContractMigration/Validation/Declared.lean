import ContractMigration.Validation.Scalar

/-!
# Declared records

A record is declared once, by the names, types and defaults of its fields. Whoever writes records as JSON and reads them
goes by that declaration alone. What does so is a parameter here (`RecordLibrary`), with what is documented about it as
named laws: each says what becomes of one kind of value, and only the laws about sequences and records speak of parts.
The library that runs is one instance (`RecordLibrary.standard`).
-/

namespace ContractMigration.Validation

/-- A value as a field of a record holds it. -/
inductive Value where
  | text (s : CodeText)
  | boolean (b : Bool)
  | integer (n : Int)
  /-- A member of an enumeration, by its word. -/
  | member (word : String)
  | sequence (items : List Value)
  /-- A record, by the names and values of its fields. -/
  | record (fields : List (String × Value))

/-- A field of a record: its name, its type, and what it holds when it is not given. -/
structure RecordField (τ : Type) where
  name : String
  type : τ
  default? : Option Value := none

/-- The declared type of a field. -/
inductive FieldType where
  | text
  | boolean
  | integer
  | oneOf (words : List String)
  | sequence (item : FieldType)
  | record (fields : List (RecordField FieldType))

/-- The fields of a record with the value of each. -/
abbrev Entries :=
  List (RecordField FieldType × Value)

namespace Entries

/-- The declaration alone. -/
def declared (entries : Entries) : FieldType :=
  .record (entries.map Prod.fst)

/-- The record alone. -/
def value (entries : Entries) : Value :=
  .record (entries.map fun entry => (entry.1.name, entry.2))

end Entries

/-- The values of a type, with Unicode texts alone. In a record no two fields have one name. -/
inductive Value.Of : FieldType → Value → Prop
  | text (s : String) : Of .text (.text s)
  | boolean (b : Bool) : Of .boolean (.boolean b)
  | integer (n : Int) : Of .integer (.integer n)
  | member {words : List String} {word : String} (h : word ∈ words) : Of (.oneOf words) (.member word)
  | sequence {item : FieldType} {values : List Value} (h : ∀ value ∈ values, Of item value) :
    Of (.sequence item) (.sequence values)
  | record {entries : Entries} (hnames : (entries.map fun entry => entry.1.name).Nodup)
    (h : ∀ entry ∈ entries, Of entry.1.type entry.2) : Of entries.declared entries.value

/-! ### Libraries -/

/-- What writes records as JSON and reads them, by their declared types. -/
structure RecordLibrary where
  write : FieldType → Value → Json
  read : FieldType → Json → Checked Value

namespace RecordLibrary

/-- A field reads as a value among the members of an object: from the member with its name, or from its default if there
is none. -/
def Reads (library : RecordLibrary) (members : List (CodeText × Json)) (entry : RecordField FieldType × Value) : Prop :=
  (∃ json, (Json.obj members).member? entry.1.name = some json ∧
      library.read entry.1.type json = .accepted entry.2) ∨
    (Json.obj members).member? entry.1.name = none ∧ entry.1.default? = some entry.2

/-- What is documented about a library: a value of a basic type has the JSON value of its kind, a member of an
enumeration its word, a sequence a list and a record an object, part by part; and each is read from just that. Of texts
only those are meant that are Unicode text: what becomes of halves of surrogate pairs is left open. -/
structure Documented (library : RecordLibrary) : Prop where
  write_text : ∀ s : String, library.write .text (.text s) = .str s
  write_boolean : ∀ b, library.write .boolean (.boolean b) = .bool b
  write_integer : ∀ n, library.write .integer (.integer n) = .int n
  write_member : ∀ words, ∀ word ∈ words, library.write (.oneOf words) (.member word) = .str word
  write_sequence : ∀ item values,
    library.write (.sequence item) (.sequence values) = .arr (values.map (library.write item))
  write_record : ∀ entries : Entries, library.write entries.declared entries.value =
    .obj (entries.map fun entry => (CodeText.ofString entry.1.name, library.write entry.1.type entry.2))
  read_text : ∀ s : String, library.read .text (.str s) = .accepted (.text s)
  read_boolean : ∀ b, library.read .boolean (.bool b) = .accepted (.boolean b)
  read_integer : ∀ n, library.read .integer (.int n) = .accepted (.integer n)
  read_member : ∀ words, ∀ word ∈ words,
    library.read (.oneOf words) (.str (CodeText.ofString word)) = .accepted (.member word)
  read_sequence : ∀ item (pairs : List (Json × Value)),
    (∀ pair ∈ pairs, library.read item pair.1 = .accepted pair.2) →
    library.read (.sequence item) (.arr (pairs.map Prod.fst)) = .accepted (.sequence (pairs.map Prod.snd))
  read_record : ∀ (entries : Entries) (members : List (CodeText × Json)), (members.map Prod.fst).Nodup →
    (∀ entry ∈ entries, library.Reads members entry) →
    library.read entries.declared (.obj members) = .accepted entries.value

mutual

/-- Writes a value of a type. -/
def writeValue : FieldType → Value → Json
  | .text, .text s => .str s
  | .boolean, .boolean b => .bool b
  | .integer, .integer n => .int n
  | .oneOf _, .member word => .str word
  | .sequence item, .sequence values => .arr (values.map (writeValue item))
  | .record fields, .record values => .obj (writeFields fields values)
  | _, _ => .null

/-- Writes the values of fields. -/
def writeFields : List (RecordField FieldType) → List (String × Value) → List (CodeText × Json)
  | field :: fields, (_, value) :: values =>
    (CodeText.ofString field.name, writeValue field.type value) :: writeFields fields values
  | _, _ => []

end

/-- A field among the members of an object, by the check of its type. -/
def readField (name : String) (default? : Option Value) (check : Json → Checked Value) (json : Json) :
    Checked (String × Value) :=
  Prod.mk name <$> match default? with
    | some default => Validation.optional name default check json
    | none => required name check json

mutual

/-- Reads a value of a type. -/
def readValue : FieldType → Json → Checked Value
  | .text, json => .text <$> codeText json
  | .boolean, json => .boolean <$> Validation.boolean json
  | .integer, json => .integer <$> Validation.integer json
  | .oneOf words, json => .member <$> oneOf .notAnEnumWord id words json
  | .sequence item, json => .sequence <$> sequenceOf (readValue item) json
  | .record fields, json => .record <$> Validation.record (readFields fields) json

/-- Reads the values of fields among the members of an object. -/
def readFields : List (RecordField FieldType) → Json → Checked (List (String × Value))
  | [], _ => .accepted []
  | field :: fields, json =>
    List.cons <$> readField field.name field.default? (readValue field.type) json <*> readFields fields json

end

/-- The library that runs. -/
def standard : RecordLibrary where
  write := writeValue
  read := readValue

end RecordLibrary

/-! ### What a record holds -/

namespace Value

/-- The value of a field. -/
def field? (value : Value) (name : String) : Option Value :=
  match value with
  | record fields => fields.lookup name
  | _ => none

/-- The Unicode text in a field. -/
def text? (value : Value) (name : String) : Option String :=
  match value.field? name with
  | some (text s) => s.text?
  | _ => none

/-- The truth value in a field. -/
def boolean? (value : Value) (name : String) : Option Bool :=
  match value.field? name with
  | some (boolean b) => some b
  | _ => none

/-- The integer in a field. -/
def integer? (value : Value) (name : String) : Option Int :=
  match value.field? name with
  | some (integer n) => some n
  | _ => none

/-- The member of an enumeration in a field, among its members. -/
def member? {α : Type} (word : α → String) (all : List α) (value : Value) (name : String) : Option α :=
  match value.field? name with
  | some (member found) => all.find? fun a => word a == found
  | _ => none

/-- The items of the sequence in a field, each as what it stands for. -/
def items? {α : Type} (read : Value → Option α) (value : Value) (name : String) : Option (List α) :=
  match value.field? name with
  | some (sequence items) => items.mapM read
  | _ => none

/-- The Unicode text that a value is. -/
def ofText? : Value → Option String
  | text s => s.text?
  | _ => none

/-- A sequence of texts. -/
def ofTexts (texts : List String) : Value :=
  sequence (texts.map fun s : String => text s)

end Value

/-- Reads a record as what it stands for. Only a text with halves of surrogate pairs stands for nothing. -/
def RecordLibrary.readAs {α : Type} (library : RecordLibrary) (type : FieldType) (ofValue? : Value → Option α)
    (json : Json) : Checked α :=
  (library.read type json).andThen fun value =>
    match ofValue? value with
    | some a => .accepted a
    | none => .problem .notUnicode

end ContractMigration.Validation
