import ContractMigration.Proofs.Json.RoundTrip
import ContractMigration.Proofs.Validation.Accepted
import ContractMigration.Validation.Declared
import Mathlib.Data.List.Nodup

/-!
# Records that are written and read

All that is documented about a library is said of one kind of value at a time, and of a field only which member of an
object it reads. From that it follows by induction on the values of a type that whatever a library writes it reads back
(`Documented.read_write`). The step for a record is the one with content: a field finds its own member, because no two
fields have one name (`lookup_members`).

What is written for a value is also a JSON value that survives being written as a text, as long as its lists and objects
are not nested too deep and no integer in it is too long (`Documented.readable_write`). Both are questions about the
type alone when it has no integers (`FieldType.Readable`).
-/

namespace ContractMigration.Validation

open RecordLibrary

/-! ### Members of an object -/

theorem nodup_members {α : Type} {name : α → String} {write : α → Json} {entries : List α}
    (hnames : (entries.map name).Nodup) :
    ((entries.map fun entry => (CodeText.ofString (name entry), write entry)).map Prod.fst).Nodup := by
  have hkeys : ((entries.map name).map CodeText.ofString).Nodup :=
    List.Nodup.map (fun _ _ => CodeText.ofString_inj.1) hnames
  rw [List.map_map] at hkeys ⊢
  exact hkeys

theorem lookup_members {α : Type} {name : α → String} {write : α → Json} {entries : List α}
    (hnames : (entries.map name).Nodup) {entry : α} (h : entry ∈ entries) :
    (Json.obj (entries.map fun entry => (CodeText.ofString (name entry), write entry))).member? (name entry) =
      some (write entry) := by
  rw [Json.member?]
  induction entries with
  | nil => exact absurd h List.not_mem_nil
  | cons first rest ih =>
    obtain ⟨hfirst, hrest⟩ := List.nodup_cons.1 hnames
    rcases List.mem_cons.1 h with rfl | hmem
    · exact List.lookup_cons_self
    · have hother : (CodeText.ofString (name entry) == CodeText.ofString (name first)) = false := by
        rw [beq_eq_false_iff_ne, Ne, CodeText.ofString_inj]
        exact fun hsame => hfirst (hsame ▸ List.mem_map_of_mem hmem)
      rw [List.map_cons, List.lookup_cons, hother]
      exact ih hrest hmem

/-! ### Values of a type -/

section Record

variable {fields : List (RecordField FieldType)} {values : List (String × Value)}

theorem exists_entries (hnames : fields.map RecordField.name = values.map Prod.fst) :
    ∃ entries : Entries, entries.map Prod.fst = fields ∧
      entries.map (fun entry => (entry.1.name, entry.2)) = values := by
  induction fields generalizing values with
  | nil => exact ⟨[], rfl, (List.map_eq_nil_iff.1 hnames.symm).symm⟩
  | cons field fields ih =>
    obtain ⟨value, rest, rfl, hname, hrest⟩ := List.map_eq_cons_iff.1 hnames.symm
    obtain ⟨entries, rfl, rfl⟩ := ih hrest.symm
    exact ⟨(field, value.2) :: entries, rfl, by rw [List.map_cons, ← hname]⟩

/-- A record of a type, given field by field. -/
theorem Value.of_record (hnames : fields.map RecordField.name = values.map Prod.fst)
    (hnodup : (fields.map RecordField.name).Nodup)
    (h : ∀ pair ∈ fields.zip values, Value.Of pair.1.type pair.2.2) : Value.Of (.record fields) (.record values) := by
  obtain ⟨entries, rfl, rfl⟩ := exists_entries hnames
  rw [List.map_map] at hnodup
  rw [List.zip_map', List.forall_mem_map] at h
  exact .record hnodup h

theorem RecordLibrary.Documented.write_fields {library : RecordLibrary} (h : library.Documented)
    (hnames : fields.map RecordField.name = values.map Prod.fst) :
    library.write (.record fields) (.record values) = .obj ((fields.zip values).map fun pair =>
      (CodeText.ofString pair.1.name, library.write pair.1.type pair.2.2)) := by
  obtain ⟨entries, rfl, rfl⟩ := exists_entries hnames
  rw [List.zip_map', List.map_map]
  exact h.write_record entries

end Record

theorem Value.of_texts (texts : List String) : Value.Of (.sequence .text) (.ofTexts texts) :=
  .sequence (List.forall_mem_map.2 fun s _ => .text s)

theorem Value.of_sequence {α : Type} {item : FieldType} {toValue : α → Value} (h : ∀ a, Value.Of item (toValue a))
    (values : List α) : Value.Of (.sequence item) (.sequence (values.map toValue)) :=
  .sequence (List.forall_mem_map.2 fun a _ => h a)

theorem Value.ofText?_text (s : String) : ofText? (.text s) = some s :=
  CodeText.text?_ofString s

theorem Value.mapM_map {α : Type} {read : Value → Option α} {toValue : α → Value}
    (h : ∀ a, read (toValue a) = some a) (values : List α) : (values.map toValue).mapM read = some values := by
  induction values with
  | nil => rfl
  | cons a rest ih => simp [h, ih]

/-! ### Types whose values survive as texts -/

mutual

/-- All values of a type can be written and read back as a part of so many lists and objects. -/
def FieldType.Readable (limits : Json.Limits) : (depth : Nat) → FieldType → Prop
  | _, .text | _, .boolean | _, .oneOf _ => True
  | _, .integer => limits.integerDigits = none
  | depth, .sequence item => limits.allowsNesting depth = true ∧ item.Readable limits (depth + 1)
  | depth, .record fields => limits.allowsNesting depth = true ∧ ReadableFields limits (depth + 1) fields

/-- The types of all fields are of this kind. -/
def ReadableFields (limits : Json.Limits) : (depth : Nat) → List (RecordField FieldType) → Prop
  | _, [] => True
  | depth, field :: rest => field.type.Readable limits depth ∧ ReadableFields limits depth rest

end

theorem readable_of_mem {limits : Json.Limits} {depth : Nat} {fields : List (RecordField FieldType)}
    (h : ReadableFields limits depth fields) {field : RecordField FieldType} (hfield : field ∈ fields) :
    field.type.Readable limits depth := by
  induction fields with
  | nil => exact absurd hfield List.not_mem_nil
  | cons first rest ih =>
    rw [ReadableFields] at h
    rcases List.mem_cons.1 hfield with rfl | hmem
    · exact h.1
    · exact ih h.2 hmem

/-! ### What a library writes it reads -/

namespace RecordLibrary.Documented

variable {library : RecordLibrary} {type : FieldType} {value : Value}

theorem read_write (h : library.Documented) (hvalue : Value.Of type value) :
    library.read type (library.write type value) = .accepted value := by
  induction hvalue with
  | text s => rw [h.write_text, h.read_text]
  | boolean b => rw [h.write_boolean, h.read_boolean]
  | integer n => rw [h.write_integer, h.read_integer]
  | member hword => rw [h.write_member _ _ hword, h.read_member _ _ hword]
  | @sequence item values _ ih =>
    have hpairs := h.read_sequence item (values.map fun value => (library.write item value, value))
      (List.forall_mem_map.2 ih)
    rw [List.map_map, List.map_map] at hpairs
    rw [h.write_sequence]
    exact hpairs.trans (congrArg (Checked.accepted ∘ Value.sequence) (List.map_id values))
  | @record entries hnames _ ih =>
    rw [h.write_record]
    refine h.read_record entries _ (nodup_members hnames) fun entry hentry => .inl ⟨_, ?_, ih entry hentry⟩
    exact lookup_members hnames hentry

/-- What is written for a value of a type is read back from its text. -/
theorem readable_write (h : library.Documented) (hvalue : Value.Of type value) {limits : Json.Limits} {depth : Nat}
    (htype : type.Readable limits depth) : Json.Readable limits depth (library.write type value) := by
  induction hvalue generalizing depth with
  | text s => simp [h.write_text, Json.Readable]
  | boolean b => simp [h.write_boolean, Json.Readable]
  | integer n =>
    rw [FieldType.Readable] at htype
    simp [h.write_integer, Json.Readable, Json.Limits.integerExcess?, htype]
  | member hword => simp [h.write_member _ _ hword, Json.Readable]
  | @sequence item values _ ih =>
    rw [FieldType.Readable] at htype
    rw [h.write_sequence, Json.Readable]
    exact ⟨htype.1, Json.readableItems_map fun value hmem => ih value hmem htype.2⟩
  | @record entries hnames _ ih =>
    rw [Entries.declared, FieldType.Readable] at htype
    rw [h.write_record, Json.Readable]
    refine ⟨htype.1, nodup_members hnames, Json.readableMembers_map fun entry hmem => ih entry hmem ?_⟩
    exact readable_of_mem htype.2 (List.mem_map_of_mem hmem)

/-- No value holds a number of double precision, so nothing changes on the way through a text. -/
theorem reread_write (h : library.Documented) (hvalue : Value.Of type value) :
    (library.write type value).reread = library.write type value := by
  induction hvalue with
  | text s => simp [h.write_text, Json.reread]
  | boolean b => simp [h.write_boolean, Json.reread]
  | integer n => simp [h.write_integer, Json.reread]
  | member hword => simp [h.write_member _ _ hword, Json.reread]
  | @sequence item values _ ih => rw [h.write_sequence, Json.reread, Json.rereadItems_map ih]
  | @record entries _ _ ih => rw [h.write_record, Json.reread, Json.rereadMembers_map ih]

end RecordLibrary.Documented

/-! ### The library that runs -/

namespace RecordLibrary

theorem writeFields_entries (entries : Entries) :
    writeFields (entries.map Prod.fst) (entries.map fun entry => (entry.1.name, entry.2)) =
      entries.map fun entry => (CodeText.ofString entry.1.name, writeValue entry.1.type entry.2) := by
  induction entries with
  | nil => simp [writeFields]
  | cons entry rest ih => simp [writeFields, ih]

theorem readField_of_reads {members : List (CodeText × Json)} {entry : RecordField FieldType × Value}
    (h : standard.Reads members entry) :
    readField entry.1.name entry.1.default? (readValue entry.1.type) (.obj members) =
      .accepted (entry.1.name, entry.2) := by
  unfold readField
  rcases h with ⟨json, hmember, hread⟩ | ⟨hmember, hdefault⟩
  · have hvalue : readValue entry.1.type json = .accepted entry.2 := hread
    cases entry.1.default? with
    | none => simp only [required_eq_accepted.2 ⟨json, hmember, hvalue⟩, Checked.map_accepted]
    | some default => simp only [optional_eq_accepted.2 (.inl ⟨json, hmember, hvalue⟩), Checked.map_accepted]
  · rw [hdefault]
    simp only [optional_eq_accepted.2 (.inr ⟨hmember, rfl⟩), Checked.map_accepted]

theorem readFields_of_reads {members : List (CodeText × Json)} {entries : Entries}
    (h : ∀ entry ∈ entries, standard.Reads members entry) :
    readFields (entries.map Prod.fst) (.obj members) =
      .accepted (entries.map fun entry => (entry.1.name, entry.2)) := by
  induction entries with
  | nil => simp [readFields]
  | cons entry rest ih =>
    obtain ⟨hentry, hrest⟩ := List.forall_mem_cons.1 h
    rw [List.map_cons, readFields, readField_of_reads hentry, ih hrest]
    rfl

/-- The library that runs is as documented. -/
theorem standard_documented : standard.Documented where
  write_text s := by simp [standard, writeValue]
  write_boolean b := by simp [standard, writeValue]
  write_integer n := by simp [standard, writeValue]
  write_member words word _ := by simp [standard, writeValue]
  write_sequence item values := by simp [standard, writeValue]
  write_record entries := by simp only [standard, Entries.declared, Entries.value, writeValue, writeFields_entries]
  read_text s := by simp [standard, readValue, codeText]
  read_boolean b := by simp [standard, readValue, Validation.boolean]
  read_integer n := by simp [standard, readValue, Validation.integer]
  read_member words word hword := by simp only [standard, readValue, oneOf_word hword, Checked.map_accepted]
  read_sequence item pairs hpairs := by
    have hitems := sequenceOf_pairs hpairs
    simp only [standard, readValue] at hitems ⊢
    rw [hitems, Checked.map_accepted]
  read_record entries members _ hentries := by
    simp only [standard, Entries.declared, readValue, Validation.record, readFields_of_reads hentries,
      Checked.map_accepted, Entries.value]

end RecordLibrary

end ContractMigration.Validation
