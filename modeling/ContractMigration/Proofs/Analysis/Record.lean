import ContractMigration.Analysis.Json
import ContractMigration.Checklist.Tasks
import ContractMigration.Cost.Estimate
import ContractMigration.Proofs.Validation.RoundTrip
import ContractMigration.Rule.Registry
import ContractMigration.Skeleton.Workspace

/-!
# The record of an analysis

What is written of an analysis is accepted and is the analysis again, whatever its contracts, texts and numbers are, and
so is what is read of the text of it (`record_read_back`). That holds of every library that does what is documented.
Everything that follows from an analysis therefore follows from its record.

There are two facts about each kind of record, from the parts to the whole: the record of a value is one of the declared
type (`of_toValue`), and what it stands for is that value (`ofValue?_toValue`). The first lets the laws of a library
apply, the second says that no field is dropped, swapped with another or replaced by its default. Only the number of
lines can be an integer of any size.
-/

namespace ContractMigration

open Validation

/-! ### Parts of a contract -/

theorem Parameter.of_toValue (parameter : Parameter) : Value.Of declared parameter.toValue :=
  Value.of_record rfl (by decide) (by simp [Value.Of.text])

theorem Parameter.ofValue?_toValue (parameter : Parameter) : ofValue? parameter.toValue = some parameter := by
  simp [ofValue?, toValue, Value.text?, Value.field?, List.lookup_cons, CodeText.text?_ofString]

theorem EventParameter.of_toValue (parameter : EventParameter) : Value.Of declared parameter.toValue :=
  Value.of_record rfl (by decide) (by simp [Value.Of.text, Value.Of.boolean])

theorem EventParameter.ofValue?_toValue (parameter : EventParameter) : ofValue? parameter.toValue = some parameter := by
  simp [ofValue?, toValue, Value.text?, Value.boolean?, Value.field?, List.lookup_cons, CodeText.text?_ofString]

theorem StateVariable.of_toValue (declaration : StateVariable) : Value.Of declared declaration.toValue :=
  Value.of_record rfl (by decide) (by simp [Value.Of.text, Value.Of.boolean])

theorem StateVariable.ofValue?_toValue (declaration : StateVariable) :
    ofValue? declaration.toValue = some declaration := by
  simp [ofValue?, toValue, Value.text?, Value.boolean?, Value.field?, List.lookup_cons, CodeText.text?_ofString]

theorem Signature.of_toValue (signature : Signature) : Value.Of declared signature.toValue :=
  Value.of_record rfl (by decide)
    (by simp [Value.Of.text, Value.Of.boolean, Value.of_sequence Parameter.of_toValue])

theorem Signature.ofValue?_toValue (signature : Signature) : ofValue? signature.toValue = some signature := by
  simp [ofValue?, toValue, Value.text?, Value.boolean?, Value.items?, Value.field?, List.lookup_cons,
    CodeText.text?_ofString, Value.mapM_map Parameter.ofValue?_toValue]

theorem Event.of_toValue (event : Event) : Value.Of declared event.toValue :=
  Value.of_record rfl (by decide) (by simp [Value.Of.text, Value.of_sequence EventParameter.of_toValue])

theorem Event.ofValue?_toValue (event : Event) : ofValue? event.toValue = some event := by
  simp [ofValue?, toValue, Value.text?, Value.items?, Value.field?, List.lookup_cons, CodeText.text?_ofString,
    Value.mapM_map EventParameter.ofValue?_toValue]

/-! ### Contracts -/

theorem DeclarationKind.mem_words (kind : DeclarationKind) : kind.word ∈ all.map word :=
  List.mem_map_of_mem (by cases kind <;> decide)

theorem DeclarationKind.find?_word (kind : DeclarationKind) :
    (all.find? fun other => word other == kind.word) = some kind := by
  cases kind <;> rfl

theorem Contract.of_toValue (contract : Contract) : Value.Of declared contract.toValue :=
  Value.of_record rfl (by decide)
    (by simp [Value.Of.text, Value.Of.boolean, Value.Of.member contract.kind.mem_words, Value.of_texts,
      Value.of_sequence StateVariable.of_toValue, Value.of_sequence Signature.of_toValue,
      Value.of_sequence Event.of_toValue])

theorem Contract.ofValue?_toValue (contract : Contract) : ofValue? contract.toValue = some contract := by
  simp [ofValue?, toValue, Value.text?, Value.boolean?, Value.member?, Value.items?, Value.ofTexts, Value.field?,
    List.lookup_cons, CodeText.text?_ofString, DeclarationKind.find?_word, Value.mapM_map Value.ofText?_text,
    Value.mapM_map StateVariable.ofValue?_toValue, Value.mapM_map Signature.ofValue?_toValue,
    Value.mapM_map Event.ofValue?_toValue]

/-! ### Analyses -/

theorem Complexity.mem_words (complexity : Complexity) : complexity.word ∈ all.map word :=
  List.mem_map_of_mem (by cases complexity <;> decide)

theorem Complexity.find?_word (complexity : Complexity) :
    (all.find? fun other => word other == complexity.word) = some complexity := by
  cases complexity <;> rfl

theorem Analysis.of_toValue (analysis : Analysis) : Value.Of declared analysis.toValue :=
  Value.of_record rfl (by decide)
    (by simp [FileFacts.fields, FileFacts.values, Value.Of.text, Value.Of.boolean, Value.Of.integer,
      Value.Of.member analysis.complexity.mem_words, Value.of_texts, Value.of_sequence Contract.of_toValue])

theorem Analysis.ofValue?_toValue (analysis : Analysis) : ofValue? analysis.toValue = some analysis := by
  simp [ofValue?, toValue, FileFacts.ofValue?, FileFacts.values, Value.text?, Value.boolean?, Value.integer?,
    Value.member?, Value.items?, Value.ofTexts, Value.field?, List.lookup_cons, CodeText.text?_ofString,
    Complexity.find?_word, Value.mapM_map Value.ofText?_text, Value.mapM_map Contract.ofValue?_toValue]

/-- What a library writes of an analysis it accepts as that analysis. -/
theorem Analysis.check_toJson {library : RecordLibrary} (hlibrary : library.Documented) (analysis : Analysis) :
    check library (analysis.toJson library) = .accepted analysis := by
  rw [check, RecordLibrary.readAs, toJson, hlibrary.read_write analysis.of_toValue]
  simp only [Checked.andThen, ofValue?_toValue]

/-! ### The text of a record -/

section

variable {library : RecordLibrary} {limits : Json.Limits}

theorem Contract.readable_declared (hnesting : limits.allowsNesting 6 = true) : declared.Readable limits 2 := by
  have hless : ∀ less ≤ 6, limits.allowsNesting less = true := fun _ => Json.Limits.allowsNesting_of_le hnesting
  simp [declared, StateVariable.declared, Signature.declared, Parameter.declared, Event.declared,
    EventParameter.declared, FieldType.Readable, ReadableFields, hless]

theorem Analysis.readable_toJson (hlibrary : library.Documented) (hnesting : limits.allowsNesting 6 = true)
    {analysis : Analysis}
    (hlines : limits.integerExcess? (Nat.toDigits 10 analysis.lineCount.natAbs).length = none) :
    Json.Readable limits 0 (analysis.toJson library) := by
  have hless : ∀ less ≤ 6, limits.allowsNesting less = true := fun _ => Json.Limits.allowsNesting_of_le hnesting
  have hsequence {item : FieldType} {value : Value} (hvalue : Value.Of (.sequence item) value)
      (hitem : item.Readable limits 2) : Json.Readable limits 1 (library.write (.sequence item) value) := by
    refine hlibrary.readable_write hvalue ?_
    rw [FieldType.Readable]
    exact ⟨hless 1 (by decide), hitem⟩
  have htext : FieldType.text.Readable limits 2 := by simp [FieldType.Readable]
  have hcontracts := hsequence (Value.of_sequence Contract.of_toValue analysis.contracts)
    (Contract.readable_declared hnesting)
  have himports := hsequence (Value.of_texts analysis.imports) htext
  have herrors := hsequence (Value.of_texts analysis.errors) htext
  have hcomplexity := hlibrary.write_member _ _ analysis.complexity.mem_words
  rw [toJson, declared, toValue, hlibrary.write_fields rfl]
  simp [FileFacts.fields, FileFacts.values, Json.Readable, Json.ReadableMembers, hlibrary.write_text,
    hlibrary.write_boolean, hlibrary.write_integer, hless, hlines, hcontracts, himports, herrors, hcomplexity]

/-- Reads an analysis from the text of its record, within limits. -/
def Analysis.readWithin (library : RecordLibrary) (limits : Json.Limits) (text : List Char) :
    Except Json.Fault (Checked Analysis) :=
  (Json.parseWithin limits text).map (check library)

theorem Analysis.readWithin_text (hlibrary : library.Documented) (hnesting : limits.allowsNesting 6 = true)
    {analysis : Analysis} (hlines : limits.integerExcess? (Nat.toDigits 10 analysis.lineCount.natAbs).length = none)
    {style : Json.Style} (hstyle : style.Spaced) :
    readWithin library limits ((analysis.toJson library).text style) = .ok (.accepted analysis) := by
  have hread := Json.parseWithin_text hstyle (readable_toJson hlibrary hnesting hlines)
  have hsame : (analysis.toJson library).reread = analysis.toJson library := hlibrary.reread_write analysis.of_toValue
  rw [readWithin, hread, hsame]
  exact congrArg Except.ok (check_toJson hlibrary analysis)

end

/-- The record of an analysis is the analysis again, and what follows from the one follows from the other. So is the
text of the record, in any style and for any runtime that allows its nesting and an integer as long as the number of
lines. -/
theorem Analysis.record_read_back {library : RecordLibrary} (hlibrary : library.Documented) (analysis : Analysis) :
    ∃ validated, check library (analysis.toJson library) = .accepted validated ∧
      (∀ (limits : Json.Limits) (style : Json.Style), style.Spaced → limits.allowsNesting 6 = true →
        limits.integerExcess? (Nat.toDigits 10 analysis.lineCount.natAbs).length = none →
        readWithin library limits ((analysis.toJson library).text style) = .ok (.accepted validated)) ∧
      validated = analysis ∧
      (∀ registry, runRules registry validated = runRules registry analysis) ∧
      Skeleton.generate validated = Skeleton.generate analysis ∧
      (∀ skeleton now, Checklist.build validated skeleton now = Checklist.build analysis skeleton now) ∧
      ∀ lines, costReport lines validated = costReport lines analysis := by
  refine ⟨analysis, check_toJson hlibrary analysis, fun limits style hstyle hnesting hlines => ?_, rfl, fun _ => rfl,
    rfl, fun _ _ => rfl, fun _ => rfl⟩
  exact readWithin_text hlibrary hnesting hlines hstyle

/-- An analysis with something else than a default in every field of every record in it. -/
theorem Analysis.record_read_back_nested :
    let pay : Signature := ⟨"pay", "external", "payable", [⟨"", "address"⟩], [⟨"ok", "bool"⟩], true, true⟩
    let vault : Contract := ⟨"Vault", .library, true, ["Ownable", "Base"],
      [⟨"held", "mapping(address => uint256)", "public", true, true⟩], [pay], [⟨"Paid", [⟨"to", "address", true⟩]⟩]⟩
    let analysis : Analysis := {
      isErc20 := true, isErc721 := true, hasOwnable := true, hasAccessControl := true, hasMappings := true
      hasEvents := true, complexity := .high, lineCount := -7, contracts := [vault], pragma := "^0.8.20"
      imports := ["./\"A\".sol"], errors := ["odd\n😀"] }
    RecordLibrary.standard.Documented ∧
      check .standard (analysis.toJson .standard) = .accepted analysis ∧
      readWithin .standard .guarded ((analysis.toJson .standard).text .compact) = .ok (.accepted analysis) := by
  intro pay vault analysis
  have hlibrary := RecordLibrary.standard_documented
  obtain ⟨validated, hchecked, hread, rfl, -⟩ := record_read_back hlibrary analysis
  exact ⟨hlibrary, hchecked, hread .guarded .compact Json.Style.spaced_compact (by decide) (by decide)⟩

end ContractMigration
