import ContractMigration.Contract.Basic
import ContractMigration.Validation.Declared

/-!
# Contracts as records

The declaration of each record with its names, types and defaults, the record that a contract or a part of it is, and
what such a record stands for. How records are written and read is the business of a library.
-/

namespace ContractMigration

open Validation

namespace Parameter

/-- The fields of a parameter. -/
def declared : FieldType :=
  .record [⟨"name", .text, some (.text "")⟩, ⟨"type_name", .text, none⟩]

/-- A parameter as a record. -/
def toValue (parameter : Parameter) : Value :=
  .record [("name", .text parameter.name), ("type_name", .text parameter.typeName)]

/-- The parameter that a record is. -/
def ofValue? (value : Value) : Option Parameter := do
  return { name := ← value.text? "name", typeName := ← value.text? "type_name" }

end Parameter

namespace EventParameter

/-- The fields of a parameter of an event. -/
def declared : FieldType :=
  .record [⟨"name", .text, some (.text "")⟩, ⟨"type_name", .text, none⟩,
    ⟨"indexed", .boolean, some (.boolean false)⟩]

/-- A parameter of an event as a record. -/
def toValue (parameter : EventParameter) : Value :=
  .record [("name", .text parameter.name), ("type_name", .text parameter.typeName),
    ("indexed", .boolean parameter.indexed)]

/-- The parameter of an event that a record is. -/
def ofValue? (value : Value) : Option EventParameter := do
  return {
    name := ← value.text? "name"
    typeName := ← value.text? "type_name"
    indexed := ← value.boolean? "indexed" }

end EventParameter

namespace StateVariable

/-- The fields of a variable. -/
def declared : FieldType :=
  .record [⟨"name", .text, none⟩, ⟨"type_name", .text, none⟩, ⟨"visibility", .text, some (.text "internal")⟩,
    ⟨"constant", .boolean, some (.boolean false)⟩, ⟨"immutable", .boolean, some (.boolean false)⟩]

/-- A variable as a record. -/
def toValue (declared : StateVariable) : Value :=
  .record [("name", .text declared.name), ("type_name", .text declared.typeName),
    ("visibility", .text declared.visibility), ("constant", .boolean declared.isConstant),
    ("immutable", .boolean declared.isImmutable)]

/-- The variable that a record is. -/
def ofValue? (value : Value) : Option StateVariable := do
  return {
    name := ← value.text? "name"
    typeName := ← value.text? "type_name"
    visibility := ← value.text? "visibility"
    isConstant := ← value.boolean? "constant"
    isImmutable := ← value.boolean? "immutable" }

end StateVariable

namespace Signature

/-- The fields of a signature. -/
def declared : FieldType :=
  .record [⟨"name", .text, none⟩, ⟨"visibility", .text, some (.text "public")⟩,
    ⟨"state_mutability", .text, some (.text "nonpayable")⟩,
    ⟨"parameters", .sequence Parameter.declared, some (.sequence [])⟩,
    ⟨"return_parameters", .sequence Parameter.declared, some (.sequence [])⟩,
    ⟨"is_constructor", .boolean, some (.boolean false)⟩, ⟨"is_modifier", .boolean, some (.boolean false)⟩]

/-- A signature as a record. -/
def toValue (signature : Signature) : Value :=
  .record [("name", .text signature.name), ("visibility", .text signature.visibility),
    ("state_mutability", .text signature.mutability),
    ("parameters", .sequence (signature.parameters.map Parameter.toValue)),
    ("return_parameters", .sequence (signature.returns.map Parameter.toValue)),
    ("is_constructor", .boolean signature.isConstructor), ("is_modifier", .boolean signature.isModifier)]

/-- The signature that a record is. -/
def ofValue? (value : Value) : Option Signature := do
  return {
    name := ← value.text? "name"
    visibility := ← value.text? "visibility"
    mutability := ← value.text? "state_mutability"
    parameters := ← value.items? Parameter.ofValue? "parameters"
    returns := ← value.items? Parameter.ofValue? "return_parameters"
    isConstructor := ← value.boolean? "is_constructor"
    isModifier := ← value.boolean? "is_modifier" }

end Signature

namespace Event

/-- The fields of an event. -/
def declared : FieldType :=
  .record [⟨"name", .text, none⟩, ⟨"parameters", .sequence EventParameter.declared, some (.sequence [])⟩]

/-- An event as a record. -/
def toValue (event : Event) : Value :=
  .record [("name", .text event.name), ("parameters", .sequence (event.parameters.map EventParameter.toValue))]

/-- The event that a record is. -/
def ofValue? (value : Value) : Option Event := do
  return { name := ← value.text? "name", parameters := ← value.items? EventParameter.ofValue? "parameters" }

end Event

namespace Contract

/-- The fields of a contract. -/
def declared : FieldType :=
  .record [⟨"name", .text, none⟩,
    ⟨"kind", .oneOf (DeclarationKind.all.map DeclarationKind.word), some (.member DeclarationKind.contract.word)⟩,
    ⟨"is_abstract", .boolean, some (.boolean false)⟩, ⟨"base_contracts", .sequence .text, some (.sequence [])⟩,
    ⟨"state_variables", .sequence StateVariable.declared, some (.sequence [])⟩,
    ⟨"functions", .sequence Signature.declared, some (.sequence [])⟩,
    ⟨"events", .sequence Event.declared, some (.sequence [])⟩]

/-- A contract as a record. -/
def toValue (contract : Contract) : Value :=
  .record [("name", .text contract.name), ("kind", .member contract.kind.word),
    ("is_abstract", .boolean contract.isAbstract), ("base_contracts", .ofTexts contract.bases),
    ("state_variables", .sequence (contract.stateVariables.map StateVariable.toValue)),
    ("functions", .sequence (contract.functions.map Signature.toValue)),
    ("events", .sequence (contract.events.map Event.toValue))]

/-- The contract that a record is. -/
def ofValue? (value : Value) : Option Contract := do
  return {
    name := ← value.text? "name"
    kind := ← value.member? DeclarationKind.word DeclarationKind.all "kind"
    isAbstract := ← value.boolean? "is_abstract"
    bases := ← value.items? Value.ofText? "base_contracts"
    stateVariables := ← value.items? StateVariable.ofValue? "state_variables"
    functions := ← value.items? Signature.ofValue? "functions"
    events := ← value.items? Event.ofValue? "events" }

end Contract

end ContractMigration
