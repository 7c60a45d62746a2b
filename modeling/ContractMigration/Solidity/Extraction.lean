import ContractMigration.Solidity.Declaration
import ContractMigration.Solidity.Signature

/-!
# Events and whole contracts

An event is a member that begins with `event`, a name and its parameters in parentheses.

What is recovered of a declaration comes from its header and from its masked body alone, so nothing outside the
declaration and no comment or string inside it can change the record, except that variables also listen to the
keywords `constant` and `immutable` anywhere in the body.
-/

namespace ContractMigration.Solidity

open Text

/-- Reads a member as an event. -/
def Member.readEvent (member : Member) : Option Event :=
  match readNamed "event".toList member.text with
  | none => none
  | some (name, rest) =>
    match trimLeft rest with
    | '(' :: more =>
      (splitAtClosing '(' ')' more).map fun (inside, _) =>
        { name := String.ofList name, parameters := readEventParameters inside }
    | _ => none

/-- The events of a masked body, in order. -/
def events (maskedBody : List Char) : List Event :=
  (members maskedBody).filterMap Member.readEvent

/-- The record of a declaration. -/
def Declaration.contract (declaration : Declaration) : Contract where
  name := declaration.name
  kind := declaration.kind
  isAbstract := declaration.isAbstract
  bases := declaration.bases
  stateVariables := stateVariables declaration.maskedBody
  functions := signatures declaration.maskedBody
  events := events declaration.maskedBody

end ContractMigration.Solidity
