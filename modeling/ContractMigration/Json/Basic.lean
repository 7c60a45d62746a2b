import ContractMigration.Numeric.Decimal
import ContractMigration.Text.CodeText

/-!
# JSON values

Integers have any size and are kept apart from numbers with a point or an exponent. Texts may hold halves of surrogate
pairs. The members of an object keep their order; setting a key that is already there replaces the value where it
stands.

Values are written and read under limits: how many digits an integer has at most, and how many lists and objects may
stand around another one.
-/

namespace ContractMigration

/-- A JSON value. -/
inductive Json where
  | null
  | bool (b : Bool)
  | int (n : Int)
  | real (x : Numeric.Double)
  | str (s : CodeText)
  | arr (items : List Json)
  | obj (members : List (CodeText × Json))
deriving Inhabited

namespace Json

/-- The members of an object after a key is set. -/
def setMember (members : List (CodeText × Json)) (key : CodeText) (value : Json) : List (CodeText × Json) :=
  if members.any (·.1 == key) then members.map fun member => if member.1 == key then (key, value) else member
  else members ++ [(key, value)]

/-- The value of a key of an object. -/
def member? (key : CodeText) : Json → Option Json
  | obj members => members.lookup key
  | _ => none

/-- A text, or null. -/
def ofText? : Option String → Json
  | some s => str s
  | none => null

/-- A list of texts. -/
def ofTexts (texts : List String) : Json :=
  arr (texts.map fun s : String => str s)

/-! ### Limits -/

/-- What a runtime allows in writing and in reading; without a limit it allows everything. -/
structure Limits where
  /-- The most digits of an integer. -/
  integerDigits : Option Nat := none
  /-- The most lists and objects around a list or an object. -/
  nesting : Option Nat := none
deriving DecidableEq, Repr

/-- The usual limits. -/
def Limits.guarded : Limits where
  integerDigits := some 4300
  nesting := some 959

/-- What is beyond the limits: an integer with more digits than the most, or a list or an object inside too many
others. -/
inductive Excess where
  | integerDigits (most count : Nat)
  | nestedList
  | nestedObject
deriving DecidableEq, Repr

/-- The excess of an integer with so many digits, if it has too many. -/
def Limits.integerExcess? (limits : Limits) (digits : Nat) : Option Excess :=
  match limits.integerDigits with
  | some most => if most < digits then some (.integerDigits most digits) else none
  | none => none

/-- Whether a list or an object may stand inside so many others. -/
def Limits.allowsNesting (limits : Limits) (depth : Nat) : Bool :=
  match limits.nesting with
  | some most => depth ≤ most
  | none => true

end Json

end ContractMigration
