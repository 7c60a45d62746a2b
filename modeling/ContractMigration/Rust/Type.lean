import ContractMigration.Text.Blank
import ContractMigration.Text.Search

/-!
# Rust types for Solidity types

Every Solidity type has a Rust type for the field that replaces it. Array suffixes become vectors, the known
elementary types have a counterpart each, and everything else becomes bytes. The serialised size of a type is kept as
the text of an expression, since the sizes of dynamic types are estimates.
-/

namespace ContractMigration

open Text

/-- The Rust types that fields can have. -/
inductive RustType where
  | pubkey
  | bool
  | string
  | u64
  | u32
  | u16
  | u8
  | i64
  | i32
  | bytes32
  | vec (element : RustType)
deriving DecidableEq, Repr

namespace RustType

/-- The type as it is written. -/
def text : RustType → String
  | pubkey => "Pubkey"
  | bool => "bool"
  | string => "String"
  | u64 => "u64"
  | u32 => "u32"
  | u16 => "u16"
  | u8 => "u8"
  | i64 => "i64"
  | i32 => "i32"
  | bytes32 => "[u8; 32]"
  | vec element => "Vec<" ++ element.text ++ ">"

/-- A sequence of bytes of any length. -/
def bytes : RustType :=
  vec u8

/-- The counterparts of the elementary Solidity types. -/
def counterparts : List (String × RustType) :=
  [("address", pubkey), ("address payable", pubkey), ("bool", bool), ("string", string), ("uint256", u64),
    ("uint128", u64), ("uint64", u64), ("uint32", u32), ("uint16", u16), ("uint8", u8), ("uint", u64),
    ("int256", i64), ("int128", i64), ("int64", i64), ("int32", i32), ("int", i64), ("bytes32", bytes32),
    ("bytes", bytes)]

/-- The counterpart of a type without array suffixes. -/
def ofElementary (typeName : List Char) : RustType :=
  (counterparts.lookup (String.ofList typeName)).getD bytes

/-- The counterpart of a type that is given reversed, so that its array suffixes come first; blanks around the
suffixes do not count. There is one step for each suffix, however many there are: a runtime's bound on nested calls is
no part of this, unlike the bound on nesting when JSON is read (`Json.Limits`). -/
def ofReversed : List Char → RustType
  | ']' :: '[' :: rest => vec (ofReversed rest)
  | c :: rest => if isBlank c then ofReversed rest else ofElementary (trimLeft (c :: rest).reverse)
  | [] => ofElementary []

/-- The Rust type for a Solidity type. -/
def ofSolidity (typeName : String) : RustType :=
  ofReversed typeName.toList.reverse

/-- The sizes of the types that are no vectors, and of the plain byte vector. -/
def sizes : List (String × String) :=
  [("Pubkey", "32"), ("bool", "1"), ("u64", "8"), ("u32", "4"), ("u16", "2"), ("u8", "1"), ("i64", "8"), ("i32", "4"),
    ("Vec<u8>", "4 + 256"), ("String", "4 + 200"), ("[u8; 32]", "32")]

/-- The serialised size of a Rust type, given by its text; a type that is not known counts as large as a key. -/
def sizeText (rustType : String) : String :=
  if "Vec<".toList.isPrefixOf rustType.toList then "4 + 256" else (sizes.lookup rustType).getD "32"

end RustType

/-- The words behind the arrows of a mapping type, in order. -/
def arrowWords : List Char → List (List Char)
  | '=' :: '>' :: rest =>
    match (trimLeft rest).takeWhile fun c => isWordChar c || c == '.' with
    | [] => arrowWords rest
    | word => word :: arrowWords rest
  | _ :: rest => arrowWords rest
  | [] => []

/-- The innermost value type of a mapping type; one that cannot be read counts as a number. -/
def innermostValueType (typeName : String) : String :=
  match ((arrowWords typeName.toList).filter (· != "mapping".toList)).getLast? with
  | some word => String.ofList word
  | none => "uint256"

end ContractMigration
