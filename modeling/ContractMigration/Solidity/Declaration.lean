import ContractMigration.Contract.Basic
import ContractMigration.Solidity.Bracket
import ContractMigration.Solidity.Parameter
import ContractMigration.Text.Blank
import ContractMigration.Text.Search

/-!
# Declarations

Contracts, interfaces and libraries are found in the masked text without any grammar. The text is cut at its
terminators, the opening braces and the semicolons. A header is a kind keyword and a name, and it cannot contain a
terminator, so it lies inside one piece; when several headers stand in one piece, the last one owns the terminator
that ends it. A header declares something when an opening brace ends its piece and nothing but a base list stands
between the name and the brace. The body then reaches to the matching brace, and the search goes on behind it, so
declarations never overlap and the pass is linear.
-/

namespace ContractMigration.Solidity

open Text

/-- A kind keyword and a name, as found in a masked text. -/
structure Header where
  /-- Whether the header begins with `abstract`. -/
  isAbstract : Bool
  /-- How many characters stand before the kind keyword. -/
  lead : Nat
  kind : DeclarationKind
  name : List Char
  /-- How many characters the header has. -/
  width : Nat
  /-- What follows the name. -/
  tail : List Char
deriving DecidableEq, Repr

namespace Header

/-- Characters that join on to what follows: no header begins directly behind one. -/
def joins (c : Char) : Bool :=
  isWordChar c || c == '$' || c == '.'

/-- Reads a kind keyword, blanks and a name. -/
def readDeclared (text : List Char) : Option Header :=
  DeclarationKind.all.findSome? fun kind =>
    match after? kind.word.toList text with
    | none => none
    | some rest =>
      let gap := rest.takeWhile isBlank
      match rest.drop gap.length with
      | [] => none
      | c :: more =>
        if gap.isEmpty || !isIdentifierStart c then none
        else
          let name := c :: more.takeWhile isIdentifierChar
          some {
            isAbstract := false, lead := 0, kind, name
            width := kind.word.length + gap.length + name.length
            tail := more.dropWhile isIdentifierChar }

/-- Reads a header: a kind keyword and a name, with `abstract` in front or without. -/
def read? (text : List Char) : Option Header :=
  match after? "abstract".toList text with
  | none => readDeclared text
  | some rest =>
    let gap := rest.takeWhile isBlank
    if gap.isEmpty then none
    else
      (readDeclared (rest.drop gap.length)).map fun header =>
        let lead := "abstract".length + gap.length
        { header with isAbstract := true, lead, width := lead + header.width }

/-- What stands between the name and the terminator, without blanks at its ends. -/
def middle (header : Header) : List Char :=
  trim header.tail

/-- Whether nothing but a base list, introduced by the word `is`, follows the name. -/
def isDeclaration (header : Header) : Bool :=
  match header.middle with
  | [] => true
  | 'i' :: 's' :: rest => !(rest.head?.map isIdentifierChar).getD false
  | _ => false

/-- The base names, without the arguments of their constructors. -/
def bases (header : Header) : List (List Char) :=
  let names := (splitOutsideBrackets [','] (header.middle.drop 2)).map fun part => trim (part.takeWhile (· != '('))
  names.filter (!·.isEmpty)

/-- Keeps the last header of a piece of masked text with the index where it begins. Headers do not overlap: after one
is found, `skip` characters belong to it. -/
def lastFrom (latest : Option (Nat × Header)) (skip : Nat) (joined : Bool) (index : Nat) :
    List Char → Option (Nat × Header)
  | [] => latest
  | c :: rest =>
    match skip with
    | skip + 1 => lastFrom latest skip (joins c) (index + 1) rest
    | 0 =>
      match if joined then none else read? (c :: rest) with
      | some header => lastFrom (some (index, header)) (header.width - 1) (joins c) (index + 1) rest
      | none => lastFrom latest 0 (joins c) (index + 1) rest

/-- The last header of a piece of masked text, with the index where it begins. -/
def last? (piece : List Char) : Option (Nat × Header) :=
  lastFrom none 0 false 0 piece

end Header

/-- A contract, interface or library with the exact extent of its body. -/
structure Declaration where
  kind : DeclarationKind
  name : String
  bases : List String
  body : List Char
  maskedBody : List Char
  isAbstract : Bool
  /-- The index of the kind keyword in the source. -/
  offset : Nat
deriving DecidableEq, Repr

/-- The brace at an index opens the body of a declaration and is never closed. -/
structure UnterminatedBody where
  name : String
  offset : Nat
deriving DecidableEq, Repr

/-- The wording of an unterminated body. -/
def UnterminatedBody.message (failure : UnterminatedBody) : String :=
  "Unterminated body for '" ++ failure.name ++ "': no closing brace for '\x7b' at offset " ++ toString failure.offset

/-- The declarations found, in order, and the body that stopped the search, if one did. -/
structure Scan where
  declarations : List Declaration
  failure : Option UnterminatedBody
deriving DecidableEq, Repr

/-- The opening brace and the semicolon end a header. -/
def isTerminator (c : Char) : Bool :=
  c == '\x7b' || c == ';'

/-- Goes through at most `fuel` pieces of the masked text. Both texts begin at index `offset` of the source. -/
def scanOnto (done : List Declaration) : (fuel offset : Nat) → (source masked : List Char) → Scan
  | 0, _, _, _ => ⟨done.reverse, none⟩
  | fuel + 1, offset, source, masked =>
    let piece := masked.takeWhile (!isTerminator ·)
    match masked.drop piece.length with
    | [] => ⟨done.reverse, none⟩
    | terminator :: rest =>
      let inside := source.drop (piece.length + 1)
      let opened := offset + piece.length
      match if terminator == '\x7b' then Header.last? piece else none with
      | none => scanOnto done fuel (opened + 1) inside rest
      | some (start, header) =>
        if !header.isDeclaration then scanOnto done fuel (opened + 1) inside rest
        else
          match closingFrom '\x7b' '\x7d' 1 0 rest with
          | none => ⟨done.reverse, some ⟨String.ofList header.name, opened⟩⟩
          | some length =>
            let declaration : Declaration := {
              kind := header.kind
              name := String.ofList header.name
              bases := header.bases.map String.ofList
              body := inside.take length
              maskedBody := rest.take length
              isAbstract := header.isAbstract
              offset := offset + start + header.lead }
            scanOnto (declaration :: done) fuel (opened + length + 2) (inside.drop (length + 1))
              (rest.drop (length + 1))

/-- The declarations of a source, given with its masked form. -/
def scan (source masked : List Char) : Scan :=
  scanOnto [] (masked.length + 1) 0 source masked

end ContractMigration.Solidity
