import ContractMigration.Text.Quoted

/-!
# Brackets

The closer of an opener is found by counting: depth is one on the opener itself, every opener of the same kind adds
one, every closer of that kind takes one away, and the place where it becomes zero is the answer. Brackets of other
kinds do not count, so the search is only as good as the text is masked. Splitting at the top level counts all three
kinds together and never lets a surplus closer bring the depth below zero.
-/

namespace ContractMigration.Solidity

/-- The closer that belongs to an opener. -/
def closerOf? : Char → Option Char
  | '(' => some ')'
  | '[' => some ']'
  | '\x7b' => some '\x7d'
  | _ => none

/-- The index, counted from `index` at the head of the text, of the closer that closes the last of `depth` open
brackets. -/
def closingFrom (opener closer : Char) : (depth index : Nat) → List Char → Option Nat
  | _, _, [] => none
  | depth, index, c :: rest =>
    if c == opener then closingFrom opener closer (depth + 1) (index + 1) rest
    else if c == closer then
      if depth ≤ 1 then some index else closingFrom opener closer (depth - 1) (index + 1) rest
    else closingFrom opener closer depth (index + 1) rest

/-- Why no bracket can be looked for at a place. -/
inductive BracketError where
  | outOfRange
  | notAnOpener (c : Char)
deriving DecidableEq, Repr

/-- The wording of a bracket error. -/
def BracketError.message : BracketError → String
  | outOfRange => "string index out of range"
  | notAnOpener c => String.ofList (Text.quoted [c])

/-- The index of the bracket that closes the one at `index`, if there is one. An index is a place counted from the
front, from zero on; only such places are asked for, and one counted back from the end has no meaning here. -/
def matchingBracket (text : List Char) (index : Nat) : Except BracketError (Option Nat) :=
  match text.drop index with
  | [] => .error .outOfRange
  | c :: rest =>
    match closerOf? c with
    | none => .error (.notAnOpener c)
    | some closer => .ok (closingFrom c closer 1 (index + 1) rest)

/-- Cuts the text after an opener at its closer: what is inside the brackets, and what follows them. -/
def splitAtClosing (opener closer : Char) (text : List Char) : Option (List Char × List Char) :=
  (closingFrom opener closer 1 0 text).map fun length => (text.take length, text.drop (length + 1))

/-- The depth after a character: openers of all kinds add one, closers take one away down to zero. -/
def nestingAfter (depth : Nat) (c : Char) : Nat :=
  if c == '(' || c == '[' || c == '\x7b' then depth + 1
  else if c == ')' || c == ']' || c == '\x7d' then depth - 1
  else depth

/-- Splits onto the reversed parts; `current` is the part being read, reversed. -/
def splitOutsideBracketsOnto (separator : List Char) (done : List (List Char)) (current : List Char) (depth : Nat) :
    List Char → List (List Char)
  | [] => (current.reverse :: done).reverse
  | c :: rest =>
    let deeper := nestingAfter depth c
    if separator == [c] && deeper == 0 then splitOutsideBracketsOnto separator (current.reverse :: done) [] deeper rest
    else splitOutsideBracketsOnto separator done (c :: current) deeper rest

/-- The parts of a text between the separators outside all brackets. The depth is adjusted before a character is
compared, and only a separator of one character can occur. -/
def splitOutsideBrackets (separator text : List Char) : List (List Char) :=
  splitOutsideBracketsOnto separator [] [] 0 text

end ContractMigration.Solidity
