import ContractMigration.Text.Blank

/-!
# Members of a body

A masked body is cut into its top-level members: statements, which end with a semicolon, and headers of blocks, which
end with an opening brace. Nothing inside a block is looked at, and inside parentheses neither a semicolon nor a
brace ends a member. The walk is a fold over the characters, so what it does on a concatenation is what it does on
the second part from the state that the first part leaves behind.
-/

namespace ContractMigration.Solidity

/-- How a member ends. -/
inductive Ending where
  | statement
  | block
deriving DecidableEq, Repr

/-- The character that ends a member. -/
def Ending.symbol : Ending → Char
  | statement => ';'
  | block => '\x7b'

/-- A top-level member; its words are separated by single spaces. -/
structure Member where
  text : List Char
  ending : Ending
deriving DecidableEq, Repr

/-- The state of the walk: how many braces are open, how many parentheses are open outside all braces, the characters
since the last member, reversed, and the members so far, reversed. -/
structure MemberWalk where
  depth : Nat := 0
  parens : Nat := 0
  pending : List Char := []
  done : List Member := []
deriving DecidableEq, Repr

namespace MemberWalk

/-- The text of the member that ends here. -/
def text (walk : MemberWalk) : List Char :=
  Text.collapse walk.pending.reverse

/-- Ends a member; a block may have an empty header, a statement is not empty. -/
def endMember (walk : MemberWalk) (ending : Ending) : List Member :=
  let text := walk.text
  if ending = .statement ∧ text = [] then walk.done else ⟨text, ending⟩ :: walk.done

/-- Reads a character outside all blocks. -/
def topStep (walk : MemberWalk) (c : Char) : MemberWalk :=
  if c == '(' then { walk with parens := walk.parens + 1, pending := c :: walk.pending }
  else if c == ')' then { walk with parens := walk.parens - 1, pending := c :: walk.pending }
  else if c == '\x7b' && walk.parens == 0 then { walk with depth := 1, pending := [], done := walk.endMember .block }
  else if c == ';' && walk.parens == 0 then { walk with pending := [], done := walk.endMember .statement }
  else { walk with pending := c :: walk.pending }

/-- Reads a character inside a block. -/
def blockStep (walk : MemberWalk) (c : Char) : MemberWalk :=
  if c == '\x7b' then { walk with depth := walk.depth + 1 }
  else if c == '\x7d' then { walk with depth := walk.depth - 1 }
  else walk

/-- Reads a character. -/
def step (walk : MemberWalk) (c : Char) : MemberWalk :=
  if walk.depth == 0 then walk.topStep c else walk.blockStep c

end MemberWalk

/-- The members of a masked body, in order. -/
def members (maskedBody : List Char) : List Member :=
  (maskedBody.foldl MemberWalk.step {}).done.reverse

end ContractMigration.Solidity
