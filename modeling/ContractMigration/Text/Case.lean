import ContractMigration.Text.CaseTable

/-!
# Lower and upper case

Full case mapping of texts. A character may turn into several, so both maps return texts. Only one character
looks at its neighbours: the capital sigma becomes the final small sigma when a cased letter stands before it and
none after it, marks between them being skipped. Every other character is mapped on its own, so lower-casing
distributes over concatenation except for a sigma at the seam.
-/

namespace ContractMigration.Text

/-- The image of a code point under the first run that lists it. -/
def CaseRun.apply? (runs : Array CaseRun) (point : Nat) : Option Nat :=
  match runs.find? fun run => run.first ≤ point && point ≤ run.last && (point - run.first) % run.step == 0 with
  | some run => some (point + run.shift).toNat
  | none => none

/-- The lower-case image of a character that does not depend on its neighbours. -/
def lowerChar (c : Char) : List Char :=
  if c.toNat < 128 then [c.toLower]
  else if c.toNat = 0x130 then ['i', Char.ofNat 0x307]
  else match CaseRun.apply? lowerRuns c.toNat with
    | some n => [Char.ofNat n]
    | none => [c]

/-- The upper-case image of a character. -/
def upperChar (c : Char) : List Char :=
  if c.toNat < 128 then [c.toUpper]
  else match upperExpansions.lookup c.toNat with
    | some points => points.map Char.ofNat
    | none => match CaseRun.apply? upperRuns c.toNat with
      | some n => [Char.ofNat n]
      | none => [c]

/-- A mark that a search for a neighbouring letter skips. -/
def isCaseIgnorable (c : Char) : Bool :=
  if c.toNat < 128 then c == '\'' || c == '.' || c == ':' || c == '^' || c == '\x60'
  else caseIgnorableRanges.contains c.toNat

/-- A cased letter that a search for a neighbouring letter stops at. -/
def isCased (c : Char) : Bool :=
  if c.toNat < 128 then c.isAlpha else casedRanges.contains c.toNat

/-- Whether the first character that is not skipped is a cased letter. -/
def startsCased (text : List Char) : Bool :=
  match text.dropWhile isCaseIgnorable with
  | [] => false
  | c :: _ => isCased c

/-- Lower-cases a text onto the reversed result; `afterCased` says whether the nearest character before it that is
not skipped is a cased letter. -/
def lowerOnto (done : List Char) (afterCased : Bool) : List Char → List Char
  | [] => done.reverse
  | c :: rest =>
    let image :=
      if c.toNat = 0x3A3 then
        if afterCased && !startsCased rest then [Char.ofNat 0x3C2] else [Char.ofNat 0x3C3]
      else lowerChar c
    lowerOnto (image.reverseAux done) (if isCaseIgnorable c then afterCased else isCased c) rest

/-- The lower-case form of a text. -/
def lower (text : List Char) : List Char :=
  lowerOnto [] false text

/-- The upper-case form of a text. -/
def upper (text : List Char) : List Char :=
  text.flatMap upperChar

/-- The text with its first character in upper case. -/
def upperFirst : List Char → List Char
  | [] => []
  | c :: rest => upperChar c ++ rest

end ContractMigration.Text
