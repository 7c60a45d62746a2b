/-!
# Texts of code points

A text from outside is a sequence of code points. Nearly all of them are characters; the others are halves of surrogate
pairs, which mean a character only two by two. So a first half never stands in front of a second one, since the two
together are a character (`CodeText.joined`). A text with a half in it is no Unicode text and has no form in bytes.
-/

namespace ContractMigration

/-- A code point: a character, or a half of a surrogate pair by its number. The numbers below 1024 are those of first
halves, the others those of second halves. -/
inductive CodePoint where
  | char (c : Char)
  | half (number : Fin 2048)
deriving DecidableEq, Repr

namespace CodePoint

/-- Whether a code point is the first half of a surrogate pair. -/
def isFirst : CodePoint → Bool
  | char _ => false
  | half number => number.val < 1024

/-- Whether a code point is the second half of a surrogate pair. -/
def isSecond : CodePoint → Bool
  | char _ => false
  | half number => 1024 ≤ number.val

/-- The character, if it is one. -/
def char? : CodePoint → Option Char
  | char c => some c
  | half _ => none

/-- The code point that a sixteen-bit unit is by itself. -/
def ofUnit (unit : Nat) : CodePoint :=
  if h : 0xD800 ≤ unit ∧ unit < 0xE000 then half ⟨unit - 0xD800, by omega⟩ else char (Char.ofNat unit)

/-- The character that two halves are. -/
def pair (first second : Fin 2048) : Char :=
  Char.ofNat (0x10000 + first.val * 0x400 + (second.val - 1024))

/-- No first half stands in front of a second one. -/
def Joined : List CodePoint → Prop
  | p :: q :: rest => ¬ (p.isFirst = true ∧ q.isSecond = true) ∧ Joined (q :: rest)
  | _ => True

/-- Puts a code point in front of others. -/
def joinOnto (p : CodePoint) (points : List CodePoint) : List CodePoint :=
  match p, points with
  | half first, half second :: rest =>
    if first.val < 1024 ∧ 1024 ≤ second.val then char (pair first second) :: rest
    else half first :: half second :: rest
  | _, _ => p :: points

theorem joined_tail {p : CodePoint} {points : List CodePoint} (h : Joined (p :: points)) : Joined points := by
  cases points with
  | nil => trivial
  | cons q rest => exact h.2

theorem joined_char (c : Char) {points : List CodePoint} (h : Joined points) : Joined (char c :: points) := by
  cases points with
  | nil => trivial
  | cons q rest => exact ⟨fun hfirst => Bool.noConfusion hfirst.1, h⟩

theorem joined_chars (letters : List Char) : Joined (letters.map char) := by
  induction letters with
  | nil => trivial
  | cons c letters ih => exact joined_char c ih

theorem joined_joinOnto (p : CodePoint) {points : List CodePoint} (h : Joined points) : Joined (joinOnto p points) := by
  cases p with
  | char c => exact joined_char c h
  | half first =>
    cases points with
    | nil => trivial
    | cons q rest =>
      cases q with
      | char c => exact ⟨fun hsecond => Bool.noConfusion hsecond.2, h⟩
      | half second =>
        rw [joinOnto]
        split
        · exact joined_char _ (joined_tail h)
        next hapart => exact ⟨by simpa [isFirst, isSecond] using hapart, h⟩

end CodePoint

/-- A text of code points. -/
structure CodeText where
  points : List CodePoint
  joined : CodePoint.Joined points
deriving DecidableEq, Repr

namespace CodeText

/-- A text of characters. -/
def ofString (s : String) : CodeText :=
  ⟨s.toList.map .char, CodePoint.joined_chars _⟩

instance : Coe String CodeText := ⟨ofString⟩

/-- The text of code points in their order, in which halves that belong together are joined. -/
def ofPoints (points : List CodePoint) : CodeText where
  points := points.foldr CodePoint.joinOnto []
  joined := by
    induction points with
    | nil => trivial
    | cons p points ih => exact CodePoint.joined_joinOnto p ih

/-- The Unicode text, if there is no half in it. -/
def text? (text : CodeText) : Option String :=
  (text.points.mapM CodePoint.char?).map String.ofList

theorem text?_ofString (s : String) : (ofString s).text? = some s := by
  have hchars (letters : List Char) : (letters.map CodePoint.char).mapM CodePoint.char? = some letters := by
    induction letters with
    | nil => rfl
    | cons c letters ih => simp [CodePoint.char?, ih]
  rw [text?, ofString, hchars, Option.map_some, String.ofList_toList]

@[simp] theorem ofString_inj {first second : String} : ofString first = ofString second ↔ first = second := by
  refine ⟨fun h => ?_, congrArg ofString⟩
  have htext := text?_ofString first
  rw [h, text?_ofString] at htext
  exact (Option.some.inj htext).symm

/-- The number of code points. -/
def length (text : CodeText) : Nat :=
  text.points.length

/-- The greatest length that there can be, since lengths are counted in machine words. -/
def longest : Nat :=
  9223372036854775807

end CodeText

end ContractMigration
