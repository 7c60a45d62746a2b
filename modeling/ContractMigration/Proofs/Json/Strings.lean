import ContractMigration.Json.Printer
import ContractMigration.Json.Reader

/-!
# Strings that are written and read

Reading the inside of a written string goes through one code point at a time, however many characters it is written
with (`readStringOnto_escapedPoint`): a short escape, the escape of a sixteen-bit unit, or two of these for a surrogate
pair. The two halves of a pair are only joined at the end, when all code points are put together. They are joined to the
character they came from, and nothing else is joined, because in a text no first half stands in front of a second one.
So a written string reads back as itself (`gives_stringText`).
-/

namespace ContractMigration.Json

open Text

/-- The reader gives the value, wherever the text begins, and leaves the rest over. -/
def Gives {α : Type} (read : Nat → List Char → Reading α) (text : List Char) (value : α) (rest : List Char) : Prop :=
  ∀ offset, ∃ behind, read offset text = .ok (value, behind, rest)

/-! ### Hexadecimal digits -/

theorem hexPadded_succ {width : Nat} (hwidth : 0 < width) (n : Nat) :
    hexPadded (width + 1) n = hexPadded width (n / 16) ++ [Nat.digitChar (n % 16)] := by
  by_cases hn : n < 16
  · have hzero : Nat.toDigits 16 0 = ['0'] := rfl
    rw [hexPadded, hexPadded, Nat.toDigits_of_lt_base hn, Nat.div_eq_of_lt hn, hzero, Nat.mod_eq_of_lt hn]
    obtain ⟨less, rfl⟩ : ∃ less, width = less + 1 := ⟨width - 1, by omega⟩
    simp [List.replicate_succ']
  · rw [hexPadded, hexPadded, Nat.toDigits_of_base_le (by decide) (by omega)]
    simp

theorem hexPadded_four {unit : Nat} (h : unit < 0x10000) :
    hexPadded 4 unit = [Nat.digitChar (unit / 16 / 16 / 16), Nat.digitChar (unit / 16 / 16 % 16),
      Nat.digitChar (unit / 16 % 16), Nat.digitChar (unit % 16)] := by
  have hfirst : unit / 16 / 16 / 16 < 16 := by omega
  have hone : hexPadded 1 (unit / 16 / 16 / 16) = [Nat.digitChar (unit / 16 / 16 / 16)] := by
    rw [hexPadded, Nat.toDigits_of_lt_base hfirst]
    rfl
  rw [hexPadded_succ (by decide), hexPadded_succ (by decide), hexPadded_succ (by decide), hone]
  rfl

theorem hexValue?_digitChar {digit : Nat} (h : digit < 16) : hexValue? (Nat.digitChar digit) = some digit := by
  have hall : ∀ digit < 16, hexValue? (Nat.digitChar digit) = some digit := by decide
  exact hall digit h

theorem exists_escapedUnit {unit : Nat} (h : unit < 0x10000) :
    ∃ a b c d, escapedUnit unit = ['\\', 'u', a, b, c, d] ∧ hexUnit? a b c d = some unit := by
  refine ⟨_, _, _, _, by rw [escapedUnit, hexPadded_four h], ?_⟩
  have hfirst : unit / 16 / 16 / 16 < 16 := by omega
  rw [hexUnit?, hexValue?_digitChar hfirst, hexValue?_digitChar (Nat.mod_lt _ (by decide)),
    hexValue?_digitChar (Nat.mod_lt _ (by decide)), hexValue?_digitChar (Nat.mod_lt _ (by decide))]
  simp only [Option.some.injEq]
  omega

/-! ### Ways to write a character -/

/-- The letters that stand for a character behind a backslash. -/
def shortLetters : List Char :=
  ['"', '\\', 'n', 'r', 't', 'b', 'f']

/-- The ways in which a character is written inside a string. -/
inductive Written (asciiOnly : Bool) (c : Char) : List Char → Prop
  | short (letter : Char) (hletter : letter ∈ shortLetters) (hmeant : shortEscape? letter = some c) :
    Written asciiOnly c ['\\', letter]
  | plain (hquote : c ≠ '"') (hslash : c ≠ '\\') (hcontrol : ¬ c.toNat < 0x20)
    (hascii : asciiOnly = true → c.toNat < 0x7F) : Written asciiOnly c [c]
  | unit (hbasic : c.toNat < 0x10000) : Written asciiOnly c (escapedUnit c.toNat)
  | pair (first second : Fin 2048) (hfirst : first.val < 1024) (hsecond : 1024 ≤ second.val)
    (hpair : CodePoint.pair first second = c) :
    Written asciiOnly c (escapedUnit (0xD800 + first.val) ++ escapedUnit (0xD800 + second.val))

theorem toNat_not_surrogate (c : Char) : c.toNat < 0xD800 ∨ 0xE000 ≤ c.toNat ∧ c.toNat < 0x110000 := by
  have hvalid : c.toNat.isValidChar := c.valid
  rcases hvalid with hlow | ⟨hhigh, hbound⟩
  · exact .inl hlow
  · exact .inr ⟨hhigh, hbound⟩

theorem written_escapedChar (asciiOnly : Bool) (c : Char) : Written asciiOnly c (escapedChar asciiOnly c) := by
  unfold escapedChar
  by_cases hquote : c = '"'
  · subst hquote
    exact .short '"' (by decide) (by decide)
  rw [if_neg (by simpa using hquote)]
  by_cases hslash : c = '\\'
  · subst hslash
    exact .short '\\' (by decide) (by decide)
  rw [if_neg (by simpa using hslash)]
  by_cases hfeed : c = '\n'
  · subst hfeed
    exact .short 'n' (by decide) (by decide)
  rw [if_neg (by simpa using hfeed)]
  by_cases hreturn : c = '\r'
  · subst hreturn
    exact .short 'r' (by decide) (by decide)
  rw [if_neg (by simpa using hreturn)]
  by_cases htab : c = '\t'
  · subst htab
    exact .short 't' (by decide) (by decide)
  rw [if_neg (by simpa using htab)]
  by_cases hbackspace : c.toNat = 8
  · have hmeant : shortEscape? 'b' = some c := by rw [← Char.ofNat_toNat c, hbackspace]; decide
    rw [if_pos hbackspace]
    exact .short 'b' (by decide) hmeant
  rw [if_neg hbackspace]
  by_cases hformFeed : c.toNat = 12
  · have hmeant : shortEscape? 'f' = some c := by rw [← Char.ofNat_toNat c, hformFeed]; decide
    rw [if_pos hformFeed]
    exact .short 'f' (by decide) hmeant
  rw [if_neg hformFeed]
  by_cases hcontrol : c.toNat < 0x20
  · rw [if_pos hcontrol]
    exact .unit (by omega)
  rw [if_neg hcontrol]
  split
  next hplain =>
    refine .plain hquote hslash hcontrol fun hascii => ?_
    simpa [hascii] using hplain
  split
  next hbasic => exact .unit hbasic
  next hbasic =>
    have hvalid := toNat_not_surrogate c
    have hsecond : 0xDC00 + (c.toNat - 0x10000) % 0x400 = 0xD800 + (1024 + (c.toNat - 0x10000) % 0x400) := by omega
    have hpair : CodePoint.pair ⟨(c.toNat - 0x10000) / 0x400, by omega⟩ ⟨1024 + (c.toNat - 0x10000) % 0x400, by omega⟩ =
        c := by
      have hsum : 0x10000 + (c.toNat - 0x10000) / 0x400 * 0x400 + (1024 + (c.toNat - 0x10000) % 0x400 - 1024) =
          c.toNat := by omega
      rw [CodePoint.pair, hsum, Char.ofNat_toNat]
    simp only [hsecond]
    exact .pair ⟨_, _⟩ ⟨_, _⟩ (show (c.toNat - 0x10000) / 0x400 < 1024 by omega)
      (show 1024 ≤ 1024 + (c.toNat - 0x10000) % 0x400 by omega) hpair

/-! ### Units and code points -/

theorem ofUnit_char (c : Char) : CodePoint.ofUnit c.toNat = .char c := by
  have hvalid := toNat_not_surrogate c
  rw [CodePoint.ofUnit, dif_neg (by omega), Char.ofNat_toNat]

theorem ofUnit_half (number : Fin 2048) : CodePoint.ofUnit (0xD800 + number.val) = .half number := by
  have hnumber := number.isLt
  rw [CodePoint.ofUnit, dif_pos (by omega)]
  simp

/-- Code points that are joined to one, in front of anything that it may stand in front of. -/
def Makes (parts : List CodePoint) (p : CodePoint) : Prop :=
  ∀ rest, CodePoint.Joined (p :: rest) → parts.foldr CodePoint.joinOnto rest = p :: rest

theorem makes_self (p : CodePoint) : Makes [p] p := by
  intro rest hjoined
  show CodePoint.joinOnto p rest = p :: rest
  cases p with
  | char c => rfl
  | half first =>
    cases rest with
    | nil => rfl
    | cons q rest =>
      cases q with
      | char c => rfl
      | half second =>
        have hapart : ¬ (first.val < 1024 ∧ 1024 ≤ second.val) := by
          simpa [CodePoint.isFirst, CodePoint.isSecond] using hjoined.1
        rw [CodePoint.joinOnto, if_neg hapart]

theorem makes_pair {first second : Fin 2048} (hfirst : first.val < 1024) (hsecond : 1024 ≤ second.val) :
    Makes [.half first, .half second] (.char (CodePoint.pair first second)) := by
  intro rest hjoined
  have hafter : CodePoint.Joined (.half second :: rest) := by
    cases rest with
    | nil => trivial
    | cons q rest => exact ⟨by simp [CodePoint.isFirst, Nat.not_lt.2 hsecond], CodePoint.joined_tail hjoined⟩
  have hbehind : CodePoint.joinOnto (.half second) rest = .half second :: rest := makes_self _ rest hafter
  show CodePoint.joinOnto (.half first) (CodePoint.joinOnto (.half second) rest) = _
  rw [hbehind, CodePoint.joinOnto, if_pos ⟨hfirst, hsecond⟩]

/-! ### Reading one code point -/

section Step

variable {start : Nat} {done : List CodePoint} {tail : List Char} {offset : Nat}

theorem readStringOnto_plain {c : Char} (hquote : c ≠ '"') (hslash : c ≠ '\\') (hcontrol : ¬ c.toNat < 0x20) :
    readStringOnto start done offset (c :: tail) = readStringOnto start (.char c :: done) (offset + 1) tail := by
  rw [readStringOnto]
  · rw [if_neg (by simpa using hquote), if_neg hcontrol]
  all_goals simp [hslash]

theorem readStringOnto_short {c meant : Char} (hunit : c ≠ 'u') (hmeant : shortEscape? c = some meant) :
    readStringOnto start done offset ('\\' :: c :: tail) =
      readStringOnto start (.char meant :: done) (offset + 2) tail := by
  rw [readStringOnto]
  · rw [if_neg (by simpa using hunit), hmeant]
  · simp [hunit]

theorem readStringOnto_unit {unit : Nat} (h : unit < 0x10000) (htail : tail ≠ []) :
    readStringOnto start done offset (escapedUnit unit ++ tail) =
      readStringOnto start (.ofUnit unit :: done) (offset + 6) tail := by
  obtain ⟨a, b, c, d, hescape, hvalue⟩ := exists_escapedUnit h
  rw [hescape]
  show readStringOnto start done offset ('\\' :: 'u' :: a :: b :: c :: d :: tail) = _
  rw [readStringOnto, hvalue]
  simp [htail]

theorem readStringOnto_half (number : Fin 2048) (htail : tail ≠ []) :
    readStringOnto start done offset (escapedUnit (0xD800 + number.val) ++ tail) =
      readStringOnto start (.half number :: done) (offset + 6) tail := by
  have hnumber := number.isLt
  rw [readStringOnto_unit (by omega) htail, ofUnit_half]

end Step

/-- A written code point is read as the code points that are joined to it, whatever follows it inside the string. -/
theorem readStringOnto_escapedPoint (asciiOnly : Bool) (p : CodePoint) (start : Nat) (done : List CodePoint)
    (offset : Nat) {tail : List Char} (htail : tail ≠ []) :
    ∃ behind parts, readStringOnto start done offset (escapedPoint asciiOnly p ++ tail) =
      readStringOnto start (parts.reverse ++ done) behind tail ∧ Makes parts p := by
  cases p with
  | half number => exact ⟨offset + 6, [.half number], readStringOnto_half number htail, makes_self _⟩
  | char c =>
    have hwritten := written_escapedChar asciiOnly c
    rw [escapedPoint]
    generalize escapedChar asciiOnly c = letters at hwritten ⊢
    cases hwritten with
    | short letter hletter hmeant =>
      have hunit : letter ≠ 'u' := by
        rintro rfl
        exact absurd hletter (by decide)
      exact ⟨offset + 2, [.char c], readStringOnto_short hunit hmeant, makes_self _⟩
    | plain hquote hslash hcontrol _ =>
      exact ⟨offset + 1, [.char c], readStringOnto_plain hquote hslash hcontrol, makes_self _⟩
    | unit hbasic =>
      refine ⟨offset + 6, [.char c], ?_, makes_self _⟩
      rw [readStringOnto_unit hbasic htail, ofUnit_char]
      rfl
    | pair first second hfirst hsecond hpair =>
      refine ⟨offset + 6 + 6, [.half first, .half second], ?_, hpair ▸ makes_pair hfirst hsecond⟩
      have hmore : escapedUnit (0xD800 + second.val) ++ tail ≠ [] := by simp [htail]
      rw [List.append_assoc, readStringOnto_half first hmore, readStringOnto_half second htail]
      rfl

/-! ### Whole strings -/

theorem readStringOnto_written (asciiOnly : Bool) {points : List CodePoint} (hjoined : CodePoint.Joined points)
    (start : Nat) (done : List CodePoint) (offset : Nat) (rest : List Char) :
    ∃ behind parts, readStringOnto start done offset (points.flatMap (escapedPoint asciiOnly) ++ '"' :: rest) =
      .ok (.ofPoints (done.reverse ++ parts), behind, rest) ∧ parts.foldr CodePoint.joinOnto [] = points := by
  induction points generalizing done offset with
  | nil =>
    refine ⟨offset + 1, [], ?_, rfl⟩
    rw [List.flatMap_nil, List.nil_append, readStringOnto, if_pos (by decide), List.append_nil]
    all_goals simp
  | cons p points ih =>
    have hmore : points.flatMap (escapedPoint asciiOnly) ++ '"' :: rest ≠ [] := by simp
    obtain ⟨next, first, hnext, hmakes⟩ := readStringOnto_escapedPoint asciiOnly p start done offset hmore
    obtain ⟨behind, parts, hbehind, hparts⟩ := ih (CodePoint.joined_tail hjoined) (first.reverse ++ done) next
    refine ⟨behind, first ++ parts, ?_, ?_⟩
    · rw [List.flatMap_cons, List.append_assoc, hnext, hbehind, List.reverse_append, List.reverse_reverse,
        List.append_assoc]
    · rw [List.foldr_append, hparts, hmakes points hjoined]

theorem gives_stringText (asciiOnly : Bool) (s : CodeText) (rest : List Char) :
    Gives readString (s.points.flatMap (escapedPoint asciiOnly) ++ '"' :: rest) s rest := by
  intro offset
  obtain ⟨behind, parts, hbehind, hparts⟩ := readStringOnto_written asciiOnly s.joined (offset - 1) [] offset rest
  have htext : CodeText.ofPoints parts = s := by
    cases s
    simp only [CodeText.ofPoints, hparts]
  exact ⟨behind, by rw [readString, hbehind, List.reverse_nil, List.nil_append, htext]⟩

end ContractMigration.Json
