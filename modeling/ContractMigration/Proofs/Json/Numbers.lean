import ContractMigration.Proofs.Json.Strings
import ContractMigration.Proofs.Text.Search
import Mathlib.Data.List.TakeWhile

/-!
# Numbers that are written and read

A number ends before anything that no number, name of a number or word has inside (`Delimited`): what is read of a text
with more behind it is what is read of the text alone (`readScalar_append`). So a number may be read by itself. The
digits of an integer are read as that integer (`splitNumber_integerText`), and for a number of double precision that is
read back at all it does not matter where it stands (`gives_of_readScalar`).
-/

namespace ContractMigration.Json

open Text

/-- The characters of numbers and words. -/
def isScalarChar (c : Char) : Bool :=
  c.isAlphanum || c == '.' || c == '+' || c == '-'

/-- Nothing follows that could belong to a number or a word. -/
def Delimited (rest : List Char) : Prop :=
  ∀ c ∈ rest.head?, isScalarChar c = false

theorem delimited_nil : Delimited [] := by
  simp [Delimited]

theorem delimited_cons {c : Char} {rest : List Char} (h : isScalarChar c = false) : Delimited (c :: rest) := by
  simpa [Delimited] using h

/-! ### The parts of a number -/

/-- A number as it is written. -/
structure NumberParts where
  negative : Bool
  whole : List Char
  fraction : List Char
  exponent : Option Exponent

namespace NumberParts

def isInteger (parts : NumberParts) : Bool :=
  parts.fraction.isEmpty && parts.exponent.isNone

/-- The number of characters. -/
def width (parts : NumberParts) : Nat :=
  (if parts.negative then 1 else 0) + parts.whole.length +
    (if parts.fraction.isEmpty then 0 else parts.fraction.length + 1) + (parts.exponent.map Exponent.width).getD 0

def value (parts : NumberParts) : Json :=
  numberOf parts.negative parts.whole parts.fraction parts.exponent

/-- The excess of a number that is an integer with too many digits. -/
def excess? (limits : Limits) (parts : NumberParts) : Option Excess :=
  if parts.isInteger then limits.integerExcess? parts.whole.length else none

end NumberParts

def splitSign (text : List Char) : Bool × List Char :=
  (text.head? == some '-', if text.head? == some '-' then text.drop 1 else text)

def splitWhole (text : List Char) : List Char × List Char :=
  match text with
  | '0' :: rest => (['0'], rest)
  | _ => splitDigits text

def splitNumber (text : List Char) : NumberParts × List Char :=
  let (negative, unsigned) := splitSign text
  let (whole, afterWhole) := splitWhole unsigned
  let (fraction, afterFraction) := splitFraction afterWhole
  let (exponent, after) := splitExponent afterFraction
  (⟨negative, whole, fraction, exponent⟩, after)

/-- What is read is decided by the parts of the number. -/
theorem readNumber_eq (limits : Limits) (offset : Nat) (text : List Char) :
    readNumber limits offset text =
      let (parts, after) := splitNumber text
      if parts.whole.isEmpty then .error (.stuck offset)
      else
        match parts.excess? limits with
        | some excess => .error (.beyond excess)
        | none => .ok (parts.value, offset + parts.width, after) :=
  rfl

/-- The word at the head of a text that is a value by itself, with its length and what follows it. -/
def wordAt? (text : List Char) : Option (Json × Nat × List Char) :=
  wordValues.findSome? fun (word, value) => (after? word text).map fun rest => (value, word.length, rest)

theorem readScalar_eq (limits : Limits) (offset : Nat) (text : List Char) :
    readScalar limits offset text =
      match wordAt? text with
      | some (value, width, rest) => .ok (value, offset + width, rest)
      | none => readNumber limits offset text := by
  have hfound : (wordValues.findSome? fun (word, value) =>
      (after? word text).map fun rest => (value, offset + word.length, rest)) =
      (wordAt? text).map fun (value, width, rest) => (value, offset + width, rest) := by
    rw [wordAt?, List.map_findSome?]
    simp only [Function.comp_def, Option.map_map]
  unfold readScalar
  simp only
  rw [hfound]
  cases wordAt? text <;> rfl

theorem splitWhole_eq (text : List Char) :
    splitWhole text = if text.head? == some '0' then (['0'], text.drop 1) else splitDigits text := by
  unfold splitWhole
  split
  · rfl
  next hzero =>
    cases text with
    | nil => rfl
    | cons c text =>
      have hne : c ≠ '0' := by
        rintro rfl
        exact hzero text rfl
      simp [hne]

theorem splitFraction_eq (text : List Char) :
    splitFraction text =
      if text.head? == some '.' then
        if (splitDigits (text.drop 1)).1.isEmpty then ([], text) else splitDigits (text.drop 1)
      else ([], text) := by
  unfold splitFraction
  split
  · rfl
  next hpoint =>
    cases text with
    | nil => rfl
    | cons c text =>
      have hne : c ≠ '.' := by
        rintro rfl
        exact hpoint text rfl
      simp [hne]

/-! ### With more behind it -/

section Append

variable {rest : List Char} (h : Delimited rest)

include h

theorem splitDigits_append (text : List Char) :
    splitDigits (text ++ rest) = ((splitDigits text).1, (splitDigits text).2 ++ rest) := by
  induction text with
  | nil =>
    cases rest with
    | nil => rfl
    | cons c rest =>
      have hc : c.isDigit = false := by
        have hscalar := h c rfl
        simp only [isScalarChar, Char.isAlphanum, Bool.or_eq_false_iff] at hscalar
        exact hscalar.1.1.1.2
      simp [splitDigits, hc]
  | cons c text ih =>
    simp only [splitDigits, List.cons_append, List.takeWhile_cons, List.dropWhile_cons, Prod.mk.injEq] at ih ⊢
    split <;> simp [ih]

theorem head?_append_of_delimited (text : List Char) {c : Char} (hc : isScalarChar c = true) :
    ((text ++ rest).head? == some c) = (text.head? == some c) := by
  cases text with
  | cons d text => rfl
  | nil =>
    cases rest with
    | nil => rfl
    | cons d rest =>
      have hne : d ≠ c := by
        rintro rfl
        exact absurd (h d rfl) (by simp [hc])
      simpa using hne

theorem splitSign_append (text : List Char) :
    splitSign (text ++ rest) = ((splitSign text).1, (splitSign text).2 ++ rest) := by
  simp only [splitSign, head?_append_of_delimited h text (show isScalarChar '-' = true by decide)]
  cases text with
  | nil => simp
  | cons c text => split <;> simp

theorem splitWhole_append (text : List Char) :
    splitWhole (text ++ rest) = ((splitWhole text).1, (splitWhole text).2 ++ rest) := by
  have hhead := head?_append_of_delimited h text (show isScalarChar '0' = true by decide)
  simp only [splitWhole_eq, hhead, splitDigits_append h]
  cases text with
  | nil => simp
  | cons c text => split <;> simp

theorem splitFraction_append (text : List Char) :
    splitFraction (text ++ rest) = ((splitFraction text).1, (splitFraction text).2 ++ rest) := by
  have hhead := head?_append_of_delimited h text (show isScalarChar '.' = true by decide)
  simp only [splitFraction_eq, hhead]
  cases text with
  | nil => simp
  | cons c text =>
    rw [List.cons_append, List.drop_one, List.drop_one, List.tail_cons, List.tail_cons, splitDigits_append h]
    split_ifs <;> simp

theorem splitExponent_append (text : List Char) :
    splitExponent (text ++ rest) = ((splitExponent text).1, (splitExponent text).2 ++ rest) := by
  cases text with
  | nil =>
    cases rest with
    | nil => rfl
    | cons c rest =>
      have hc := h c rfl
      have hletter : (c == 'e' || c == 'E') = false := by
        simp only [Bool.or_eq_false_iff, beq_eq_false_iff_ne]
        constructor <;> rintro rfl <;> exact absurd hc (by decide)
      simp [splitExponent, hletter]
  | cons c text =>
    have hminus := head?_append_of_delimited h text (show isScalarChar '-' = true by decide)
    have hplus := head?_append_of_delimited h text (show isScalarChar '+' = true by decide)
    have hunsigned : (if (text.head? == some '-' || text.head? == some '+') = true then (text ++ rest).drop 1
        else text ++ rest) = (if (text.head? == some '-' || text.head? == some '+') = true then text.drop 1
        else text) ++ rest := by
      cases text with
      | nil => simp
      | cons d text => split <;> rfl
    simp only [List.cons_append, splitExponent, hminus, hplus, hunsigned, splitDigits_append h]
    split_ifs <;> rfl

theorem splitNumber_append (text : List Char) :
    splitNumber (text ++ rest) = ((splitNumber text).1, (splitNumber text).2 ++ rest) := by
  simp only [splitNumber, splitSign_append h, splitWhole_append h, splitFraction_append h, splitExponent_append h]

theorem readNumber_append (limits : Limits) (offset : Nat) (text : List Char) :
    readNumber limits offset (text ++ rest) =
      (readNumber limits offset text).map fun (value, behind, after) => (value, behind, after ++ rest) := by
  rw [readNumber_eq, readNumber_eq, splitNumber_append h]
  simp only
  split
  · rfl
  · split <;> rfl

theorem after?_append_delimited {word : List Char} (hword : ∀ c ∈ word, isScalarChar c = true) (text : List Char) :
    after? word (text ++ rest) = (after? word text).map (· ++ rest) := by
  cases hlonger : after? word (text ++ rest) with
  | some found =>
    obtain ⟨more, rfl, rfl⟩ := after?_run hword h hlonger
    rw [after?_append_self, Option.map_some]
  | none =>
    cases hafter : after? word text with
    | none => rfl
    | some more =>
      rw [after?_eq_some_iff.1 hafter, List.append_assoc, after?_append_self] at hlonger
      exact absurd hlonger (by simp)

theorem wordAt?_append (text : List Char) :
    wordAt? (text ++ rest) = (wordAt? text).map fun (value, width, after) => (value, width, after ++ rest) := by
  have hwords : wordValues.all (fun entry => entry.1.all isScalarChar) = true := by decide
  unfold wordAt?
  generalize wordValues = entries at hwords
  induction entries with
  | nil => rfl
  | cons entry entries ih =>
    rw [List.all_cons, Bool.and_eq_true] at hwords
    have hentry := after?_append_delimited h (List.all_eq_true.1 hwords.1) text
    simp only [List.findSome?_cons, hentry, ih hwords.2]
    cases after? entry.1 text <;> rfl

theorem readScalar_append (limits : Limits) (offset : Nat) (text : List Char) :
    readScalar limits offset (text ++ rest) =
      (readScalar limits offset text).map fun (value, behind, after) => (value, behind, after ++ rest) := by
  rw [readScalar_eq, readScalar_eq, wordAt?_append h]
  cases wordAt? text with
  | some _ => rfl
  | none => exact readNumber_append h limits offset text

end Append

/-- What is read of a text alone is read of it in front of other text. -/
theorem Gives.append {limits : Limits} {text : List Char} {value : Json}
    (hgives : Gives (readScalar limits) text value []) {rest : List Char} (hrest : Delimited rest) :
    Gives (readScalar limits) (text ++ rest) value rest := by
  intro offset
  obtain ⟨behind, hbehind⟩ := hgives offset
  exact ⟨behind, by rw [readScalar_append hrest, hbehind]; rfl⟩

/-! ### Integers -/

theorem digitsValue_toDigits (n : Nat) : digitsValue (Nat.toDigits 10 n) = n := by
  have hvalue (digits : List Char) : digitsValue digits = Nat.ofDigitChars 10 digits 0 := by
    rw [digitsValue, Nat.ofDigitChars_eq_foldl]
    simp only [Nat.mul_comm]
    rfl
  rw [hvalue, Nat.ofDigitChars_ten_toDigits]

/-- Only the number zero begins with a zero. -/
theorem head?_toDigits {n : Nat} (h : 0 < n) : (Nat.toDigits 10 n).head? ≠ some '0' := by
  induction n using Nat.strongRecOn with
  | ind n ih =>
    by_cases hn : n < 10
    · rw [Nat.toDigits_of_lt_base hn, List.head?_cons]
      simpa using Nat.ne_of_gt h
    · rw [Nat.toDigits_of_base_le (by decide) (by omega), List.head?_append_of_ne_nil _ Nat.toDigits_ne_nil]
      exact ih (n / 10) (by omega) (by omega)

theorem splitDigits_toDigits (n : Nat) : splitDigits (Nat.toDigits 10 n) = (Nat.toDigits 10 n, []) := by
  have hdigits : ∀ c ∈ Nat.toDigits 10 n, c.isDigit = true := fun c hc =>
    Nat.isDigit_of_mem_toDigits (by decide) (by decide) hc
  rw [splitDigits, List.takeWhile_eq_self_iff.2 hdigits, List.dropWhile_eq_nil_iff.2 hdigits]

theorem splitWhole_toDigits (n : Nat) : splitWhole (Nat.toDigits 10 n) = (Nat.toDigits 10 n, []) := by
  rcases Nat.eq_zero_or_pos n with rfl | hn
  · rfl
  · rw [splitWhole_eq, if_neg (by simpa using head?_toDigits hn), splitDigits_toDigits]

theorem exists_toDigits_cons (n : Nat) : ∃ c digits, Nat.toDigits 10 n = c :: digits ∧ c.isDigit = true := by
  obtain ⟨c, digits, hcons⟩ := List.exists_cons_of_ne_nil (@Nat.toDigits_ne_nil n 10)
  exact ⟨c, digits, hcons, Nat.isDigit_of_mem_toDigits (b := 10) (n := n) (by decide) (by decide) (by simp [hcons])⟩

theorem splitSign_integerText (n : Int) :
    splitSign (integerText n) = (decide (n < 0), Nat.toDigits 10 n.natAbs) := by
  obtain ⟨c, digits, hcons, hc⟩ := exists_toDigits_cons n.natAbs
  have hminus : c ≠ '-' := by
    rintro rfl
    exact absurd hc (by decide)
  by_cases hn : n < 0
  · simp [splitSign, integerText, hn]
  · simp [splitSign, integerText, hn, hcons, hminus]

theorem splitNumber_integerText (n : Int) :
    splitNumber (integerText n) = (⟨decide (n < 0), Nat.toDigits 10 n.natAbs, [], none⟩, []) := by
  simp only [splitNumber, splitSign_integerText, splitWhole_toDigits]
  rfl

theorem chars_integerText (n : Int) : ∀ c ∈ integerText n, c.isDigit = true ∨ c = '-' := by
  have hdigits : ∀ c ∈ Nat.toDigits 10 n.natAbs, c.isDigit = true := fun c hc =>
    Nat.isDigit_of_mem_toDigits (by decide) (by decide) hc
  intro c hc
  unfold integerText at hc
  split at hc
  · rcases List.mem_cons.1 hc with rfl | hc
    · exact .inr rfl
    · exact .inl (hdigits c hc)
  · exact .inl (hdigits c hc)

/-- The characters of decimal literals. -/
def isLiteralChar (c : Char) : Bool :=
  c.isDigit || c == '-' || c == '+' || c == '.' || c == 'e'

/-- In each word that is a value by itself there is a letter that is in no literal. -/
theorem wordAt?_eq_none {text : List Char} (h : ∀ c ∈ text, isLiteralChar c = true) : wordAt? text = none := by
  have hwords : wordValues.all (fun entry => entry.1.any fun c => !isLiteralChar c) = true := by decide
  refine List.findSome?_eq_none_iff.2 fun entry hentry => ?_
  obtain ⟨c, hc, hforeign⟩ := List.any_eq_true.1 (List.all_eq_true.1 hwords entry hentry)
  refine Option.map_eq_none_iff.2 (Option.eq_none_iff_forall_ne_some.2 fun rest hrest => ?_)
  have hmem : c ∈ text := by
    rw [after?_eq_some_iff.1 hrest]
    exact List.mem_append_left rest hc
  exact absurd (h c hmem) (by simpa using hforeign)

theorem wordAt?_integerText (n : Int) : wordAt? (integerText n) = none := by
  refine wordAt?_eq_none fun c hc => ?_
  rcases chars_integerText n c hc with hdigit | rfl
  · simp [isLiteralChar, hdigit]
  · decide

theorem value_integerText (n : Int) :
    NumberParts.value ⟨decide (n < 0), Nat.toDigits 10 n.natAbs, [], none⟩ = .int n := by
  have hvalue : (if decide (n < 0) then -(n.natAbs : Int) else n.natAbs) = n := by
    by_cases hn : n < 0
    · rw [if_pos (by simpa using hn)]
      omega
    · rw [if_neg (by simpa using hn)]
      omega
  simp only [NumberParts.value, numberOf, digitsValue_toDigits, hvalue]
  rfl

theorem gives_integerText {limits : Limits} {n : Int}
    (h : limits.integerExcess? (Nat.toDigits 10 n.natAbs).length = none) {rest : List Char} (hrest : Delimited rest) :
    Gives (readScalar limits) (integerText n ++ rest) (.int n) rest := by
  have hempty : (Nat.toDigits 10 n.natAbs).isEmpty = false := by simp [Nat.toDigits_ne_nil]
  have hexcess : NumberParts.excess? limits ⟨decide (n < 0), Nat.toDigits 10 n.natAbs, [], none⟩ = none := h
  have halone : Gives (readScalar limits) (integerText n) (.int n) [] := by
    intro offset
    simp [readScalar_eq, wordAt?_integerText, readNumber_eq, splitNumber_integerText, hempty, hexcess,
      value_integerText]
  exact halone.append hrest

/-! ### Numbers of double precision -/

theorem scalarChar_of_digit {c : Char} (h : c.isDigit = true) : isScalarChar c = true := by
  simp [isScalarChar, Char.isAlphanum, h]

theorem scalarChars_toDigits (n : Nat) : ∀ c ∈ Nat.toDigits 10 n, isScalarChar c = true := fun _ hc =>
  scalarChar_of_digit (Nat.isDigit_of_mem_toDigits (by decide) (by decide) hc)

theorem scalarChars_digitsPadded (width n : Nat) : ∀ c ∈ Numeric.digitsPadded width n, isScalarChar c = true :=
  List.forall_mem_append.2 ⟨fun c hc => by rw [(List.mem_replicate.1 hc).2]; decide, scalarChars_toDigits n⟩

theorem scalarChars_shortestMagnitude (layout : Numeric.ShortestLayout) (x : Rat) :
    ∀ c ∈ Numeric.shortestMagnitude layout x, isScalarChar c = true := by
  have hpoint : isScalarChar '.' = true := by decide
  have hzero : isScalarChar '0' = true := by decide
  have hzeros (count : Nat) : ∀ c ∈ List.replicate count '0', isScalarChar c = true := fun c hc => by
    rw [(List.mem_replicate.1 hc).2, hzero]
  unfold Numeric.shortestMagnitude
  generalize Numeric.shortestFrom x (Numeric.decimalExponent x) 18 1 = found
  have hdigits : ∀ c ∈ ((Nat.toDigits 10 found.1).reverse.dropWhile (· == '0')).reverse, isScalarChar c = true :=
    fun c hc => scalarChars_toDigits found.1 c
      (List.mem_reverse.1 ((List.dropWhile_sublist _).mem (List.mem_reverse.1 hc)))
  simp only
  generalize ((Nat.toDigits 10 found.1).reverse.dropWhile (· == '0')).reverse = digits at hdigits
  generalize found.2 + (Nat.toDigits 10 found.1).length - 1 = leading
  split
  · split
    · simp only [List.cons_append, List.forall_mem_cons, List.forall_mem_append]
      exact ⟨hzero, hpoint, hzeros _, hdigits⟩
    · have hwhole : ∀ c ∈ digits.take (leading.toNat + 1), isScalarChar c = true := fun c hc =>
        hdigits c (List.mem_of_mem_take hc)
      have hbehind : ∀ c ∈ digits.drop (leading.toNat + 1), isScalarChar c = true := fun c hc =>
        hdigits c (List.mem_of_mem_drop hc)
      simp only [List.forall_mem_cons, List.forall_mem_append]
      refine ⟨⟨hwhole, hzeros _⟩, hpoint, ?_⟩
      split
      · simpa using hzero
      · exact hbehind
  · have hsign : isScalarChar (if leading < 0 then '-' else '+') = true := by split <;> decide
    simp only [List.forall_mem_cons, List.forall_mem_append]
    refine ⟨?_, by decide, hsign, scalarChars_digitsPadded _ _⟩
    match digits, hdigits with
    | [], _ => simp
    | [d], hdigits => exact hdigits
    | d :: next :: more, hdigits =>
      obtain ⟨hd, hmore⟩ := List.forall_mem_cons.1 hdigits
      exact List.forall_mem_cons.2 ⟨hd, List.forall_mem_cons.2 ⟨hpoint, hmore⟩⟩

theorem scalarChars_shortest (x : Numeric.Double) : ∀ c ∈ x.shortest.toList, isScalarChar c = true := by
  cases x with
  | finite negative magnitude =>
    have hmagnitude : ∀ c ∈ (if magnitude = 0 then "0.0".toList else Numeric.shortestMagnitude .standard magnitude),
        isScalarChar c = true := by
      split
      · exact List.all_eq_true.1 (by decide)
      · exact scalarChars_shortestMagnitude _ _
    rw [Numeric.Double.shortest]
    simp only [String.toList_ofList]
    split
    · exact List.forall_mem_cons.2 ⟨by decide, hmagnitude⟩
    · exact hmagnitude
  | infinite negative => cases negative <;> exact List.all_eq_true.1 (by decide)
  | notANumber => exact List.all_eq_true.1 (by decide)

/-! ### Where a number stands -/

theorem excess?_eq_none {limits : Limits} {parts : NumberParts} {x : Numeric.Double} (h : parts.value = .real x) :
    parts.excess? limits = none := by
  have hinteger : ¬ (parts.fraction.isEmpty && parts.exponent.isNone) = true := by
    intro hinteger
    rw [NumberParts.value, numberOf, if_pos hinteger] at h
    cases h
  exact if_neg hinteger

/-- A number of double precision that is read is read within any limits and wherever it stands. -/
theorem gives_of_readScalar {limits : Limits} {offset behind : Nat} {text after : List Char} {x : Numeric.Double}
    (h : readScalar limits offset text = .ok (.real x, behind, after)) (others : Limits) :
    Gives (readScalar others) text (.real x) after := by
  intro place
  rw [readScalar_eq] at h ⊢
  cases hword : wordAt? text with
  | some found =>
    rw [hword] at h
    obtain ⟨value, width, rest⟩ := found
    cases h
    exact ⟨place + width, rfl⟩
  | none =>
    rw [hword] at h
    simp only [readNumber_eq] at h ⊢
    split at h
    · cases h
    next hwhole =>
      split at h
      · cases h
      · obtain ⟨hvalue, -, rfl⟩ : (splitNumber text).1.value = .real x ∧ _ ∧ (splitNumber text).2 = after := by
          simpa using h
        rw [if_neg hwhole, excess?_eq_none hvalue, hvalue]
        exact ⟨place + (splitNumber text).1.width, rfl⟩

end ContractMigration.Json
