import ContractMigration.Proofs.Json.RoundTrip

/-!
# Values on one line

In the style for a log every character that is written is a printable one of ASCII (`isPlain_of_mem_text`), whatever
the strings of the value hold. So a value never runs on to a second line.
-/

namespace ContractMigration.Json

open Text

/-- The printable characters of ASCII. -/
def isPlain (c : Char) : Bool :=
  0x20 ≤ c.toNat && c.toNat < 0x7F

theorem isPlain_of_isScalarChar {c : Char} (h : isScalarChar c = true) : isPlain c = true := by
  simp only [isScalarChar, Bool.or_eq_true, beq_iff_eq] at h
  rcases h with ((hletter | rfl) | rfl) | rfl
  · change ((decide (c.val ≥ 'A'.val ∧ c.val ≤ 'Z'.val) || (decide (c.val ≥ 'a'.val) && decide (c.val ≤ 'z'.val))) ||
      (decide (c.val ≥ '0'.val) && decide (c.val ≤ '9'.val))) = true at hletter
    simp only [Bool.or_eq_true, Bool.and_eq_true, decide_eq_true_eq, ge_iff_le, UInt32.le_iff_toNat_le] at hletter
    change ((65 ≤ c.toNat ∧ c.toNat ≤ 90) ∨ (97 ≤ c.toNat ∧ c.toNat ≤ 122)) ∨ (48 ≤ c.toNat ∧ c.toNat ≤ 57) at hletter
    simp only [isPlain, Bool.and_eq_true, decide_eq_true_eq]
    omega
  · decide
  · decide
  · decide

theorem all_isPlain_of_scalarChars {letters : List Char} (h : ∀ c ∈ letters, isScalarChar c = true) :
    letters.all isPlain = true :=
  List.all_eq_true.2 fun c hc => isPlain_of_isScalarChar (h c hc)

theorem all_isPlain_escapedUnit {unit : Nat} (h : unit < 0x10000) : (escapedUnit unit).all isPlain = true := by
  have hdigit : ∀ digit < 16, isPlain (Nat.digitChar digit) = true := by decide
  have hslash : isPlain '\\' = true := by decide
  have hletter : isPlain 'u' = true := by decide
  rw [escapedUnit, hexPadded_four h]
  simp only [List.all_cons, List.all_nil, hslash, hletter, hdigit _ (Nat.mod_lt _ (by decide : 0 < 16)),
    hdigit (unit / 16 / 16 / 16) (by omega), Bool.and_true]

theorem all_isPlain_of_written {c : Char} {letters : List Char} (h : Written true c letters) :
    letters.all isPlain = true := by
  cases h with
  | short letter hletter _ =>
    have hshort : shortLetters.all isPlain = true := by decide
    have hslash : isPlain '\\' = true := by decide
    simp only [List.all_cons, List.all_nil, hslash, List.all_eq_true.1 hshort letter hletter, Bool.and_true]
  | plain _ _ hcontrol hascii =>
    have hbound := hascii rfl
    simp only [List.all_cons, List.all_nil, isPlain, Bool.and_true, Bool.and_eq_true, decide_eq_true_eq]
    omega
  | unit hbasic => exact all_isPlain_escapedUnit hbasic
  | pair first second hfirst hsecond _ =>
    rw [List.all_append, all_isPlain_escapedUnit (by omega), all_isPlain_escapedUnit (by omega)]
    rfl

theorem all_isPlain_escapedPoint (p : CodePoint) : (escapedPoint true p).all isPlain = true := by
  cases p with
  | char c => exact all_isPlain_of_written (written_escapedChar true c)
  | half number =>
    have hnumber := number.isLt
    exact all_isPlain_escapedUnit (by omega)

theorem all_isPlain_stringText (s : CodeText) : (stringText true s).all isPlain = true := by
  have hletters : (s.points.flatMap (escapedPoint true)).all isPlain = true := by
    rw [List.all_flatMap]
    exact List.all_eq_true.2 fun p _ => all_isPlain_escapedPoint p
  have hquote : isPlain '"' = true := by decide
  simp only [stringText, List.all_append, List.all_cons, List.all_nil, hquote, hletters, Bool.and_true]

mutual

theorem all_isPlain_text : (json : Json) → (text .line json).all isPlain = true
  | .null => by
    rw [text]
    decide
  | .bool b => by
    rw [text]
    cases b <;> decide
  | .int n => by
    rw [text]
    exact all_isPlain_of_scalarChars (scalarChars_integerText n)
  | .real x => by
    rw [text]
    exact all_isPlain_of_scalarChars (scalarChars_shortest x)
  | .str s => by
    rw [text]
    exact all_isPlain_stringText s
  | .arr items => by
    rw [text, List.all_append, List.all_cons, all_isPlain_itemsText items]
    decide
  | .obj members => by
    rw [text, List.all_append, List.all_cons, all_isPlain_membersText members]
    decide

theorem all_isPlain_itemsText : (items : List Json) → (itemsText .line items).all isPlain = true
  | [] => by
    rw [itemsText]
    rfl
  | [item] => by
    rw [itemsText]
    exact all_isPlain_text item
  | item :: next :: items => by
    rw [itemsText_cons_cons, List.all_append, List.all_append, all_isPlain_text item,
      all_isPlain_itemsText (next :: items)]
    decide

theorem all_isPlain_membersText : (members : List (CodeText × Json)) → (membersText .line members).all isPlain = true
  | [] => by
    rw [membersText]
    rfl
  | [(key, value)] => by
    rw [membersText, List.all_append, List.all_append, all_isPlain_text value]
    exact Bool.and_eq_true_iff.2 ⟨all_isPlain_stringText key, by decide⟩
  | (key, value) :: next :: members => by
    rw [membersText_cons_cons, List.all_append, List.all_append, List.all_append, List.all_append,
      all_isPlain_text value, all_isPlain_membersText (next :: members)]
    exact Bool.and_eq_true_iff.2 ⟨all_isPlain_stringText key, by decide⟩

end

end ContractMigration.Json
