import ContractMigration.Proofs.Text.Blank
import ContractMigration.Solidity.Parameter

/-!
# Characters of identifiers

An identifier goes on with whatever it may begin with, so every character of an identifier is an identifier
character. Names with dots are identifiers between the dots.
-/

namespace ContractMigration.Solidity

open Text

theorem toNat_lt_of_isAlpha {c : Char} (h : c.isAlpha = true) : c.toNat < 128 := by
  change (decide (c.val ≥ 'A'.val ∧ c.val ≤ 'Z'.val) || (decide (c.val ≥ 'a'.val) && decide (c.val ≤ 'z'.val))) = true
    at h
  simp only [Bool.or_eq_true, Bool.and_eq_true, decide_eq_true_eq, ge_iff_le, UInt32.le_iff_toNat_le] at h
  change (65 ≤ c.toNat ∧ c.toNat ≤ 90) ∨ (97 ≤ c.toNat ∧ c.toNat ≤ 122) at h
  omega

theorem isWordChar_of_isAlpha {c : Char} (h : c.isAlpha = true) : isWordChar c = true := by
  rw [isWordChar, isAlphanumeric, if_pos (toNat_lt_of_isAlpha h), Char.isAlphanum, h, Bool.true_or, Bool.or_true]

theorem isIdentifierChar_of_isIdentifierStart {c : Char} (h : isIdentifierStart c = true) :
    isIdentifierChar c = true := by
  simp only [isIdentifierStart, Bool.or_eq_true] at h
  rcases h with (halpha | hlow) | hdollar
  · simp [isIdentifierChar, isWordChar_of_isAlpha halpha]
  · simp [isIdentifierChar, isWordChar, hlow]
  · simp [isIdentifierChar, hdollar]

theorem isBlank_of_isIdentifierChar {c : Char} (h : isIdentifierChar c = true) : isBlank c = false := by
  simp only [isIdentifierChar, Bool.or_eq_true, beq_iff_eq] at h
  rcases h with hword | rfl
  · exact isBlank_of_isWordChar hword
  · decide

theorem ne_nil_of_isIdentifier {name : List Char} (h : isIdentifier name = true) : name ≠ [] := by
  rintro rfl
  exact absurd h (by decide)

theorem isIdentifierChar_of_isIdentifier {name : List Char} (h : isIdentifier name = true) :
    ∀ c ∈ name, isIdentifierChar c = true := by
  cases name with
  | nil => exact absurd h (by decide)
  | cons c rest =>
    simp only [isIdentifier, Bool.and_eq_true, List.all_eq_true] at h
    exact List.forall_mem_cons.2 ⟨isIdentifierChar_of_isIdentifierStart h.1, h.2⟩

/-- Whether a text is an identifier without dollar signs. -/
def isName (name : List Char) : Bool :=
  isIdentifier name && name.all isWordChar

theorem isIdentifier_of_isName {name : List Char} (h : isName name = true) : isIdentifier name = true :=
  (Bool.and_eq_true_iff.1 h).1

theorem isWordChar_of_isName {name : List Char} (h : isName name = true) : ∀ c ∈ name, isWordChar c = true :=
  List.all_eq_true.1 (Bool.and_eq_true_iff.1 h).2

/-- Identifiers with dots between them. -/
def IsDotted (name : List Char) : Prop :=
  ∀ part ∈ name.splitOn '.', isIdentifier part = true

instance (name : List Char) : Decidable (IsDotted name) :=
  inferInstanceAs (Decidable (∀ part ∈ name.splitOn '.', isIdentifier part = true))

theorem isDotted_of_isIdentifier {name : List Char} (h : isIdentifier name = true) : IsDotted name := by
  have hdot : ∀ c ∈ name, (c == '.') = false := by
    intro c hc
    have hchar := isIdentifierChar_of_isIdentifier h c hc
    have hne : c ≠ '.' := by
      rintro rfl
      exact absurd hchar (by decide)
    simpa using hne
  have hsplit : name.splitOn '.' = [name] := List.splitOnP_eq_singleton hdot
  intro part hpart
  rw [hsplit, List.mem_singleton] at hpart
  rwa [hpart]

theorem mem_intercalate_singleton {separator c : Char} {parts : List (List Char)}
    (h : c ∈ [separator].intercalate parts) : c = separator ∨ ∃ part ∈ parts, c ∈ part := by
  induction parts with
  | nil => exact absurd h (by simp)
  | cons part parts ih =>
    cases parts with
    | nil => exact .inr ⟨part, by simp, by simpa using h⟩
    | cons next parts =>
      rw [List.intercalate_cons_cons, List.mem_append, List.mem_append, List.mem_singleton] at h
      rcases h with (hpart | hseparator) | hrest
      · exact .inr ⟨part, by simp, hpart⟩
      · exact .inl hseparator
      · exact (ih hrest).imp_right fun ⟨other, hother, hc⟩ => ⟨other, List.mem_cons_of_mem _ hother, hc⟩

theorem IsDotted.ne_nil {name : List Char} (h : IsDotted name) : name ≠ [] := by
  rintro rfl
  exact absurd h (by decide)

theorem IsDotted.isIdentifierChar {name : List Char} (h : IsDotted name) :
    ∀ c ∈ name, c = '.' ∨ Solidity.isIdentifierChar c = true := by
  intro c hc
  have hjoin : ['.'].intercalate (name.splitOn '.') = name := List.intercalate_splitOn '.'
  rw [← hjoin] at hc
  obtain rfl | ⟨part, hpart, hmem⟩ := mem_intercalate_singleton hc
  · exact .inl rfl
  · exact .inr (isIdentifierChar_of_isIdentifier (h part hpart) c hmem)

end ContractMigration.Solidity
