import ContractMigration.Proofs.Text.Search
import ContractMigration.Text.Blank
import ContractMigration.Text.Alphanumeric

/-!
# Blanks

No blank is a word character, so a word ends where a blank stands. Trimming removes blanks from the ends of a text and
leaves a text alone that has none there.
-/

namespace ContractMigration.Text

/-- The code points of the blanks. -/
def blankPoints : List Nat :=
  [9, 10, 11, 12, 13, 28, 29, 30, 31, 32, 0x85, 0xA0, 0x1680, 0x2000, 0x2001, 0x2002, 0x2003, 0x2004, 0x2005, 0x2006,
    0x2007, 0x2008, 0x2009, 0x200A, 0x2028, 0x2029, 0x202F, 0x205F, 0x3000]

theorem mem_blankPoints {c : Char} (h : isBlank c = true) : c.toNat ∈ blankPoints := by
  simp only [isBlank, Bool.or_eq_true, Bool.and_eq_true, decide_eq_true_eq, beq_iff_eq] at h
  simp only [blankPoints, List.mem_cons, List.not_mem_nil, or_false]
  omega

theorem isWordChar_of_isBlank {c : Char} (h : isBlank c = true) : isWordChar c = false := by
  have hpoints : ∀ point ∈ blankPoints, isWordChar (Char.ofNat point) = false := by decide +kernel
  rw [← Char.ofNat_toNat c]
  exact hpoints _ (mem_blankPoints h)

theorem isBlank_of_isWordChar {c : Char} (h : isWordChar c = true) : isBlank c = false := by
  cases hc : isBlank c with
  | false => rfl
  | true => exact absurd h (by simp [isWordChar_of_isBlank hc])

/-! ### Trimming -/

theorem trimLeft_of_head {text : List Char} (h : ∀ c ∈ text.head?, isBlank c = false) : trimLeft text = text := by
  cases text with
  | nil => rfl
  | cons c text => rw [trimLeft, List.dropWhile_cons_of_neg (by simp [h c rfl])]

theorem trimLeft_cons {c : Char} (hc : isBlank c = false) (text : List Char) : trimLeft (c :: text) = c :: text :=
  trimLeft_of_head (by simpa using hc)

theorem trimRight_of_last {text : List Char} (h : ∀ c ∈ text.getLast?, isBlank c = false) : trimRight text = text := by
  have hreverse : trimLeft text.reverse = text.reverse := trimLeft_of_head (by simpa using h)
  rw [trimRight, ← trimLeft, hreverse, List.reverse_reverse]

theorem trimLeft_blank {c : Char} (h : isBlank c = true) (text : List Char) : trimLeft (c :: text) = trimLeft text := by
  rw [trimLeft, List.dropWhile_cons_of_pos h, trimLeft]

theorem trimLeft_append_cons {c : Char} (hc : isBlank c = false) (front rest : List Char) :
    trimLeft (front ++ c :: rest) = trimLeft front ++ c :: rest := by
  induction front with
  | nil => exact trimLeft_cons hc rest
  | cons d front ih =>
    cases hd : isBlank d with
    | true => rw [List.cons_append, trimLeft_blank hd, trimLeft_blank hd, ih]
    | false => rw [List.cons_append, trimLeft_cons hd, trimLeft_cons hd, List.cons_append]

theorem trimRight_concat {c : Char} (h : isBlank c = true) (text : List Char) :
    trimRight (text ++ [c]) = trimRight text := by
  rw [trimRight, List.reverse_concat, List.dropWhile_cons_of_pos h, trimRight]

theorem trimRight_append_blanks {gap : List Char} (h : ∀ c ∈ gap, isBlank c = true) (text : List Char) :
    trimRight (text ++ gap) = trimRight text := by
  rw [trimRight, trimRight, List.reverse_append, List.dropWhile_append_of_pos]
  simpa using h

theorem trim_of_ends {text : List Char} (hhead : ∀ c ∈ text.head?, isBlank c = false)
    (hlast : ∀ c ∈ text.getLast?, isBlank c = false) : trim text = text := by
  rw [trim, trimLeft_of_head hhead, trimRight_of_last hlast]

end ContractMigration.Text
