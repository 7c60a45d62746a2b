import ContractMigration.Proofs.Rust.WordBreaks
import ContractMigration.Proofs.Solidity.Identifier
import ContractMigration.Proofs.Text.Words
import Mathlib.Data.List.DropRight

/-!
# Snake case and Pascal case of plain names

A plain name is an identifier of ASCII characters. Its snake case has no capitals left, so nothing is broken or
lower-cased a second time: snake case is a normal form (`snake_snake`), and the Pascal case of a name is that of its
snake case (`pascal_snake`). A number behind a name in snake case ends its Pascal case (`pascal_numbered`).
-/

namespace ContractMigration

namespace Solidity

/-- Whether a text is an identifier of ASCII characters, which is what the language admits as a name. -/
def isPlainIdentifier (name : List Char) : Bool :=
  isIdentifier name && name.all (·.toNat < 128)

theorem ascii_of_isPlainIdentifier {name : List Char} (h : isPlainIdentifier name = true) :
    ∀ c ∈ name, c.toNat < 128 := by
  have hall := (Bool.and_eq_true_iff.1 h).2
  simpa only [List.all_eq_true, decide_eq_true_eq] using hall

end Solidity

namespace Naming

open Text

/-- What holds of the first 128 characters holds of every ASCII character. -/
theorem forall_ascii {p : Char → Prop} (h : ∀ n < 128, p (Char.ofNat n)) {c : Char} (hc : c.toNat < 128) : p c := by
  rw [← Char.ofNat_toNat c]
  exact h _ hc

/-- Only ASCII characters, and none of them a capital. -/
def IsLowered (name : List Char) : Prop :=
  ∀ c ∈ name, c.toNat < 128 ∧ isCapital c = false

/-! ### Snake case -/

theorem mem_split {name : List Char} : ∀ c ∈ splitHumps (splitAcronyms name), c ∈ name ∨ c = '_' := by
  rw [split_eq]
  exact mem_insertBreaks

/-- Words end in front of capitals only. -/
theorem endsWord_of_lowered {rest : List Char} (h : IsLowered rest) (c : Char) : endsWord c rest = false := by
  have hnext : rest[0]?.any isCapital = false := by
    rw [Option.any_eq_false]
    exact fun d hd => by simp [(h d (List.mem_of_getElem? hd)).2]
  rw [endsWord, endsHump, endsAcronym, hnext, Bool.and_false, Bool.and_false, Bool.false_and, Bool.false_or]

theorem split_of_lowered {name : List Char} (h : IsLowered name) : splitHumps (splitAcronyms name) = name := by
  rw [split_eq]
  apply insertBreaks_eq_self
  exact fun c rest hsuffix => endsWord_of_lowered (fun d hd => h d (hsuffix.subset (List.mem_cons_of_mem c hd))) c

theorem lower_of_ascii {text : List Char} (h : ∀ c ∈ text, c.toNat < 128) : lower text = text.map Char.toLower := by
  have honto : ∀ (done : List Char) (afterCased : Bool),
      lowerOnto done afterCased text = done.reverse ++ text.map Char.toLower := by
    induction text with
    | nil => exact fun done afterCased => (List.append_nil _).symm
    | cons c text ih =>
      intro done afterCased
      rw [List.forall_mem_cons] at h
      have hsigma : c.toNat ≠ 0x3A3 := by omega
      rw [lowerOnto, if_neg hsigma, lowerChar, if_pos h.1, ih h.2]
      simp
  exact honto [] false

theorem isLowered_map_toLower {text : List Char} (h : ∀ c ∈ text, c.toNat < 128) :
    IsLowered (text.map Char.toLower) := by
  intro d hd
  obtain ⟨c, hc, rfl⟩ := List.mem_map.1 hd
  exact forall_ascii (p := fun c => c.toLower.toNat < 128 ∧ isCapital c.toLower = false) (by decide) (h c hc)

theorem lower_of_lowered {text : List Char} (h : IsLowered text) : lower text = text := by
  have hself : ∀ c ∈ text, c.toLower = c := fun c hc =>
    forall_ascii (p := fun c => isCapital c = false → c.toLower = c) (by decide) (h c hc).1 (h c hc).2
  rw [lower_of_ascii fun c hc => (h c hc).1, List.map_congr_left (g := id) hself, List.map_id]

theorem snake_of_lowered {name : List Char} (h : IsLowered name) :
    snake name = if name.dropWhile (· == '_') = [] then name else name.dropWhile (· == '_') := by
  rw [snake, split_of_lowered h, lower_of_lowered h]
  cases hstripped : name.dropWhile (· == '_') with
  | nil => rfl
  | cons c rest => rfl

/-- A name with underscores where its case changes, in lower case. -/
def brokenUp (name : List Char) : List Char :=
  (splitHumps (splitAcronyms name)).map Char.toLower

section Ascii

variable {name : List Char} (h : ∀ c ∈ name, c.toNat < 128)
include h

theorem ascii_split : ∀ c ∈ splitHumps (splitAcronyms name), c.toNat < 128 := by
  intro c hc
  rcases mem_split c hc with hname | rfl
  · exact h c hname
  · decide

theorem isLowered_brokenUp : IsLowered (brokenUp name) :=
  isLowered_map_toLower (ascii_split h)

theorem snake_brokenUp : snake name = snake (brokenUp name) := by
  rw [snake_of_lowered (isLowered_brokenUp h), snake, lower_of_ascii (ascii_split h), brokenUp]
  cases hstripped : ((splitHumps (splitAcronyms name)).map Char.toLower).dropWhile (· == '_') with
  | nil => rfl
  | cons c rest => rfl

theorem isLowered_snake : IsLowered (snake name) := by
  rw [snake_brokenUp h, snake_of_lowered (isLowered_brokenUp h)]
  split
  · exact isLowered_brokenUp h
  · exact fun c hc => isLowered_brokenUp h c ((List.dropWhile_suffix _).subset hc)

theorem snake_snake : snake (snake name) = snake name := by
  rw [snake_of_lowered (isLowered_snake h), snake_brokenUp h, snake_of_lowered (isLowered_brokenUp h)]
  by_cases hempty : (brokenUp name).dropWhile (· == '_') = []
  · simp only [hempty, if_true]
  · simp only [hempty, if_false, List.dropWhile_idempotent]

end Ascii

/-! ### Pascal case -/

theorem pascal_snake {name : List Char} (h : ∀ c ∈ name, c.toNat < 128) : pascal (snake name) = pascal name := by
  rw [pascal, pascal, snake_snake h]

theorem pieces_dropWhile (p : Char → Bool) (text : List Char) :
    ((text.dropWhile p).splitOnP p).filter (!·.isEmpty) = (text.splitOnP p).filter (!·.isEmpty) := by
  induction text with
  | nil => rfl
  | cons c text ih =>
    by_cases hc : p c = true
    · have hcut := pieces_append_cons hc [] text
      rw [List.nil_append] at hcut
      rw [List.dropWhile_cons_of_pos hc, ih, hcut]
      rfl
    · rw [List.dropWhile_cons_of_neg hc]

theorem pascal_of_lowered {name : List Char} (h : IsLowered name) :
    pascal name = ((name.splitOnP (· == '_')).filter (!·.isEmpty)).flatMap upperFirst := by
  rw [pascal, snake_of_lowered h]
  split
  · rfl
  · rw [pieces_dropWhile]

theorem toNat_lt_of_isDigit {c : Char} (h : c.isDigit = true) : c.toNat < 128 := by
  simp only [Char.isDigit, Bool.and_eq_true, decide_eq_true_eq, ge_iff_le, UInt32.le_iff_toNat_le] at h
  have hrange : 48 ≤ c.toNat ∧ c.toNat ≤ 57 := h
  omega

/-- What holds of the ten digits holds of every digit. -/
theorem forall_digit {p : Char → Prop} (h : ∀ n < 128, (Char.ofNat n).isDigit = true → p (Char.ofNat n)) {c : Char}
    (hc : c.isDigit = true) : p c :=
  forall_ascii (p := fun c => c.isDigit = true → p c) h (toNat_lt_of_isDigit hc) hc

section Numbered

variable {base digits : List Char} (hbase : IsLowered base) (hdigits : ∀ c ∈ digits, c.isDigit = true)
include hbase hdigits

theorem isLowered_numbered : IsLowered (base ++ '_' :: digits) := by
  have hnumber : IsLowered digits := fun c hc =>
    ⟨toNat_lt_of_isDigit (hdigits c hc), forall_digit (p := (isCapital · = false)) (by decide) (hdigits c hc)⟩
  exact List.forall_mem_append.2 ⟨hbase, List.forall_mem_cons.2 ⟨by decide, hnumber⟩⟩

/-- A number behind an underscore ends the Pascal case. -/
theorem pascal_numbered (hne : digits ≠ []) : ∃ front, pascal (base ++ '_' :: digits) = front ++ digits := by
  have hpiece : (digits.splitOnP (· == '_')).filter (!·.isEmpty) = [digits] :=
    pieces_of_all hne fun c hc => forall_digit (p := fun c => (c == '_') = false) (by decide) (hdigits c hc)
  have hupper : upperFirst digits = digits := by
    obtain ⟨c, rest, rfl⟩ := List.exists_cons_of_ne_nil hne
    have hc := hdigits c List.mem_cons_self
    have hself : c.toUpper = c := forall_digit (p := fun c => c.toUpper = c) (by decide) hc
    rw [upperFirst, upperChar, if_pos (toNat_lt_of_isDigit hc), hself, List.singleton_append]
  rw [pascal_of_lowered (isLowered_numbered hbase hdigits), pieces_append_cons (by decide), hpiece, List.flatMap_append,
    List.flatMap_singleton, hupper]
  exact ⟨_, rfl⟩

end Numbered

end Naming

end ContractMigration
