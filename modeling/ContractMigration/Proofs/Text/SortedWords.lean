import ContractMigration.Text.SortedWords
import Mathlib.Data.List.Infix

/-!
# Looking a name up among sorted words

A bisection ends at the place where the words in front come before the name and those behind do not. A word that begins
with the name does not come before it, and whatever stands between the name and that word begins with the name as well
(`prefix_of_between`). So one word answers for all of them: `anyBegins_iff`.
-/

namespace ContractMigration.Text

theorem comesBefore_eq_false_of_begins {name word : List Char} (h : name <+: word) : comesBefore word name = false := by
  induction name generalizing word with
  | nil => rw [comesBefore]
  | cons c name ih =>
    obtain ⟨more, rfl⟩ := h
    rw [List.cons_append, comesBefore, if_pos rfl, ih (List.prefix_append name more)]

/-- Between a name and a word that begins with it stand only words that begin with it. -/
theorem prefix_of_between {name first word : List Char} (hname : comesBefore first name = false)
    (hfirst : comesBefore word first = false) (h : name <+: word) : name <+: first := by
  induction name generalizing first word with
  | nil => exact List.nil_prefix
  | cons c name ih =>
    obtain ⟨more, rfl⟩ := h
    cases first with
    | nil => exact absurd hname (by simp [comesBefore])
    | cons d first =>
      rw [comesBefore] at hname
      rw [List.cons_append, comesBefore] at hfirst
      by_cases hcd : c = d
      · subst hcd
        rw [if_pos rfl] at hname hfirst
        exact List.cons_prefix_cons.2 ⟨rfl, ih hname hfirst (List.prefix_append name more)⟩
      · rw [if_neg (Ne.symm hcd), decide_eq_false_iff_not] at hname
        rw [if_neg hcd, decide_eq_false_iff_not] at hfirst
        have heq : c.toNat = d.toNat := by omega
        exact absurd (Char.toNat_inj.1 heq) hcd

namespace SortedWords

variable (index : SortedWords) (name : List Char)

theorem comesBefore_getElem {i j : Nat} (hij : i ≤ j) (hj : j < index.words.size) :
    comesBefore index.words[j] index.words[i] = false := by
  rcases Nat.eq_or_lt_of_le hij with rfl | hlt
  · exact comesBefore_eq_false_of_begins (List.prefix_refl _)
  · exact List.pairwise_iff_getElem.1 index.ordered i j (by simpa using hlt.trans hj) (by simpa using hj) hlt

/-- The bisection narrows the stretch down to a place that parts the words that come before the name from the others. -/
theorem firstFrom_parts {low high : Nat} (within : high ≤ index.words.size)
    (hbefore : ∀ i, (h : i < index.words.size) → i < low → comesBefore index.words[i] name = true)
    (hbehind : ∀ i, (h : i < index.words.size) → high ≤ i → comesBefore index.words[i] name = false) :
    ∀ i, (h : i < index.words.size) →
      (i < index.firstFrom name low high within → comesBefore index.words[i] name = true) ∧
        (index.firstFrom name low high within ≤ i → comesBefore index.words[i] name = false) := by
  fun_induction firstFrom index name low high within with
  | case1 low high within bounds middle hlt ih =>
    apply ih
    · intro i h hi
      have hle : comesBefore index.words[middle] index.words[i] = false :=
        index.comesBefore_getElem (by omega) (by omega)
      exact (comesBefore_or hlt index.words[i]).resolve_left (by simp [hle])
    · exact hbehind
  | case2 low high within bounds middle hlt ih =>
    rw [Bool.not_eq_true] at hlt
    apply ih
    · exact hbefore
    · intro i h hi
      exact comesBefore_eq_false_trans hlt (index.comesBefore_getElem hi h)
  | case3 low high within bounds =>
    intro i h
    exact ⟨hbefore i h, fun hi => hbehind i h (by omega)⟩

theorem anyBegins_iff : index.anyBegins name = true ↔ ∃ word ∈ index.words, name <+: word := by
  have hparts := index.firstFrom_parts name (Nat.le_refl _) (fun i _ hi => absurd hi (Nat.not_lt_zero i))
    (fun i h hi => absurd h (by omega))
  rw [anyBegins, Option.any_eq_true]
  constructor
  · rintro ⟨word, hword, hbegins⟩
    exact ⟨word, Array.mem_of_getElem? hword, List.isPrefixOf_iff_prefix.1 hbegins⟩
  · rintro ⟨word, hmem, hbegins⟩
    obtain ⟨i, hi, rfl⟩ := Array.mem_iff_getElem.1 hmem
    -- a word that begins with the name is not among those that come before it
    have hle : index.firstFrom name 0 index.words.size (Nat.le_refl _) ≤ i := by
      by_contra hlt
      have hbefore := (hparts i hi).1 (by omega)
      exact absurd hbefore (by simp [comesBefore_eq_false_of_begins hbegins])
    have hfirst := (hparts _ (by omega)).2 (Nat.le_refl _)
    exact ⟨_, Array.getElem?_eq_getElem (by omega),
      List.isPrefixOf_iff_prefix.2 (prefix_of_between hfirst (index.comesBefore_getElem hle hi) hbegins)⟩

end SortedWords

end ContractMigration.Text
