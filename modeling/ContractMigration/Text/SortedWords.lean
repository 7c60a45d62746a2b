/-!
# Sorted words

Words are kept in the order of their code points to be looked up by how they begin. The words that begin with a name
stand together there, right behind those that come before the name, so a bisection that finds the end of the latter
finds the first of the former.
-/

namespace ContractMigration.Text

/-- Whether a word comes before another in the order of their code points. -/
def comesBefore : List Char → List Char → Bool
  | _, [] => false
  | [], _ :: _ => true
  | c :: left, d :: right => if c = d then comesBefore left right else c.toNat < d.toNat

theorem comesBefore_asymm {left right : List Char} (h : comesBefore left right = true) :
    comesBefore right left = false := by
  induction left generalizing right with
  | nil => rw [comesBefore]
  | cons c left ih =>
    cases right with
    | nil => exact absurd h Bool.false_ne_true
    | cons d right =>
      rw [comesBefore] at h ⊢
      by_cases hcd : c = d
      · rw [if_pos hcd] at h
        rw [if_pos hcd.symm, ih h]
      · rw [if_neg hcd, decide_eq_true_iff] at h
        rw [if_neg (Ne.symm hcd), decide_eq_false_iff_not]
        omega

/-- A word between two others comes behind the first or before the second. -/
theorem comesBefore_or {left right : List Char} (h : comesBefore left right = true) (middle : List Char) :
    comesBefore left middle = true ∨ comesBefore middle right = true := by
  induction left generalizing right middle with
  | nil =>
    cases middle with
    | nil => exact .inr h
    | cons e middle => exact .inl rfl
  | cons c left ih =>
    cases right with
    | nil => exact absurd h Bool.false_ne_true
    | cons d right =>
      cases middle with
      | nil => exact .inr rfl
      | cons e middle =>
        rw [comesBefore] at h
        by_cases hcd : c = d
        · subst hcd
          rw [if_pos rfl] at h
          by_cases hce : c = e
          · subst hce
            simpa [comesBefore] using ih h middle
          · have hne : c.toNat ≠ e.toNat := fun heq => hce (Char.toNat_inj.1 heq)
            simp only [comesBefore, if_neg hce, if_neg (Ne.symm hce), decide_eq_true_iff]
            omega
        · rw [if_neg hcd, decide_eq_true_iff] at h
          by_cases hce : c = e
          · subst hce
            exact .inr (by simpa [comesBefore, hcd] using h)
          · by_cases hed : e = d
            · subst hed
              exact .inl (by simpa [comesBefore, hce] using h)
            · simp only [comesBefore, if_neg hce, if_neg hed, decide_eq_true_iff]
              omega

/-- What does not come before the middle does not come before what the middle does not come before. -/
theorem comesBefore_eq_false_trans {left middle right : List Char} (hleft : comesBefore middle left = false)
    (hright : comesBefore right middle = false) : comesBefore right left = false := by
  refine Bool.eq_false_iff.2 fun h => ?_
  rcases comesBefore_or h middle with hfirst | hsecond
  · exact absurd hfirst (by simp [hright])
  · exact absurd hsecond (by simp [hleft])

/-- Puts a word in front of the first one that does not come before it. -/
def insertWord (word : List Char) : List (List Char) → List (List Char)
  | [] => [word]
  | next :: rest => if comesBefore next word then next :: insertWord word rest else word :: next :: rest

theorem mem_insertWord {word other : List Char} {words : List (List Char)} :
    other ∈ insertWord word words ↔ other = word ∨ other ∈ words := by
  induction words with
  | nil => exact List.mem_cons
  | cons next rest ih =>
    rw [insertWord]
    split
    · rw [List.mem_cons, ih, List.mem_cons, or_left_comm]
    · exact List.mem_cons

/-- No word of the list comes before one that stands in front of it. -/
def Ordered (words : List (List Char)) : Prop :=
  words.Pairwise fun first second => comesBefore second first = false

theorem ordered_insertWord (word : List Char) {words : List (List Char)} (h : Ordered words) :
    Ordered (insertWord word words) := by
  induction words with
  | nil => exact List.pairwise_singleton _ _
  | cons next rest ih =>
    obtain ⟨hnext, hrest⟩ := List.pairwise_cons.1 h
    rw [insertWord]
    split
    · next hbefore =>
      refine List.pairwise_cons.2 ⟨fun other hother => ?_, ih hrest⟩
      rcases mem_insertWord.1 hother with rfl | hmem
      · exact comesBefore_asymm hbefore
      · exact hnext other hmem
    · next hbehind =>
      refine List.pairwise_cons.2 ⟨fun other hother => ?_, h⟩
      rw [Bool.not_eq_true] at hbehind
      rcases List.mem_cons.1 hother with rfl | hmem
      · exact hbehind
      · exact comesBefore_eq_false_trans hbehind (hnext other hmem)

/-- Words in the order of their code points. -/
structure SortedWords where
  words : Array (List Char)
  ordered : Ordered words.toList
deriving Repr

namespace SortedWords

/-- The words of a list, sorted. -/
def ofList (words : List (List Char)) : SortedWords where
  words := (words.foldr insertWord []).toArray
  ordered := by
    induction words with
    | nil => exact .nil
    | cons word words ih => exact ordered_insertWord word ih

theorem mem_ofList {words : List (List Char)} {word : List Char} : word ∈ (ofList words).words ↔ word ∈ words := by
  rw [ofList, List.mem_toArray]
  induction words with
  | nil => exact Iff.rfl
  | cons next words ih => rw [List.foldr_cons, mem_insertWord, ih, List.mem_cons]

/-- The first place in a stretch whose word does not come before the name, or the end of the stretch. -/
def firstFrom (index : SortedWords) (name : List Char) (low high : Nat) (within : high ≤ index.words.size) : Nat :=
  if bounds : low < high then
    let middle := (low + high) / 2
    if comesBefore index.words[middle] name then firstFrom index name (middle + 1) high within
    else firstFrom index name low middle (by omega)
  else low
termination_by high - low

/-- Whether some word begins with the name. Only one is looked at: the first that does not come before the name. -/
def anyBegins (index : SortedWords) (name : List Char) : Bool :=
  index.words[index.firstFrom name 0 index.words.size (Nat.le_refl _)]?.any name.isPrefixOf

end SortedWords

end ContractMigration.Text
