import ContractMigration.Proofs.Solidity.Balance

/-!
# The parts between separators

The split outside brackets cuts at a separator where the depth is zero, and so the part behind it begins at depth zero
again. That makes the walk over a part alone the same as the walk over it in the whole text: no part holds a separator
that the split would find in it (`whole_of_mem_splitOnto`). Nothing is needed of the text, in which closers may have no
openers, nor of the separator, which may be a bracket itself. Main statement: `splitOutsideBrackets_parts`.
-/

namespace ContractMigration.Solidity

/-- The depth behind a text, given the depth in front of it. -/
def nestingBehind (depth : Nat) (text : List Char) : Nat :=
  text.foldl nestingAfter depth

/-- A walk that begins at a depth ends early exactly if the separator stands at depth zero behind some beginning. -/
theorem depthBehind_eq_none_iff {separator : Char} {depth : Nat} {text : List Char} :
    depthBehind separator depth text = none ↔
      ∃ front, front ++ [separator] <+: text ∧ nestingBehind depth (front ++ [separator]) = 0 := by
  induction text generalizing depth with
  | nil => simp [depthBehind]
  | cons c text ih =>
    rw [depthBehind]
    by_cases hcut : separator = c ∧ nestingAfter depth c = 0
    · rw [if_pos hcut]
      obtain ⟨rfl, hdepth⟩ := hcut
      exact iff_of_true rfl ⟨[], List.cons_prefix_cons.2 ⟨rfl, List.nil_prefix⟩, hdepth⟩
    · rw [if_neg hcut, ih]
      constructor
      · rintro ⟨front, hfront, hdepth⟩
        exact ⟨c :: front, List.cons_prefix_cons.2 ⟨rfl, hfront⟩, hdepth⟩
      · rintro ⟨front, hfront, hdepth⟩
        cases front with
        | nil =>
          obtain ⟨rfl, -⟩ := List.cons_prefix_cons.1 hfront
          exact absurd ⟨rfl, hdepth⟩ hcut
        | cons d front =>
          obtain ⟨rfl, hbehind⟩ := List.cons_prefix_cons.1 hfront
          exact ⟨front, hbehind, hdepth⟩

/-! ### One step of the split -/

section Step

variable {separator : List Char} {done : List (List Char)} {current rest : List Char} {depth : Nat} {c : Char}

theorem splitOutsideBracketsOnto_of_cut (h : separator = [c] ∧ nestingAfter depth c = 0) :
    splitOutsideBracketsOnto separator done current depth (c :: rest) =
      splitOutsideBracketsOnto separator (current.reverse :: done) [] 0 rest := by
  simp [splitOutsideBracketsOnto, h.1, h.2]

theorem splitOutsideBracketsOnto_of_pass (h : ¬(separator = [c] ∧ nestingAfter depth c = 0)) :
    splitOutsideBracketsOnto separator done current depth (c :: rest) =
      splitOutsideBracketsOnto separator done (c :: current) (nestingAfter depth c) rest := by
  rw [splitOutsideBracketsOnto]
  exact if_neg (by simpa using h)

end Step

/-- The parts that are done stay in front. -/
theorem splitOutsideBracketsOnto_done (separator : List Char) (done : List (List Char)) (current : List Char)
    (depth : Nat) (text : List Char) :
    splitOutsideBracketsOnto separator done current depth text =
      done.reverse ++ splitOutsideBracketsOnto separator [] current depth text := by
  induction text generalizing done current depth with
  | nil => simp [splitOutsideBracketsOnto]
  | cons c text ih =>
    by_cases hcut : separator = [c] ∧ nestingAfter depth c = 0
    · rw [splitOutsideBracketsOnto_of_cut hcut, splitOutsideBracketsOnto_of_cut hcut, ih, ih [current.reverse],
        List.reverse_cons, List.append_assoc]
      rfl
    · rw [splitOutsideBracketsOnto_of_pass hcut, splitOutsideBracketsOnto_of_pass hcut, ih]

theorem splitOutsideBracketsOnto_ne_nil (separator current : List Char) (depth : Nat) (text : List Char) :
    splitOutsideBracketsOnto separator [] current depth text ≠ [] := by
  induction text generalizing current depth with
  | nil => simp [splitOutsideBracketsOnto]
  | cons c text ih =>
    by_cases hcut : separator = [c] ∧ nestingAfter depth c = 0
    · rw [splitOutsideBracketsOnto_of_cut hcut, splitOutsideBracketsOnto_done]
      simp
    · rw [splitOutsideBracketsOnto_of_pass hcut]
      exact ih _ _

/-- A separator that is cut at ends the part that is being read, and the others are those of the text behind it. -/
theorem splitOutsideBracketsOnto_of_cut_nil {separator current rest : List Char} {depth : Nat} {c : Char}
    (h : separator = [c] ∧ nestingAfter depth c = 0) :
    splitOutsideBracketsOnto separator [] current depth (c :: rest) =
      current.reverse :: splitOutsideBrackets separator rest := by
  rw [splitOutsideBracketsOnto_of_cut h, splitOutsideBracketsOnto_done]
  rfl

/-! ### The parts -/

/-- Nothing is lost but the separators. -/
theorem intercalate_splitOutsideBracketsOnto (separator current : List Char) (depth : Nat) (text : List Char) :
    separator.intercalate (splitOutsideBracketsOnto separator [] current depth text) = current.reverse ++ text := by
  induction text generalizing current depth with
  | nil => simp [splitOutsideBracketsOnto, List.intercalate_singleton]
  | cons c text ih =>
    by_cases hcut : separator = [c] ∧ nestingAfter depth c = 0
    · rw [splitOutsideBracketsOnto_of_cut_nil hcut, splitOutsideBrackets,
        List.intercalate_cons_of_ne_nil (splitOutsideBracketsOnto_ne_nil _ _ _ _), ih, hcut.1]
      simp
    · rw [splitOutsideBracketsOnto_of_pass hcut, ih, List.reverse_cons, List.append_assoc, List.singleton_append]

section Character

variable {separator : Char}

/-- The invariant is that what was read of the current part has led from depth zero to where the walk is. -/
theorem whole_of_mem_splitOnto {text : List Char} {depth : Nat} (current : List Char)
    (hcurrent : depthBehind separator 0 current.reverse = some depth) :
    ∀ part ∈ splitOutsideBracketsOnto [separator] [] current depth text, depthBehind separator 0 part ≠ none := by
  induction text generalizing current depth with
  | nil => simp [splitOutsideBracketsOnto, hcurrent]
  | cons c text ih =>
    by_cases hcut : [separator] = [c] ∧ nestingAfter depth c = 0
    · rw [splitOutsideBracketsOnto_of_cut_nil hcut, List.forall_mem_cons]
      exact ⟨by simp [hcurrent], ih [] rfl⟩
    · rw [splitOutsideBracketsOnto_of_pass hcut]
      apply ih
      have hstep : depthBehind separator depth [c] = some (nestingAfter depth c) := by
        rw [depthBehind, if_neg (by simpa using hcut), depthBehind]
      rw [List.reverse_cons, depthBehind_append, hcurrent, Option.bind_some, hstep]

theorem splitOutsideBrackets_of_whole {part : List Char} (h : depthBehind separator 0 part ≠ none) :
    splitOutsideBrackets [separator] part = [part] := by
  obtain ⟨behind, hbehind⟩ := Option.ne_none_iff_exists'.1 h
  have hpass := splitOutsideBracketsOnto_append hbehind [] [] []
  rw [List.append_nil, List.append_nil] at hpass
  rw [splitOutsideBrackets, hpass, splitOutsideBracketsOnto, List.reverse_reverse, List.reverse_singleton]

/-- A text is one part exactly if no separator stands in it at depth zero. -/
theorem splitOutsideBrackets_eq_singleton_iff {text : List Char} :
    splitOutsideBrackets [separator] text = [text] ↔ depthBehind separator 0 text ≠ none := by
  refine ⟨fun h => ?_, splitOutsideBrackets_of_whole⟩
  exact whole_of_mem_splitOnto [] rfl text (h ▸ List.mem_singleton_self text)

end Character

/-- Only a separator of one character can be found. -/
theorem splitOutsideBrackets_of_length_ne_one {separator : List Char} (h : separator.length ≠ 1) (text : List Char) :
    splitOutsideBrackets separator text = [text] := by
  have hwalk : ∀ (current : List Char) (depth : Nat),
      splitOutsideBracketsOnto separator [] current depth text = [current.reverse ++ text] := by
    induction text with
    | nil => simp [splitOutsideBracketsOnto]
    | cons c text ih =>
      intro current depth
      rw [splitOutsideBracketsOnto_of_pass fun hcut => h (by rw [hcut.1, List.length_singleton]), ih,
        List.reverse_cons, List.append_assoc, List.singleton_append]
  exact hwalk [] 0

/-- The parts are joined by the separator to the text and are not split again. There is one part alone if the separator
is not exactly one character, and otherwise only if it stands nowhere at depth zero. -/
theorem splitOutsideBrackets_parts (separator text : List Char) :
    separator.intercalate (splitOutsideBrackets separator text) = text ∧
      (∀ part ∈ splitOutsideBrackets separator text, splitOutsideBrackets separator part = [part]) ∧
      (separator.length ≠ 1 → splitOutsideBrackets separator text = [text]) ∧
      ∀ c, separator = [c] →
        (splitOutsideBrackets separator text = [text] ↔
          ¬∃ front, front ++ [c] <+: text ∧ nestingBehind 0 (front ++ [c]) = 0) := by
  refine ⟨intercalate_splitOutsideBracketsOnto separator [] 0 text, fun part hpart => ?_,
    fun h => splitOutsideBrackets_of_length_ne_one h text, ?_⟩
  · by_cases hlength : separator.length = 1
    · obtain ⟨c, rfl⟩ := List.length_eq_one_iff.1 hlength
      exact splitOutsideBrackets_of_whole (whole_of_mem_splitOnto [] rfl part hpart)
    · exact splitOutsideBrackets_of_length_ne_one hlength part
  · rintro c rfl
    rw [← depthBehind_eq_none_iff]
    exact splitOutsideBrackets_eq_singleton_iff

/-- A closer without an opener is a separator like any other, and a bracket that stays open keeps the part together. -/
theorem splitOutsideBrackets_parts_closers :
    let text := "a)((b)c)d".toList
    splitOutsideBrackets [')'] text = ["a".toList, "((b)c".toList, "d".toList] ∧
      "((b)c".toList ∈ splitOutsideBrackets [')'] text ∧
      splitOutsideBrackets [')'] "((b)c".toList = ["((b)c".toList] ∧
      ")(".toList.length ≠ 1 ∧ splitOutsideBrackets ")(".toList text = [text] ∧
      ¬∃ front, front ++ [')'] <+: "((b)c".toList ∧ nestingBehind 0 (front ++ [')']) = 0 := by
  intro text
  have hparts : splitOutsideBrackets [')'] text = ["a".toList, "((b)c".toList, "d".toList] := by decide
  have hpart : "((b)c".toList ∈ splitOutsideBrackets [')'] text := by
    rw [hparts]
    decide
  have hwhole := (splitOutsideBrackets_parts [')'] text).2.1 _ hpart
  have hlength : ")(".toList.length ≠ 1 := by decide
  exact ⟨hparts, hpart, hwhole, hlength, (splitOutsideBrackets_parts ")(".toList text).2.2.1 hlength,
    ((splitOutsideBrackets_parts [')'] "((b)c".toList).2.2.2 ')' rfl).1 hwhole⟩

end ContractMigration.Solidity
