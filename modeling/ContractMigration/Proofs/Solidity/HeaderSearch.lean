import ContractMigration.Proofs.Solidity.Header
import ContractMigration.Proofs.Solidity.HeaderText

/-!
# From the first header to the last

A header takes up exactly its width (`read?_width`), and no terminator is part of one, so a header is read in front of a
terminator as it is read at the end of a text (`read?_append_terminator`). The last header of a piece is reached from
the first one by looking again behind each header that is found (`lastFrom_eq_find`).
-/

namespace ContractMigration.Solidity

open Text

theorem joins_of_isTerminator {c : Char} (h : isTerminator c = true) : Header.joins c = false := by
  simp only [isTerminator, Bool.or_eq_true, beq_iff_eq] at h
  rcases h with rfl | rfl <;> decide

theorem isBlank_of_isTerminator {c : Char} (h : isTerminator c = true) : isBlank c = false := by
  simp only [isTerminator, Bool.or_eq_true, beq_iff_eq] at h
  rcases h with rfl | rfl <;> decide

namespace Header

/-- The header with more text behind its tail. -/
def extend (more : List Char) (header : Header) : Header :=
  { header with tail := header.tail ++ more }

theorem readDeclared_append_terminator {t : Char} (ht : isTerminator t = true) (text rest : List Char) :
    readDeclared (text ++ t :: rest) = (readDeclared text).map (extend (t :: rest)) := by
  have hjoins : joins t = false := joins_of_isTerminator ht
  have hblank : isBlank t = false := isBlank_of_isTerminator ht
  have hchar : isIdentifierChar t = false := by
    rw [joins, Bool.or_eq_false_iff] at hjoins
    exact hjoins.1
  have hstart : isIdentifierStart t = false := by
    by_contra h
    exact absurd (isIdentifierChar_of_isIdentifierStart (by simpa using h)) (by simp [hchar])
  rw [readDeclared, readDeclared, List.map_findSome?]
  congr 1
  funext kind
  have hword : t ∉ kind.word.toList := fun hmem => absurd (joins_word kind t hmem) (by simp [hjoins])
  rw [Function.comp_apply, after?_append_cons hword]
  cases after? kind.word.toList text with
  | none => rfl
  | some found =>
    simp only [Option.map_some, takeWhile_append_stop hblank, drop_takeWhile_append hblank, drop_length_takeWhile]
    cases found.dropWhile isBlank with
    | nil => simp [hstart]
    | cons c more =>
      simp only [List.cons_append, takeWhile_append_stop hchar, dropWhile_append_stop hchar]
      split <;> rfl

theorem read?_append_terminator {t : Char} (ht : isTerminator t = true) (text rest : List Char) :
    read? (text ++ t :: rest) = (read? text).map (extend (t :: rest)) := by
  have hblank : isBlank t = false := isBlank_of_isTerminator ht
  have hword : t ∉ "abstract".toList := fun hmem => absurd (joins_abstract t hmem) (by simp [joins_of_isTerminator ht])
  rw [read?, read?, after?_append_cons hword]
  cases after? "abstract".toList text with
  | none => exact readDeclared_append_terminator ht text rest
  | some found =>
    simp only [Option.map_some, takeWhile_append_stop hblank, drop_takeWhile_append hblank, drop_length_takeWhile,
      readDeclared_append_terminator ht]
    split
    · rfl
    · rw [Option.map_map, Option.map_map]
      rfl

theorem readDeclared_width {text : List Char} {header : Header} (h : readDeclared text = some header) :
    text.length = header.width + header.tail.length := by
  obtain ⟨kind, -, hkind⟩ := List.exists_of_findSome?_eq_some h
  cases hrest : after? kind.word.toList text with
  | none => simp only [hrest, reduceCtorEq] at hkind
  | some rest =>
    simp only [hrest, drop_length_takeWhile] at hkind
    cases htrim : rest.dropWhile isBlank with
    | nil => simp only [htrim, reduceCtorEq] at hkind
    | cons c more =>
      simp only [htrim] at hkind
      split at hkind
      · exact absurd hkind (by simp)
      · obtain rfl := Option.some.inj hkind
        have hgap := congrArg List.length (List.takeWhile_append_dropWhile (p := isBlank) (l := rest))
        have hname := congrArg List.length (List.takeWhile_append_dropWhile (p := isIdentifierChar) (l := more))
        rw [htrim] at hgap
        simp only [List.length_append, List.length_cons] at hgap hname
        rw [after?_eq_some_iff.1 hrest]
        simp only [List.length_append, List.length_cons, String.length_toList]
        omega

theorem read?_length {text : List Char} {header : Header} (h : read? text = some header) :
    text.length = header.width + header.tail.length := by
  unfold read? at h
  cases hrest : after? "abstract".toList text with
  | none =>
    simp only [hrest] at h
    exact readDeclared_width h
  | some rest =>
    simp only [hrest, drop_length_takeWhile] at h
    split at h
    · exact absurd h (by simp)
    · obtain ⟨declared, hread, rfl⟩ := Option.map_eq_some_iff.1 h
      have hdeclared := readDeclared_width hread
      have hgap := congrArg List.length (List.takeWhile_append_dropWhile (p := isBlank) (l := rest))
      rw [List.length_append] at hgap
      rw [after?_eq_some_iff.1 hrest, List.length_append, String.length_toList]
      simp only
      omega

/-- A header takes up its width, the tail stands behind it, and its last character is one that joins. -/
theorem read?_width {text : List Char} {header : Header} (h : read? text = some header) :
    ∃ taken, text = taken ++ header.tail ∧ taken.length = header.width ∧ taken.getLast?.any joins = true := by
  obtain ⟨lead, gap, hreads⟩ := read?_reads h
  refine ⟨lead ++ (header.kind.word.toList ++ (gap ++ header.name)), ?_, ?_, ?_⟩
  · rw [hreads.text_eq]
    simp only [List.append_assoc]
  · have hlength := read?_length h
    rw [hreads.text_eq] at hlength
    simp only [List.length_append] at hlength ⊢
    omega
  · have hlast := List.getLast?_eq_some_getLast (ne_nil_of_isIdentifier hreads.name)
    rw [← List.append_assoc, ← List.append_assoc, List.getLast?_append, hlast, Option.some_or, Option.any_some]
    exact joins_of_isIdentifier hreads.name _ (List.getLast_mem _)

/-- Behind the first header of a text stands its tail, and the character in front of the tail is one that joins. -/
theorem find_eq_some {joined : Bool} {text passed : List Char} {header : Header}
    (h : findWordFrom joins read? [] joined text = some (passed, header)) :
    ∃ taken, text = taken ++ header.tail ∧ taken.length = passed.length + header.width ∧
      taken.getLast?.any joins = true := by
  obtain ⟨here, rfl, hread, -⟩ := findWordFrom_eq_some h
  obtain ⟨taken, rfl, hwidth, hlast⟩ := read?_width hread
  refine ⟨passed ++ taken, (List.append_assoc ..).symm, by rw [List.length_append, hwidth], ?_⟩
  rw [List.getLast?_append]
  revert hlast
  cases taken.getLast? with
  | none => exact fun hlast => absurd hlast (by simp)
  | some c => exact id

theorem lastFrom_drop (latest : Option (Nat × Header)) (joined : Bool) (index : Nat) (skipped rest : List Char) :
    lastFrom latest skipped.length joined index (skipped ++ rest) =
      lastFrom latest 0 ((skipped.getLast?.map joins).getD joined) (index + skipped.length) rest := by
  induction skipped generalizing joined index with
  | nil => rfl
  | cons c skipped ih =>
    have hindex : index + 1 + skipped.length = index + (skipped.length + 1) := by omega
    rw [List.cons_append, List.length_cons, lastFrom, ih, List.getLast?_cons, hindex]
    cases skipped.getLast? <;> rfl

/-- The search for the last header finds the first one and goes on behind it. -/
theorem lastFrom_eq_find (latest : Option (Nat × Header)) (joined : Bool) (index : Nat) (text : List Char) :
    lastFrom latest 0 joined index text =
      match findWordFrom joins read? [] joined text with
      | none => latest
      | some (passed, header) =>
        lastFrom (some (index + passed.length, header)) 0 true (index + passed.length + header.width) header.tail := by
  induction text generalizing joined index with
  | nil => rfl
  | cons c text ih =>
    rw [lastFrom, findWordFrom_step]
    cases hread : (if joined = true then none else read? (c :: text)) with
    | some header =>
      have hhere : read? (c :: text) = some header := by
        by_cases hjoined : joined = true
        · simp only [if_pos hjoined, reduceCtorEq] at hread
        · rwa [if_neg hjoined] at hread
      obtain ⟨taken, htext, hwidth, hlast⟩ := read?_width hhere
      cases taken with
      | nil => exact absurd hlast (by simp)
      | cons d skipped =>
        rw [List.cons_append] at htext
        obtain ⟨rfl, rfl⟩ := List.cons.inj htext
        rw [List.length_cons] at hwidth
        have hjoined : (skipped.getLast?.map joins).getD (joins c) = true := by
          rw [List.getLast?_cons, Option.any_some] at hlast
          revert hlast
          cases skipped.getLast? <;> exact id
        have hskip : header.width - 1 = skipped.length := by omega
        have hindex : index + 1 + skipped.length = index + header.width := by omega
        simp only [List.reverse_nil, List.length_nil, Nat.add_zero]
        rw [hskip, lastFrom_drop, hjoined, hindex]
    | none =>
      simp only
      rw [ih, findWordFrom_behind joins read? [c]]
      cases findWordFrom joins read? [] (joins c) text with
      | none => rfl
      | some found =>
        have hindex : index + 1 + found.1.length = index + ([c].reverse ++ found.1).length := by
          simp only [List.reverse_singleton, List.singleton_append, List.length_cons]
          omega
        simp only [Option.map_some, hindex]

/-- The last header of a piece is the first one, unless another one is found behind it. -/
theorem last?_eq_find (piece : List Char) :
    last? piece =
      match findWordFrom joins read? [] false piece with
      | none => none
      | some (passed, header) =>
        match findWordFrom joins read? [] true header.tail with
        | none => some (passed.length, header)
        | some (more, _) =>
          (last? (header.tail.drop more.length)).map fun (start, last) =>
            (passed.length + header.width + more.length + start, last) := by
  rw [last?, lastFrom_eq_find]
  cases findWordFrom joins read? [] false piece with
  | none => rfl
  | some found =>
    obtain ⟨passed, header⟩ := found
    simp only [Nat.zero_add]
    rw [lastFrom_eq_find]
    cases hmore : findWordFrom joins read? [] true header.tail with
    | none => rfl
    | some later =>
      obtain ⟨more, inner⟩ := later
      obtain ⟨here, htail, hread, -⟩ := findWordFrom_eq_some hmore
      have hne : here ≠ [] := by
        rintro rfl
        have hnil : read? [] = none := by decide
        exact absurd (hnil.symm.trans hread) (by simp)
      simp only
      rw [htail, List.drop_left, last?, lastFrom_eq_find none, findWordFrom_found hne hread]
      simp only [List.reverse_nil, List.length_nil, Nat.zero_add]
      rw [lastFrom_eq, lastFrom_eq (some (0, inner))]
      cases lastFrom none 0 true 0 inner.tail with
      | none => rfl
      | some last => simp only [Option.map_some, Nat.add_assoc]

/-- When a header stands behind the first one of a piece, the last header of the piece is the last one from there on. -/
theorem last?_inner {piece passed more : List Char} {header inner : Header}
    (hfind : findWordFrom joins read? [] false piece = some (passed, header))
    (hmore : findWordFrom joins read? [] true header.tail = some (more, inner)) :
    ∃ skipped here, piece = skipped ++ here ∧ skipped.length = passed.length + header.width + more.length ∧
      skipped ≠ [] ∧ last? piece = (last? here).map fun (start, last) => (skipped.length + start, last) := by
  obtain ⟨taken, hpiece, htaken, hjoins⟩ := find_eq_some hfind
  obtain ⟨here, htail, -, -⟩ := findWordFrom_eq_some hmore
  have hlength : (taken ++ more).length = passed.length + header.width + more.length := by
    rw [List.length_append, htaken]
  refine ⟨taken ++ more, here, by rw [List.append_assoc, ← htail, hpiece], hlength, ?_, ?_⟩
  · intro hnil
    obtain ⟨rfl, -⟩ := List.append_eq_nil_iff.1 hnil
    exact absurd hjoins (by simp)
  · rw [last?_eq_find, hfind]
    simp only [hmore]
    rw [htail, List.drop_left, hlength]

/-- The first header of a text stands in front of its first terminator or behind it. -/
theorem find_append_terminator {t : Char} (ht : isTerminator t = true) (joined : Bool) (piece rest : List Char) :
    findWordFrom joins read? [] joined (piece ++ t :: rest) =
      match findWordFrom joins read? [] joined piece with
      | some (passed, header) => some (passed, header.extend (t :: rest))
      | none => (findWordFrom joins read? [] false rest).map fun (passed, header) =>
        (piece ++ t :: passed, header) := by
  have hjoins := joins_of_isTerminator ht
  induction piece generalizing joined with
  | nil =>
    rw [List.nil_append, findWordFrom_cons (read?_not_joins hjoins rest), hjoins, findWordFrom_behind]
    rfl
  | cons c piece ih =>
    have hread := read?_append_terminator ht (c :: piece) rest
    have hbehind : findWordFrom joins read? [c] (joins c) (piece ++ t :: rest) =
        match findWordFrom joins read? [c] (joins c) piece with
        | some (passed, header) => some (passed, header.extend (t :: rest))
        | none => (findWordFrom joins read? [] false rest).map fun (passed, header) =>
          (c :: piece ++ t :: passed, header) := by
      rw [findWordFrom_behind, ih, findWordFrom_behind joins read? [c] (joins c) piece]
      cases findWordFrom joins read? [] (joins c) piece with
      | some found => rfl
      | none =>
        simp only [Option.map_none, Option.map_map]
        rfl
    rw [List.cons_append] at hread ⊢
    simp only [findWordFrom_step, hread]
    by_cases hjoined : joined = true
    · simp only [if_pos hjoined]
      exact hbehind
    · simp only [if_neg hjoined]
      cases read? (c :: piece) with
      | some header => rfl
      | none => exact hbehind

end Header

end ContractMigration.Solidity
