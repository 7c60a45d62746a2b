import ContractMigration.Proofs.Solidity.Balance
import ContractMigration.Proofs.Solidity.Slice
import ContractMigration.Proofs.Text.Words
import ContractMigration.Solidity.Variable

/-!
# Where the type of a variable is written

The record of a variable keeps its type as it is written, except that blanks are collapsed and those inside array
brackets dropped. So a piece without blanks and brackets with which the type begins is written in the body of the
contract (`occursIn_body`), and code in a masked text is written in the source (`infix_of_infix_mask`).
-/

namespace ContractMigration.Solidity

open Text

/-! ### Code in the source -/

/-- A piece of code in a masked text stands in the source. -/
theorem infix_of_infix_mask {piece : List Char} (hpiece : ∀ c ∈ piece, ShowsCode c) {text : List Char}
    (h : piece <:+: mask text) : piece <:+: text := by
  have hbegins : ∀ (piece text rest : List Char), (∀ c ∈ piece, ShowsCode c) → mask text = piece ++ rest →
      piece <+: text := by
    intro piece
    induction piece with
    | nil => exact fun _ _ _ _ => List.nil_prefix
    | cons c piece ih =>
      intro text rest hpiece hmask
      rw [List.forall_mem_cons] at hpiece
      have hcut : mask text = [] ++ c :: (piece ++ rest) := hmask
      obtain ⟨before, after, rfl, hbefore, hafter⟩ := exists_cut hpiece.1 hcut
      have hempty : before = [] := by
        rw [← List.length_eq_zero_iff, ← length_mask, hbefore, List.length_nil]
      rw [hempty, List.nil_append, List.cons_prefix_cons]
      exact ⟨rfl, ih after rest hpiece.2 hafter⟩
  obtain ⟨front, rest, hmask⟩ := h
  cases piece with
  | nil => exact List.nil_infix
  | cons c piece =>
    have hcut : mask text = front ++ c :: (piece ++ rest) := by
      rw [← hmask, List.append_assoc, List.cons_append]
    obtain ⟨before, after, rfl, -, hafter⟩ := exists_cut (hpiece c List.mem_cons_self) hcut
    obtain ⟨behind, hbehind⟩ := hbegins piece after rest (List.forall_mem_cons.1 hpiece).2 hafter
    exact ⟨before, behind, by rw [← hbehind, List.append_assoc, List.cons_append]⟩

/-! ### Members in the body -/

namespace MemberWalk

/-- What the walk holds stands in the text that it has seen: the pending characters at its end, and each member, before
its blanks were collapsed, somewhere in it. -/
structure ReadFrom (seen : List Char) (walk : MemberWalk) : Prop where
  pending_suffix : walk.pending.reverse <:+ seen
  pending_nil : walk.depth ≠ 0 → walk.pending = []
  done_written : ∀ member ∈ walk.done, ∃ raw, raw <:+: seen ∧ member.text = collapse raw

theorem ReadFrom.endMember {seen : List Char} {walk : MemberWalk} (h : walk.ReadFrom seen) (ending : Ending) :
    ∀ member ∈ walk.endMember ending, ∃ raw, raw <:+: seen ∧ member.text = collapse raw := by
  intro member hmem
  rw [MemberWalk.endMember] at hmem
  split at hmem
  · exact h.done_written member hmem
  · rcases List.mem_cons.1 hmem with rfl | hdone
    · exact ⟨walk.pending.reverse, h.pending_suffix.isInfix, rfl⟩
    · exact h.done_written member hdone

theorem ReadFrom.step {seen : List Char} {walk : MemberWalk} (h : walk.ReadFrom seen) (c : Char) :
    (walk.step c).ReadFrom (seen ++ [c]) := by
  have hlonger : seen <:+: seen ++ [c] := (List.prefix_append seen [c]).isInfix
  have hdone : ∀ member ∈ walk.done, ∃ raw, raw <:+: seen ++ [c] ∧ member.text = collapse raw := by
    intro member hmem
    obtain ⟨raw, hraw, htext⟩ := h.done_written member hmem
    exact ⟨raw, hraw.trans hlonger, htext⟩
  have hended : ∀ ending, ∀ member ∈ walk.endMember ending,
      ∃ raw, raw <:+: seen ++ [c] ∧ member.text = collapse raw := by
    intro ending member hmem
    obtain ⟨raw, hraw, htext⟩ := h.endMember ending member hmem
    exact ⟨raw, hraw.trans hlonger, htext⟩
  have hpending : (c :: walk.pending).reverse <:+ seen ++ [c] := by
    obtain ⟨before, hbefore⟩ := h.pending_suffix
    exact ⟨before, by rw [List.reverse_cons, ← List.append_assoc, hbefore]⟩
  unfold MemberWalk.step
  split
  · next htop =>
    have hclosed : walk.depth ≠ 0 → c :: walk.pending = [] := fun hdepth => absurd (beq_iff_eq.1 htop) hdepth
    unfold topStep
    split_ifs
    · exact ⟨hpending, hclosed, hdone⟩
    · exact ⟨hpending, hclosed, hdone⟩
    · exact ⟨List.nil_suffix, fun _ => rfl, hended .block⟩
    · exact ⟨List.nil_suffix, fun _ => rfl, hended .statement⟩
    · exact ⟨hpending, hclosed, hdone⟩
  · next hblock =>
    have hempty : walk.pending = [] := h.pending_nil fun hdepth => hblock (beq_iff_eq.2 hdepth)
    have hsuffix : walk.pending.reverse <:+ seen ++ [c] := by
      rw [hempty]
      exact List.nil_suffix
    unfold blockStep
    split_ifs
    · exact ⟨hsuffix, fun _ => hempty, hdone⟩
    · exact ⟨hsuffix, fun _ => hempty, hdone⟩
    · exact ⟨hsuffix, fun _ => hempty, hdone⟩

theorem ReadFrom.run {seen : List Char} {walk : MemberWalk} (h : walk.ReadFrom seen) (text : List Char) :
    (text.foldl MemberWalk.step walk).ReadFrom (seen ++ text) := by
  induction text generalizing seen walk with
  | nil => rwa [List.append_nil]
  | cons c text ih =>
    have hrun := ih (h.step c)
    rwa [List.append_assoc] at hrun

end MemberWalk

theorem exists_infix_of_mem_members {body : List Char} {member : Member} (h : member ∈ members body) :
    ∃ raw, raw <:+: body ∧ member.text = collapse raw := by
  have hstart : MemberWalk.ReadFrom [] {} :=
    ⟨List.nil_suffix, fun _ => rfl, fun _ hmem => absurd hmem List.not_mem_nil⟩
  exact (hstart.run body).done_written member (List.mem_reverse.1 h)

/-! ### Types in a statement -/

/-- The suffixes that are read are brackets without spaces. -/
theorem exists_readArraySuffixes {done : List (List Char)} {fuel : Nat} {rest suffixes after : List Char}
    (h : readArraySuffixes done fuel rest = some (suffixes, after)) :
    ∃ insides : List (List Char), suffixes =
      done.reverse.flatten ++ insides.flatMap fun inside => '[' :: inside.filter (· != ' ') ++ [']'] := by
  induction fuel generalizing done rest with
  | zero =>
    rw [readArraySuffixes, Option.some.injEq, Prod.mk.injEq] at h
    exact ⟨[], by rw [← h.1, List.flatMap_nil, List.append_nil]⟩
  | succ fuel ih =>
    rw [readArraySuffixes] at h
    split at h
    · split at h
      · exact absurd h (by simp)
      · next inside _ _ =>
        obtain ⟨insides, rfl⟩ := ih h
        exact ⟨inside :: insides, by simp⟩
    · rw [Option.some.injEq, Prod.mk.injEq] at h
      exact ⟨[], by rw [← h.1, List.flatMap_nil, List.append_nil]⟩

theorem head?_suffixes {fuel : Nat} {rest suffixes after : List Char}
    (h : readArraySuffixes [] fuel rest = some (suffixes, after)) : ∀ c ∈ suffixes.head?, c = '[' := by
  obtain ⟨insides, rfl⟩ := exists_readArraySuffixes h
  cases insides with
  | nil => simp
  | cons inside insides => simp

theorem space_not_mem_suffixes {fuel : Nat} {rest suffixes after : List Char}
    (h : readArraySuffixes [] fuel rest = some (suffixes, after)) : ' ' ∉ suffixes := by
  obtain ⟨insides, rfl⟩ := exists_readArraySuffixes h
  simp

theorem readMapping_eq_some {text typeName rest : List Char} (h : readMapping text = some (some (typeName, rest))) :
    text = typeName ++ rest := by
  rw [readMapping] at h
  split at h
  · exact absurd h (by simp)
  · next found hfound =>
    split at h
    · next more hmore =>
      obtain ⟨⟨inside, after⟩, hclose, hcut⟩ := Option.map_eq_some_iff.1 (Option.some.inj h)
      rw [Prod.mk.injEq] at hcut
      have hopened : found = found.takeWhile isBlank ++ '(' :: more := by
        rw [← hmore, trimLeft, List.takeWhile_append_dropWhile]
      have htext : text = "mapping".toList ++ (found.takeWhile isBlank ++ '(' :: (inside ++ ')' :: after)) := by
        rw [after?_eq_some_iff.1 hfound, ← splitAtClosing_eq_some (by decide) hclose, ← hopened]
      rw [htext, ← hcut.1, ← hcut.2]
      simp only [List.append_assoc, List.cons_append, List.nil_append]
    · exact absurd h (by simp)

theorem readPlainType_eq_some {text typeName rest : List Char} (h : readPlainType text = some (typeName, rest)) :
    text = typeName ++ rest := by
  unfold readPlainType at h
  split at h
  · next found hfound =>
    rw [Option.some.injEq, Prod.mk.injEq] at h
    rw [after?_eq_some_iff.1 hfound, ← h.1, ← h.2]
  · split at h
    · exact absurd h (by simp)
    · split at h
      · rw [Option.some.injEq, Prod.mk.injEq] at h
        rw [← h.1, ← h.2, List.cons_append, List.takeWhile_append_dropWhile]
      · exact absurd h (by simp)

/-- A type is a mapping or a plain type with array suffixes behind it. -/
theorem exists_readType {text typeName rest : List Char} (h : readType text = some (typeName, rest)) :
    ∃ head behind suffixes,
      (readMapping text = some (some (head, behind)) ∨ readPlainType text = some (head, behind)) ∧
        readArraySuffixes [] text.length behind = some (suffixes, rest) ∧ typeName = head ++ suffixes := by
  have hsuffixes : ∀ head behind : List Char,
      (readArraySuffixes [] text.length behind).map (fun found => (head ++ found.1, found.2)) =
        some (typeName, rest) →
      ∃ suffixes, readArraySuffixes [] text.length behind = some (suffixes, rest) ∧ typeName = head ++ suffixes := by
    intro head behind hread
    obtain ⟨⟨suffixes, after⟩, hread, hcut⟩ := Option.map_eq_some_iff.1 hread
    rw [Prod.mk.injEq] at hcut
    exact ⟨suffixes, hcut.2 ▸ hread, hcut.1.symm⟩
  unfold readType at h
  cases hmapping : readMapping text with
  | some mapping =>
    simp only [hmapping] at h
    cases mapping with
    | none => exact absurd h (by simp)
    | some found =>
      obtain ⟨suffixes, hread, htype⟩ := hsuffixes found.1 found.2 h
      exact ⟨found.1, found.2, suffixes, .inl rfl, hread, htype⟩
  | none =>
    simp only [hmapping] at h
    cases hplain : readPlainType text with
    | none => exact absurd h (by simp [hplain])
    | some found =>
      simp only [hplain] at h
      obtain ⟨suffixes, hread, htype⟩ := hsuffixes found.1 found.2 h
      exact ⟨found.1, found.2, suffixes, .inr rfl, hread, htype⟩

/-- A type is a beginning of the text, up to its array suffixes. -/
theorem readType_eq_some {text typeName rest : List Char} (h : readType text = some (typeName, rest)) :
    ∃ head suffixes, typeName = head ++ suffixes ∧ head <+: text ∧ ∀ c ∈ suffixes.head?, c = '[' := by
  obtain ⟨head, behind, suffixes, hhead, hsuffixes, rfl⟩ := exists_readType h
  have htext : text = head ++ behind := hhead.elim readMapping_eq_some readPlainType_eq_some
  exact ⟨head, suffixes, rfl, ⟨behind, htext.symm⟩, head?_suffixes hsuffixes⟩

/-! ### Spaces in a type

A type has spaces inside a mapping, in `address payable` and between the words of a function type, and nowhere else. -/

theorem prefix_of_readMapping {text typeName rest : List Char} (h : readMapping text = some (some (typeName, rest))) :
    "mapping".toList <+: typeName := by
  rw [readMapping] at h
  split at h
  · exact absurd h (by simp)
  · split at h
    · obtain ⟨⟨inside, after⟩, -, hcut⟩ := Option.map_eq_some_iff.1 (Option.some.inj h)
      rw [Prod.mk.injEq] at hcut
      rw [← hcut.1, List.append_assoc]
      exact List.prefix_append ..
    · exact absurd h (by simp)

theorem space_not_mem_readPlainType {text typeName rest : List Char} (h : readPlainType text = some (typeName, rest)) :
    typeName = "address payable".toList ∨ ' ' ∉ typeName := by
  unfold readPlainType at h
  split at h
  · rw [Option.some.injEq, Prod.mk.injEq] at h
    exact .inl h.1.symm
  · split at h
    · exact absurd h (by simp)
    · next c more =>
      rw [Option.ite_none_right_eq_some, Option.some.injEq, Prod.mk.injEq] at h
      obtain ⟨hstart, htype, -⟩ := h
      right
      rw [← htype, List.mem_cons]
      rintro (rfl | hmem)
      · exact absurd hstart (by decide)
      · exact absurd (List.mem_takeWhile_imp hmem) (by decide)

theorem prefix_unwords_cons (word : List Char) (rest : List (List Char)) : word <+: unwords (word :: rest) := by
  cases rest with
  | nil => rw [unwords, List.intercalate_singleton]
  | cons next rest =>
    rw [unwords, List.intercalate_cons_cons, List.append_assoc]
    exact List.prefix_append ..

/-- The type of a function variable holds at least the first word of the statement. -/
theorem prefix_of_splitFunctionVariable {text typeName name : List Char} {modifiers : List (List Char)}
    (h : splitFunctionVariable text = some (typeName, modifiers, name)) :
    typeName = [] ∨ "function".toList <+: typeName := by
  rw [splitFunctionVariable] at h
  split at h
  · exact absurd h (by simp)
  · next hbegins =>
    split at h
    · exact absurd h (by simp)
    · next last before hwords =>
      split at h
      · exact absurd h (by simp)
      · rw [Option.some.injEq, Prod.mk.injEq] at h
        obtain ⟨rest, rfl⟩ : ∃ rest, text = "function".toList ++ rest := by
          rw [Bool.not_eq_true', Bool.not_eq_false, beginsFunctionType] at hbegins
          split at hbegins
          · exact absurd hbegins (by simp)
          · next rest hafter => exact ⟨rest, after?_eq_some_iff.1 hafter⟩
        have hcut : beforeInitialiser ("function".toList ++ rest) = "function".toList ++ beforeInitialiser rest := rfl
        have hkeyword : ∀ c ∈ "function".toList, isBlank c = false := by simp; decide
        obtain ⟨after, more, hfirst, -⟩ := words_word_append (by decide) hkeyword (beforeInitialiser rest)
        rw [hcut, hfirst, List.reverse_eq_iff, List.reverse_cons] at hwords
        cases hreverse : before.reverse with
        | nil =>
          left
          rw [← h.1, List.reverse_eq_nil_iff.1 hreverse]
          rfl
        | cons first others =>
          right
          rw [hreverse, List.cons_append, List.cons.injEq] at hwords
          obtain rfl : before = others.reverse ++ [first] := by
            rw [← List.reverse_cons, ← hreverse, List.reverse_reverse]
          have hlength : (others.reverse.takeWhile functionVariableModifiers.contains).length ≤ others.reverse.length :=
            (List.takeWhile_prefix _).length_le
          rw [← h.1, List.dropLast_concat, List.drop_append_of_le_length hlength, List.reverse_append,
            List.reverse_singleton, List.singleton_append, ← hwords.1]
          exact (List.prefix_append ..).trans (prefix_unwords_cons ..)

/-- A type with a space in it begins with one of three words. -/
theorem prefix_of_space_mem {fixings : Fixings} {text : List Char} {declared : StateVariable}
    (h : readVariable fixings text = some declared) (hspace : ' ' ∈ declared.typeName.toList) :
    ∃ word ∈ ["mapping".toList, "address payable".toList, "function".toList], word <+: declared.typeName.toList := by
  rw [readVariable] at h
  split at h
  · obtain ⟨⟨typeName, modifiers, name⟩, hsplit, rfl⟩ := Option.map_eq_some_iff.1 h
    simp only [variableRecord, String.toList_ofList] at hspace ⊢
    rcases prefix_of_splitFunctionVariable hsplit with rfl | hfunction
    · exact absurd hspace List.not_mem_nil
    · exact ⟨_, by simp, hfunction⟩
  · split at h
    · exact absurd h (by simp)
    · split at h
      · exact absurd h (by simp)
      · next typeName rest hread =>
        obtain ⟨⟨modifiers, name⟩, -, rfl⟩ := Option.map_eq_some_iff.1 h
        simp only [variableRecord, String.toList_ofList] at hspace ⊢
        obtain ⟨head, behind, suffixes, hhead, hsuffixes, rfl⟩ := exists_readType hread
        have hmem : ' ' ∈ head := (List.mem_append.1 hspace).resolve_right (space_not_mem_suffixes hsuffixes)
        rcases hhead with hmapping | hplain
        · exact ⟨_, by simp, (prefix_of_readMapping hmapping).trans (List.prefix_append ..)⟩
        · obtain rfl := (space_not_mem_readPlainType hplain).resolve_right (not_not_intro hmem)
          exact ⟨_, by simp, List.prefix_append ..⟩

/-- A variable is named by an identifier. -/
theorem isIdentifier_of_readVariable {fixings : Fixings} {text : List Char} {declared : StateVariable}
    (h : readVariable fixings text = some declared) : isIdentifier declared.name.toList = true := by
  rw [readVariable] at h
  split at h
  · obtain ⟨⟨typeName, modifiers, name⟩, hsplit, rfl⟩ := Option.map_eq_some_iff.1 h
    simp only [variableRecord, String.toList_ofList]
    rw [splitFunctionVariable] at hsplit
    split at hsplit
    · exact absurd hsplit (by simp)
    · split at hsplit
      · exact absurd hsplit (by simp)
      · simp only [Option.ite_none_left_eq_some, Option.some.injEq, Prod.mk.injEq, Bool.or_eq_true, not_or,
          Bool.not_eq_true', Bool.not_eq_false] at hsplit
        rw [← hsplit.2.2.2]
        exact hsplit.1.1
  · split at h
    · exact absurd h (by simp)
    · split at h
      · exact absurd h (by simp)
      · obtain ⟨⟨modifiers, name⟩, hsplit, rfl⟩ := Option.map_eq_some_iff.1 h
        simp only [variableRecord, String.toList_ofList]
        rw [splitDeclarator] at hsplit
        split at hsplit
        · exact absurd hsplit (by simp)
        · simp only [Option.ite_none_right_eq_some, Option.some.injEq, Prod.mk.injEq, Bool.and_eq_true] at hsplit
          rw [← hsplit.2.2]
          exact hsplit.1.1.1

section Piece

variable {piece : List Char} (hne : piece ≠ []) (hwhole : ∀ c ∈ piece, isBlank c = false)

include hne hwhole in
/-- The type of a function variable is made of words of the statement. -/
theorem occursIn_of_splitFunctionVariable {text typeName name : List Char} {modifiers : List (List Char)}
    (h : splitFunctionVariable text = some (typeName, modifiers, name)) (htype : occursIn piece typeName = true) :
    occursIn piece text = true := by
  rw [splitFunctionVariable] at h
  split at h
  · exact absurd h (by simp)
  · split at h
    · exact absurd h (by simp)
    · next last before hwords =>
      split at h
      · exact absurd h (by simp)
      · rw [Option.some.injEq, Prod.mk.injEq] at h
        rw [← h.1, occursIn_unwords hne hwhole, List.any_eq_true] at htype
        obtain ⟨word, hmem, hword⟩ := htype
        have hbefore : word ∈ before := List.mem_of_mem_drop (List.mem_reverse.1 hmem)
        have hstatement : word ∈ words (beforeInitialiser text) := by
          rw [← List.mem_reverse, hwords]
          exact List.mem_cons_of_mem last hbefore
        have hfront : occursIn piece (beforeInitialiser text) = true := by
          rw [← any_occursIn_words hne hwhole, List.any_eq_true]
          exact ⟨word, hstatement, hword⟩
        rw [occursIn_iff] at hfront ⊢
        exact hfront.trans (List.takeWhile_prefix _).isInfix

theorem prefix_of_readType (hbracket : '[' ∉ piece) {text typeName rest : List Char}
    (h : readType text = some (typeName, rest)) (hbegins : piece <+: typeName) : piece <+: text := by
  obtain ⟨head, suffixes, rfl, hhead, hsuffixes⟩ := readType_eq_some h
  rcases prefix_append_cases hbegins with hfront | ⟨behind, rfl, hbehind⟩
  · exact hfront.trans hhead
  · cases behind with
    | nil => rwa [List.append_nil]
    | cons c behind =>
      -- the piece would reach into the brackets
      obtain ⟨more, hmore⟩ := hbehind
      have hc : c = '[' := hsuffixes c (by rw [← hmore]; rfl)
      rw [hc] at hbracket
      exact absurd (List.mem_append_right head List.mem_cons_self) hbracket

variable (hbracket : '[' ∉ piece) {declared : StateVariable} (hbegins : piece <+: declared.typeName.toList)
include hne hwhole hbracket hbegins

theorem occursIn_of_readVariable {fixings : Fixings} {text : List Char}
    (h : readVariable fixings text = some declared) : occursIn piece text = true := by
  rw [readVariable] at h
  split at h
  · obtain ⟨⟨typeName, modifiers, name⟩, hsplit, rfl⟩ := Option.map_eq_some_iff.1 h
    have htype : piece <+: typeName := by simpa [variableRecord] using hbegins
    exact occursIn_of_splitFunctionVariable hne hwhole hsplit (occursIn_iff.2 htype.isInfix)
  · split at h
    · exact absurd h (by simp)
    · split at h
      · exact absurd h (by simp)
      · next typeName rest hread =>
        obtain ⟨⟨modifiers, name⟩, -, rfl⟩ := Option.map_eq_some_iff.1 h
        have htype : piece <+: typeName := by simpa [variableRecord] using hbegins
        exact occursIn_iff.2 (prefix_of_readType hbracket hread htype).isInfix

/-- What the type of a variable begins with is written in the body. -/
theorem occursIn_body {body : List Char} (h : declared ∈ stateVariables body) : occursIn piece body = true := by
  obtain ⟨member, hmember, hread⟩ := List.mem_filterMap.1 h
  obtain ⟨raw, hraw, htext⟩ := exists_infix_of_mem_members hmember
  rw [Member.readVariable] at hread
  split at hread
  · exact absurd hread (by simp)
  · have hoccurs := occursIn_of_readVariable hne hwhole hbracket hbegins hread
    rw [htext, occursIn_collapse hne hwhole, occursIn_iff] at hoccurs
    exact occursIn_iff.2 (hoccurs.trans hraw)

end Piece

end ContractMigration.Solidity
