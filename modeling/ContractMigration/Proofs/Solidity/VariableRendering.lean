import ContractMigration.Proofs.Solidity.Overrides

/-!
# Reading written variables

A variable is read back from the statement that it was written as (`VariableSyntax.readVariable_render`). The type is
recognised at the head of the statement whatever is nested in it, unless what follows would go on with the type; behind
it the `override` words are taken out with their lists, and the words that are left before the initialiser are the
modifiers and the name. Words are treated apart from the types that are written with them, since any word that begins
like an identifier is taken for a type.
-/

namespace ContractMigration.Solidity

open Text

/-! ### Types -/

theorem length_le_length_renderSizes (sizes : List (List Char)) : sizes.length ≤ (renderSizes sizes).length := by
  induction sizes with
  | nil => exact Nat.le_refl _
  | cons size sizes ih =>
    rw [renderSizes, List.flatMap_cons, List.length_append, List.length_cons, List.length_cons, ← renderSizes]
    omega

theorem readArraySuffixes_renderSizes {sizes : List (List Char)} (h : ∀ size ∈ sizes, IsSize size) {rest : List Char}
    (hrest : ∀ more, trimLeft rest ≠ '[' :: more) (done : List (List Char)) {fuel : Nat}
    (hfuel : sizes.length ≤ fuel) :
    readArraySuffixes done fuel (renderSizes sizes ++ rest) =
      some (done.reverse.flatten ++ renderSizes sizes, rest) := by
  induction sizes generalizing done fuel with
  | nil =>
    rw [renderSizes, List.flatMap_nil, List.nil_append, List.append_nil]
    cases fuel with
    | zero => rfl
    | succ fuel =>
      rw [readArraySuffixes]
      split
      · next more hmore => exact absurd hmore (hrest more)
      · rfl
  | cons size sizes ih =>
    obtain ⟨fuel, rfl⟩ : ∃ less, fuel = less + 1 := ⟨fuel - 1, by rw [List.length_cons] at hfuel; omega⟩
    rw [List.forall_mem_cons] at h
    have htext : renderSizes (size :: sizes) ++ rest = '[' :: (size ++ ']' :: (renderSizes sizes ++ rest)) := by
      simp [renderSizes]
    have htrim : trimLeft ('[' :: (size ++ ']' :: (renderSizes sizes ++ rest))) = _ := trimLeft_cons (by decide) _
    have hfilter : size.filter (· != ' ') = size := by
      apply List.filter_eq_self.2
      intro c hc
      have hne : c ≠ ' ' := by
        rintro rfl
        exact absurd (h.1.noBlank _ hc) (by decide)
      simpa using hne
    rw [htext, readArraySuffixes, htrim]
    simp only [h.1.square.splitAtClosing (by decide), hfilter]
    rw [ih h.2 _ (by rw [List.length_cons] at hfuel; omega)]
    simp [renderSizes]

theorem readMapping_mappingOf {key value : List Char} (hkey : Enclosed key) (hvalue : Enclosed value)
    (rest : List Char) : readMapping (mappingOf key value ++ rest) = some (some (mappingOf key value, rest)) := by
  have hinner := (TypeSyntax.enclosed_mappingInner hkey hvalue).splitAtClosing rest
  generalize hinside : key ++ ' ' :: ("=>".toList ++ ' ' :: value) = inside at hinner
  have hmapping : mappingOf key value = "mapping".toList ++ '(' :: (inside ++ [')']) := by
    rw [← hinside]
    rfl
  have htext : "mapping".toList ++ '(' :: (inside ++ [')']) ++ rest =
      "mapping".toList ++ '(' :: (inside ++ ')' :: rest) := by
    simp only [List.append_assoc, List.cons_append, List.nil_append]
  rw [hmapping, htext, readMapping, after?_append_self]
  simp only [trimLeft_paren, hinner, Option.map_some]
  rfl

/-! ### Type words -/

/-- Whether a text can be read as one word of a type. -/
def isTypeWord : List Char → Bool
  | [] => false
  | c :: rest => isIdentifierStart c && rest.all Header.joins

theorem exists_eq_cons_of_isTypeWord {word : List Char} (h : isTypeWord word = true) :
    ∃ c rest, word = c :: rest ∧ isIdentifierStart c = true ∧ ∀ d ∈ rest, Header.joins d = true := by
  cases word with
  | nil => exact absurd h Bool.false_ne_true
  | cons c rest =>
    obtain ⟨hc, hrest⟩ := Bool.and_eq_true_iff.1 h
    exact ⟨c, rest, rfl, hc, List.all_eq_true.1 hrest⟩

theorem joins_of_isTypeWord {word : List Char} (h : isTypeWord word = true) : ∀ c ∈ word, Header.joins c = true := by
  obtain ⟨c, rest, rfl, hc, hrest⟩ := exists_eq_cons_of_isTypeWord h
  exact List.forall_mem_cons.2 ⟨Bool.or_eq_true_iff.2 (.inl (isIdentifierChar_of_isIdentifierStart hc)), hrest⟩

theorem isTypeWord_of_isDotted {name : List Char} (h : IsDotted name) : isTypeWord name = true := by
  have hjoins := Header.joins_of_isDotted h
  have hpart : ∀ part : List Char, isIdentifier part = true →
      ∃ c rest, part = c :: rest ∧ isIdentifierStart c = true := by
    intro part hpart
    obtain ⟨c, rest, rfl⟩ := List.exists_cons_of_ne_nil (ne_nil_of_isIdentifier hpart)
    exact ⟨c, rest, rfl, (Bool.and_eq_true_iff.1 hpart).1⟩
  have hhead : ∃ c rest, name = c :: rest ∧ isIdentifierStart c = true := by
    rcases all_or_first (!· == '.') name with hall | ⟨first, d, rest, rfl, hfirst, hd⟩
    · have hsplit : name.splitOn '.' = [name] := List.splitOnP_eq_singleton (by simpa using hall)
      exact hpart name (h name (by simp [hsplit]))
    · have hd' : (d == '.') = true := by simpa using hd
      have hsplit : (first ++ d :: rest).splitOn '.' = first :: rest.splitOn '.' := by
        have hwhole : first.splitOnP (· == '.') = [first] := List.splitOnP_eq_singleton (by simpa using hfirst)
        have hparts := List.splitOnP_append_cons (p := (· == '.')) first rest hd'
        rw [hwhole] at hparts
        exact hparts
      obtain ⟨c, more, rfl, hc⟩ := hpart first (h first (by simp [hsplit]))
      exact ⟨c, more ++ d :: rest, rfl, hc⟩
  obtain ⟨c, rest, rfl, hc⟩ := hhead
  exact Bool.and_eq_true_iff.2 ⟨hc, List.all_eq_true.2 (List.forall_mem_cons.1 hjoins).2⟩

theorem readMapping_word {word : List Char} (hword : isTypeWord word = true) {d : Char} (hd : Header.joins d = false)
    {rest : List Char} (hparen : word = "mapping".toList → ∀ more, trimLeft (d :: rest) ≠ '(' :: more) :
    readMapping (word ++ d :: rest) = none := by
  rw [readMapping]
  split
  · rfl
  · next found hfound =>
    have hkeyword : ∀ c ∈ "mapping".toList, Header.joins c = true := List.all_eq_true.1 (by decide)
    obtain ⟨more, rfl, rfl⟩ := after?_run hkeyword (by simpa using hd) hfound
    cases more with
    | nil =>
      split
      · next more hmore => exact absurd hmore (hparen (List.append_nil _) more)
      · rfl
    | cons c more =>
      have hc := joins_of_isTypeWord hword c (by simp)
      have htrim : trimLeft (c :: more ++ d :: rest) = c :: more ++ d :: rest :=
        trimLeft_cons (Header.not_isBlank_of_joins hc) _
      rw [htrim]
      split
      · next heq => exact absurd (List.cons.inj heq).1 (Header.joins_ne hc (by decide))
      · rfl

theorem readPlainType_word {word : List Char} (hword : isTypeWord word = true) {d : Char} (hd : Header.joins d = false)
    {rest : List Char} (hpayable : word = "address".toList → d = ' ' → after? "payable".toList rest = none) :
    readPlainType (word ++ d :: rest) = some (word, d :: rest) := by
  have hjoins := joins_of_isTypeWord hword
  unfold readPlainType
  split
  · next found hfound =>
    have hwords : "address payable".toList ++ found = "address".toList ++ ' ' :: ("payable".toList ++ found) := rfl
    have htext := (after?_eq_some_iff.1 hfound).trans hwords
    have haddress : ∀ c ∈ "address".toList, Header.joins c = true := List.all_eq_true.1 (by decide)
    have hfirst := congrArg (List.takeWhile Header.joins) htext
    rw [takeWhile_stop hjoins hd, takeWhile_stop haddress (by decide)] at hfirst
    rw [hfirst] at htext
    obtain ⟨hspace, hrest⟩ := List.cons.inj (List.append_cancel_left htext)
    have hnone := hpayable hfirst hspace
    rw [hrest, after?_append_self] at hnone
    exact absurd hnone (by simp)
  · obtain ⟨c, more, rfl, hc, hmore⟩ := exists_eq_cons_of_isTypeWord hword
    have htake : (more ++ d :: rest).takeWhile Header.joins = more := takeWhile_stop hmore hd rest
    have hdrop : (more ++ d :: rest).dropWhile Header.joins = d :: rest := dropWhile_stop hmore hd rest
    show (if isIdentifierStart c then some (c :: (more ++ d :: rest).takeWhile Header.joins,
      (more ++ d :: rest).dropWhile Header.joins) else none) = _
    rw [if_pos hc, htake, hdrop]

/-! ### Whole types -/

/-- Array suffixes are read onto a type of either form. -/
theorem readType_append_sizes {head rest : List Char} {sizes : List (List Char)} (hsizes : ∀ size ∈ sizes, IsSize size)
    (hsuffix : ∀ more, trimLeft rest ≠ '[' :: more)
    (hhead : readMapping (head ++ (renderSizes sizes ++ rest)) = some (some (head, renderSizes sizes ++ rest)) ∨
      readMapping (head ++ (renderSizes sizes ++ rest)) = none ∧
        readPlainType (head ++ (renderSizes sizes ++ rest)) = some (head, renderSizes sizes ++ rest)) :
    readType (head ++ renderSizes sizes ++ rest) = some (head ++ renderSizes sizes, rest) := by
  have hfuel : sizes.length ≤ (head ++ (renderSizes sizes ++ rest)).length := by
    have hlength := length_le_length_renderSizes sizes
    simp only [List.length_append]
    omega
  have harrays := readArraySuffixes_renderSizes hsizes hsuffix [] hfuel
  rw [List.append_assoc, readType]
  rcases hhead with hmapping | ⟨hmapping, hplain⟩
  · simp only [hmapping, harrays, Option.map_some]
    rfl
  · simp only [hmapping, hplain, harrays, Option.map_some]
    rfl

theorem readType_plain {head rest : List Char} (hsuffix : ∀ more, trimLeft rest ≠ '[' :: more)
    (hmapping : readMapping (head ++ rest) = none) (hplain : readPlainType (head ++ rest) = some (head, rest)) :
    readType (head ++ rest) = some (head, rest) := by
  have hnone : ∀ size ∈ ([] : List (List Char)), IsSize size := fun size hsize => absurd hsize List.not_mem_nil
  have hread := readType_append_sizes hnone hsuffix (.inr ⟨hmapping, hplain⟩)
  rwa [renderSizes, List.flatMap_nil, List.append_nil] at hread

/-- A type is read whatever follows it, unless that would go on with the type. -/
theorem readType_render {type : TypeSyntax} (h : type.WellFormed) (hbegins : type.BeginsVariable) {rest : List Char}
    (hsuffix : ∀ more, trimLeft rest ≠ '[' :: more)
    (hpayable : type = .word "address".toList [] → after? "payable".toList rest = none) :
    readType (type.render ++ ' ' :: rest) = some (type.render, ' ' :: rest) := by
  have hsuffixes : ∀ more, trimLeft (' ' :: rest) ≠ '[' :: more := by rwa [trimLeft_blank (by decide)]
  cases type with
  | word name sizes =>
    have hname : name ≠ "mapping".toList := by
      rintro rfl
      exact hbegins (List.mem_append_right _ List.mem_cons_self)
    obtain ⟨d, tail, htail, hd, hspace⟩ : ∃ d tail, renderSizes sizes ++ ' ' :: rest = d :: tail ∧
        Header.joins d = false ∧ (d = ' ' → sizes = [] ∧ tail = rest) := by
      cases sizes with
      | nil => exact ⟨' ', rest, rfl, by decide, fun _ => ⟨rfl, rfl⟩⟩
      | cons size sizes => exact ⟨'[', _, rfl, by decide, fun hspace => absurd hspace (by decide)⟩
    refine readType_append_sizes h.2 hsuffixes (.inr ?_)
    rw [htail]
    have hword := isTypeWord_of_isDotted h.1
    refine ⟨readMapping_word hword hd (absurd · hname), readPlainType_word hword hd fun haddress hblank => ?_⟩
    obtain ⟨rfl, rfl⟩ := hspace hblank
    exact hpayable (by rw [haddress])
  | payable sizes =>
    refine readType_append_sizes h hsuffixes (.inr ⟨rfl, ?_⟩)
    unfold addressPayable readPlainType
    rw [after?_append_self]
  | mapping key value sizes =>
    have hkey := TypeSyntax.enclosed_render h.1
    have hvalue := TypeSyntax.enclosed_render h.2.1
    exact readType_append_sizes h.2.2 hsuffixes (.inl (readMapping_mappingOf hkey hvalue _))

/-! ### Declarations -/

/-- The first word of a statement does not end at a character that joins. -/
theorem inHeadWord_of_joins {c : Char} (h : Header.joins c = true) : (c != ' ' && c != '(') = true := by
  have hspace : c ≠ ' ' := Header.joins_ne h (by decide)
  have hparen : c ≠ '(' := Header.joins_ne h (by decide)
  simp [hspace, hparen]

/-- No modifier begins like `payable`. -/
theorem after?_payable_spacedModifiers {modifiers : List VariableModifier}
    (h : ∀ modifier ∈ modifiers, modifier.WellFormed) {more : List Char}
    (hmore : modifiers = [] → after? "payable".toList more = none) :
    after? "payable".toList (spacedModifiers modifiers ++ more) = none := by
  cases modifiers with
  | nil => exact hmore rfl
  | cons modifier modifiers =>
    have hbegins := VariableModifier.beginsModifier_text (h modifier List.mem_cons_self)
    obtain ⟨c, d, rest, htext, -, hletters⟩ := exists_of_beginsModifier hbegins
    cases hpayable : after? "payable".toList (spacedModifiers (modifier :: modifiers) ++ more) with
    | none => rfl
    | some found =>
      have hwords := after?_eq_some_iff.1 hpayable
      rw [spacedModifiers, List.flatMap_cons, htext] at hwords
      obtain ⟨hc, hrest⟩ := List.cons.inj hwords
      exact absurd ⟨hc, (List.cons.inj hrest).1⟩ hletters

namespace VariableSyntax

/-- What is behind a name does not belong to it. -/
theorem isWordChar_head? {tail : List Char} (htail : ∀ c ∈ beforeInitialiser tail, isBlank c = true) :
    ∀ c ∈ tail.head?, isWordChar c = false := by
  cases tail with
  | nil => simp
  | cons c tail =>
    rintro d hd
    obtain rfl : c = d := Option.some.inj hd
    by_cases hc : c = '='
    · rw [hc]
      decide
    · rw [beforeInitialiser, List.takeWhile_cons_of_pos (by simpa using hc)] at htail
      exact isWordChar_of_isBlank (htail c List.mem_cons_self)

variable {declaration : VariableSyntax} (h : declaration.WellFormed)
include h

/-- The modifiers and the name are read back, and the overrides are dropped. -/
theorem splitDeclarator_declarator {tail : List Char} (htail : ∀ c ∈ beforeInitialiser tail, isBlank c = true) :
    splitDeclarator (declaration.declarator ++ tail) =
      some (declaration.modifiers.filterMap VariableModifier.word?, declaration.name) := by
  have hname := isIdentifier_of_isName h.name
  have hend : ∀ c ∈ (beforeInitialiser tail).head?, isWordChar c = false := by
    intro c hc
    exact isWordChar_of_isBlank (htail c (List.mem_of_mem_head? hc))
  have hkept : dropOverrides (declaration.name ++ beforeInitialiser tail) =
      declaration.name ++ beforeInitialiser tail := by
    rw [dropOverrides, dropOverridesOnto_word (isWordChar_of_isName h.name) (ne_nil_of_isIdentifier hname)
      h.notOverride hend, dropOverridesOnto_gap htail]
    simp
  have hwords : words (dropOverrides (beforeInitialiser (declaration.declarator ++ tail))) =
      declaration.modifiers.filterMap VariableModifier.word? ++ [declaration.name] := by
    rw [beforeInitialiser_declarator_append h.modifiers hname, dropOverrides_declarator_append h.modifiers hname, hkept,
      words_cons_blank (by decide), words_remainders h.modifiers, words_append_blank htail,
      words_dotted (isDotted_of_isIdentifier hname)]
  exact splitDeclarator_eq_some_iff.2 ⟨hwords, hname, h.notModifier, mem_variableModifierWords h.modifiers⟩

/-- The text behind the type does not go on with the type. -/
theorem after?_payable_eq_none (haddress : declaration.type = .word "address".toList []) {tail : List Char}
    (htail : ∀ c ∈ beforeInitialiser tail, isBlank c = true) :
    after? "payable".toList (spacedModifiers declaration.modifiers ++ (declaration.name ++ tail)) = none := by
  refine after?_payable_spacedModifiers h.modifiers fun _ => ?_
  cases hpayable : after? "payable".toList (declaration.name ++ tail) with
  | none => rfl
  | some found =>
    have hkeyword : ∀ c ∈ "payable".toList, isWordChar c = true := List.all_eq_true.1 (by decide)
    obtain ⟨more, hname, -⟩ := after?_run hkeyword (isWordChar_head? htail) hpayable
    exact absurd ⟨more, hname.symm⟩ (h.notPayable haddress)

theorem readType_render {tail : List Char} (htail : ∀ c ∈ beforeInitialiser tail, isBlank c = true) :
    readType (declaration.render ++ tail) = some (declaration.type.render, declaration.declarator ++ tail) := by
  have hname := beginsPart_identifier (isIdentifier_of_isName h.name)
  have hbegins := beginsPart_spacedModifiers h.modifiers (hname.append tail)
  have hpayable := fun haddress => after?_payable_eq_none h haddress htail
  have hsuffix : ∀ more,
      trimLeft (spacedModifiers declaration.modifiers ++ (declaration.name ++ tail)) ≠ '[' :: more := by
    rw [hbegins.trimLeft_eq]
    exact hbegins.ne_cons (by decide)
  have htype := Solidity.readType_render h.type h.begins hsuffix hpayable
  rw [render, declarator_eq, List.append_assoc, List.cons_append, List.append_assoc]
  exact htype

/-- The head of a variable is not a word that another member begins with. -/
theorem headWord_render (tail : List Char) : headWord (declaration.render ++ tail) ∉ nonVariableWords := by
  have hbegins := h.begins
  have htype := h.type
  rw [render, List.append_assoc, declarator_eq, List.cons_append]
  generalize spacedModifiers declaration.modifiers ++ declaration.name ++ tail = rest
  generalize declaration.type = type at hbegins htype ⊢
  cases type with
  | word name sizes =>
    have hwhole : ∀ c ∈ name, (c != ' ' && c != '(') = true :=
      fun c hc => inHeadWord_of_joins (Header.joins_of_isDotted htype.1 c hc)
    intro hmem
    have hall : ∀ word ∈ nonVariableWords, word.all isWordChar = true := by decide
    rw [TypeSyntax.render, List.append_assoc, headWord, List.takeWhile_append_of_pos hwhole] at hmem
    cases sizes with
    | nil =>
      have hend : (renderSizes [] ++ ' ' :: rest).takeWhile (fun c => c != ' ' && c != '(') = [] := rfl
      rw [hend, List.append_nil] at hmem
      exact hbegins (List.mem_append_left _ hmem)
    | cons size sizes =>
      -- a suffix would be a part of the word, but no word has a bracket
      have hbracket : '[' ∈ (renderSizes (size :: sizes) ++ ' ' :: rest).takeWhile (fun c => c != ' ' && c != '(') :=
        List.mem_cons_self
      exact absurd (List.all_eq_true.1 (hall _ hmem) _ (List.mem_append_right name hbracket)) (by decide)
  | payable sizes =>
    exact (by decide : "address".toList ∉ nonVariableWords)
  | mapping key value sizes =>
    exact (by decide : "mapping".toList ∉ nonVariableWords)

theorem readVariable_render (fixings : Fixings) {tail : List Char}
    (htail : ∀ c ∈ beforeInitialiser tail, isBlank c = true) :
    readVariable fixings (declaration.render ++ tail) = some (declaration.record fixings) := by
  have hhead := headWord_render h tail
  have hfunction : headWord (declaration.render ++ tail) ≠ "function".toList := by
    intro heq
    rw [heq] at hhead
    exact hhead (by decide)
  have hcontains : nonVariableWords.contains (headWord (declaration.render ++ tail)) = false := by simpa using hhead
  have hkeyword : ∀ word : List Char, (declaration.modifiers.filterMap VariableModifier.word?).contains word =
      decide (.keyword word ∈ declaration.modifiers) := by
    intro word
    rw [Bool.eq_iff_iff, List.contains_iff_mem, VariableModifier.mem_filterMap_word?, decide_eq_true_iff]
  rw [readVariable]
  simp only [hfunction, hcontains, if_false, Bool.false_eq_true, readType_render h htail,
    splitDeclarator_declarator h htail, Option.map_some, variableRecord, hkeyword]
  rfl

end VariableSyntax

end ContractMigration.Solidity
