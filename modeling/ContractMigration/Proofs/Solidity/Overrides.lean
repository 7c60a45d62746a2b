import ContractMigration.Proofs.Solidity.VariableSyntax

/-!
# Overrides between a type and a name

Each `override` with its list is replaced by a space before what stands between the type and the initialiser is cut into
words. It is looked for where a word may begin, so a text that does not hold it there is left alone
(`dropOverrides_eq_self`). But nothing asks that the word also ends there, and a dollar sign is no word character.
Wherever the text holds one, letters are lost, and a word as long as the text is not among the words that are left
(`not_mem_words_dropOverrides`). So the name of a variable is read exactly when it is no modifier and does not hold
`override` (`map_snd_splitDeclarator_iff`).
-/

namespace ContractMigration.Solidity

open Text

/-! ### Places of `override` -/

/-- Whether `override` stands in a text where a word may begin, behind a word character or not. -/
def HoldsOverrideBehind (joined : Bool) (text : List Char) : Prop :=
  ∃ front rest, text = front ++ ("override".toList ++ rest) ∧ (front.getLast?.map isWordChar).getD joined = false

theorem not_holdsOverrideBehind_nil (joined : Bool) : ¬HoldsOverrideBehind joined [] := by
  rintro ⟨front, rest, htext, -⟩
  have hlength := congrArg List.length htext
  simp at hlength

theorem holdsOverrideBehind_cons {joined : Bool} {c : Char} {text : List Char} :
    HoldsOverrideBehind joined (c :: text) ↔
      joined = false ∧ "override".toList <+: c :: text ∨ HoldsOverrideBehind (isWordChar c) text := by
  have hlast : ∀ front : List Char, ((c :: front).getLast?.map isWordChar).getD joined =
      (front.getLast?.map isWordChar).getD (isWordChar c) := by
    intro front
    rw [List.getLast?_cons]
    cases front.getLast? <;> rfl
  constructor
  · rintro ⟨front, rest, htext, hfree⟩
    cases front with
    | nil => exact .inl ⟨hfree, rest, htext.symm⟩
    | cons d front =>
      obtain ⟨rfl, rfl⟩ := List.cons.inj htext
      exact .inr ⟨front, rest, rfl, by rw [← hlast, hfree]⟩
  · rintro (⟨rfl, rest, hrest⟩ | ⟨front, rest, rfl, hfree⟩)
    · exact ⟨[], rest, hrest.symm, rfl⟩
    · exact ⟨c :: front, rest, rfl, by rw [hlast, hfree]⟩

instance decidableHoldsOverrideBehind (joined : Bool) : (text : List Char) → Decidable (HoldsOverrideBehind joined text)
  | [] => isFalse (not_holdsOverrideBehind_nil joined)
  | c :: text =>
    have := decidableHoldsOverrideBehind (isWordChar c) text
    decidable_of_iff _ holdsOverrideBehind_cons.symm

/-- Whether `override` stands in a text where a word may begin. -/
def HoldsOverride (text : List Char) : Prop :=
  HoldsOverrideBehind false text

instance (text : List Char) : Decidable (HoldsOverride text) :=
  inferInstanceAs (Decidable (HoldsOverrideBehind false text))

/-- Among word characters only the first may begin a word. -/
theorem holdsOverride_iff_begins {word : List Char} (hword : ∀ c ∈ word, isWordChar c = true) :
    HoldsOverride word ↔ "override".toList <+: word := by
  constructor
  · rintro ⟨front, rest, rfl, hfree⟩
    cases hlast : front.getLast? with
    | none => exact ⟨rest, by rw [List.getLast?_eq_none_iff.1 hlast, List.nil_append]⟩
    | some c =>
      have hc := hword c (List.mem_append_left _ (List.mem_of_getLast? hlast))
      rw [hlast, Option.map_some, Option.getD_some, hc] at hfree
      exact absurd hfree (by decide)
  · rintro ⟨rest, rfl⟩
    exact ⟨[], rest, rfl, rfl⟩

theorem overrideWidth?_eq_none_iff {text : List Char} : overrideWidth? text = none ↔ ¬"override".toList <+: text := by
  constructor
  · rintro hnone ⟨rest, rfl⟩
    rw [overrideWidth?, after?_append_self] at hnone
    simp only at hnone
    split at hnone
    · split_ifs at hnone
    · exact absurd hnone (by simp)
  · intro hfree
    rw [overrideWidth?]
    split
    · rfl
    · next rest hrest => exact absurd ⟨rest, (after?_eq_some_iff.1 hrest).symm⟩ hfree

/-! ### What is replaced -/

theorem dropOverridesOnto_eq (done : List Char) (skip : Nat) (joined : Bool) (text : List Char) :
    dropOverridesOnto done skip joined text = done.reverse ++ dropOverridesOnto [] skip joined text := by
  induction text generalizing done skip joined with
  | nil => rw [dropOverridesOnto, dropOverridesOnto, List.reverse_nil, List.append_nil]
  | cons c text ih =>
    cases skip with
    | succ skip => exact ih done skip (isWordChar c)
    | zero =>
      rw [dropOverridesOnto, dropOverridesOnto]
      split
      · next width hwidth => rw [ih (' ' :: done), ih [' '], List.reverse_cons, List.append_assoc]; rfl
      · rw [ih (c :: done), ih [c], List.reverse_cons, List.append_assoc]; rfl

/-- A character is replaced where an `override` begins that may begin there, and kept elsewhere. -/
theorem dropOverridesOnto_cons (joined : Bool) (c : Char) (text : List Char) :
    (joined = false ∧ "override".toList <+: c :: text) ∧
        (∃ skip, dropOverridesOnto [] 0 joined (c :: text) = ' ' :: dropOverridesOnto [] skip (isWordChar c) text) ∨
      ¬(joined = false ∧ "override".toList <+: c :: text) ∧
        dropOverridesOnto [] 0 joined (c :: text) = c :: dropOverridesOnto [] 0 (isWordChar c) text := by
  rw [dropOverridesOnto]
  split
  · next width hwidth =>
    rw [Option.ite_none_left_eq_some] at hwidth
    have hbegins : "override".toList <+: c :: text := by
      by_contra hfree
      rw [overrideWidth?_eq_none_iff.2 hfree] at hwidth
      exact absurd hwidth.2 (by simp)
    refine .inl ⟨⟨by simpa using hwidth.1, hbegins⟩, width - 1, ?_⟩
    rw [dropOverridesOnto_eq]
    rfl
  · next hnone =>
    refine .inr ⟨?_, by rw [dropOverridesOnto_eq]; rfl⟩
    rintro ⟨rfl, hbegins⟩
    exact overrideWidth?_eq_none_iff.1 hnone hbegins

theorem dropOverridesOnto_eq_self {joined : Bool} {text : List Char} (h : ¬HoldsOverrideBehind joined text) :
    dropOverridesOnto [] 0 joined text = text := by
  induction text generalizing joined with
  | nil => rfl
  | cons c text ih =>
    rw [holdsOverrideBehind_cons, not_or] at h
    rcases dropOverridesOnto_cons joined c text with ⟨hbegins, -⟩ | ⟨-, hkept⟩
    · exact absurd hbegins h.1
    · rw [hkept, ih h.2]

/-- A text that does not hold `override` is left alone. -/
theorem dropOverrides_eq_self {text : List Char} (h : ¬HoldsOverride text) : dropOverrides text = text :=
  dropOverridesOnto_eq_self h

theorem countP_dropOverridesOnto_le (skip : Nat) (joined : Bool) (text : List Char) :
    (dropOverridesOnto [] skip joined text).countP (!isBlank ·) ≤ text.countP (!isBlank ·) := by
  induction text generalizing skip joined with
  | nil => exact Nat.le_refl _
  | cons c text ih =>
    cases skip with
    | succ skip => exact (ih skip (isWordChar c)).trans (List.sublist_cons_self c text).countP_le
    | zero =>
      rcases dropOverridesOnto_cons joined c text with ⟨-, skip, hreplaced⟩ | ⟨-, hkept⟩
      · rw [hreplaced, List.countP_cons_of_neg (by decide)]
        exact (ih skip _).trans (List.sublist_cons_self c text).countP_le
      · rw [hkept, List.countP_cons, List.countP_cons]
        exact Nat.add_le_add_right (ih 0 _) _

theorem countP_dropOverridesOnto_lt {joined : Bool} {text : List Char} (h : HoldsOverrideBehind joined text) :
    (dropOverridesOnto [] 0 joined text).countP (!isBlank ·) < text.countP (!isBlank ·) := by
  induction text generalizing joined with
  | nil => exact absurd h (not_holdsOverrideBehind_nil joined)
  | cons c text ih =>
    rcases dropOverridesOnto_cons joined c text with ⟨⟨-, hbegins⟩, skip, hreplaced⟩ | ⟨hfree, hkept⟩
    · obtain rfl : 'o' = c := (List.cons_prefix_cons.1 hbegins).1
      have hle := countP_dropOverridesOnto_le skip (isWordChar 'o') text
      rw [hreplaced, List.countP_cons_of_neg (by decide), List.countP_cons_of_pos (by decide)]
      exact Nat.lt_succ_of_le hle
    · have hlater := (holdsOverrideBehind_cons.1 h).resolve_left hfree
      rw [hkept, List.countP_cons, List.countP_cons]
      exact Nat.add_lt_add_right (ih hlater) _

theorem length_le_of_mem_words {word text : List Char} (h : word ∈ words text) :
    word.length ≤ text.countP (!isBlank ·) := by
  have hlength := (List.sublist_flatten_of_mem h).length_le
  rwa [flatten_words, ← List.countP_eq_length_filter] at hlength

/-- A word that holds `override` is not among the words that are left of it. -/
theorem not_mem_words_dropOverrides {word : List Char} (h : HoldsOverride word) :
    word ∉ words (dropOverrides word) := by
  intro hmem
  have hle := length_le_of_mem_words hmem
  have hlt : (dropOverrides word).countP (!isBlank ·) < word.countP (!isBlank ·) := countP_dropOverridesOnto_lt h
  have hall : word.countP (!isBlank ·) ≤ word.length := List.countP_le_length
  omega

/-! ### Modifiers and names -/

/-- The characters of a replaced `override` are passed over. -/
theorem dropOverridesOnto_skip (done skipped : List Char) (c : Char) (rest : List Char) (joined : Bool) :
    dropOverridesOnto done (skipped.length + 1) joined (skipped ++ c :: rest) =
      dropOverridesOnto done 0 (isWordChar c) rest := by
  induction skipped generalizing joined with
  | nil => rw [List.length_nil, List.nil_append, dropOverridesOnto]
  | cons d skipped ih => rw [List.length_cons, List.cons_append, dropOverridesOnto, ih]

theorem dropOverridesOnto_found (first last : Char) (skipped rest : List Char)
    (hwidth : overrideWidth? (first :: (skipped ++ last :: rest)) = some (skipped.length + 2)) (done : List Char) :
    dropOverridesOnto done 0 false (first :: (skipped ++ last :: rest)) =
      dropOverridesOnto (' ' :: done) 0 (isWordChar last) rest := by
  rw [dropOverridesOnto, if_neg (by decide), hwidth]
  exact dropOverridesOnto_skip (' ' :: done) skipped last rest (isWordChar first)

theorem dropOverridesOnto_blank {c : Char} (hc : isBlank c = true) (done : List Char) (joined : Bool)
    (rest : List Char) : dropOverridesOnto done 0 joined (c :: rest) = dropOverridesOnto (c :: done) 0 false rest := by
  have hwidth : overrideWidth? (c :: rest) = none := by
    refine overrideWidth?_eq_none_iff.2 fun hbegins => ?_
    obtain rfl : 'o' = c := (List.cons_prefix_cons.1 hbegins).1
    exact absurd hc (by decide)
  rw [dropOverridesOnto, hwidth, ite_self, isWordChar_of_isBlank hc]

theorem dropOverridesOnto_gap {gap : List Char} (hgap : ∀ c ∈ gap, isBlank c = true) (done : List Char)
    (joined : Bool) : dropOverridesOnto done 0 joined gap = done.reverse ++ gap := by
  induction gap generalizing done joined with
  | nil => simp [dropOverridesOnto]
  | cons c gap ih =>
    rw [List.forall_mem_cons] at hgap
    rw [dropOverridesOnto_blank hgap.1, ih hgap.2]
    simp

theorem overrideWidth?_word {word rest : List Char} (hfree : ¬"override".toList <+: word)
    (hrest : ∀ c ∈ rest.head?, isWordChar c = false) : overrideWidth? (word ++ rest) = none := by
  have hkeyword : ∀ c ∈ "override".toList, isWordChar c = true := List.all_eq_true.1 (by decide)
  refine overrideWidth?_eq_none_iff.2 fun ⟨found, hfound⟩ => ?_
  obtain ⟨more, hword, -⟩ := after?_run hkeyword hrest (after?_eq_some_iff.2 hfound.symm)
  exact hfree ⟨more, hword.symm⟩

/-- A word that does not begin with `override` is kept. -/
theorem dropOverridesOnto_word {word : List Char} (hword : ∀ c ∈ word, isWordChar c = true) (hne : word ≠ [])
    (hfree : ¬"override".toList <+: word) {rest : List Char} (hrest : ∀ c ∈ rest.head?, isWordChar c = false)
    (done : List Char) :
    dropOverridesOnto done 0 false (word ++ rest) = dropOverridesOnto (word.reverse ++ done) 0 true rest := by
  have hjoined : ∀ (more done : List Char), (∀ c ∈ more, isWordChar c = true) →
      dropOverridesOnto done 0 true (more ++ rest) = dropOverridesOnto (more.reverse ++ done) 0 true rest := by
    intro more
    induction more with
    | nil => exact fun _ _ => rfl
    | cons c more ih =>
      intro done hmore
      rw [List.forall_mem_cons] at hmore
      rw [List.cons_append, dropOverridesOnto, if_pos rfl, hmore.1, ih _ hmore.2]
      simp
  obtain ⟨c, more, rfl⟩ := List.exists_cons_of_ne_nil hne
  have hwidth := overrideWidth?_word hfree hrest
  rw [List.forall_mem_cons] at hword
  rw [List.cons_append] at hwidth ⊢
  rw [dropOverridesOnto, if_neg (by decide), hwidth, hword.1, hjoined more _ hword.2]
  simp

theorem overrideWidth?_space {more : List Char} (hmore : BeginsPart more) :
    overrideWidth? ("override".toList ++ ' ' :: more) = some 9 := by
  have hparen := hmore.ne_cons (by decide : beginsPart '(' = false)
  obtain ⟨c, rest, rfl, hc⟩ := hmore
  have hgap : (' ' :: c :: rest).takeWhile isBlank = [' '] := by
    rw [List.takeWhile_cons_of_pos (by decide), List.takeWhile_cons_of_neg (by simp [(beginsPart_iff.1 hc).1])]
  rw [overrideWidth?, after?_append_self]
  simp only [hgap, List.length_singleton, List.drop_succ_cons, List.drop_zero]
  rfl

theorem overrideWidth?_call {list : List Char} (h : IsNameList list) (rest : List Char) :
    overrideWidth? (call "override".toList list ++ rest) = some (list.length + 10) := by
  have hflat : ∀ c ∈ list, (c != '(' && c != ')') = true := by
    intro c hc
    have hfree := h.not_mem c hc
    simp only [List.mem_cons, List.not_mem_nil, or_false, not_or] at hfree
    simp [hfree.1, hfree.2.1]
  have hinside := takeWhile_stop hflat (by decide : (')' != '(' && ')' != ')') = false) rest
  have hgap : ('(' :: (list ++ ')' :: rest)).takeWhile isBlank = [] :=
    List.takeWhile_cons_of_neg (by decide)
  rw [call_append, overrideWidth?, after?_append_self]
  simp only [hgap, List.length_nil, List.drop_zero, hinside, List.drop_left, List.head?_cons, beq_self_eq_true, if_true]
  congr 1
  have hlength : "override".length = 8 := rfl
  omega

/-- The text of each modifier and a space behind it. -/
def spacedModifiers (modifiers : List VariableModifier) : List Char :=
  modifiers.flatMap fun modifier => modifier.text ++ [' ']

/-- What is left of a modifier and the space behind it. -/
def VariableModifier.remainder : VariableModifier → List Char
  | keyword word => word ++ [' ']
  | override none => [' ']
  | override (some _) => [' ', ' ']

theorem dropOverridesOnto_modifier {modifier : VariableModifier} (h : modifier.WellFormed) {more : List Char}
    (hmore : BeginsPart more) (done : List Char) :
    dropOverridesOnto done 0 false (modifier.text ++ ' ' :: more) =
      dropOverridesOnto (modifier.remainder.reverse ++ done) 0 false more := by
  have hspace : isBlank ' ' = true := by decide
  have hjoined : isWordChar ' ' = false := by decide
  cases modifier with
  | keyword word =>
    have hall : ∀ word ∈ variableModifierWords,
        word ≠ [] ∧ word.all isWordChar = true ∧ ¬"override".toList <+: word := by decide
    have hend : ∀ c ∈ (' ' :: more).head?, isWordChar c = false := by simpa using hjoined
    obtain ⟨hne, hword, hfree⟩ := hall word h
    have hkept := dropOverridesOnto_word (List.all_eq_true.1 hword) hne hfree hend done
    rw [dropOverridesOnto_blank hspace] at hkept
    have hremainder : (VariableModifier.keyword word).remainder.reverse ++ done = ' ' :: (word.reverse ++ done) := by
      simp [VariableModifier.remainder]
    rw [hremainder]
    exact hkept
  | override bases =>
    cases bases with
    | none =>
      have hwidth := overrideWidth?_space hmore
      exact dropOverridesOnto_found 'o' ' ' "verride".toList more hwidth done
    | some list =>
      have hwidth := overrideWidth?_call (h list rfl) (' ' :: more)
      have htext : call "override".toList list ++ ' ' :: more =
          'o' :: (("verride(".toList ++ list) ++ ')' :: ' ' :: more) := by
        rw [call_append, List.append_assoc]
        rfl
      have hlength : list.length + 10 = ("verride(".toList ++ list).length + 2 := by
        have hword : "verride(".toList.length = 8 := rfl
        rw [List.length_append, hword]
        omega
      rw [htext, hlength] at hwidth
      have hfound := dropOverridesOnto_found _ _ _ _ hwidth done
      rw [dropOverridesOnto_blank hspace, ← htext] at hfound
      exact hfound

section Modifiers

variable {modifiers : List VariableModifier} (h : ∀ modifier ∈ modifiers, modifier.WellFormed)
include h

theorem beginsPart_spacedModifiers {more : List Char} (hmore : BeginsPart more) :
    BeginsPart (spacedModifiers modifiers ++ more) := by
  cases modifiers with
  | nil => exact hmore
  | cons modifier modifiers =>
    have hbegins := VariableModifier.beginsModifier_text (h modifier List.mem_cons_self)
    obtain ⟨c, d, rest, htext, hc, -⟩ := exists_of_beginsModifier hbegins
    rw [spacedModifiers, List.flatMap_cons, htext]
    exact ⟨c, _, rfl, hc⟩

theorem dropOverridesOnto_spacedModifiers {more : List Char} (hmore : BeginsPart more) (done : List Char) :
    dropOverridesOnto done 0 false (spacedModifiers modifiers ++ more) =
      dropOverridesOnto ((modifiers.flatMap VariableModifier.remainder).reverse ++ done) 0 false more := by
  induction modifiers generalizing done with
  | nil => rfl
  | cons modifier modifiers ih =>
    rw [List.forall_mem_cons] at h
    have hassoc : spacedModifiers (modifier :: modifiers) ++ more =
        modifier.text ++ ' ' :: (spacedModifiers modifiers ++ more) := by simp [spacedModifiers]
    rw [hassoc, dropOverridesOnto_modifier h.1 (beginsPart_spacedModifiers h.2 hmore), ih h.2, List.flatMap_cons,
      List.reverse_append, List.append_assoc]

theorem words_remainders (text : List Char) :
    words (modifiers.flatMap VariableModifier.remainder ++ text) =
      modifiers.filterMap VariableModifier.word? ++ words text := by
  induction modifiers with
  | nil => rfl
  | cons modifier modifiers ih =>
    rw [List.forall_mem_cons] at h
    have hblank : isBlank ' ' = true := by decide
    rw [List.flatMap_cons, List.append_assoc]
    cases modifier with
    | keyword word =>
      have hall : ∀ word ∈ variableModifierWords, words word = [word] := by decide
      have hassoc : (VariableModifier.keyword word).remainder ++
          (modifiers.flatMap VariableModifier.remainder ++ text) =
            word ++ ' ' :: (modifiers.flatMap VariableModifier.remainder ++ text) := by
        simp [VariableModifier.remainder]
      have hword : VariableModifier.word? (.keyword word) = some word := rfl
      rw [hassoc, words_append_space, hall word h.1, ih h.2, List.filterMap_cons_some hword]
      rfl
    | override bases =>
      have hword : VariableModifier.word? (.override bases) = none := rfl
      rw [List.filterMap_cons_none hword, ← ih h.2]
      cases bases with
      | none => exact words_cons_blank hblank _
      | some bases => rw [← words_cons_blank hblank, ← words_cons_blank hblank]; rfl

end Modifiers

/-! ### The declarator -/

namespace VariableSyntax

theorem declarator_eq (declaration : VariableSyntax) :
    declaration.declarator = ' ' :: (spacedModifiers declaration.modifiers ++ declaration.name) := by
  rw [declarator, spacedModifiers]
  induction declaration.modifiers with
  | nil => rfl
  | cons modifier modifiers ih =>
    rw [List.map_cons, List.flatMap_cons, List.append_assoc, ih]
    simp

theorem beginsPart_identifier {name : List Char} (h : isIdentifier name = true) : BeginsPart name := by
  obtain ⟨c, rest, rfl⟩ := List.exists_cons_of_ne_nil (ne_nil_of_isIdentifier h)
  have hc : isIdentifierChar c = true := isIdentifierChar_of_isIdentifier h c List.mem_cons_self
  have hne : ∀ d, isIdentifierChar d = false → c ≠ d := by
    rintro d hd rfl
    exact absurd hc (by simp [hd])
  have hpart := beginsPart_iff.2 ⟨isBlank_of_isIdentifierChar hc, hne '[' (by decide), hne '(' (by decide)⟩
  exact ⟨c, rest, rfl, hpart⟩

theorem splitDeclarator_eq_some_iff {text name : List Char} {modifiers : List (List Char)} :
    splitDeclarator text = some (modifiers, name) ↔
      words (dropOverrides (beforeInitialiser text)) = modifiers ++ [name] ∧ isIdentifier name = true ∧
        name ∉ variableModifierWords ∧ ∀ word ∈ modifiers, word ∈ variableModifierWords := by
  rw [splitDeclarator]
  split
  · next hnil => simp [List.reverse_eq_nil_iff.1 hnil]
  · next last before hwords =>
    have hwords' := List.reverse_eq_iff.1 hwords
    rw [List.reverse_cons] at hwords'
    rw [hwords', Option.ite_none_right_eq_some, Option.some.injEq, Prod.mk.injEq]
    constructor
    · rintro ⟨hread, rfl, rfl⟩
      simp only [Bool.and_eq_true, Bool.not_eq_true', List.all_eq_true, List.contains_iff_mem] at hread
      exact ⟨rfl, hread.1.1, by simpa using hread.1.2, hread.2⟩
    · rintro ⟨hsame, hname, hfree, hall⟩
      obtain ⟨rfl, hlast⟩ := List.append_inj' hsame rfl
      obtain rfl := List.singleton_injective hlast
      refine ⟨?_, rfl, rfl⟩
      simp only [Bool.and_eq_true, Bool.not_eq_true', List.all_eq_true, List.contains_iff_mem]
      exact ⟨⟨hname, by simpa using hfree⟩, hall⟩

theorem mem_variableModifierWords {modifiers : List VariableModifier}
    (h : ∀ modifier ∈ modifiers, modifier.WellFormed) :
    ∀ word ∈ modifiers.filterMap VariableModifier.word?, word ∈ variableModifierWords :=
  fun _ hword => h _ (VariableModifier.mem_filterMap_word?.1 hword)

section Declaration

variable {declaration : VariableSyntax} (hmodifiers : ∀ modifier ∈ declaration.modifiers, modifier.WellFormed)
  (hname : isIdentifier declaration.name = true)
include hmodifiers hname

/-- Overrides leave blanks behind, and the keywords are kept. -/
theorem dropOverrides_declarator_append (gap : List Char) :
    dropOverrides (declaration.declarator ++ gap) =
      ' ' :: (declaration.modifiers.flatMap VariableModifier.remainder ++ dropOverrides (declaration.name ++ gap)) := by
  rw [declarator_eq, List.cons_append, List.append_assoc, dropOverrides, dropOverridesOnto_blank (by decide),
    dropOverridesOnto_spacedModifiers hmodifiers ((beginsPart_identifier hname).append gap), dropOverridesOnto_eq]
  simp [dropOverrides]

theorem beforeInitialiser_declarator_append (tail : List Char) :
    beforeInitialiser (declaration.declarator ++ tail) = declaration.declarator ++ beforeInitialiser tail := by
  apply List.takeWhile_append_of_pos
  intro c hc
  have hne : c ≠ '=' := by
    rintro rfl
    exact noEquals_declarator hmodifiers hname hc
  simpa using hne

/-- A declared name is read exactly when it is no modifier and does not hold `override`. -/
theorem map_snd_splitDeclarator_iff :
    (splitDeclarator declaration.declarator).map Prod.snd = some declaration.name ↔
      declaration.name ∉ variableModifierWords ∧ ¬HoldsOverride declaration.name := by
  have hkeywords := mem_variableModifierWords hmodifiers
  have hwords : words (dropOverrides (beforeInitialiser declaration.declarator)) =
      declaration.modifiers.filterMap VariableModifier.word? ++ words (dropOverrides declaration.name) := by
    have hbefore := beforeInitialiser_declarator_append hmodifiers hname []
    have hdropped := dropOverrides_declarator_append hmodifiers hname []
    have hnil : beforeInitialiser [] = [] := rfl
    rw [List.append_nil, hnil, List.append_nil] at hbefore
    rw [List.append_nil, List.append_nil] at hdropped
    rw [hbefore, hdropped, words_cons_blank (by decide), words_remainders hmodifiers]
  constructor
  · intro hread
    obtain ⟨⟨modifiers, name⟩, hsplit, hsame⟩ := Option.map_eq_some_iff.1 hread
    obtain rfl : name = declaration.name := hsame
    obtain ⟨hsplit, -, hfree, -⟩ := splitDeclarator_eq_some_iff.1 hsplit
    refine ⟨hfree, fun hholds => ?_⟩
    have hmem : declaration.name ∈ modifiers ++ [declaration.name] := List.mem_append_right _ List.mem_cons_self
    rw [← hsplit, hwords, List.mem_append] at hmem
    exact hmem.elim (fun hword => hfree (hkeywords _ hword)) (not_mem_words_dropOverrides hholds)
  · rintro ⟨hfree, hkept⟩
    rw [dropOverrides_eq_self hkept, words_dotted (isDotted_of_isIdentifier hname)] at hwords
    rw [splitDeclarator_eq_some_iff.2 ⟨hwords, hname, hfree, hkeywords⟩]
    rfl

end Declaration

end VariableSyntax

end ContractMigration.Solidity
