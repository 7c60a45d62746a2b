import ContractMigration.Proofs.Solidity.VariableRendering

/-!
# The name of a declared variable

A declaration is a word for the type, modifiers and a name, and a semicolon behind them. When the word begins no other
member and the name does not go on with it, the declaration is read as a variable whose type is the word
(`typed_names_of_word`). Its name is then read whole exactly when it does not begin with `override`
(`name_read_whole_iff`): the modifiers do not matter, whatever their order and whatever lists the overrides have.
-/

namespace ContractMigration.Solidity

open Text

theorem isTidy_typeWord {word : List Char} (h : isTypeWord word = true) : IsTidy word := by
  obtain ⟨c, rest, rfl, -, -⟩ := exists_eq_cons_of_isTypeWord h
  exact isTidy_word (List.cons_ne_nil c rest) fun d hd => Header.not_isBlank_of_joins (joins_of_isTypeWord h d hd)

theorem headWord_typeWord {word : List Char} (h : isTypeWord word = true) (rest : List Char) :
    headWord (word ++ ' ' :: rest) = word :=
  takeWhile_stop (fun c hc => inHeadWord_of_joins (joins_of_isTypeWord h c hc)) (by decide) rest

/-- A word in front of a modifier or a name is the whole type, unless the two are `address` and `payable`. -/
theorem readType_word {word rest : List Char} (hword : isTypeWord word = true) (hrest : BeginsPart rest)
    (hpayable : word = "address".toList → after? "payable".toList rest = none) :
    readType (word ++ ' ' :: rest) = some (word, ' ' :: rest) := by
  have htrim : trimLeft (' ' :: rest) = rest := by rw [trimLeft_blank (by decide), hrest.trimLeft_eq]
  have hmapping : readMapping (word ++ ' ' :: rest) = none := by
    refine readMapping_word hword (by decide) fun _ => ?_
    rw [htrim]
    exact hrest.ne_cons (by decide)
  have hplain : readPlainType (word ++ ' ' :: rest) = some (word, ' ' :: rest) :=
    readPlainType_word hword (by decide) fun haddress _ => hpayable haddress
  have hsuffix : ∀ more, trimLeft (' ' :: rest) ≠ '[' :: more := by
    rw [htrim]
    exact hrest.ne_cons (by decide)
  exact readType_plain hsuffix hmapping hplain

namespace VariableSyntax

theorem render_word (word : List Char) (modifiers : List VariableModifier) (name : List Char) :
    render ⟨.word word [], modifiers, name⟩ = word ++ declarator ⟨.word word [], modifiers, name⟩ := by
  rw [render, TypeSyntax.render, renderSizes, List.flatMap_nil, List.append_nil]

/-- The name of a variable does not go on with its type. -/
def KeepsType (word : List Char) (modifiers : List VariableModifier) (name : List Char) : Prop :=
  word = "address".toList → modifiers = [] → ¬"payable".toList <+: name

section Word

variable {word name : List Char} {modifiers : List VariableModifier} (hword : isTypeWord word = true)
  (hmodifiers : ∀ modifier ∈ modifiers, modifier.WellFormed) (hname : isIdentifier name = true)
include hword hmodifiers hname

theorem members_render_word :
    members (render ⟨.word word [], modifiers, name⟩ ++ [';']) =
      [⟨render ⟨.word word [], modifiers, name⟩, .statement⟩] := by
  rw [render_word]
  apply members_statement
  · exact isTidy_append_declarator hmodifiers hname (isTidy_typeWord hword)
  · exact enclosed_append_declarator hmodifiers hname (enclosed_of_joins (joins_of_isTypeWord hword))

theorem stateVariables_render_word :
    stateVariables (render ⟨.word word [], modifiers, name⟩ ++ [';']) =
      (readVariable (.ofText (render ⟨.word word [], modifiers, name⟩ ++ [';']))
        (render ⟨.word word [], modifiers, name⟩)).toList := by
  rw [stateVariables, members_render_word hword hmodifiers hname, List.filterMap_cons, List.filterMap_nil,
    Member.readVariable]
  cases readVariable _ (render ⟨.word word [], modifiers, name⟩) with
  | none => rfl
  | some declared => rfl

theorem readVariable_render_word (hkeyword : word ∉ nonVariableWords) (hkeeps : KeepsType word modifiers name)
    (fixings : Fixings) :
    readVariable fixings (render ⟨.word word [], modifiers, name⟩) =
      (splitDeclarator (declarator ⟨.word word [], modifiers, name⟩)).map
        fun (found, name) => variableRecord fixings word found name := by
  have hbegins := beginsPart_spacedModifiers hmodifiers (beginsPart_identifier hname)
  have hpayable : word = "address".toList → after? "payable".toList (spacedModifiers modifiers ++ name) = none := by
    refine fun haddress => after?_payable_spacedModifiers hmodifiers fun hnone => ?_
    cases hafter : after? "payable".toList name with
    | none => rfl
    | some rest => exact absurd ⟨rest, (after?_eq_some_iff.1 hafter).symm⟩ (hkeeps haddress hnone)
  have hfunction : word ≠ "function".toList := by
    rintro rfl
    exact hkeyword (by decide)
  have hread := readType_word hword hbegins hpayable
  have hcontains : nonVariableWords.contains word = false := by simpa using hkeyword
  rw [render_word, declarator_eq, readVariable]
  simp only [headWord_typeWord hword, hfunction, hcontains, if_false, Bool.false_eq_true, hread]

/-- A word that another member begins with declares no variable; `function` would need a parenthesis behind it. -/
theorem readVariable_keyword (hkeyword : word ∈ nonVariableWords) (fixings : Fixings) :
    readVariable fixings (render ⟨.word word [], modifiers, name⟩) = none := by
  have hpart := beginsPart_spacedModifiers hmodifiers (beginsPart_identifier hname)
  rw [render_word, declarator_eq, readVariable]
  simp only [headWord_typeWord hword]
  by_cases hfunction : word = "function".toList
  · have hparen : (spacedModifiers modifiers ++ name).head? ≠ some '(' := by
      intro hhead
      obtain ⟨more, hmore⟩ := List.head?_eq_some_iff.1 hhead
      exact hpart.ne_cons (by decide) more hmore
    have hbegins : beginsFunctionType (word ++ ' ' :: (spacedModifiers modifiers ++ name)) = false := by
      rw [hfunction, beginsFunctionType, after?_append_self]
      show ((trimLeft (' ' :: (spacedModifiers modifiers ++ name))).head? == some '(') = false
      rw [trimLeft_blank (by decide), hpart.trimLeft_eq]
      exact beq_eq_false_iff_ne.2 hparen
    rw [if_pos hfunction, splitFunctionVariable, hbegins]
    rfl
  · rw [if_neg hfunction, if_pos (List.contains_iff_mem.2 hkeyword)]

theorem typed_names_of_word (hkeyword : word ∉ nonVariableWords) (hkeeps : KeepsType word modifiers name) :
    (stateVariables (render ⟨.word word [], modifiers, name⟩ ++ [';'])).map
        (fun declared => (declared.typeName, declared.name)) =
      ((splitDeclarator (declarator ⟨.word word [], modifiers, name⟩)).map
        fun found => (String.ofList word, String.ofList found.2)).toList := by
  rw [stateVariables_render_word hword hmodifiers hname,
    readVariable_render_word hword hmodifiers hname hkeyword hkeeps]
  cases splitDeclarator (declarator ⟨.word word [], modifiers, name⟩) with
  | none => rfl
  | some found => rfl

/-- Type and name are read back exactly when the name is no modifier and does not hold `override`. -/
theorem typed_names_eq_iff (hkeyword : word ∉ nonVariableWords) (hkeeps : KeepsType word modifiers name) :
    (stateVariables (render ⟨.word word [], modifiers, name⟩ ++ [';'])).map
        (fun declared => (declared.typeName, declared.name)) = [(String.ofList word, String.ofList name)] ↔
      name ∉ variableModifierWords ∧ ¬HoldsOverride name := by
  have hiff : (splitDeclarator (declarator ⟨.word word [], modifiers, name⟩)).map Prod.snd = some name ↔
      name ∉ variableModifierWords ∧ ¬HoldsOverride name := map_snd_splitDeclarator_iff hmodifiers hname
  rw [typed_names_of_word hword hmodifiers hname hkeyword hkeeps, ← hiff]
  cases splitDeclarator (declarator ⟨.word word [], modifiers, name⟩) with
  | none => simp
  | some found => simp [String.ofList_inj]

end Word

/-- The name of a declared variable is read whole exactly when it does not begin with `override`. -/
theorem name_read_whole_iff {word name : List Char} {modifiers : List VariableModifier} (hword : isTypeWord word = true)
    (hplain : word ∉ "address".toList :: nonVariableWords) (hmodifiers : ∀ modifier ∈ modifiers, modifier.WellFormed)
    (hname : isName name = true) (hfree : name ∉ variableModifierWords) :
    (stateVariables (render ⟨.word word [], modifiers, name⟩ ++ [';'])).map StateVariable.name = [String.ofList name] ↔
      ¬"override".toList <+: name := by
  rw [List.mem_cons, not_or] at hplain
  have hidentifier := isIdentifier_of_isName hname
  have hkeeps : KeepsType word modifiers name := fun haddress => absurd haddress hplain.1
  have htyped := typed_names_of_word hword hmodifiers hidentifier hplain.2 hkeeps
  have hiff : _ ↔ ¬HoldsOverride name :=
    (typed_names_eq_iff hword hmodifiers hidentifier hplain.2 hkeeps).trans (and_iff_right hfree)
  -- every variable that is read has the word for its type, so the names alone decide
  have hnames : (stateVariables (render ⟨.word word [], modifiers, name⟩ ++ [';'])).map StateVariable.name =
      ((splitDeclarator (declarator ⟨.word word [], modifiers, name⟩)).map
        fun found => String.ofList found.2).toList := by
    have hsecond := congrArg (List.map Prod.snd) htyped
    rw [List.map_map, ← Option.toList_map, Option.map_map] at hsecond
    exact hsecond
  rw [htyped] at hiff
  rw [hnames, ← holdsOverride_iff_begins (isWordChar_of_isName hname), ← hiff]
  cases splitDeclarator (declarator ⟨.word word [], modifiers, name⟩) with
  | none => simp
  | some found => simp

/-- Overrides with and without a list, keywords twice, and `override` inside the name. -/
theorem name_read_whole_fee :
    let word := "Ledger.Entry".toList
    let modifiers : List VariableModifier := [.override (some "A, B".toList), .keyword "public".toList, .override none,
      .keyword "constant".toList, .keyword "public".toList]
    let name := "fee_override".toList
    isTypeWord word = true ∧ word ∉ "address".toList :: nonVariableWords ∧
      (∀ modifier ∈ modifiers, modifier.WellFormed) ∧ isName name = true ∧ name ∉ variableModifierWords ∧
      ¬"override".toList <+: name ∧
      (stateVariables (render ⟨.word word [], modifiers, name⟩ ++ [';'])).map StateVariable.name =
        ["fee_override"] := by
  intro word modifiers name
  have hword : isTypeWord word = true := by decide
  have hplain : word ∉ "address".toList :: nonVariableWords := by decide
  have hmodifiers : ∀ modifier ∈ modifiers, modifier.WellFormed := by decide
  have hname : isName name = true := by decide
  have hfree : name ∉ variableModifierWords := by decide
  have hbegins : ¬"override".toList <+: name := by decide
  exact ⟨hword, hplain, hmodifiers, hname, hfree, hbegins,
    (name_read_whole_iff hword hplain hmodifiers hname hfree).2 hbegins⟩

/-- A name that begins with `override` loses these letters. -/
theorem name_loses_override :
    let name := "overrideFee".toList
    isTypeWord "uint256".toList = true ∧ "uint256".toList ∉ "address".toList :: nonVariableWords ∧
      isName name = true ∧ name ∉ "override".toList :: variableModifierWords ∧
      (stateVariables (render ⟨.word "uint256".toList [], [], name⟩ ++ [';'])).map StateVariable.name = ["Fee"] := by
  decide +kernel

end VariableSyntax

end ContractMigration.Solidity
