import ContractMigration.Proofs.Solidity.DeclaredName
import ContractMigration.Proofs.Solidity.TypeText

/-!
# Where a type ends

The text that is taken for a type ends behind a parenthesis, behind a bracket, or behind as many characters as join on
to a word. So it ends between two characters of one identifier in one case only: `address payable` is tried before
single words and nothing asks that `payable` ends there (`type_ends_at_boundary`). A declaration that is a word and an
identifier is read as that type and that name unless it is such a case, one of the two is a word of the language, or
the identifier holds `override`.
-/

namespace ContractMigration.Solidity

open Text

/-- A cut between two characters that belong to one identifier. -/
def CutsIdentifier (front behind : List Char) : Prop :=
  ∃ c ∈ front.getLast?, ∃ d ∈ behind.head?, isIdentifierChar c = true ∧ isIdentifierChar d = true

theorem not_cutsIdentifier_concat {front behind : List Char} {c : Char} (hc : isIdentifierChar c = false) :
    ¬CutsIdentifier (front ++ [c]) behind := by
  rintro ⟨last, hlast, d, -, hchar, -⟩
  rw [List.getLast?_concat, Option.mem_some_iff] at hlast
  rw [← hlast, hc] at hchar
  exact absurd hchar (by decide)

/-! ### What is taken for a type -/

/-- Array suffixes end with a bracket. -/
theorem exists_taken_of_readArraySuffixes {done : List (List Char)} {fuel : Nat} {rest suffixes after : List Char}
    (h : readArraySuffixes done fuel rest = some (suffixes, after)) :
    rest = after ∨ ∃ taken, rest = taken ++ [']'] ++ after := by
  induction fuel generalizing done rest with
  | zero =>
    rw [readArraySuffixes, Option.some.injEq, Prod.mk.injEq] at h
    exact .inl h.2
  | succ fuel ih =>
    rw [readArraySuffixes] at h
    split at h
    · next more hmore =>
      split at h
      · exact absurd h (by simp)
      · next inside behind hclose =>
        have hrest : rest = rest.takeWhile isBlank ++ '[' :: (inside ++ ']' :: behind) := by
          rw [← splitAtClosing_eq_some (by decide) hclose, ← hmore, trimLeft, List.takeWhile_append_dropWhile]
        right
        rcases ih h with rfl | ⟨taken, rfl⟩
        · refine ⟨rest.takeWhile isBlank ++ '[' :: inside, hrest.trans ?_⟩
          simp
        · refine ⟨rest.takeWhile isBlank ++ '[' :: (inside ++ ']' :: taken), hrest.trans ?_⟩
          simp
    · rw [Option.some.injEq, Prod.mk.injEq] at h
      exact .inl h.2

theorem exists_concat_of_readMapping {text typeName rest : List Char}
    (h : readMapping text = some (some (typeName, rest))) : ∃ front, typeName = front ++ [')'] := by
  rw [readMapping] at h
  split at h
  · exact absurd h (by simp)
  · next found hfound =>
    split at h
    · obtain ⟨⟨inside, after⟩, -, hcut⟩ := Option.map_eq_some_iff.1 (Option.some.inj h)
      rw [Prod.mk.injEq] at hcut
      refine ⟨"mapping".toList ++ found.takeWhile isBlank ++ '(' :: inside, ?_⟩
      rw [← hcut.1, List.append_assoc, List.append_assoc, List.cons_append]
    · exact absurd h (by simp)

/-- A plain type is `address payable` or goes on as long as characters join. -/
theorem readPlainType_cases {text typeName rest : List Char} (h : readPlainType text = some (typeName, rest)) :
    typeName = addressPayable ∨ ∀ d ∈ rest.head?, isIdentifierChar d = false := by
  unfold readPlainType at h
  split at h
  · rw [Option.some.injEq, Prod.mk.injEq] at h
    exact .inl h.1.symm
  · split at h
    · exact absurd h (by simp)
    · next c more _ =>
      rw [Option.ite_none_right_eq_some, Option.some.injEq, Prod.mk.injEq] at h
      obtain ⟨-, -, hrest⟩ := h
      have hstop := List.head?_dropWhile_not Header.joins more
      have hrest' : more.dropWhile Header.joins = rest := hrest
      rw [hrest'] at hstop
      refine .inr fun d hd => ?_
      rw [Option.mem_def.1 hd] at hstop
      exact (Bool.or_eq_false_iff.1 hstop).1

/-- What goes on behind `address payable` is cut off. -/
theorem readType_addressPayable {more : List Char} (hmore : ∀ d ∈ more.head?, isIdentifierChar d = true) :
    readType (addressPayable ++ more) = some (addressPayable, more) := by
  have hsuffix : ∀ behind, trimLeft more ≠ '[' :: behind := by
    intro behind hbehind
    cases more with
    | nil => exact absurd hbehind (by simp [trimLeft])
    | cons d more =>
      have hd := hmore d rfl
      rw [trimLeft_cons (isBlank_of_isIdentifierChar hd)] at hbehind
      rw [(List.cons.inj hbehind).1] at hd
      exact absurd hd (by decide)
  have hplain : readPlainType (addressPayable ++ more) = some (addressPayable, more) := by
    unfold addressPayable readPlainType
    rw [after?_append_self]
  exact readType_plain hsuffix rfl hplain

/-- A type is cut off inside an identifier only behind `address payable`. -/
theorem cutsIdentifier_readType {text typeName rest : List Char} (h : readType text = some (typeName, rest)) :
    ∃ consumed, text = consumed ++ rest ∧
      (CutsIdentifier consumed rest ↔ ∃ d more, text = addressPayable ++ d :: more ∧ isIdentifierChar d = true) := by
  obtain ⟨head, behind, suffixes, hhead, hsuffixes, -⟩ := exists_readType h
  have htext : text = head ++ behind := hhead.elim readMapping_eq_some readPlainType_eq_some
  have hround : ∀ taken, text = taken ++ rest → (∃ d more, text = addressPayable ++ d :: more ∧
      isIdentifierChar d = true) → CutsIdentifier taken rest := by
    rintro taken htaken ⟨d, more, hpayable, hd⟩
    have hread : readType text = some (addressPayable, d :: more) := by
      rw [hpayable]
      exact readType_addressPayable (by simpa using hd)
    rw [h, Option.some.injEq, Prod.mk.injEq] at hread
    obtain ⟨-, rfl⟩ := hread
    obtain rfl := List.append_cancel_right (htaken.symm.trans hpayable)
    exact ⟨'e', rfl, d, rfl, by decide, hd⟩
  rcases exists_taken_of_readArraySuffixes hsuffixes with rfl | ⟨taken, rfl⟩
  · refine ⟨head, htext, fun hcut => ?_, hround head htext⟩
    rcases hhead with hmapping | hplain
    · obtain ⟨front, rfl⟩ := exists_concat_of_readMapping hmapping
      exact absurd hcut (not_cutsIdentifier_concat (by decide))
    · obtain ⟨c, -, d, hd, -, hchar⟩ := hcut
      rcases readPlainType_cases hplain with rfl | hstop
      · obtain ⟨more, rfl⟩ := List.head?_eq_some_iff.1 (Option.mem_def.1 hd)
        exact ⟨d, more, htext, hchar⟩
      · exact absurd hchar (by simp [hstop d hd])
  · rw [← List.append_assoc, ← List.append_assoc] at htext
    exact ⟨_, htext, fun hcut => absurd hcut (not_cutsIdentifier_concat (by decide)), hround _ htext⟩

/-! ### A word and an identifier -/

theorem typeName_addressPayable {more : List Char} (hmore : ∀ d ∈ more.head?, isIdentifierChar d = true)
    {fixings : Fixings} {declared : StateVariable} (h : readVariable fixings (addressPayable ++ more) = some declared) :
    declared.typeName = String.ofList addressPayable := by
  have hhead : headWord (addressPayable ++ more) = "address".toList := rfl
  have hfunction : "address".toList ≠ "function".toList := by decide
  have hkeyword : nonVariableWords.contains "address".toList = false := by decide
  rw [readVariable] at h
  simp only [hhead, hfunction, hkeyword, if_false, Bool.false_eq_true, readType_addressPayable hmore] at h
  obtain ⟨found, -, rfl⟩ := Option.map_eq_some_iff.1 h
  rfl

namespace VariableSyntax

theorem typed_names_iff {word name : List Char} (hword : isTypeWord word = true) (hname : isIdentifier name = true) :
    (stateVariables (word ++ ' ' :: (name ++ [';']))).map (fun declared => (declared.typeName, declared.name)) =
        [(String.ofList word, String.ofList name)] ↔
      word ∉ nonVariableWords ∧ name ∉ variableModifierWords ∧ ¬HoldsOverride name ∧
        ¬(word = "address".toList ∧ "payable".toList <+: name) := by
  have hnone : ∀ modifier ∈ ([] : List VariableModifier), modifier.WellFormed :=
    fun modifier hmodifier => absurd hmodifier List.not_mem_nil
  have hrender : word ++ ' ' :: (name ++ [';']) = render ⟨.word word [], [], name⟩ ++ [';'] := by
    rw [render_word, declarator_eq, spacedModifiers, List.flatMap_nil, List.nil_append, List.append_assoc,
      List.cons_append]
  rw [hrender]
  by_cases hkeyword : word ∈ nonVariableWords
  · rw [stateVariables_render_word hword hnone hname, readVariable_keyword hword hnone hname hkeyword]
    exact iff_of_false (by simp) fun h => h.1 hkeyword
  by_cases hpayable : word = "address".toList ∧ "payable".toList <+: name
  · obtain ⟨rfl, more, rfl⟩ := hpayable
    have hmore : ∀ d ∈ more.head?, isIdentifierChar d = true := by
      intro d hd
      exact isIdentifierChar_of_isIdentifier hname d (List.mem_append_right _ (List.mem_of_mem_head? hd))
    rw [stateVariables_render_word hword hnone hname]
    refine iff_of_false (fun htyped => ?_) fun h => h.2.2.2 ⟨rfl, List.prefix_append ..⟩
    have hpair := List.mem_singleton_self (String.ofList "address".toList, String.ofList ("payable".toList ++ more))
    rw [← htyped] at hpair
    obtain ⟨declared, hdeclared, hsame⟩ := List.mem_map.1 hpair
    have htype := typeName_addressPayable hmore (Option.mem_toList.1 hdeclared)
    rw [(Prod.mk.inj hsame).1, String.ofList_inj] at htype
    exact absurd htype (by decide)
  · have hkeeps : KeepsType word [] name := fun haddress _ hbegins => hpayable ⟨haddress, hbegins⟩
    rw [typed_names_eq_iff hword hnone hname hkeyword hkeeps]
    constructor
    · rintro ⟨hfree, hkept⟩
      exact ⟨hkeyword, hfree, hkept, hpayable⟩
    · rintro ⟨-, hfree, hkept, -⟩
      exact ⟨hfree, hkept⟩

end VariableSyntax

/-- The text that is taken for a type ends inside an identifier only behind `address payable`, and a word and an
identifier are read as a type and a name unless they look like that, one of the two is a word of the language, or the
identifier holds `override`. -/
theorem type_ends_at_boundary {text typeName rest word name : List Char}
    (hread : readType text = some (typeName, rest)) (hword : isTypeWord word = true)
    (hname : isIdentifier name = true) :
    (∃ consumed, text = consumed ++ rest ∧
      (CutsIdentifier consumed rest ↔ ∃ d more, text = addressPayable ++ d :: more ∧ isIdentifierChar d = true)) ∧
    ((stateVariables (word ++ ' ' :: (name ++ [';']))).map (fun declared => (declared.typeName, declared.name)) =
        [(String.ofList word, String.ofList name)] ↔
      word ∉ nonVariableWords ∧ name ∉ variableModifierWords ∧ ¬HoldsOverride name ∧
        ¬(word = "address".toList ∧ "payable".toList <+: name)) :=
  ⟨cutsIdentifier_readType hread, VariableSyntax.typed_names_iff hword hname⟩

/-- A suffix behind `address payable`, and a name that begins almost like it. -/
theorem type_ends_at_boundary_payees :
    readType "address payable [ 2 ] payees".toList = some ("address payable[2]".toList, " payees".toList) ∧
      (∃ consumed, "address payable [ 2 ] payees".toList = consumed ++ " payees".toList ∧
        ¬CutsIdentifier consumed " payees".toList) ∧
      isTypeWord "address".toList = true ∧ isIdentifier "payee$_override".toList = true ∧
      ((stateVariables "address payee$_override;".toList).map
        fun declared => (declared.typeName, declared.name)) = [("address", "payee$_override")] := by
  have hread : readType "address payable [ 2 ] payees".toList =
      some ("address payable[2]".toList, " payees".toList) := by decide
  have hword : isTypeWord "address".toList = true := by decide
  have hname : isIdentifier "payee$_override".toList = true := by decide
  obtain ⟨⟨consumed, htext, hcut⟩, htyped⟩ := type_ends_at_boundary hread hword hname
  refine ⟨hread, ⟨consumed, htext, fun h => ?_⟩, hword, hname, ?_⟩
  · obtain ⟨d, more, hpayable, hd⟩ := hcut.1 h
    have hbehind : addressPayable ++ ' ' :: "[ 2 ] payees".toList = addressPayable ++ d :: more := hpayable
    obtain rfl : ' ' = d := (List.cons.inj (List.append_cancel_left hbehind)).1
    exact absurd hd (by decide)
  · exact htyped.2 (by decide)

/-- A name that begins with `payable` is cut in two behind `address`. -/
theorem type_ends_inside_identifier :
    (∃ consumed, readType "address payableWallet".toList = some ("address payable".toList, "Wallet".toList) ∧
      "address payableWallet".toList = consumed ++ "Wallet".toList ∧ CutsIdentifier consumed "Wallet".toList) ∧
    isTypeWord "address".toList = true ∧ isIdentifier "payableWallet".toList = true ∧
    ¬"override".toList <+: "payableWallet".toList ∧
    ((stateVariables "address payableWallet;".toList).map fun declared => (declared.typeName, declared.name)) =
      [("address payable", "Wallet")] := by
  have hread : readType "address payableWallet".toList = some ("address payable".toList, "Wallet".toList) := by decide
  have hcut : CutsIdentifier addressPayable "Wallet".toList := ⟨'e', rfl, 'W', rfl, by decide, by decide⟩
  exact ⟨⟨addressPayable, hread, rfl, hcut⟩, by decide, by decide, by decide, by decide +kernel⟩

end ContractMigration.Solidity
