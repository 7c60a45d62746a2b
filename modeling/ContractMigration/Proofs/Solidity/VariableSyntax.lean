import ContractMigration.Proofs.Solidity.MemberSyntax
import ContractMigration.Solidity.Variable

/-!
# Written variables

A variable is written as a type, modifiers in any order, and a name. What makes it well formed is what keeps the reader
from taking one part for another: the type does not begin like another member, and the name is no modifier and does not
begin like one. In a body, variables stand between items of other kinds, and each item is written as one member or, when
a directive has a list in braces, as two.
-/

namespace ContractMigration.Solidity

open Text

/-! ### Modifiers -/

/-- A list of names as it may stand in parentheses, with or without spaces behind the commas. -/
structure IsNameList (list : List Char) : Prop where
  flat : list.all (fun c => decide (c ∉ ['(', ')', '\x7b', ';', '='])) = true
  tidy : IsTidy ('(' :: (list ++ [')']))

theorem isNameList_iff {list : List Char} :
    IsNameList list ↔
      list.all (fun c => decide (c ∉ ['(', ')', '\x7b', ';', '='])) = true ∧ IsTidy ('(' :: (list ++ [')'])) :=
  ⟨fun h => ⟨h.flat, h.tidy⟩, fun ⟨hflat, htidy⟩ => ⟨hflat, htidy⟩⟩

instance (list : List Char) : Decidable (IsNameList list) :=
  decidable_of_iff _ isNameList_iff.symm

theorem IsNameList.not_mem {list : List Char} (h : IsNameList list) : ∀ c ∈ list, c ∉ ['(', ')', '\x7b', ';', '='] :=
  fun c hc => of_decide_eq_true (List.all_eq_true.1 h.flat c hc)

/-- What may stand between the type of a variable and its name. -/
inductive VariableModifier where
  | keyword (word : List Char)
  | override (bases : Option (List Char))
deriving DecidableEq, Repr

/-- A character that a modifier or a name may begin with. -/
def beginsPart (c : Char) : Bool :=
  !isBlank c && c != '[' && c != '('

theorem beginsPart_iff {c : Char} : beginsPart c = true ↔ isBlank c = false ∧ c ≠ '[' ∧ c ≠ '(' := by
  simp [beginsPart, and_assoc]

/-- A text that begins like a modifier or a name. -/
def BeginsPart (text : List Char) : Prop :=
  ∃ c rest, text = c :: rest ∧ beginsPart c = true

namespace BeginsPart

theorem append {text : List Char} (h : BeginsPart text) (more : List Char) : BeginsPart (text ++ more) := by
  obtain ⟨c, rest, rfl, hc⟩ := h
  exact ⟨c, rest ++ more, rfl, hc⟩

theorem trimLeft_eq {text : List Char} (h : BeginsPart text) : trimLeft text = text := by
  obtain ⟨c, rest, rfl, hc⟩ := h
  exact trimLeft_cons (beginsPart_iff.1 hc).1 rest

theorem ne_cons {text : List Char} (h : BeginsPart text) {d : Char} (hd : beginsPart d = false) (more : List Char) :
    text ≠ d :: more := by
  obtain ⟨c, rest, rfl, hc⟩ := h
  intro heq
  rw [(List.cons.inj heq).1, hd] at hc
  exact absurd hc (by decide)

end BeginsPart

/-- Whether a text begins like a modifier, and in particular not like `payable`. -/
def beginsModifier : List Char → Bool
  | c :: d :: _ => beginsPart c && !(c == 'p' && d == 'a')
  | _ => false

theorem exists_of_beginsModifier {text : List Char} (h : beginsModifier text = true) :
    ∃ c d rest, text = c :: d :: rest ∧ beginsPart c = true ∧ ¬(c = 'p' ∧ d = 'a') := by
  cases text with
  | nil => exact absurd h Bool.false_ne_true
  | cons c text =>
    cases text with
    | nil => exact absurd h Bool.false_ne_true
    | cons d rest =>
      simp only [beginsModifier, Bool.and_eq_true, Bool.not_eq_true', Bool.and_eq_false_iff] at h
      exact ⟨c, d, rest, rfl, h.1, by simpa [Decidable.imp_iff_not_or] using h.2⟩

namespace VariableModifier

def text : VariableModifier → List Char
  | keyword word => word
  | override none => "override".toList
  | override (some bases) => call "override".toList bases

def WellFormed : VariableModifier → Prop
  | keyword word => word ∈ variableModifierWords
  | override bases => ∀ list ∈ bases, IsNameList list

instance : (modifier : VariableModifier) → Decidable modifier.WellFormed
  | keyword word => inferInstanceAs (Decidable (word ∈ variableModifierWords))
  | override bases => inferInstanceAs (Decidable (∀ list ∈ bases, IsNameList list))

def word? : VariableModifier → Option (List Char)
  | keyword word => some word
  | override _ => none

theorem mem_filterMap_word? {modifiers : List VariableModifier} {word : List Char} :
    word ∈ modifiers.filterMap word? ↔ keyword word ∈ modifiers := by
  rw [List.mem_filterMap]
  refine ⟨fun ⟨modifier, hmodifier, hsome⟩ => ?_, fun hmem => ⟨_, hmem, rfl⟩⟩
  cases modifier with
  | keyword other =>
    obtain rfl : other = word := Option.some.inj hsome
    exact hmodifier
  | override bases => nomatch hsome

/-- A property of the text of a modifier is checked on words and on lists of overridden bases. -/
theorem text_induction {p : List Char → Prop} (hword : ∀ word ∈ "override".toList :: variableModifierWords, p word)
    (hlist : ∀ list, IsNameList list → p (call "override".toList list))
    {modifier : VariableModifier} (h : modifier.WellFormed) : p modifier.text := by
  cases modifier with
  | keyword word => exact hword word (List.mem_cons_of_mem _ h)
  | override bases =>
    cases bases with
    | none => exact hword _ List.mem_cons_self
    | some list => exact hlist list (h list rfl)

theorem isTidy_text {modifier : VariableModifier} (h : modifier.WellFormed) : IsTidy modifier.text := by
  refine text_induction (by decide) (fun list hlist => ?_) h
  have hword : IsTidy "override".toList := by decide
  exact hword.append hlist.tidy

theorem enclosed_text {modifier : VariableModifier} (h : modifier.WellFormed) : Enclosed modifier.text := by
  refine text_induction (by decide) (fun list hlist => ?_) h
  have hword : Enclosed "override".toList := by decide
  have hplain : Enclosed list := by
    apply Enclosed.of_plain
    intro c hc hmem
    exact hlist.not_mem c hc (List.mem_append_left ['='] hmem)
  exact hword.append hplain.parenthesise

theorem noEquals_text {modifier : VariableModifier} (h : modifier.WellFormed) : '=' ∉ modifier.text := by
  refine text_induction (p := fun text => '=' ∉ text) (by decide) (fun list hlist hmem => ?_) h
  rw [call, List.mem_append, List.mem_cons, List.mem_append] at hmem
  rcases hmem with hword | hopen | hinside | hclose
  · exact absurd hword (by decide)
  · exact absurd hopen (by decide)
  · exact hlist.not_mem _ hinside (by decide)
  · exact absurd hclose (by decide)

theorem beginsModifier_text {modifier : VariableModifier} (h : modifier.WellFormed) :
    beginsModifier modifier.text = true :=
  text_induction (p := fun text => beginsModifier text = true) (by decide) (fun _ _ => rfl) h

end VariableModifier

/-! ### Declarations -/

/-- A variable as it is written, up to its initialiser. -/
structure VariableSyntax where
  type : TypeSyntax
  modifiers : List VariableModifier
  name : List Char
deriving DecidableEq, Repr

/-- The head of a type does not make a statement something else. -/
def TypeSyntax.BeginsVariable : TypeSyntax → Prop
  | word name _ => name ∉ nonVariableWords ++ ["mapping".toList]
  | payable _ => True
  | mapping _ _ _ => True

instance : (type : TypeSyntax) → Decidable type.BeginsVariable
  | .word name _ => inferInstanceAs (Decidable (name ∉ nonVariableWords ++ ["mapping".toList]))
  | .payable _ => isTrue trivial
  | .mapping _ _ _ => isTrue trivial

namespace VariableSyntax

structure WellFormed (declaration : VariableSyntax) : Prop where
  type : declaration.type.WellFormed
  begins : declaration.type.BeginsVariable
  modifiers : ∀ modifier ∈ declaration.modifiers, modifier.WellFormed
  name : isName declaration.name = true
  notModifier : declaration.name ∉ variableModifierWords
  notOverride : ¬"override".toList <+: declaration.name
  notPayable : declaration.type = .word "address".toList [] → ¬"payable".toList <+: declaration.name

theorem wellFormed_iff {declaration : VariableSyntax} :
    declaration.WellFormed ↔ declaration.type.WellFormed ∧ declaration.type.BeginsVariable ∧
      (∀ modifier ∈ declaration.modifiers, modifier.WellFormed) ∧ isName declaration.name = true ∧
      variableModifierWords.contains declaration.name = false ∧ ¬"override".toList <+: declaration.name ∧
      (declaration.type = .word "address".toList [] → ¬"payable".toList <+: declaration.name) := by
  have hcontains : variableModifierWords.contains declaration.name = false ↔
      declaration.name ∉ variableModifierWords := by simp
  rw [hcontains]
  exact ⟨fun h => ⟨h.type, h.begins, h.modifiers, h.name, h.notModifier, h.notOverride, h.notPayable⟩,
    fun ⟨htype, hbegins, hmodifiers, hname, hmodifier, hoverride, hpayable⟩ =>
      ⟨htype, hbegins, hmodifiers, hname, hmodifier, hoverride, hpayable⟩⟩

instance (declaration : VariableSyntax) : Decidable declaration.WellFormed :=
  decidable_of_iff _ wellFormed_iff.symm

/-- What is written behind the type. -/
def declarator (declaration : VariableSyntax) : List Char :=
  (declaration.modifiers.map VariableModifier.text).flatMap (' ' :: ·) ++ ' ' :: declaration.name

def render (declaration : VariableSyntax) : List Char :=
  declaration.type.render ++ declaration.declarator

/-- The record of a variable: its first visibility counts, and what keeps it fixed is also looked for elsewhere in the
body. -/
def record (fixings : Fixings) (declaration : VariableSyntax) : StateVariable where
  name := String.ofList declaration.name
  typeName := String.ofList declaration.type.render
  visibility := String.ofList
    (((declaration.modifiers.filterMap VariableModifier.word?).find? visibilityWords.contains).getD "internal".toList)
  isConstant :=
    decide (.keyword "constant".toList ∈ declaration.modifiers) || fixings.constants.adjoins declaration.name
  isImmutable :=
    decide (.keyword "immutable".toList ∈ declaration.modifiers) || fixings.immutables.adjoins declaration.name

section Declarator

variable {declaration : VariableSyntax} (hmodifiers : ∀ modifier ∈ declaration.modifiers, modifier.WellFormed)
  (hname : isIdentifier declaration.name = true)
include hmodifiers hname

theorem isTidy_append_declarator {type : List Char} (htype : IsTidy type) :
    IsTidy (type ++ declaration.declarator) := by
  have hparts : ∀ part ∈ declaration.modifiers.map VariableModifier.text, IsTidy part :=
    List.forall_mem_map.2 fun modifier hmodifier => VariableModifier.isTidy_text (hmodifiers modifier hmodifier)
  rw [declarator, ← List.append_assoc]
  exact (isTidy_append_parts hparts htype).append_space (isTidy_dotted (isDotted_of_isIdentifier hname))

theorem enclosed_append_declarator {type : List Char} (htype : Enclosed type) :
    Enclosed (type ++ declaration.declarator) := by
  have hparts : ∀ part ∈ declaration.modifiers.map VariableModifier.text, Enclosed part :=
    List.forall_mem_map.2 fun modifier hmodifier => VariableModifier.enclosed_text (hmodifiers modifier hmodifier)
  have hspace : Enclosed [' '] := by decide
  exact htype.append
    ((enclosed_parts hparts).append (hspace.append (enclosed_dotted (isDotted_of_isIdentifier hname))))

theorem noEquals_declarator : '=' ∉ declaration.declarator := by
  intro hmem
  rw [declarator, List.mem_append, List.mem_cons] at hmem
  rcases hmem with hbefore | hspace | hlast
  · obtain ⟨part, hpart, hin⟩ := List.mem_flatMap.1 hbefore
    obtain ⟨modifier, hmodifier, rfl⟩ := List.mem_map.1 hpart
    rcases List.mem_cons.1 hin with hspace | htext
    · exact absurd hspace (by decide)
    · exact VariableModifier.noEquals_text (hmodifiers modifier hmodifier) htext
  · exact absurd hspace (by decide)
  · exact absurd (isIdentifierChar_of_isIdentifier hname _ hlast) (by decide)

end Declarator

theorem isTidy_render {declaration : VariableSyntax} (h : declaration.WellFormed) : IsTidy declaration.render :=
  isTidy_append_declarator h.modifiers (isIdentifier_of_isName h.name) (TypeSyntax.isTidy_render h.type)

theorem enclosed_render {declaration : VariableSyntax} (h : declaration.WellFormed) : Enclosed declaration.render :=
  enclosed_append_declarator h.modifiers (isIdentifier_of_isName h.name) (TypeSyntax.enclosed_render h.type)

end VariableSyntax

end ContractMigration.Solidity
