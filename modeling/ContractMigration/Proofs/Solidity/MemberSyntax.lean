import ContractMigration.Proofs.Solidity.ParameterRendering
import ContractMigration.Solidity.Extraction

/-!
# Written members

Functions, modifiers, constructors and events as they are written: the canonical form of a header, what makes it well
formed, and the signature or the event that it stands for. A header in canonical form is tidy and enclosed, so a body
is cut where it was written to be cut and collapsing a member gives the canonical form.
-/

namespace ContractMigration.Solidity

open Text

/-! ### The syntax -/

/-- A word behind the parameters of a function. -/
inductive Specifier where
  | visibility (word : List Char)
  | mutability (word : List Char)
  | virtual
  | override
  | invocation (name : List Char)
deriving DecidableEq, Repr

namespace Specifier

def word : Specifier → List Char
  | visibility word => word
  | mutability word => word
  | virtual => "virtual".toList
  | override => "override".toList
  | invocation name => name

def visibility? : Specifier → Option (List Char)
  | visibility word => some word
  | _ => none

def mutability? : Specifier → Option (List Char)
  | mutability word => some word
  | _ => none

/-- The invocation of a modifier is not mistaken for a keyword. -/
def WellFormed : Specifier → Prop
  | visibility word => word ∈ visibilityWords
  | mutability word => word ∈ mutabilityWords
  | virtual => True
  | override => True
  | invocation name => isName name = true ∧ name ∉ visibilityWords ++ mutabilityWords ++ ["returns".toList]

instance : (specifier : Specifier) → Decidable specifier.WellFormed
  | visibility word => inferInstanceAs (Decidable (word ∈ visibilityWords))
  | mutability word => inferInstanceAs (Decidable (word ∈ mutabilityWords))
  | virtual => isTrue trivial
  | override => isTrue trivial
  | invocation name =>
    inferInstanceAs (Decidable (isName name = true ∧ name ∉ visibilityWords ++ mutabilityWords ++ ["returns".toList]))

end Specifier

/-- A name and a text in parentheses behind it. -/
def call (name inside : List Char) : List Char :=
  name ++ '(' :: (inside ++ [')'])

theorem call_append (name inside rest : List Char) :
    call name inside ++ rest = name ++ '(' :: (inside ++ ')' :: rest) := by
  rw [call, List.append_assoc, List.cons_append, List.append_assoc]
  rfl

theorem trimLeft_paren (rest : List Char) : trimLeft ('(' :: rest) = '(' :: rest :=
  trimLeft_cons (by decide) rest

/-- A word and a text behind it. -/
def following (word rest : List Char) : List Char :=
  word ++ ' ' :: rest

def renderParameters (parameters : List ParameterSyntax) : List Char :=
  commaList (parameters.map ParameterSyntax.render)

def renderSpecifiers (specifiers : List Specifier) : List Char :=
  (specifiers.map Specifier.word).flatMap (' ' :: ·)

def renderReturns : Option (List ParameterSyntax) → List Char
  | none => []
  | some parameters => ' ' :: following "returns".toList (call [] (renderParameters parameters))

/-- A member with a signature, or an event, as it is written. -/
inductive MemberSyntax where
  | function (name : List Char) (parameters : List ParameterSyntax) (specifiers : List Specifier)
      (returns : Option (List ParameterSyntax))
  | modifier (name : List Char) (parameters : Option (List ParameterSyntax)) (specifiers : List Specifier)
  | constructor (parameters : List ParameterSyntax) (specifiers : List Specifier)
  | event (name : List Char) (parameters : List EventParameterSyntax) (isAnonymous : Bool)
deriving DecidableEq, Repr

namespace MemberSyntax

/-- The canonical form of the header. -/
def header : MemberSyntax → List Char
  | function name parameters specifiers returns =>
    following "function".toList
      (call name (renderParameters parameters) ++ renderSpecifiers specifiers ++ renderReturns returns)
  | modifier name none specifiers => following "modifier".toList (name ++ renderSpecifiers specifiers)
  | modifier name (some parameters) specifiers =>
    following "modifier".toList (call name (renderParameters parameters) ++ renderSpecifiers specifiers)
  | constructor parameters specifiers =>
    call "constructor".toList (renderParameters parameters) ++ renderSpecifiers specifiers
  | event name parameters isAnonymous =>
    following "event".toList (call name (commaList (parameters.map EventParameterSyntax.render)) ++
      if isAnonymous then " anonymous".toList else [])

def WellFormed : MemberSyntax → Prop
  | function name parameters specifiers returns =>
    isName name = true ∧ (∀ parameter ∈ parameters, parameter.WellFormed) ∧
      (∀ specifier ∈ specifiers, specifier.WellFormed) ∧ ∀ parameter ∈ returns.getD [], parameter.WellFormed
  | modifier name parameters specifiers =>
    isName name = true ∧ (∀ parameter ∈ parameters.getD [], parameter.WellFormed) ∧
      ∀ specifier ∈ specifiers, specifier = .virtual ∨ specifier = .override
  | constructor parameters specifiers =>
    (∀ parameter ∈ parameters, parameter.WellFormed) ∧ ∀ specifier ∈ specifiers, specifier.WellFormed
  | event name parameters _ => isName name = true ∧ ∀ parameter ∈ parameters, parameter.WellFormed

instance : (item : MemberSyntax) → Decidable item.WellFormed
  | function name parameters specifiers returns => inferInstanceAs (Decidable (isName name = true ∧
      (∀ parameter ∈ parameters, parameter.WellFormed) ∧ (∀ specifier ∈ specifiers, specifier.WellFormed) ∧
      ∀ parameter ∈ returns.getD [], parameter.WellFormed))
  | modifier name parameters specifiers => inferInstanceAs (Decidable (isName name = true ∧
      (∀ parameter ∈ parameters.getD [], parameter.WellFormed) ∧
      ∀ specifier ∈ specifiers, specifier = .virtual ∨ specifier = .override))
  | constructor parameters specifiers => inferInstanceAs (Decidable ((∀ parameter ∈ parameters, parameter.WellFormed) ∧
      ∀ specifier ∈ specifiers, specifier.WellFormed))
  | event name parameters _ =>
    inferInstanceAs (Decidable (isName name = true ∧ ∀ parameter ∈ parameters, parameter.WellFormed))

/-- The signature of a function or a modifier. -/
def callable? : MemberSyntax → Option Signature
  | function name parameters specifiers returns => some {
      name := String.ofList name
      visibility := String.ofList ((specifiers.findSome? Specifier.visibility?).getD "public".toList)
      mutability := String.ofList ((specifiers.findSome? Specifier.mutability?).getD "nonpayable".toList)
      parameters := parameters.map ParameterSyntax.parameter
      returns := (returns.getD []).map ParameterSyntax.parameter }
  | modifier name parameters _ => some {
      name := String.ofList name
      visibility := "internal"
      parameters := (parameters.getD []).map ParameterSyntax.parameter
      isModifier := true }
  | constructor _ _ => none
  | event _ _ _ => none

def constructor? : MemberSyntax → Option Signature
  | constructor parameters specifiers => some {
      name := "constructor"
      visibility := "public"
      mutability := String.ofList ((specifiers.findSome? Specifier.mutability?).getD "nonpayable".toList)
      parameters := parameters.map ParameterSyntax.parameter
      isConstructor := true }
  | _ => none

def event? : MemberSyntax → Option Event
  | event name parameters _ => some {
      name := String.ofList name
      parameters := parameters.map EventParameterSyntax.eventParameter }
  | _ => none

end MemberSyntax

/-! ### Specifiers -/

section Specifiers

variable {specifiers : List Specifier} (h : ∀ specifier ∈ specifiers, specifier.WellFormed)
include h

theorem isName_word : ∀ word ∈ specifiers.map Specifier.word, isName word = true ∧ word ≠ "returns".toList := by
  refine List.forall_mem_map.2 fun specifier hspecifier => ?_
  have hspecifier := h specifier hspecifier
  cases specifier with
  | visibility word =>
    have hall : ∀ word ∈ visibilityWords, isName word = true ∧ word ≠ "returns".toList := by decide
    exact hall word hspecifier
  | mutability word =>
    have hall : ∀ word ∈ mutabilityWords, isName word = true ∧ word ≠ "returns".toList := by decide
    exact hall word hspecifier
  | virtual => exact ⟨by decide, by decide⟩
  | override => exact ⟨by decide, by decide⟩
  | invocation name =>
    refine ⟨hspecifier.1, fun hreturns => hspecifier.2 ?_⟩
    exact List.mem_append_right _ (List.mem_singleton.2 hreturns)

theorem isDotted_word : ∀ word ∈ specifiers.map Specifier.word, IsDotted word := fun word hword =>
  isDotted_of_isIdentifier (isIdentifier_of_isName (isName_word h word hword).1)

theorem isWordChar_word : ∀ word ∈ specifiers.map Specifier.word, ∀ c ∈ word, isWordChar c = true :=
  fun word hword => isWordChar_of_isName (isName_word h word hword).1

end Specifiers

/-! ### The shape of a header -/

theorem isTidy_parenthesised {parts : List (List Char)} (h : ∀ part ∈ parts, IsTidy part) :
    IsTidy ('(' :: (commaList parts ++ [')'])) := by
  have hopen : IsTidy ['('] := by decide
  have hclose : IsTidy [')'] := by decide
  by_cases hne : parts = []
  · rw [hne]
    decide
  · exact hopen.append ((isTidy_commaList hne h).append hclose)

theorem isDotted_of_isName {name : List Char} (h : isName name = true) : IsDotted name :=
  isDotted_of_isIdentifier (isIdentifier_of_isName h)

section Call

variable {parts : List (List Char)} {name : List Char} (hname : isName name = true)
include hname

theorem isTidy_call (h : ∀ part ∈ parts, IsTidy part) : IsTidy (call name (commaList parts)) :=
  (isTidy_dotted (isDotted_of_isName hname)).append (isTidy_parenthesised h)

theorem enclosed_call (h : ∀ part ∈ parts, Enclosed part) : Enclosed (call name (commaList parts)) :=
  (enclosed_dotted (isDotted_of_isName hname)).append (enclosed_commaList h).parenthesise

end Call

theorem enclosed_following {word rest : List Char} (hword : Enclosed word) (hrest : Enclosed rest) :
    Enclosed (following word rest) := by
  have hspace : Enclosed [' '] := by decide
  exact hword.append (hspace.append hrest)

section Parameters

variable {parameters : List ParameterSyntax} (h : ∀ parameter ∈ parameters, parameter.WellFormed)
include h

theorem isTidy_renderedParts : ∀ part ∈ parameters.map ParameterSyntax.render, IsTidy part :=
  List.forall_mem_map.2 fun parameter hparameter => ParameterSyntax.isTidy_render (h parameter hparameter)

theorem enclosed_renderedParts : ∀ part ∈ parameters.map ParameterSyntax.render, Enclosed part :=
  List.forall_mem_map.2 fun parameter hparameter => ParameterSyntax.enclosed_render (h parameter hparameter)

theorem isTidy_append_returns {text : List Char} (htext : IsTidy text) :
    IsTidy (text ++ renderReturns (some parameters)) := by
  have hreturns : IsTidy "returns".toList := by decide
  exact htext.append_space (hreturns.append_space (isTidy_parenthesised (isTidy_renderedParts h)))

theorem enclosed_returns : Enclosed (renderReturns (some parameters)) := by
  have hspace : Enclosed [' '] := by decide
  have hreturns : Enclosed "returns".toList := by decide
  exact hspace.append (enclosed_following hreturns (enclosed_commaList (enclosed_renderedParts h)).parenthesise)

end Parameters

namespace MemberSyntax

theorem wellFormed_of_isModifierSpecifier {specifiers : List Specifier}
    (h : ∀ specifier ∈ specifiers, specifier = .virtual ∨ specifier = .override) :
    ∀ specifier ∈ specifiers, specifier.WellFormed := by
  intro specifier hspecifier
  rcases h specifier hspecifier with rfl | rfl <;> exact trivial

theorem isTidy_header {item : MemberSyntax} (h : item.WellFormed) : IsTidy item.header := by
  cases item with
  | function name parameters specifiers returns =>
    obtain ⟨hname, hparameters, hspecifiers, hreturns⟩ := h
    have hword : IsTidy "function".toList := by decide
    have hfront := isTidy_append_behind (isDotted_word hspecifiers)
      (isTidy_call hname (isTidy_renderedParts hparameters))
    cases returns with
    | none => exact hword.append_space (by rwa [renderReturns, List.append_nil])
    | some results => exact hword.append_space (isTidy_append_returns hreturns hfront)
  | modifier name parameters specifiers =>
    obtain ⟨hname, hparameters, hspecifiers⟩ := h
    have hword : IsTidy "modifier".toList := by decide
    have hdotted := isDotted_word (wellFormed_of_isModifierSpecifier hspecifiers)
    cases parameters with
    | none => exact hword.append_space (isTidy_append_behind hdotted (isTidy_dotted (isDotted_of_isName hname)))
    | some parameters =>
      exact hword.append_space
        (isTidy_append_behind hdotted (isTidy_call hname (isTidy_renderedParts hparameters)))
  | constructor parameters specifiers =>
    have hname : isName "constructor".toList = true := by decide
    exact isTidy_append_behind (isDotted_word h.2) (isTidy_call hname (isTidy_renderedParts h.1))
  | event name parameters isAnonymous =>
    have hword : IsTidy "event".toList := by decide
    have hparts : ∀ part ∈ parameters.map EventParameterSyntax.render, IsTidy part :=
      List.forall_mem_map.2 fun parameter hparameter =>
        ParameterSyntax.isTidy_render (h.2 parameter hparameter).toWellFormed
    have hcall := isTidy_call h.1 hparts
    have hanonymous : IsTidy "anonymous".toList := by decide
    cases isAnonymous with
    | false => exact hword.append_space (by rwa [if_neg (by decide), List.append_nil])
    | true => exact hword.append_space (hcall.append_space hanonymous)

theorem enclosed_header {item : MemberSyntax} (h : item.WellFormed) : Enclosed item.header := by
  cases item with
  | function name parameters specifiers returns =>
    obtain ⟨hname, hparameters, hspecifiers, hreturns⟩ := h
    have hword : Enclosed "function".toList := by decide
    have hfront := (enclosed_call hname (enclosed_renderedParts hparameters)).append
      (enclosed_behind (isDotted_word hspecifiers))
    cases returns with
    | none => exact enclosed_following hword (by rwa [renderReturns, List.append_nil])
    | some results => exact enclosed_following hword (hfront.append (enclosed_returns hreturns))
  | modifier name parameters specifiers =>
    obtain ⟨hname, hparameters, hspecifiers⟩ := h
    have hword : Enclosed "modifier".toList := by decide
    have hbehind := enclosed_behind (isDotted_word (wellFormed_of_isModifierSpecifier hspecifiers))
    cases parameters with
    | none => exact enclosed_following hword ((enclosed_dotted (isDotted_of_isName hname)).append hbehind)
    | some parameters =>
      exact enclosed_following hword ((enclosed_call hname (enclosed_renderedParts hparameters)).append hbehind)
  | constructor parameters specifiers =>
    have hname : isName "constructor".toList = true := by decide
    exact (enclosed_call hname (enclosed_renderedParts h.1)).append (enclosed_behind (isDotted_word h.2))
  | event name parameters isAnonymous =>
    have hword : Enclosed "event".toList := by decide
    have hparts : ∀ part ∈ parameters.map EventParameterSyntax.render, Enclosed part :=
      List.forall_mem_map.2 fun parameter hparameter =>
        ParameterSyntax.enclosed_render (h.2 parameter hparameter).toWellFormed
    have hanonymous : ∀ isAnonymous : Bool, Enclosed (if isAnonymous then " anonymous".toList else []) := by decide
    exact enclosed_following hword ((enclosed_call h.1 hparts).append (hanonymous isAnonymous))

end MemberSyntax

end ContractMigration.Solidity
