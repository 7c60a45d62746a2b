import ContractMigration.Proofs.Solidity.TypeSyntax
import ContractMigration.Solidity.Parameter

/-!
# Reading written parameters

A parameter is written as a type, a data location or the word `indexed`, and a name; the last two may be missing. The
reader takes the last word for the name. It is right to do so because no word of a type that stands behind another one
could be a name.
-/

namespace ContractMigration.Solidity

open Text

/-- The words that the reader drops from a parameter. -/
def droppedWords : List (List Char) :=
  dataLocationWords ++ ["indexed".toList]

/-- A parameter as it is written. -/
structure ParameterSyntax where
  type : TypeSyntax
  /-- A data location, or `indexed`. -/
  keyword : Option (List Char)
  name : Option (List Char)
deriving DecidableEq, Repr

namespace ParameterSyntax

structure WellFormed (parameter : ParameterSyntax) : Prop where
  type : parameter.type.WellFormed
  leaves : ∀ leaf ∈ parameter.type.leaves, leaf ∉ droppedWords
  keyword : ∀ word ∈ parameter.keyword, word ∈ droppedWords
  name : ∀ word ∈ parameter.name, isIdentifier word = true ∧ word ∉ droppedWords ∧ word ≠ "payable".toList

theorem wellFormed_iff {parameter : ParameterSyntax} :
    parameter.WellFormed ↔ parameter.type.WellFormed ∧ (∀ leaf ∈ parameter.type.leaves, leaf ∉ droppedWords) ∧
      (∀ word ∈ parameter.keyword, word ∈ droppedWords) ∧
      ∀ word ∈ parameter.name, isIdentifier word = true ∧ word ∉ droppedWords ∧ word ≠ "payable".toList :=
  ⟨fun h => ⟨h.type, h.leaves, h.keyword, h.name⟩, fun ⟨htype, hleaves, hkeyword, hname⟩ =>
    ⟨htype, hleaves, hkeyword, hname⟩⟩

instance (parameter : ParameterSyntax) : Decidable parameter.WellFormed :=
  decidable_of_iff _ wellFormed_iff.symm

/-- The words behind the type. -/
def wordsBehind (parameter : ParameterSyntax) : List (List Char) :=
  parameter.keyword.toList ++ parameter.name.toList

def render (parameter : ParameterSyntax) : List Char :=
  parameter.type.render ++ parameter.wordsBehind.flatMap (' ' :: ·)

/-- The record of a parameter of a function. -/
def parameter (parameter : ParameterSyntax) : Parameter where
  name := String.ofList (parameter.name.getD [])
  typeName := String.ofList parameter.type.render

end ParameterSyntax

/-- A parameter of an event as it is written. -/
structure EventParameterSyntax where
  type : TypeSyntax
  isIndexed : Bool
  name : Option (List Char)
deriving DecidableEq, Repr

namespace EventParameterSyntax

def toParameter (parameter : EventParameterSyntax) : ParameterSyntax where
  type := parameter.type
  keyword := if parameter.isIndexed then some "indexed".toList else none
  name := parameter.name

/-- The word `indexed` occurs neither in the type nor in the name, not even as a part of a word. -/
structure WellFormed (parameter : EventParameterSyntax) : Prop extends parameter.toParameter.WellFormed where
  typeFree : occursIn "indexed".toList parameter.type.render = false
  nameFree : ∀ word ∈ parameter.name, occursIn "indexed".toList word = false

theorem wellFormed_iff {parameter : EventParameterSyntax} :
    parameter.WellFormed ↔ parameter.toParameter.WellFormed ∧ occursIn "indexed".toList parameter.type.render = false ∧
      ∀ word ∈ parameter.name, occursIn "indexed".toList word = false :=
  ⟨fun h => ⟨h.toWellFormed, h.typeFree, h.nameFree⟩, fun ⟨hparameter, htype, hname⟩ =>
    { hparameter with typeFree := htype, nameFree := hname }⟩

instance (parameter : EventParameterSyntax) : Decidable parameter.WellFormed :=
  decidable_of_iff _ wellFormed_iff.symm

def render (parameter : EventParameterSyntax) : List Char :=
  parameter.toParameter.render

/-- The record of a parameter of an event. -/
def eventParameter (parameter : EventParameterSyntax) : EventParameter where
  name := String.ofList (parameter.name.getD [])
  typeName := String.ofList parameter.type.render
  indexed := parameter.isIndexed

end EventParameterSyntax

/-! ### Words behind a text -/

theorem isTidy_append_parts {parts : List (List Char)} (h : ∀ part ∈ parts, IsTidy part) {text : List Char}
    (htext : IsTidy text) : IsTidy (text ++ parts.flatMap (' ' :: ·)) := by
  induction parts generalizing text with
  | nil => simpa using htext
  | cons part parts ih =>
    rw [List.forall_mem_cons] at h
    have hassoc : text ++ (part :: parts).flatMap (' ' :: ·) = text ++ ' ' :: part ++ parts.flatMap (' ' :: ·) := by
      simp
    rw [hassoc]
    exact ih h.2 (htext.append_space h.1)

theorem enclosed_parts {parts : List (List Char)} (h : ∀ part ∈ parts, Enclosed part) :
    Enclosed (parts.flatMap (' ' :: ·)) := by
  induction parts with
  | nil => rfl
  | cons part parts ih =>
    rw [List.forall_mem_cons] at h
    have hspace : Enclosed [' '] := by decide
    exact (hspace.append h.1).append (ih h.2)

section Behind

variable {behind : List (List Char)} (h : ∀ word ∈ behind, IsDotted word)
include h

theorem words_append_behind (text : List Char) :
    words (text ++ behind.flatMap (' ' :: ·)) = words text ++ behind := by
  induction behind generalizing text with
  | nil => simp
  | cons word behind ih =>
    rw [List.forall_mem_cons] at h
    have hassoc : text ++ (word :: behind).flatMap (' ' :: ·) = text ++ ' ' :: word ++ behind.flatMap (' ' :: ·) := by
      simp
    rw [hassoc, ih h.2, words_append_space, words_dotted h.1, List.append_assoc, List.singleton_append]

theorem wordRuns_append_behind (hword : ∀ word ∈ behind, ∀ c ∈ word, isWordChar c = true) (text : List Char) :
    wordRuns (text ++ behind.flatMap (' ' :: ·)) = wordRuns text ++ behind := by
  induction behind generalizing text with
  | nil => simp
  | cons word behind ih =>
    rw [List.forall_mem_cons] at h hword
    have hassoc : text ++ (word :: behind).flatMap (' ' :: ·) = text ++ ' ' :: word ++ behind.flatMap (' ' :: ·) := by
      simp
    rw [hassoc, ih h.2 hword.2, wordRuns_append_cons (by decide), wordRuns_of_word h.1.ne_nil hword.1,
      List.append_assoc, List.singleton_append]

theorem isTidy_append_behind {text : List Char} (htext : IsTidy text) :
    IsTidy (text ++ behind.flatMap (' ' :: ·)) :=
  isTidy_append_parts (fun word hword => isTidy_dotted (h word hword)) htext

theorem enclosed_behind : Enclosed (behind.flatMap (' ' :: ·)) :=
  enclosed_parts fun word hword => enclosed_dotted (h word hword)

theorem depthBehind_behind (depth : Nat) : depthBehind ',' depth (behind.flatMap (' ' :: ·)) = some depth := by
  induction behind with
  | nil => rfl
  | cons word behind ih =>
    rw [List.forall_mem_cons] at h
    have hspace : depthBehind ',' depth (' ' :: (word ++ behind.flatMap (' ' :: ·))) =
      depthBehind ',' depth (word ++ behind.flatMap (' ' :: ·)) := rfl
    rw [List.flatMap_cons, List.cons_append, hspace, depthBehind_append, depthBehind_dotted h.1, Option.bind_some,
      ih h.2]

end Behind

/-! ### One parameter -/

theorem isIdentifier_of_mem_droppedWords {word : List Char} (h : word ∈ droppedWords) : isIdentifier word = true := by
  have hall : ∀ word ∈ droppedWords, isIdentifier word = true := by decide
  exact hall word h

theorem not_isIdentifier_of_hasBracket {word : List Char} (h : HasBracket word) : isIdentifier word = false := by
  rw [← Bool.not_eq_true]
  intro hword
  have hchar := isIdentifierChar_of_isIdentifier hword
  rcases h with hopen | hclose | hsquare
  · exact absurd (hchar _ hopen) (by decide)
  · exact absurd (hchar _ hclose) (by decide)
  · exact absurd (hchar _ hsquare) (by decide)

/-- The reader drops the data locations and `indexed`. -/
theorem nameAndType_eq (text : List Char) :
    nameAndType text =
      match ((words text).filter fun word => decide (word ∉ droppedWords)).reverse with
      | name :: before :: more =>
        if isIdentifier name && name != "payable".toList then (name, unwords (before :: more).reverse)
        else ([], unwords ((words text).filter fun word => decide (word ∉ droppedWords)))
      | _ => ([], unwords ((words text).filter fun word => decide (word ∉ droppedWords))) := by
  have hfilter : (fun word => !dataLocationWords.contains word && word != "indexed".toList) =
      fun word => decide (word ∉ droppedWords) := by
    funext word
    rw [Bool.eq_iff_iff]
    simp [droppedWords]
  rw [← hfilter]
  rfl

namespace ParameterSyntax

variable {part : ParameterSyntax} (h : part.WellFormed)
include h

theorem isDotted_wordsBehind : ∀ word ∈ part.wordsBehind, IsDotted word := by
  intro word hword
  rw [wordsBehind, List.mem_append, Option.mem_toList, Option.mem_toList] at hword
  rcases hword with hkeyword | hname
  · exact isDotted_of_isIdentifier (isIdentifier_of_mem_droppedWords (h.keyword word hkeyword))
  · exact isDotted_of_isIdentifier (h.name word hname).1

theorem isTidy_render : IsTidy part.render :=
  isTidy_append_behind (isDotted_wordsBehind h) (TypeSyntax.isTidy_render h.type)

theorem enclosed_render : Enclosed part.render :=
  (TypeSyntax.enclosed_render h.type).append (enclosed_behind (isDotted_wordsBehind h))

theorem depthBehind_render : depthBehind ',' 0 part.render = some 0 := by
  rw [render, depthBehind_append, TypeSyntax.depthBehind_render h.type, Option.bind_some,
    depthBehind_behind (isDotted_wordsBehind h)]

theorem filter_words_render :
    (words part.render).filter (fun word => decide (word ∉ droppedWords)) =
      words part.type.render ++ part.name.toList := by
  have htype : ∀ word ∈ words part.type.render, word ∉ droppedWords := by
    intro word hword hdropped
    rcases TypeSyntax.mem_words_render h.type hword with hleaf | hother | hbracket
    · exact h.leaves word hleaf hdropped
    · have hfree : ∀ word ∈ ["address".toList, "payable".toList, "=>".toList], word ∉ droppedWords := by decide
      exact hfree word hother hdropped
    · have hplain : ∀ word ∈ droppedWords, ¬HasBracket word := by decide
      exact hplain word hdropped hbracket
  have hkeyword : ∀ word ∈ part.keyword.toList, word ∈ droppedWords := fun word hword =>
    h.keyword word (Option.mem_toList.1 hword)
  have hname : ∀ word ∈ part.name.toList, word ∉ droppedWords := fun word hword =>
    (h.name word (Option.mem_toList.1 hword)).2.1
  rw [render, words_append_behind (isDotted_wordsBehind h), wordsBehind, List.filter_append, List.filter_append,
    List.filter_eq_self.2 (by simpa using htype), List.filter_eq_nil_iff.2 (by simpa using hkeyword),
    List.filter_eq_self.2 (by simpa using hname), List.nil_append]

/-- The reader finds the name and the type that were written. -/
theorem nameAndType_render : nameAndType part.render = (part.name.getD [], part.type.render) := by
  have htype : unwords (words part.type.render) = part.type.render := (TypeSyntax.isTidy_render h.type).collapse
  obtain ⟨front, last, hwords, hlast⟩ := TypeSyntax.exists_words_render h.type
  rw [nameAndType_eq, filter_words_render h]
  cases hname : part.name with
  | some name =>
    obtain ⟨hidentifier, -, hpayable⟩ := h.name name (by simp [hname])
    have hreverse : (words part.type.render ++ [name]).reverse = name :: last :: front.reverse := by
      rw [hwords]
      simp
    have hback : (last :: front.reverse).reverse = words part.type.render := by
      rw [hwords]
      simp
    simp only [Option.toList_some, hreverse, hback, htype, hidentifier, Bool.true_and, bne_iff_ne, ne_eq, hpayable,
      not_false_eq_true, if_true, Option.getD_some]
  | none =>
    -- the last word of the type stands alone or could not be a name
    have hnotName : front ≠ [] → (isIdentifier last && last != "payable".toList) = false := by
      intro hfront
      rcases hlast with hnil | rfl | hbracket
      · exact absurd hnil hfront
      · decide
      · rw [not_isIdentifier_of_hasBracket hbracket, Bool.false_and]
    have hreverse : (words part.type.render ++ []).reverse = last :: front.reverse := by
      rw [hwords]
      simp
    simp only [Option.toList_none, hreverse, Option.getD_none]
    rw [List.append_nil, htype]
    cases hfront : front.reverse with
    | nil => rfl
    | cons before more =>
      have hne : front ≠ [] := by
        rintro rfl
        exact absurd hfront (by simp)
      simp only [hnotName hne, Bool.false_eq_true, if_false]

end ParameterSyntax

/-! ### Lists of parameters -/

theorem parameterParts_commaList {parts : List (List Char)} (htidy : ∀ part ∈ parts, IsTidy part)
    (hdepth : ∀ part ∈ parts, depthBehind ',' 0 part = some 0) : parameterParts (commaList parts) = parts := by
  cases parts with
  | nil => decide
  | cons part parts =>
    have hpart : ∀ part ∈ parts, collapse (' ' :: part) = part := by
      intro other hother
      rw [collapse, words_cons_blank (by decide), ← collapse]
      exact (htidy other (List.mem_cons_of_mem _ hother)).collapse
    have hmap : (parts.map (' ' :: ·)).map collapse = parts := by
      rw [List.map_map]
      exact (List.map_congr_left hpart).trans (List.map_id parts)
    rw [parameterParts, splitOutsideBrackets_commaList hdepth, List.map_cons, hmap, (htidy part (by simp)).collapse]
    exact List.filter_eq_self.2 fun other hother => by simpa using (htidy other hother).ne_nil

theorem enclosed_commaList {parts : List (List Char)} (h : ∀ part ∈ parts, Enclosed part) :
    Enclosed (commaList parts) := by
  by_cases hne : parts = []
  · rw [hne]
    decide
  · apply commaList_induction hne h
    intro part rest hpart hrest
    have hcomma : Enclosed [',', ' '] := by decide
    exact hpart.append (hcomma.append hrest)

theorem isTidy_commaList {parts : List (List Char)} (hne : parts ≠ []) (h : ∀ part ∈ parts, IsTidy part) :
    IsTidy (commaList parts) := by
  apply commaList_induction hne h
  intro part rest hpart hrest
  have hcomma : IsTidy [','] := by decide
  have htidy := (hpart.append hcomma).append_space hrest
  rwa [List.append_assoc, List.singleton_append] at htidy

/-- The parameters of a function are read as they were written. -/
theorem readParameters_commaList {parameters : List ParameterSyntax}
    (h : ∀ parameter ∈ parameters, parameter.WellFormed) :
    readParameters (commaList (parameters.map ParameterSyntax.render)) = parameters.map ParameterSyntax.parameter := by
  have htidy : ∀ part ∈ parameters.map ParameterSyntax.render, IsTidy part :=
    List.forall_mem_map.2 fun parameter hparameter => ParameterSyntax.isTidy_render (h parameter hparameter)
  have hdepth : ∀ part ∈ parameters.map ParameterSyntax.render, depthBehind ',' 0 part = some 0 :=
    List.forall_mem_map.2 fun parameter hparameter => ParameterSyntax.depthBehind_render (h parameter hparameter)
  rw [readParameters, parameterParts_commaList htidy hdepth, List.map_map]
  apply List.map_congr_left
  intro parameter hparameter
  have htype := (TypeSyntax.isTidy_render (h parameter hparameter).type).ne_nil
  simp only [Function.comp_apply, ParameterSyntax.nameAndType_render (h parameter hparameter)]
  rw [recordedType, if_neg (by simpa using htype)]
  rfl

theorem occursIn_append_behind {piece : List Char} (hne : piece ≠ []) (hspace : ' ' ∉ piece) (text : List Char)
    (behind : List (List Char)) :
    occursIn piece (text ++ behind.flatMap (' ' :: ·)) = (occursIn piece text || behind.any (occursIn piece)) := by
  induction behind generalizing text with
  | nil => simp
  | cons word behind ih =>
    have hassoc : text ++ (word :: behind).flatMap (' ' :: ·) = text ++ ' ' :: word ++ behind.flatMap (' ' :: ·) := by
      simp
    rw [hassoc, ih, occursIn_append_cons hne hspace, List.any_cons, Bool.or_assoc]

/-- A parameter of an event holds `indexed` exactly when it was written with it. -/
theorem EventParameterSyntax.occursIn_render {parameter : EventParameterSyntax} (h : parameter.WellFormed) :
    occursIn "indexed".toList parameter.render = parameter.isIndexed := by
  have hname : parameter.name.toList.any (occursIn "indexed".toList) = false := by
    apply List.any_eq_false.2
    intro word hword
    simpa using h.nameFree word (Option.mem_toList.1 hword)
  have hcases : ∀ isIndexed : Bool,
      (if isIndexed then some "indexed".toList else none).toList.any (occursIn "indexed".toList) = isIndexed := by
    decide
  have hkeyword : (toParameter parameter).keyword.toList.any (occursIn "indexed".toList) = parameter.isIndexed :=
    hcases parameter.isIndexed
  rw [render, ParameterSyntax.render, occursIn_append_behind (by decide) (by decide), ParameterSyntax.wordsBehind,
    List.any_append, hkeyword]
  show (occursIn _ parameter.type.render || (parameter.isIndexed || parameter.name.toList.any _)) = _
  rw [h.typeFree, hname, Bool.or_false, Bool.false_or]

/-- The parameters of an event are read as they were written. -/
theorem readEventParameters_commaList {parameters : List EventParameterSyntax}
    (h : ∀ parameter ∈ parameters, parameter.WellFormed) :
    readEventParameters (commaList (parameters.map EventParameterSyntax.render)) =
      parameters.map EventParameterSyntax.eventParameter := by
  have hplain : ∀ parameter ∈ parameters, parameter.toParameter.WellFormed :=
    fun parameter hparameter => (h parameter hparameter).toWellFormed
  have htidy : ∀ part ∈ parameters.map EventParameterSyntax.render, IsTidy part :=
    List.forall_mem_map.2 fun parameter hparameter => ParameterSyntax.isTidy_render (hplain parameter hparameter)
  have hdepth : ∀ part ∈ parameters.map EventParameterSyntax.render, depthBehind ',' 0 part = some 0 :=
    List.forall_mem_map.2 fun parameter hparameter => ParameterSyntax.depthBehind_render (hplain parameter hparameter)
  rw [readEventParameters, parameterParts_commaList htidy hdepth, List.map_map]
  apply List.map_congr_left
  intro parameter hparameter
  have htype := (TypeSyntax.isTidy_render (h parameter hparameter).type).ne_nil
  have hread := ParameterSyntax.nameAndType_render (hplain parameter hparameter)
  simp only [Function.comp_apply, EventParameterSyntax.occursIn_render (h parameter hparameter)]
  rw [EventParameterSyntax.render, hread]
  simp only [recordedType]
  rw [if_neg (by simpa using htype)]
  rfl

end ContractMigration.Solidity
