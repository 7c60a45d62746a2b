import ContractMigration.Proofs.Solidity.Header
import ContractMigration.Proofs.Solidity.Member

/-!
# Written types

A type is a word, `address payable` or a mapping, and array suffixes may follow each. What later proofs need of a
written type is proved here by induction on it: it is tidy, it is enclosed, it holds no comma outside brackets, and
each of its words is a word of the syntax or has a bracket glued to it.
-/

namespace ContractMigration.Solidity

open Text

/-- A type as it is written; the last argument of each constructor holds the texts in its array suffixes. -/
inductive TypeSyntax where
  | word (name : List Char) (sizes : List (List Char))
  | payable (sizes : List (List Char))
  | mapping (key value : TypeSyntax) (sizes : List (List Char))
deriving DecidableEq, Repr

/-- What may stand in an array suffix: a text without blanks, braces and semicolons whose brackets are balanced. -/
structure IsSize (size : List Char) : Prop where
  noBlank : ∀ c ∈ size, isBlank c = false
  noEnd : ∀ c ∈ size, c ∉ ['\x7b', '\x7d', ';']
  round : Balanced '(' ')' size
  square : Balanced '[' ']' size

theorem isSize_iff {size : List Char} :
    IsSize size ↔ size.all (fun c => !isBlank c && decide (c ∉ ['\x7b', '\x7d', ';'])) = true ∧
      Balanced '(' ')' size ∧ Balanced '[' ']' size := by
  simp only [List.all_eq_true, Bool.and_eq_true, Bool.not_eq_true', decide_eq_true_iff]
  refine ⟨fun h => ⟨fun c hc => ⟨h.noBlank c hc, h.noEnd c hc⟩, h.round, h.square⟩, fun ⟨hall, hround, hsquare⟩ => ?_⟩
  exact ⟨fun c hc => (hall c hc).1, fun c hc => (hall c hc).2, hround, hsquare⟩

instance (size : List Char) : Decidable (IsSize size) :=
  decidable_of_iff _ isSize_iff.symm

/-- Array suffixes, without spaces. -/
def renderSizes (sizes : List (List Char)) : List Char :=
  sizes.flatMap fun size => '[' :: (size ++ [']'])

def addressPayable : List Char :=
  "address payable".toList

/-- A mapping type with its key and value types as they are written. -/
def mappingOf (key value : List Char) : List Char :=
  "mapping".toList ++ '(' :: (key ++ ' ' :: ("=>".toList ++ ' ' :: value) ++ [')'])

namespace TypeSyntax

def render : TypeSyntax → List Char
  | word name sizes => name ++ renderSizes sizes
  | payable sizes => addressPayable ++ renderSizes sizes
  | mapping key value sizes => mappingOf key.render value.render ++ renderSizes sizes

/-- The words of the syntax itself. -/
def leaves : TypeSyntax → List (List Char)
  | word name _ => [name]
  | payable _ => []
  | mapping key value _ => key.leaves ++ value.leaves

def WellFormed : TypeSyntax → Prop
  | word name sizes => IsDotted name ∧ ∀ size ∈ sizes, IsSize size
  | payable sizes => ∀ size ∈ sizes, IsSize size
  | mapping key value sizes => key.WellFormed ∧ value.WellFormed ∧ ∀ size ∈ sizes, IsSize size

instance decidableWellFormed : (type : TypeSyntax) → Decidable type.WellFormed
  | word name sizes => inferInstanceAs (Decidable (IsDotted name ∧ ∀ size ∈ sizes, IsSize size))
  | payable sizes => inferInstanceAs (Decidable (∀ size ∈ sizes, IsSize size))
  | mapping key value sizes =>
    have := decidableWellFormed key
    have := decidableWellFormed value
    inferInstanceAs (Decidable (key.WellFormed ∧ value.WellFormed ∧ ∀ size ∈ sizes, IsSize size))

end TypeSyntax

/-! ### Array suffixes -/

section Sizes

variable {sizes : List (List Char)} (h : ∀ size ∈ sizes, IsSize size)
include h

theorem isBlank_renderSizes : ∀ c ∈ renderSizes sizes, isBlank c = false := by
  intro c hc
  obtain ⟨size, hsize, hmem⟩ := List.mem_flatMap.1 hc
  rw [List.mem_cons, List.mem_append, List.mem_singleton] at hmem
  rcases hmem with rfl | hinside | rfl
  · decide
  · exact (h size hsize).noBlank c hinside
  · decide

theorem IsTidy.append_sizes {text : List Char} (htext : IsTidy text) : IsTidy (text ++ renderSizes sizes) := by
  by_cases hne : renderSizes sizes = []
  · rwa [hne, List.append_nil]
  · exact htext.append (isTidy_word hne (isBlank_renderSizes h))

theorem enclosed_renderSizes : Enclosed (renderSizes sizes) := by
  induction sizes with
  | nil => rfl
  | cons size sizes ih =>
    rw [List.forall_mem_cons] at h
    have hsize : Enclosed size := by
      apply Enclosed.of_balanced h.1.round
      intro c hc
      have hend := h.1.noEnd c hc
      simp only [List.mem_cons, List.not_mem_nil, or_false, not_or] at hend
      exact ⟨hend.1, hend.2.2⟩
    have hopen : Enclosed ['['] := by decide
    have hclose : Enclosed [']'] := by decide
    exact (hopen.append (hsize.append hclose)).append (ih h.2)

theorem depthBehind_renderSizes (depth : Nat) : depthBehind ',' depth (renderSizes sizes) = some depth := by
  induction sizes with
  | nil => rfl
  | cons size sizes ih =>
    rw [List.forall_mem_cons] at h
    have hcurly : Balanced '\x7b' '\x7d' size := by
      refine balanced_of_not_mem (fun hmem => ?_) fun hmem => ?_
      · exact h.1.noEnd _ hmem (by decide)
      · exact h.1.noEnd _ hmem (by decide)
    have hopen : ∀ depth, nestingAfter depth '[' = depth + 1 := fun _ => rfl
    have hclose : ∀ depth, nestingAfter (depth + 1) ']' = depth := fun _ => rfl
    have hsuffix := depthBehind_bracketed hopen hclose (by decide) h.1.round h.1.square hcurly depth
    rw [renderSizes, List.flatMap_cons, depthBehind_append, hsuffix, Option.bind_some]
    exact ih h.2

theorem exists_renderSizes_eq_concat (hne : sizes ≠ []) : ∃ front, renderSizes sizes = front ++ [']'] := by
  rcases List.eq_nil_or_concat sizes with hnil | ⟨before, size, rfl⟩
  · exact absurd hnil hne
  · refine ⟨renderSizes before ++ '[' :: size, ?_⟩
    simp [renderSizes, List.flatMap_append]

end Sizes

/-! ### Dotted names -/

theorem words_dotted {name : List Char} (h : IsDotted name) : words name = [name] :=
  words_of_word h.ne_nil fun c hc => Header.not_isBlank_of_joins (Header.joins_of_isDotted h c hc)

theorem isTidy_dotted {name : List Char} (h : IsDotted name) : IsTidy name :=
  isTidy_word h.ne_nil fun c hc => Header.not_isBlank_of_joins (Header.joins_of_isDotted h c hc)

theorem enclosed_of_joins {word : List Char} (h : ∀ c ∈ word, Header.joins c = true) : Enclosed word := by
  apply Enclosed.of_plain
  intro c hc
  have hjoins := h c hc
  have hopen : c ≠ '(' := Header.joins_ne hjoins (by decide)
  have hclose : c ≠ ')' := Header.joins_ne hjoins (by decide)
  have hbrace : c ≠ '\x7b' := Header.joins_ne hjoins (by decide)
  have hsemicolon : c ≠ ';' := Header.joins_ne hjoins (by decide)
  simp [hopen, hclose, hbrace, hsemicolon]

theorem enclosed_dotted {name : List Char} (h : IsDotted name) : Enclosed name :=
  enclosed_of_joins (Header.joins_of_isDotted h)

theorem depthBehind_dotted {name : List Char} (h : IsDotted name) (depth : Nat) :
    depthBehind ',' depth name = some depth := by
  refine depthBehind_of_plain (fun c hc => ?_) depth
  have hjoins := Header.joins_of_isDotted h c hc
  exact ⟨Header.joins_ne hjoins (by decide), Header.nestingAfter_of_joins hjoins⟩

/-- A word that a bracket is glued to. -/
def HasBracket (word : List Char) : Prop :=
  '(' ∈ word ∨ ')' ∈ word ∨ ']' ∈ word

instance (word : List Char) : Decidable (HasBracket word) :=
  inferInstanceAs (Decidable ('(' ∈ word ∨ ')' ∈ word ∨ ']' ∈ word))

namespace TypeSyntax

/-! ### The shape of a written type -/

theorem isTidy_mappingOf {key value : List Char} (hkey : IsTidy key) (hvalue : IsTidy value) :
    IsTidy (mappingOf key value) := by
  have hword : IsTidy "mapping".toList := by decide
  have hopen : IsTidy ['('] := by decide
  have harrow : IsTidy "=>".toList := by decide
  have hclose : IsTidy [')'] := by decide
  have hinner := hkey.append_space (harrow.append_space hvalue)
  exact hword.append (hopen.append (hinner.append hclose))

theorem isTidy_render {type : TypeSyntax} (h : type.WellFormed) : IsTidy type.render := by
  induction type with
  | word name sizes => exact IsTidy.append_sizes h.2 (isTidy_dotted h.1)
  | payable sizes =>
    have hwords : IsTidy addressPayable := by decide
    exact IsTidy.append_sizes h hwords
  | mapping key value sizes ihkey ihvalue =>
    exact IsTidy.append_sizes h.2.2 (isTidy_mappingOf (ihkey h.1) (ihvalue h.2.1))

theorem enclosed_mappingInner {key value : List Char} (hkey : Enclosed key) (hvalue : Enclosed value) :
    Enclosed (key ++ ' ' :: ("=>".toList ++ ' ' :: value)) := by
  have hspace : Enclosed [' '] := by decide
  have harrow : Enclosed "=>".toList := by decide
  exact hkey.append (hspace.append (harrow.append (hspace.append hvalue)))

theorem enclosed_render {type : TypeSyntax} (h : type.WellFormed) : Enclosed type.render := by
  induction type with
  | word name sizes => exact (enclosed_dotted h.1).append (enclosed_renderSizes h.2)
  | payable sizes =>
    have hwords : Enclosed addressPayable := by decide
    exact hwords.append (enclosed_renderSizes h)
  | mapping key value sizes ihkey ihvalue =>
    have hword : Enclosed "mapping".toList := by decide
    have hinner := (enclosed_mappingInner (ihkey h.1) (ihvalue h.2.1)).parenthesise
    exact (hword.append hinner).append (enclosed_renderSizes h.2.2)

theorem depthBehind_mappingOf {key value : List Char} (hkey : ∀ depth, depthBehind ',' depth key = some depth)
    (hvalue : ∀ depth, depthBehind ',' depth value = some depth) (depth : Nat) :
    depthBehind ',' depth (mappingOf key value) = some depth := by
  have hword : depthBehind ',' depth "mapping".toList = some depth := rfl
  have hopen : nestingAfter depth '(' = depth + 1 := rfl
  have hspace : ∀ rest, depthBehind ',' (depth + 1) (' ' :: rest) = depthBehind ',' (depth + 1) rest := fun _ => rfl
  have harrow : depthBehind ',' (depth + 1) "=>".toList = some (depth + 1) := rfl
  have hclose : depthBehind ',' (depth + 1) [')'] = some depth := rfl
  unfold mappingOf
  rw [depthBehind_append, hword, Option.bind_some, depthBehind, hopen, if_neg (by simp),
    depthBehind_append, depthBehind_append, hkey, Option.bind_some, hspace, depthBehind_append, harrow,
    Option.bind_some, hspace, hvalue, Option.bind_some, hclose]

theorem depthBehind_render {type : TypeSyntax} (h : type.WellFormed) (depth : Nat) :
    depthBehind ',' depth type.render = some depth := by
  induction type generalizing depth with
  | word name sizes =>
    rw [render, depthBehind_append, depthBehind_dotted h.1, Option.bind_some, depthBehind_renderSizes h.2]
  | payable sizes =>
    have hwords : depthBehind ',' depth addressPayable = some depth := rfl
    rw [render, depthBehind_append, hwords, Option.bind_some, depthBehind_renderSizes h]
  | mapping key value sizes ihkey ihvalue =>
    rw [render, depthBehind_append, depthBehind_mappingOf (ihkey h.1) (ihvalue h.2.1), Option.bind_some,
      depthBehind_renderSizes h.2.2]

/-! ### The words of a written type -/

theorem mem_words_append_sizes {text : List Char} {sizes : List (List Char)} (h : ∀ size ∈ sizes, IsSize size)
    {w : List Char} (hw : w ∈ words (text ++ renderSizes sizes)) : w ∈ words text ∨ HasBracket w := by
  by_cases hne : sizes = []
  · rw [hne, renderSizes, List.flatMap_nil, List.append_nil] at hw
    exact .inl hw
  · obtain ⟨front, hfront⟩ := exists_renderSizes_eq_concat h hne
    have hword : renderSizes sizes ≠ [] := by simp [hfront]
    obtain ⟨before, glued, hwords, hbefore⟩ := words_append_word hword (isBlank_renderSizes h) text
    rw [hwords, List.mem_append, List.mem_singleton] at hw
    rcases hw with hmem | rfl
    · exact .inl (hbefore w hmem)
    · exact .inr (.inr (.inr (by simp [hfront])))

theorem mem_words_mappingOf {key value w : List Char} (hw : w ∈ words (mappingOf key value)) :
    w ∈ words key ∨ w ∈ words value ∨ w = "=>".toList ∨ HasBracket w := by
  have hfront : ∀ c ∈ "mapping".toList ++ ['('], isBlank c = false := by
    simpa using (List.all_eq_true.1 (by decide) : ∀ c ∈ "mapping(".toList, (!isBlank c) = true)
  have hlast : ∀ c ∈ [')'], isBlank c = false := List.forall_mem_singleton.2 (by decide)
  have hmapping : mappingOf key value =
      ("mapping".toList ++ ['(']) ++ (key ++ ' ' :: ("=>".toList ++ ' ' :: (value ++ [')']))) := by
    unfold mappingOf
    simp only [List.append_assoc, List.cons_append, List.nil_append]
  have harrow : words "=>".toList = ["=>".toList] := by decide
  -- the opening glues to the first word of the key, the closing to the last one of the value
  obtain ⟨after, rest, hwords, hrest⟩ := words_word_append (by simp) hfront
    (key ++ ' ' :: ("=>".toList ++ ' ' :: (value ++ [')'])))
  obtain ⟨front, before, hvalue, hbefore⟩ := words_append_word (List.cons_ne_nil ')' []) hlast value
  rw [hmapping, hwords, List.mem_cons] at hw
  rcases hw with rfl | hmem
  · exact .inr (.inr (.inr (.inl (by simp))))
  · have hin := hrest w hmem
    rw [words_append_space, words_append_space, hvalue, harrow, List.mem_append, List.mem_append, List.mem_append,
      List.mem_singleton, List.mem_singleton] at hin
    rcases hin with hkey | harrow | hinner | rfl
    · exact .inl hkey
    · exact .inr (.inr (.inl harrow))
    · exact .inr (.inl (hbefore w hinner))
    · exact .inr (.inr (.inr (.inr (.inl (by simp)))))

/-- A word of a written type is a word of its syntax, or one of three others, or a bracket is glued to it. -/
theorem mem_words_render {type : TypeSyntax} (h : type.WellFormed) {w : List Char} (hw : w ∈ words type.render) :
    w ∈ type.leaves ∨ w ∈ ["address".toList, "payable".toList, "=>".toList] ∨ HasBracket w := by
  induction type generalizing w with
  | word name sizes =>
    rw [render] at hw
    rcases mem_words_append_sizes h.2 hw with hname | hbracket
    · rw [words_dotted h.1, List.mem_singleton] at hname
      exact .inl (by rw [leaves, hname, List.mem_singleton])
    · exact .inr (.inr hbracket)
  | payable sizes =>
    rw [render] at hw
    rcases mem_words_append_sizes h hw with hword | hbracket
    · have hwords : words addressPayable = ["address".toList, "payable".toList] := by decide
      rw [hwords] at hword
      exact .inr (.inl (List.mem_append_left ["=>".toList] hword))
    · exact .inr (.inr hbracket)
  | mapping key value sizes ihkey ihvalue =>
    rw [render] at hw
    rcases mem_words_append_sizes h.2.2 hw with hmapping | hbracket
    · rcases mem_words_mappingOf hmapping with hkey | hvalue | harrow | hbracket
      · exact (ihkey h.1 hkey).imp_left fun hleaf => List.mem_append_left _ hleaf
      · exact (ihvalue h.2.1 hvalue).imp_left fun hleaf => List.mem_append_right _ hleaf
      · exact .inr (.inl (by simp [harrow]))
      · exact .inr (.inr hbracket)
    · exact .inr (.inr hbracket)

/-- A bracket at the end of a text is glued to its last word. -/
theorem exists_words_concat {c : Char} (hc : c ∈ [')', ']']) (text : List Char) :
    ∃ front last, words (text ++ [c]) = front ++ [last] ∧ HasBracket last := by
  have hbracket : ∀ c ∈ [')', ']'], isBlank c = false ∧ ∀ before : List Char, HasBracket (before ++ [c]) := by
    rw [List.forall_mem_cons, List.forall_mem_singleton]
    exact ⟨⟨by decide, fun _ => .inr (.inl (by simp))⟩, by decide, fun _ => .inr (.inr (by simp))⟩
  have hblank : ∀ d ∈ [c], isBlank d = false := List.forall_mem_singleton.2 (hbracket c hc).1
  obtain ⟨front, before, hwords, -⟩ := words_append_word (List.cons_ne_nil c []) hblank text
  exact ⟨front, _, hwords, (hbracket c hc).2 before⟩

theorem exists_words_append_sizes {sizes : List (List Char)} (h : ∀ size ∈ sizes, IsSize size) (hne : sizes ≠ [])
    (text : List Char) : ∃ front last, words (text ++ renderSizes sizes) = front ++ [last] ∧ HasBracket last := by
  obtain ⟨front, hfront⟩ := exists_renderSizes_eq_concat h hne
  rw [hfront, ← List.append_assoc]
  exact exists_words_concat (by simp) _

/-- When a written type has several words, the last one is `payable` or a bracket is glued to it. -/
theorem exists_words_render {type : TypeSyntax} (h : type.WellFormed) :
    ∃ front last, words type.render = front ++ [last] ∧
      (front = [] ∨ last = "payable".toList ∨ HasBracket last) := by
  have hglued : ∀ {text : List Char}, (∃ front last, words text = front ++ [last] ∧ HasBracket last) →
      ∃ front last, words text = front ++ [last] ∧ (front = [] ∨ last = "payable".toList ∨ HasBracket last) := by
    rintro text ⟨front, last, hwords, hlast⟩
    exact ⟨front, last, hwords, .inr (.inr hlast)⟩
  cases type with
  | word name sizes =>
    by_cases hne : sizes = []
    · rw [render, hne, renderSizes, List.flatMap_nil, List.append_nil, words_dotted h.1]
      exact ⟨[], name, rfl, .inl rfl⟩
    · exact hglued (exists_words_append_sizes h.2 hne name)
  | payable sizes =>
    by_cases hne : sizes = []
    · rw [render, hne, renderSizes, List.flatMap_nil, List.append_nil]
      exact ⟨["address".toList], "payable".toList, by decide, .inr (.inl rfl)⟩
    · exact hglued (exists_words_append_sizes h hne addressPayable)
  | mapping key value sizes =>
    by_cases hne : sizes = []
    · obtain ⟨front, hfront⟩ : ∃ front, mappingOf key.render value.render = front ++ [')'] := by
        refine ⟨"mapping".toList ++ '(' :: (key.render ++ ' ' :: ("=>".toList ++ ' ' :: value.render)), ?_⟩
        unfold mappingOf
        simp only [List.append_assoc, List.cons_append]
      rw [render, hne, renderSizes, List.flatMap_nil, List.append_nil, hfront]
      exact hglued (exists_words_concat (by simp) front)
    · exact hglued (exists_words_append_sizes h.2.2 hne _)

end TypeSyntax

end ContractMigration.Solidity
