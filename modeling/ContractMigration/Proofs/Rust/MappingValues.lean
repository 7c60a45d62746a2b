import ContractMigration.Proofs.Rust.TypeConversion
import ContractMigration.Rule.Families

/-!
# The value type of nested mappings

The value type of a mapping is looked for in the text of the type: it is the last word behind an arrow that is not
`mapping` itself. However deep the mappings are nested, only the word in front of the innermost closing parentheses is
such a word (`arrowWords_nestedMapping`). But a word is not a type: array suffixes are left out, and so is everything
from a dollar sign on. `mapping_value_kept_iff` says when the value is converted as if all of it had been read.
-/

namespace ContractMigration

open Text Solidity

/-! ### Words behind arrows -/

theorem arrowWords_append_of_not_mem {front : List Char} (h : '=' ∉ front) (rest : List Char) :
    arrowWords (front ++ rest) = arrowWords rest := by
  induction front with
  | nil => rfl
  | cons c front ih =>
    rw [List.mem_cons, not_or] at h
    rw [List.cons_append, arrowWords, ih h.2]
    rintro _ rfl
    exact absurd rfl h.1

theorem arrowWords_of_not_occursIn {text : List Char} (h : occursIn "=>".toList text = false) :
    arrowWords text = [] := by
  fun_induction arrowWords text with
  | case1 rest _ _ => exact absurd h (by simp [occursIn])
  | case2 rest _ _ => exact absurd h (by simp [occursIn])
  | case3 c rest _ ih =>
    rw [occursIn, Bool.or_eq_false_iff] at h
    exact ih h.2
  | case4 => rfl

/-- A character of the words that are read. -/
def isValueChar (c : Char) : Bool :=
  isWordChar c || c == '.'

/-- The word that is read behind an arrow, if there is one. -/
def wordBehind (text : List Char) : List (List Char) :=
  match (trimLeft text).takeWhile isValueChar with
  | [] => []
  | word => [word]

theorem isValueChar_of_isBlank {c : Char} (h : isBlank c = true) : isValueChar c = false := by
  have hdot : c ≠ '.' := by
    rintro rfl
    exact absurd h (by decide)
  simp [isValueChar, isWordChar_of_isBlank h, hdot]

theorem arrowWords_arrow (rest : List Char) :
    arrowWords ('=' :: '>' :: rest) = wordBehind rest ++ arrowWords rest := by
  rw [arrowWords, wordBehind, show isValueChar = fun c => isWordChar c || c == '.' from rfl]
  cases (trimLeft rest).takeWhile fun c => isWordChar c || c == '.' with
  | nil => rfl
  | cons c word => rfl

theorem isValueChar_of_mem_wordBehind {text word : List Char} (h : word ∈ wordBehind text) :
    ∀ c ∈ word, isValueChar c = true := by
  rw [wordBehind] at h
  split at h
  · exact absurd h List.not_mem_nil
  · rw [List.mem_singleton] at h
    rw [h]
    exact fun c hc => List.mem_takeWhile_imp hc

theorem wordBehind_blanks {gap : List Char} (h : ∀ c ∈ gap, isBlank c = true) (rest : List Char) :
    wordBehind (gap ++ rest) = wordBehind rest := by
  rw [wordBehind, wordBehind, trimLeft, trimLeft, List.dropWhile_append_of_pos h]

theorem isBlank_of_isValueChar {c : Char} (h : isValueChar c = true) : isBlank c = false := by
  cases hblank : isBlank c with
  | false => rfl
  | true => exact absurd h (by simp [isValueChar_of_isBlank hblank])

theorem head_not_blank_of_word {word : List Char} (h : ∀ c ∈ word, isValueChar c = true) :
    ∀ c ∈ word.head?, isBlank c = false :=
  fun c hc => isBlank_of_isValueChar (h c (List.mem_of_head? hc))

theorem wordBehind_of_word {word : List Char} (hne : word ≠ []) (h : ∀ c ∈ word, isValueChar c = true) :
    wordBehind word = [word] := by
  rw [wordBehind, trimLeft_of_head (head_not_blank_of_word h), List.takeWhile_eq_self_iff.2 h]
  cases word with
  | nil => exact absurd rfl hne
  | cons c word => rfl

/-- The word that is read is over where a character is foreign to it. -/
theorem wordBehind_append {name rest : List Char} (hne : name ≠ []) (hhead : ∀ c ∈ name.head?, isBlank c = false)
    (hrest : ∀ c ∈ rest.head?, isValueChar c = false) : wordBehind (name ++ rest) = wordBehind name := by
  have hhead' : ∀ c ∈ (name ++ rest).head?, isBlank c = false := by
    obtain ⟨c, more, rfl⟩ := List.exists_cons_of_ne_nil hne
    exact hhead
  have htake : (name ++ rest).takeWhile isValueChar = name.takeWhile isValueChar := by
    cases rest with
    | nil => rw [List.append_nil]
    | cons d rest => exact takeWhile_append_stop (hrest d rfl) name rest
  rw [wordBehind, wordBehind, trimLeft_of_head hhead, trimLeft_of_head hhead', htake]

namespace Solidity

/-! ### Nested mappings -/

/-- A mapping without its value type: the type of its keys, and the blanks behind `mapping`, around the key, behind the
arrow and behind the value. -/
structure MappingLevel where
  key : List Char
  beforeOpen : List Char := []
  afterOpen : List Char := []
  afterKey : List Char := []
  afterArrow : List Char := []
  beforeClose : List Char := []
deriving DecidableEq, Repr

namespace MappingLevel

/-- What stands in front of the arrow. -/
def front (level : MappingLevel) : List Char :=
  "mapping".toList ++ (level.beforeOpen ++ '(' :: (level.afterOpen ++ level.key ++ level.afterKey))

/-- The mapping with a value type. -/
def wrap (level : MappingLevel) (value : List Char) : List Char :=
  level.front ++ "=>".toList ++ (level.afterArrow ++ value ++ (level.beforeClose ++ [')']))

def gaps (level : MappingLevel) : List (List Char) :=
  [level.beforeOpen, level.afterOpen, level.afterKey, level.afterArrow, level.beforeClose]

theorem prefix_wrap (level : MappingLevel) (value : List Char) : "mapping".toList <+: level.wrap value := by
  have hfront : "mapping".toList <+: level.front := List.prefix_append _ _
  exact hfront.trans ((List.prefix_append level.front "=>".toList).trans (List.prefix_append _ _))

structure WellFormed (level : MappingLevel) : Prop where
  named : IsNamed level.key
  blank : ∀ gap ∈ level.gaps, ∀ c ∈ gap, isBlank c = true

instance (level : MappingLevel) : Decidable level.WellFormed :=
  decidable_of_iff (IsNamed level.key ∧ level.gaps.all (·.all isBlank) = true) <| by
    simp only [List.all_eq_true]
    exact ⟨fun ⟨hnamed, hblank⟩ => ⟨hnamed, hblank⟩, fun h => ⟨h.named, h.blank⟩⟩

end MappingLevel

/-- Mappings in mappings, the outermost first, around a value type. -/
def nestedMapping (levels : List MappingLevel) (value : List Char) : List Char :=
  levels.foldr MappingLevel.wrap value

/-- What closes mappings: blanks and closing parentheses. -/
def IsClosing (text : List Char) : Prop :=
  ∀ c ∈ text, isBlank c = true ∨ c = ')'

theorem not_equals_of_isBlank {c : Char} (h : isBlank c = true) : c ≠ '=' := by
  rintro rfl
  exact absurd h (by decide)

namespace MappingLevel

variable {level : MappingLevel} (h : level.WellFormed)
include h

theorem WellFormed.not_mem_gap {gap : List Char} (hgap : gap ∈ level.gaps) : '=' ∉ gap :=
  fun hmem => not_equals_of_isBlank (h.blank gap hgap _ hmem) rfl

theorem WellFormed.not_mem_front : '=' ∉ level.front := by
  have hopen : '=' ∉ level.beforeOpen := h.not_mem_gap (by simp [gaps])
  have hafter : '=' ∉ level.afterOpen := h.not_mem_gap (by simp [gaps])
  have hkey : '=' ∉ level.afterKey := h.not_mem_gap (by simp [gaps])
  have hword : '=' ∉ "mapping".toList := by decide
  have hinside := List.not_mem_append (List.not_mem_append hafter h.named.not_mem_equals) hkey
  exact List.not_mem_append hword
    (List.not_mem_append hopen (List.not_mem_cons_of_ne_of_not_mem (by decide) hinside))

/-- The word behind the arrow and the words behind the arrows of the value type. -/
theorem WellFormed.arrowWords_wrap (value rest : List Char) :
    arrowWords (level.wrap value ++ rest) =
      wordBehind (value ++ (level.beforeClose ++ ')' :: rest)) ++
        arrowWords (value ++ (level.beforeClose ++ ')' :: rest)) := by
  have hgap : level.afterArrow ∈ level.gaps := by simp [gaps]
  have htext : level.wrap value ++ rest =
      level.front ++ '=' :: '>' :: (level.afterArrow ++ (value ++ (level.beforeClose ++ ')' :: rest))) := by
    simp only [wrap, List.append_assoc, List.singleton_append]
    rfl
  rw [htext, arrowWords_append_of_not_mem h.not_mem_front, arrowWords_arrow, wordBehind_blanks (h.blank _ hgap),
    arrowWords_append_of_not_mem (h.not_mem_gap hgap)]

theorem WellFormed.isClosing_rest {rest : List Char} (hrest : IsClosing rest) :
    IsClosing (level.beforeClose ++ ')' :: rest) := by
  refine List.forall_mem_append.2 ⟨fun c hc => .inl (h.blank level.beforeClose (by simp [gaps]) c hc), ?_⟩
  exact List.forall_mem_cons.2 ⟨.inr rfl, hrest⟩

theorem WellFormed.head_behind_word (more : List Char) :
    ∀ c ∈ (level.beforeOpen ++ '(' :: more).head?, isValueChar c = false := by
  intro c hc
  cases hgap : level.beforeOpen with
  | nil =>
    rw [hgap, List.nil_append, List.head?_cons, Option.mem_some_iff] at hc
    rw [← hc]
    decide
  | cons d gap =>
    rw [hgap, List.cons_append, List.head?_cons, Option.mem_some_iff] at hc
    rw [← hc]
    exact isValueChar_of_isBlank (h.blank (d :: gap) (by simp [gaps, hgap]) d List.mem_cons_self)

theorem WellFormed.wordBehind_wrap (value rest : List Char) :
    wordBehind (level.wrap value ++ rest) = ["mapping".toList] := by
  have hne : "mapping".toList ≠ [] := by decide
  have hword : ∀ c ∈ "mapping".toList, isValueChar c = true := List.all_eq_true.1 (by decide)
  unfold wrap front
  -- of the word only that it is one matters, and no step may take its letters apart
  generalize "mapping".toList = word at *
  have htext : word ++ (level.beforeOpen ++ '(' :: (level.afterOpen ++ level.key ++ level.afterKey)) ++ "=>".toList ++
        (level.afterArrow ++ value ++ (level.beforeClose ++ [')'])) ++ rest =
      word ++ (level.beforeOpen ++ '(' :: (level.afterOpen ++ level.key ++ level.afterKey ++ "=>".toList ++
        (level.afterArrow ++ value ++ (level.beforeClose ++ [')'])) ++ rest)) := by
    simp only [List.append_assoc, List.cons_append]
  rw [htext, wordBehind_append hne (head_not_blank_of_word hword) (h.head_behind_word _), wordBehind_of_word hne hword]

end MappingLevel

/-- Only the innermost mapping has something else than `mapping` behind its arrow. -/
theorem arrowWords_nestedMapping {levels : List MappingLevel} (hne : levels ≠ [])
    (hlevels : ∀ level ∈ levels, level.WellFormed) {value rest : List Char} {word : List (List Char)}
    (hvalue : ∀ rest, IsClosing rest → arrowWords (value ++ rest) = [] ∧ wordBehind (value ++ rest) = word)
    (hrest : IsClosing rest) :
    (arrowWords (nestedMapping levels value ++ rest)).filter (· != "mapping".toList) =
      word.filter (· != "mapping".toList) := by
  induction levels generalizing rest with
  | nil => exact absurd rfl hne
  | cons level levels ih =>
    rw [List.forall_mem_cons] at hlevels
    have hclosing := hlevels.1.isClosing_rest hrest
    rw [nestedMapping, List.foldr_cons, hlevels.1.arrowWords_wrap]
    cases levels with
    | nil =>
      obtain ⟨hwords, hword⟩ := hvalue _ hclosing
      rw [List.foldr_nil, hwords, hword, List.append_nil]
    | cons next levels =>
      have hword := (hlevels.2 next List.mem_cons_self).wordBehind_wrap (nestedMapping levels value)
        (level.beforeClose ++ ')' :: rest)
      have hinner := ih (List.cons_ne_nil _ _) hlevels.2 hclosing
      rw [nestedMapping, List.foldr_cons] at hinner
      rw [nestedMapping] at hword
      rw [List.foldr_cons, hword, List.filter_append, hinner]
      rfl

/-! ### The word that is read -/

theorem not_occursIn_sizes {sizes : List (List Char)} (h : ∀ size ∈ sizes, occursIn "=>".toList size = false)
    {rest : List Char} (hrest : IsClosing rest) : occursIn "=>".toList (renderSizes sizes ++ rest) = false := by
  induction sizes with
  | nil =>
    rw [renderSizes, List.flatMap_nil, List.nil_append, ← Bool.not_eq_true, occursIn_iff]
    intro harrow
    rcases hrest '=' (harrow.subset (by decide)) with hblank | heq
    · exact not_equals_of_isBlank hblank rfl
    · exact absurd heq (by decide)
  | cons size sizes ih =>
    rw [List.forall_mem_cons] at h
    have htext : renderSizes (size :: sizes) ++ rest = [] ++ '[' :: (size ++ ']' :: (renderSizes sizes ++ rest)) := by
      simp only [renderSizes, List.flatMap_cons, List.append_assoc, List.cons_append, List.nil_append]
    rw [htext, occursIn_append_cons (by decide) (by decide), occursIn_append_cons (by decide) (by decide), h.1, ih h.2]
    rfl

theorem head_behind_name (sizes : List (List Char)) {rest : List Char} (hrest : IsClosing rest) :
    ∀ c ∈ (renderSizes sizes ++ rest).head?, isValueChar c = false := by
  intro c hc
  cases sizes with
  | nil =>
    rcases hrest c (List.mem_of_head? hc) with hblank | rfl
    · exact isValueChar_of_isBlank hblank
    · decide
  | cons size sizes =>
    rw [renderSizes, List.flatMap_cons, List.cons_append, List.cons_append, List.head?_cons, Option.mem_some_iff] at hc
    rw [← hc]
    decide

/-- Of a value type the beginning of its name is read, and nothing is read behind that. -/
theorem ArrayType.WellFormed.arrowWords_render {value : ArrayType} (h : value.WellFormed) {rest : List Char}
    (hrest : IsClosing rest) :
    arrowWords (value.render ++ rest) = [] ∧ wordBehind (value.render ++ rest) = wordBehind value.name := by
  rw [ArrayType.render, List.append_assoc]
  constructor
  · rw [arrowWords_append_of_not_mem h.named.not_mem_equals]
    exact arrowWords_of_not_occursIn (not_occursIn_sizes h.noArrow hrest)
  · exact wordBehind_append h.named.ne_nil h.named.head_not_blank (head_behind_name value.sizes hrest)

/-- The word that is taken for the type of a value with this name; what is not read as a type counts as a number. -/
def wordRead (name : List Char) : List Char :=
  (((wordBehind name).filter (· != "mapping".toList)).getLast?).getD "uint256".toList

theorem innermostValueType_nestedMapping {levels : List MappingLevel} (hne : levels ≠ [])
    (hlevels : ∀ level ∈ levels, level.WellFormed) {value : ArrayType} (hvalue : value.WellFormed) :
    innermostValueType (String.ofList (nestedMapping levels value.render)) = String.ofList (wordRead value.name) := by
  have hnil : IsClosing [] := fun c hc => absurd hc List.not_mem_nil
  have hwords := arrowWords_nestedMapping hne hlevels (fun _ hrest => hvalue.arrowWords_render hrest) hnil
  have htext : (String.ofList (nestedMapping levels value.render)).toList = nestedMapping levels value.render :=
    String.toList_ofList
  rw [List.append_nil] at hwords
  rw [innermostValueType, htext, hwords, wordRead]
  cases ((wordBehind value.name).filter (· != "mapping".toList)).getLast? with
  | none => rfl
  | some word => rfl

theorem isValueChar_wordRead (name : List Char) : ∀ c ∈ wordRead name, isValueChar c = true := by
  rw [wordRead]
  cases hlast : ((wordBehind name).filter (· != "mapping".toList)).getLast? with
  | none =>
    rw [Option.getD_none]
    exact List.all_eq_true.1 (by decide)
  | some word =>
    rw [Option.getD_some]
    exact isValueChar_of_mem_wordBehind (List.mem_filter.1 (List.mem_of_getLast? hlast)).1

theorem ofSolidity_wordRead (name : List Char) :
    RustType.ofSolidity (String.ofList (wordRead name)) = RustType.ofElementary (wordRead name) := by
  have hchar := isValueChar_wordRead name
  refine RustType.ofSolidity_ofList (head_not_blank_of_word hchar) (fun c hc => ?_) fun hbrackets => ?_
  · exact isBlank_of_isValueChar (hchar c (List.mem_of_getLast? hc))
  · exact absurd (hchar ']' (hbrackets.subset (by decide))) (by decide)

theorem wordRead_of_word {name : List Char} (hne : name ≠ []) (h : ∀ c ∈ name, isValueChar c = true)
    (hmapping : name ≠ "mapping".toList) : wordRead name = name := by
  rw [wordRead, wordBehind_of_word hne h, List.filter_cons_of_pos (by simpa using hmapping)]
  rfl

theorem wordRead_of_dotted {name : List Char} (h : IsDotted name) (hdollar : '$' ∉ name)
    (hmapping : name ≠ "mapping".toList) : wordRead name = name := by
  refine wordRead_of_word h.ne_nil (fun c hc => ?_) hmapping
  have hjoins := Header.joins_of_isDotted h c hc
  have hne : c ≠ '$' := fun heq => hdollar (heq ▸ hc)
  simpa [Header.joins, isValueChar, hne] using hjoins

/-- A name that is read to its end is converted like the word that is read. -/
theorem ofElementary_wordRead {name : List Char} (h : IsNamed name) (hdollar : '$' ∉ name)
    (hmapping : name ≠ "mapping".toList) : RustType.ofElementary (wordRead name) = RustType.ofElementary name := by
  rcases h with hdotted | rfl
  · rw [wordRead_of_dotted hdotted hdollar hmapping]
  · have hne : "address".toList ≠ [] := by decide
    have hchar : ∀ c ∈ "address".toList, isValueChar c = true := List.all_eq_true.1 (by decide)
    have hspace : ∀ c ∈ (' ' :: "payable".toList).head?, isValueChar c = false := by
      rintro c ⟨⟩
      decide
    have hread : wordRead addressPayable = "address".toList := by
      rw [wordRead, show addressPayable = "address".toList ++ ' ' :: "payable".toList from rfl,
        wordBehind_append hne (head_not_blank_of_word hchar) hspace]
      exact wordRead_of_word hne hchar (by decide)
    rw [hread]
    rfl

/-! ### Values that are kept -/

namespace ArrayType

/-- The value type is converted as if all of it had been read: it is a name that is read to its end, or what is read is
not known, and no empty brackets end the type, so that both count as bytes. -/
def KeepsType (value : ArrayType) : Prop :=
  (value.sizes = [] ∧ '$' ∉ value.name ∧ value.name ≠ "mapping".toList) ∨
    (value.sizes.getLast? ≠ some [] ∧ RustType.ofElementary (wordRead value.name) = .bytes)

instance (value : ArrayType) : Decidable value.KeepsType :=
  inferInstanceAs (Decidable (_ ∨ _))

/-- Empty brackets behind a name are never kept: what is read has no vector but bytes, and of single bytes all is
read. -/
theorem ofElementary_wordRead_ne_vec {name : List Char} {before : List (List Char)} (h : WellFormed ⟨name, before⟩) :
    RustType.ofElementary (wordRead name) ≠ .vec (RustType.ofSolidity (String.ofList (render ⟨name, before⟩))) := by
  intro heq
  have hbyte := RustType.element_of_ofElementary heq
  have hname := eq_uint8_of_ofSolidity h hbyte
  rw [hbyte, hname, wordRead_of_word (by decide) (List.all_eq_true.1 (by decide)) (by decide)] at heq
  exact absurd heq (by decide)

theorem converted_iff {value : ArrayType} (h : value.WellFormed) :
    RustType.ofElementary (wordRead value.name) = RustType.ofSolidity (String.ofList value.render) ↔
      value.KeepsType := by
  obtain ⟨name, sizes⟩ := value
  rcases List.eq_nil_or_concat sizes with rfl | ⟨before, size, rfl⟩
  · rw [ofSolidity_render_nil h]
    by_cases hwhole : '$' ∉ name ∧ name ≠ "mapping".toList
    · exact iff_of_true (ofElementary_wordRead h.named hwhole.1 hwhole.2) (.inl ⟨rfl, hwhole⟩)
    · have hbytes : RustType.ofElementary name = .bytes := by
        by_cases hdollar : '$' ∈ name
        · exact RustType.ofElementary_of_foreign hdollar (by decide)
        · have hmapping : name = "mapping".toList := by
            by_contra hne
            exact hwhole ⟨hdollar, hne⟩
          rw [hmapping]
          rfl
      simp only [KeepsType, hwhole, and_false, false_or, hbytes]
      simp
  · rw [List.concat_eq_append] at h ⊢
    by_cases hsize : size = []
    · have hnot := ofElementary_wordRead_ne_vec h.of_append
      rw [hsize, ofSolidity_render_array]
      simp [KeepsType, hnot]
    · rw [ofSolidity_render_sized h hsize]
      simp [KeepsType, hsize]

end ArrayType

end Solidity

/-! ### The rule for a mapping -/

/-- The field for the value in the account of an entry. -/
def valueField (rustType : String) : String :=
  "    pub value: " ++ rustType ++ ","

/-- In the rule for a variable of nested mapping type, the value field has the type that the innermost value type is
converted to exactly when that type is read to its end, or what is read of it counts as bytes like the type itself. -/
theorem mapping_value_kept_iff {levels : List MappingLevel} (hne : levels ≠ [])
    (hlevels : ∀ level ∈ levels, level.WellFormed) {value : ArrayType} (hvalue : value.WellFormed)
    {declared : StateVariable} (htype : declared.typeName = String.ofList (nestedMapping levels value.render)) :
    let converted := (RustType.ofSolidity (innermostValueType declared.typeName)).text
    (converted = (RustType.ofSolidity (String.ofList value.render)).text ↔ value.KeepsType) ∧
      ∃ lead, (variableRule declared).snippet =
        some (lines (lead ++ ["    pub key: Pubkey,", valueField converted, "    pub bump: u8,", "\x7d"])) := by
  intro converted
  have hread := innermostValueType_nestedMapping hne hlevels hvalue
  constructor
  · rw [RustType.text_injective.eq_iff, htype, hread, ofSolidity_wordRead]
    exact ArrayType.converted_iff hvalue
  · have hmapping : declared.isMapping = true := by
      obtain ⟨level, inner, rfl⟩ := List.exists_cons_of_ne_nil hne
      have htext : declared.typeName.toList = level.wrap (nestedMapping inner value.render) := by
        rw [htype, String.toList_ofList, nestedMapping, nestedMapping, List.foldr_cons]
      rw [StateVariable.isMapping, htext]
      exact List.isPrefixOf_iff_prefix.2 (level.prefix_wrap _)
    rw [variableRule, if_pos hmapping]
    exact ⟨[_, _, _, _, _, _, _, _, _, _, _, _], rfl⟩

/-- A mapping in a mapping, laid out with and without blanks. -/
theorem mapping_value_kept_roots :
    let levels : List MappingLevel :=
      [{ key := "address".toList, afterKey := [' '], afterArrow := [' '] }, { key := "uint256".toList }]
    let value : ArrayType := ⟨"bytes32".toList, []⟩
    let declared : StateVariable := { name := "roots", typeName := "mapping(address => mapping(uint256=>bytes32))" }
    levels ≠ [] ∧ (∀ level ∈ levels, level.WellFormed) ∧ value.WellFormed ∧
      declared.typeName = String.ofList (nestedMapping levels value.render) ∧ value.KeepsType ∧
      (RustType.ofSolidity (innermostValueType declared.typeName)).text =
        (RustType.ofSolidity (String.ofList value.render)).text ∧
      (RustType.ofSolidity (String.ofList value.render)).text = "[u8; 32]" := by
  intro levels value declared
  have hne : levels ≠ [] := List.cons_ne_nil _ _
  have hlevels : ∀ level ∈ levels, level.WellFormed := by decide
  have hvalue : value.WellFormed := by decide
  have htype : declared.typeName = String.ofList (nestedMapping levels value.render) := by decide
  have hkeeps : value.KeepsType := by decide
  obtain ⟨hkept, -⟩ := mapping_value_kept_iff hne hlevels hvalue htype
  exact ⟨hne, hlevels, hvalue, htype, hkeeps, hkept.2 hkeeps, by decide⟩

/-- Of an array only the element type is read. -/
theorem mapping_value_lost_shares :
    let levels : List MappingLevel := [{ key := "address".toList, afterKey := [' '], afterArrow := [' '] }]
    let value : ArrayType := ⟨"uint256".toList, [[]]⟩
    (∀ level ∈ levels, level.WellFormed) ∧ value.WellFormed ∧
      String.ofList (nestedMapping levels value.render) = "mapping(address => uint256[])" ∧
      (RustType.ofSolidity (innermostValueType "mapping(address => uint256[])")).text = "u64" ∧
      (RustType.ofSolidity (String.ofList value.render)).text = "Vec<u64>" := by
  intro levels value
  refine ⟨by decide, by decide, by decide, ?_, ?_⟩
  · decide +kernel
  · decide +kernel

end ContractMigration
