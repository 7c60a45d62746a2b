import ContractMigration.Proofs.Rust.TypeConversion
import Mathlib.Logic.Function.Iterate

/-!
# Converted types and their sizes

The conversion of a type takes array suffixes off the end of its text, and the blanks around them, until none is left,
and looks up what remains. It makes no difference which blanks are counted to which part: a text has one element, which
is what remains, and one number of suffixes (`SuffixedText.element_unique`).

The sizes are kept in a second table under the texts of the types. A type that is missing there counts as large as a
key, and nothing would show it, so the tables have to agree. They do: what stands in the first is listed in the second
unless it is a vector, and all vectors have one size (`IsTypeText.isSized`). For every text that is converted,
`conversion_in_tables` says what it is converted to and that its size is no guess.
-/

namespace ContractMigration

open Text

/-! ### Texts with array suffixes -/

/-- A text from which no array suffix can be taken: no blank stands at its ends, and no empty brackets at the last. -/
structure IsElement (text : List Char) : Prop where
  head_not_blank : ∀ c ∈ text.head?, isBlank c = false
  last_not_blank : ∀ c ∈ text.getLast?, isBlank c = false
  no_brackets : ¬ "[]".toList <:+ text

/-- A text taken apart: an element, blanks around it, and array suffixes with blanks behind each. -/
inductive SuffixedText where
  | bare (lead element tail : List Char) (lead_blank : ∀ c ∈ lead, isBlank c = true) (isElement : IsElement element)
      (tail_blank : ∀ c ∈ tail, isBlank c = true)
  | array (inner : SuffixedText) (tail : List Char) (tail_blank : ∀ c ∈ tail, isBlank c = true)

namespace SuffixedText

/-- The text that is taken apart. -/
def text : SuffixedText → List Char
  | bare lead element tail .. => lead ++ element ++ tail
  | array inner tail _ => inner.text ++ "[]".toList ++ tail

/-- What remains without the suffixes. -/
def element : SuffixedText → List Char
  | bare _ element .. => element
  | array inner .. => inner.element

/-- How many suffixes there are. -/
def suffixCount : SuffixedText → Nat
  | bare .. => 0
  | array inner .. => inner.suffixCount + 1

theorem isElement_element (written : SuffixedText) : IsElement written.element := by
  induction written with
  | bare _ _ _ _ isElement => exact isElement
  | array _ _ _ ih => exact ih

theorem suffixCount_le (written : SuffixedText) : 2 * written.suffixCount ≤ written.text.length := by
  induction written with
  | bare => exact Nat.zero_le _
  | array inner tail _ ih =>
    rw [suffixCount, text, List.length_append, List.length_append, show "[]".toList.length = 2 from rfl]
    omega

/-! ### One way to take a text apart -/

theorem trim_text_bare {lead element tail : List Char} (hlead : ∀ c ∈ lead, isBlank c = true)
    (helement : IsElement element) (htail : ∀ c ∈ tail, isBlank c = true) :
    trim (bare lead element tail hlead helement htail).text = element := by
  rw [text, trim, List.append_assoc, trimLeft, List.dropWhile_append_of_pos hlead, ← trimLeft]
  cases element with
  | nil =>
    rw [List.nil_append, trimLeft, List.dropWhile_eq_nil_iff.2 htail]
    rfl
  | cons c element =>
    rw [List.cons_append, trimLeft_cons (helement.head_not_blank c rfl), ← List.cons_append,
      trimRight_append_blanks htail, trimRight_of_last helement.last_not_blank]

theorem trim_text_array (inner : SuffixedText) {tail : List Char} (htail : ∀ c ∈ tail, isBlank c = true) :
    trim (array inner tail htail).text = trimLeft inner.text ++ "[]".toList := by
  have hleft : trimLeft (inner.text ++ "[]".toList ++ tail) = trimLeft inner.text ++ "[]".toList ++ tail := by
    rw [List.append_assoc, List.append_assoc]
    exact trimLeft_append_cons (c := '[') (by decide) inner.text (']' :: tail)
  have hlast : ∀ c ∈ (trimLeft inner.text ++ "[]".toList).getLast?, isBlank c = false := by
    rw [show "[]".toList = ['['] ++ [']'] from rfl, ← List.append_assoc, List.getLast?_concat]
    rintro c ⟨⟩
    decide
  rw [text, trim, hleft, trimRight_append_blanks htail, trimRight_of_last hlast]

/-- Whatever blanks are told apart, a text has one element and one number of suffixes. -/
theorem element_unique {left right : SuffixedText} (h : trim left.text = trim right.text) :
    left.element = right.element ∧ left.suffixCount = right.suffixCount := by
  -- the text in front of a suffix is known up to the blanks at its ends, so these are trimmed in the statement
  induction left generalizing right with
  | bare lead element tail hlead helement htail =>
    rw [trim_text_bare] at h
    cases right with
    | bare =>
      rw [trim_text_bare] at h
      exact ⟨h, rfl⟩
    | array inner =>
      rw [trim_text_array] at h
      exact absurd ⟨_, h.symm⟩ helement.no_brackets
  | array inner tail htail ih =>
    rw [trim_text_array] at h
    cases right with
    | bare _ _ _ _ helement =>
      rw [trim_text_bare] at h
      exact absurd ⟨_, h⟩ helement.no_brackets
    | array other =>
      rw [trim_text_array] at h
      obtain ⟨helement, hcount⟩ := ih (congrArg trimRight (List.append_cancel_right h))
      exact ⟨helement, congrArg (· + 1) hcount⟩

/-! ### Every text can be taken apart -/

/-- A text whose last character is no blank, and which does not end with empty brackets, is an element behind blanks. -/
theorem exists_bare {text : List Char} (hlast : ∀ c ∈ text.getLast?, isBlank c = false)
    (hbrackets : ¬ "[]".toList <:+ text) :
    ∃ written : SuffixedText, written.text = text ∧ written.suffixCount = 0 ∧ written.element = trimLeft text := by
  have hsuffix : trimLeft text <:+ text := List.dropWhile_suffix _
  have helement : IsElement (trimLeft text) := by
    refine ⟨fun c hc => ?_, fun c hc => ?_, fun h => hbrackets (h.trans hsuffix)⟩
    · have hhead := List.head?_dropWhile_not isBlank text
      rw [← trimLeft, Option.mem_def.1 hc] at hhead
      simpa using hhead
    · obtain ⟨front, hfront⟩ := hsuffix
      apply hlast c
      rw [← hfront, List.getLast?_append, Option.mem_def.1 hc]
      rfl
  refine ⟨.bare (text.takeWhile isBlank) (trimLeft text) [] (fun c hc => List.mem_takeWhile_imp hc) helement
    (fun c hc => absurd hc List.not_mem_nil), ?_, rfl, rfl⟩
  rw [SuffixedText.text, List.append_nil, trimLeft, List.takeWhile_append_dropWhile]

/-- The text with one more blank behind it. -/
def appendBlank (written : SuffixedText) (c : Char) (hc : isBlank c = true) : SuffixedText :=
  match written with
  | bare lead element tail hlead helement htail =>
    bare lead element (tail ++ [c]) hlead helement (List.forall_mem_append.2 ⟨htail, List.forall_mem_singleton.2 hc⟩)
  | array inner tail htail =>
    array inner (tail ++ [c]) (List.forall_mem_append.2 ⟨htail, List.forall_mem_singleton.2 hc⟩)

section

variable (written : SuffixedText) {c : Char} (hc : isBlank c = true)

theorem text_appendBlank : (written.appendBlank c hc).text = written.text ++ [c] := by
  cases written <;> exact (List.append_assoc ..).symm

theorem element_appendBlank : (written.appendBlank c hc).element = written.element := by
  cases written <;> rfl

theorem suffixCount_appendBlank : (written.appendBlank c hc).suffixCount = written.suffixCount := by
  cases written <;> rfl

end

end SuffixedText

/-! ### Conversion of every text -/

namespace RustType

/-- A vector of the type with this text, as it is written. -/
def vectorText (element : String) : String :=
  "Vec<" ++ element ++ ">"

theorem text_vectors (count : Nat) (type : RustType) : (vec^[count] type).text = vectorText^[count] type.text := by
  have hvec : Function.Semiconj text vec vectorText := fun _ => rfl
  exact hvec.iterate_right count type

theorem ofSolidity_of_isElement {element : List Char} (h : IsElement element) :
    ofSolidity (String.ofList element) = ofElementary element :=
  ofSolidity_ofList h.head_not_blank h.last_not_blank h.no_brackets

/-- The conversion follows the parts of the text. -/
theorem exists_ofReversed (reversed : List Char) :
    ∃ written : SuffixedText, written.text = reversed.reverse ∧
      ofReversed reversed = vec^[written.suffixCount] (ofElementary written.element) := by
  -- the text is read from its end, so each step adds to the outside of what the rest is taken apart into
  fun_induction ofReversed reversed with
  | case1 rest ih =>
    obtain ⟨written, htext, heq⟩ := ih
    refine ⟨.array written [] (fun c hc => absurd hc List.not_mem_nil), ?_, ?_⟩
    · rw [SuffixedText.text, htext, List.append_nil, List.reverse_cons, List.reverse_cons, List.append_assoc]
      rfl
    · rw [heq, SuffixedText.suffixCount, SuffixedText.element, Function.iterate_succ_apply']
  | case2 c rest _ hblank ih =>
    obtain ⟨written, htext, heq⟩ := ih
    refine ⟨written.appendBlank c hblank, ?_, ?_⟩
    · rw [written.text_appendBlank, htext, List.reverse_cons]
    · rw [written.suffixCount_appendBlank, written.element_appendBlank, heq]
  | case3 c rest hno hblank =>
    have hlast : ∀ d ∈ (c :: rest).reverse.getLast?, isBlank d = false := by
      rw [List.getLast?_reverse]
      rintro d ⟨⟩
      simpa using hblank
    have hbrackets : ¬ "[]".toList <:+ (c :: rest).reverse := by
      rw [← List.reverse_prefix, List.reverse_reverse]
      rintro ⟨more, hmore⟩
      obtain ⟨rfl, rfl⟩ := List.cons.inj hmore.symm
      exact hno more rfl rfl
    obtain ⟨written, htext, hcount, helement⟩ := SuffixedText.exists_bare hlast hbrackets
    exact ⟨written, htext, by rw [hcount, helement, Function.iterate_zero_apply]⟩
  | case4 =>
    have hbrackets : ¬ "[]".toList <:+ [] := by decide
    have hlast : ∀ c ∈ ([] : List Char).getLast?, isBlank c = false := fun _ hc => absurd hc (by simp)
    obtain ⟨written, htext, hcount, helement⟩ := SuffixedText.exists_bare hlast hbrackets
    exact ⟨written, htext, by rw [hcount, helement, Function.iterate_zero_apply]; rfl⟩

/-! ### The two tables -/

theorem exists_counterpart (typeName : List Char) : ∃ entry ∈ counterparts, ofElementary typeName = entry.2 := by
  rcases ofElementary_cases typeName with hbytes | ⟨entry, hentry, -, heq⟩
  · exact ⟨("bytes", bytes), by decide, hbytes⟩
  · exact ⟨entry, hentry, heq⟩

/-- The texts of types: those that stand in the table, and vectors of them. -/
inductive IsTypeText : String → Prop
  | counterpart {entry : String × RustType} (h : entry ∈ counterparts) : IsTypeText entry.2.text
  | vector {element : String} (h : IsTypeText element) : IsTypeText (vectorText element)

/-- The types that fields can have are the ones with these texts. -/
theorem isTypeText_iff {rust : String} : IsTypeText rust ↔ ∃ type : RustType, type.text = rust := by
  constructor
  · intro h
    induction h with
    | @counterpart entry _ => exact ⟨entry.2, rfl⟩
    | vector _ ih =>
      obtain ⟨type, rfl⟩ := ih
      exact ⟨vec type, rfl⟩
  · have hlisted : ∀ atom ∈ atoms, ∃ entry ∈ counterparts, entry.2 = atom := by decide
    have hatoms : ∀ atom ∈ atoms, IsTypeText atom.text := by
      intro atom hatom
      obtain ⟨entry, hentry, rfl⟩ := hlisted atom hatom
      exact .counterpart hentry
    rintro ⟨type, rfl⟩
    induction type with
    | vec element ih => exact .vector ih
    | _ => exact hatoms _ (by decide)

/-- The size of a type is told by its being a vector or by the entry for it. -/
def IsSized (rust : String) : Prop :=
  ("Vec<".toList <+: rust.toList ∧ sizeText rust = "4 + 256") ∨ sizes.lookup rust = some (sizeText rust)

instance (rust : String) : Decidable (IsSized rust) :=
  inferInstanceAs (Decidable (_ ∨ _))

theorem isSized_vectorText (element : String) : IsSized (vectorText element) := by
  have hbegins : "Vec<".toList <+: (vectorText element).toList := by
    rw [vectorText, String.toList_append, String.toList_append, List.append_assoc]
    exact List.prefix_append _ _
  exact .inl ⟨hbegins, if_pos (List.isPrefixOf_iff_prefix.2 hbegins)⟩

theorem IsTypeText.isSized {rust : String} (h : IsTypeText rust) : IsSized rust := by
  have htables : ∀ entry ∈ counterparts, IsSized entry.2.text := by decide
  cases h with
  | counterpart hentry => exact htables _ hentry
  | vector => exact isSized_vectorText _

/-- Every text comes apart into an element, array suffixes and blanks, in one way but for the blanks; each suffix takes
two of its characters, so there is an end to them. The text is converted to as many vectors of what the element is
converted to, and that stands in the first table, so the result is the text of a type. Its size is that of vectors or
listed in the second table. -/
theorem conversion_in_tables (typeName : String) :
    ∃ written : SuffixedText, written.text = typeName.toList ∧
      (∀ other : SuffixedText, other.text = typeName.toList →
        other.element = written.element ∧ other.suffixCount = written.suffixCount) ∧
      2 * written.suffixCount ≤ typeName.length ∧
      (ofSolidity typeName).text =
        vectorText^[written.suffixCount] (ofSolidity (String.ofList written.element)).text ∧
      (∃ entry ∈ counterparts, (ofSolidity (String.ofList written.element)).text = entry.2.text) ∧
      IsTypeText (ofSolidity typeName).text ∧ IsSized (ofSolidity typeName).text := by
  obtain ⟨written, htext, hconversion⟩ := exists_ofReversed typeName.toList.reverse
  rw [List.reverse_reverse] at htext
  have helement := ofSolidity_of_isElement written.isElement_element
  have htype : IsTypeText (ofSolidity typeName).text := isTypeText_iff.2 ⟨ofSolidity typeName, rfl⟩
  refine ⟨written, htext, fun other hother => ?_, ?_, ?_, ?_, htype, htype.isSized⟩
  · exact SuffixedText.element_unique (congrArg trim (hother.trans htext.symm))
  · rw [← String.length_toList, ← htext]
    exact written.suffixCount_le
  · rw [helement, ← text_vectors, ofSolidity, hconversion]
  · obtain ⟨entry, hentry, heq⟩ := exists_counterpart written.element
    exact ⟨entry, hentry, by rw [helement, heq]⟩

example : (ofSolidity "\tuint8 [] []\n").text = "Vec<Vec<u8>>" := by decide +kernel

end RustType

end ContractMigration
