import ContractMigration.Proofs.Solidity.TypeSyntax
import ContractMigration.Rust.Type

/-!
# Conversion of written types

A type that is no mapping is a name with array suffixes. Its conversion follows the suffixes from the last one on: empty
brackets make a vector, and brackets with a size make a text that is not known, so the type becomes bytes whatever
stands in front of them. The Rust types are told apart by their texts (`text_injective`), so what is proved about them
holds of the texts that are written.
-/

namespace ContractMigration

open Text Solidity

/-! ### Rust types -/

namespace RustType

/-- The types that are no vectors. -/
def atoms : List RustType :=
  [pubkey, bool, string, u64, u32, u16, u8, i64, i32, bytes32]

theorem mem_atoms_or_vec (type : RustType) : type ∈ atoms ∨ ∃ element, type = vec element := by
  cases type with
  | vec element => exact .inr ⟨element, rfl⟩
  | _ => exact .inl (by decide)

theorem text_injective : Function.Injective text := by
  have hatoms : ∀ left ∈ atoms, ∀ right ∈ atoms, left.text = right.text → left = right := by decide
  have hhead : ∀ atom ∈ atoms, ∀ element : RustType, atom.text ≠ (vec element).text := by
    intro atom hatom element heq
    have hv : ∀ atom ∈ atoms, atom.text.toList.head? ≠ some 'V' := by decide
    apply hv atom hatom
    rw [heq, text, String.toList_append, String.toList_append]
    rfl
  intro left
  induction left with
  | vec element ih =>
    intro right h
    rcases mem_atoms_or_vec right with hatom | ⟨other, rfl⟩
    · exact absurd h.symm (hhead right hatom element)
    · rw [text, text, String.append_left_inj, String.append_right_inj] at h
      rw [ih h]
  | _ =>
    intro right h
    rcases mem_atoms_or_vec right with hatom | ⟨other, rfl⟩
    · exact hatoms _ (by decide) right hatom h
    · exact absurd h (hhead _ (by decide) other)

/-- A text with a character that stands in no known type is converted to bytes. -/
theorem ofElementary_of_foreign {typeName : List Char} {c : Char} (hc : c ∈ typeName)
    (hforeign : ∀ entry ∈ counterparts, c ∉ entry.1.toList) : ofElementary typeName = bytes := by
  have hlookup : counterparts.lookup (String.ofList typeName) = none := by
    rw [List.lookup_eq_none_iff]
    intro entry hentry
    rw [bne_iff_ne]
    intro heq
    apply hforeign entry hentry
    rwa [← heq, String.toList_ofList]
  rw [ofElementary, hlookup, Option.getD_none]

theorem ofSolidity_array (text : List Char) :
    ofSolidity (String.ofList (text ++ "[]".toList)) = vec (ofSolidity (String.ofList text)) := by
  simp only [ofSolidity, String.toList_ofList, List.reverse_append]
  rfl

/-- A text that neither begins nor ends with a blank, and does not end with empty brackets, is looked up as a whole. -/
theorem ofSolidity_ofList {text : List Char} (hhead : ∀ c ∈ text.head?, isBlank c = false)
    (hlast : ∀ c ∈ text.getLast?, isBlank c = false) (hbrackets : ¬ "[]".toList <:+ text) :
    ofSolidity (String.ofList text) = ofElementary text := by
  have hreversed : ∀ reversed : List Char, (∀ c ∈ reversed.head?, isBlank c = false) →
      ¬ "][".toList <+: reversed → ofReversed reversed = ofElementary (trimLeft reversed.reverse) := by
    intro reversed hnoblank hnobrackets
    fun_cases ofReversed reversed with
    | case1 rest => exact absurd (List.prefix_append "][".toList rest) hnobrackets
    | case2 c rest _ hblank => exact absurd hblank (by simp [hnoblank c rfl])
    | case3 c rest _ _ => rfl
    | case4 => rfl
  rw [ofSolidity, String.toList_ofList, hreversed text.reverse, List.reverse_reverse, trimLeft_of_head hhead]
  · rwa [List.head?_reverse]
  · rwa [← List.reverse_prefix] at hbrackets

/-- A type whose last brackets hold a size is not known. -/
theorem ofSolidity_sized {text size : List Char} (hhead : ∀ c ∈ text.head?, isBlank c = false) (htext : text ≠ [])
    (hsize : IsSize size) (hne : size ≠ []) :
    ofSolidity (String.ofList (text ++ renderSizes [size])) = bytes := by
  have hconcat : text ++ renderSizes [size] = text ++ '[' :: size ++ [']'] := by
    rw [renderSizes, List.flatMap_singleton, List.append_assoc, List.cons_append]
  rw [hconcat, ofSolidity_ofList]
  · exact ofElementary_of_foreign (c := ']') (by simp) (by decide)
  · obtain ⟨c, rest, rfl⟩ := List.exists_cons_of_ne_nil htext
    exact hhead
  · rw [List.getLast?_concat]
    rintro c ⟨⟩
    decide
  -- a balanced text does not end with an opening bracket
  · rintro ⟨front, hfront⟩
    obtain ⟨before, last, rfl⟩ := (List.eq_nil_or_concat size).resolve_left hne
    rw [List.concat_eq_append, ← List.cons_append, ← List.append_assoc] at hfront
    have hcut : front ++ ['['] ++ [']'] = text ++ '[' :: before ++ [last] ++ [']'] := by
      simpa using hfront
    obtain ⟨-, hlast⟩ := List.append_inj' (List.append_inj' hcut rfl).1 rfl
    obtain rfl : '[' = last := by simpa using hlast
    have hsquare := hsize.square
    rw [List.concat_eq_append] at hsquare
    obtain ⟨inside, after, hrest, -⟩ := hsquare.exists_closed (by decide)
    exact absurd hrest (by simp)

theorem ofElementary_cases (typeName : List Char) :
    ofElementary typeName = bytes ∨
      ∃ entry ∈ counterparts, typeName = entry.1.toList ∧ ofElementary typeName = entry.2 := by
  rw [ofElementary]
  cases hlookup : counterparts.lookup (String.ofList typeName) with
  | none => exact .inl rfl
  | some type =>
    obtain ⟨before, after, hentries, -⟩ := List.lookup_eq_some_iff.1 hlookup
    refine .inr ⟨(String.ofList typeName, type), ?_, String.toList_ofList.symm, rfl⟩
    rw [hentries]
    exact List.mem_append_right _ List.mem_cons_self

/-- Of the known types only bytes are a vector. -/
theorem element_of_ofElementary {typeName : List Char} {element : RustType} (h : ofElementary typeName = vec element) :
    element = u8 := by
  rcases ofElementary_cases typeName with hbytes | ⟨entry, hentry, -, heq⟩
  · rw [hbytes] at h
    exact (vec.inj h).symm
  · have hvectors : ∀ entry ∈ counterparts, entry.2 = bytes ∨ entry.2 ∈ atoms := by decide
    rw [heq] at h
    rcases hvectors entry hentry with hbytes | hatom
    · rw [hbytes] at h
      exact (vec.inj h).symm
    · rw [h] at hatom
      exact absurd hatom (by simp [atoms])

theorem eq_uint8_of_ofElementary {typeName : List Char} (h : ofElementary typeName = u8) :
    typeName = "uint8".toList := by
  rcases ofElementary_cases typeName with hbytes | ⟨entry, hentry, hname, heq⟩
  · exact absurd (hbytes.symm.trans h) (by decide)
  · have hone : ∀ entry ∈ counterparts, entry.2 = u8 → entry.1 = "uint8" := by decide
    rw [hname, hone entry hentry (heq.symm.trans h)]

end RustType

namespace Solidity

/-! ### Names -/

/-- A type without suffixes that is no mapping: a name, perhaps with dots, or `address payable`. -/
def IsNamed (text : List Char) : Prop :=
  IsDotted text ∨ text = addressPayable

instance (text : List Char) : Decidable (IsNamed text) :=
  inferInstanceAs (Decidable (IsDotted text ∨ text = addressPayable))

namespace IsNamed

variable {name : List Char} (h : IsNamed name)
include h

theorem ne_nil : name ≠ [] := by
  rcases h with hdotted | rfl
  · exact hdotted.ne_nil
  · decide

theorem not_mem {c : Char} (hforeign : Header.joins c = false) (hpayable : c ∉ addressPayable) : c ∉ name := by
  rcases h with hdotted | rfl
  · exact fun hmem => absurd (Header.joins_of_isDotted hdotted c hmem) (by simp [hforeign])
  · exact hpayable

theorem not_mem_equals : '=' ∉ name :=
  h.not_mem (by decide) (by decide)

theorem head_not_blank : ∀ c ∈ name.head?, isBlank c = false := by
  rcases h with hdotted | rfl
  · exact fun c hc => Header.not_isBlank_of_joins (Header.joins_of_isDotted hdotted c (List.mem_of_head? hc))
  · rintro c ⟨⟩
    decide

theorem last_not_blank : ∀ c ∈ name.getLast?, isBlank c = false := by
  rcases h with hdotted | rfl
  · exact fun c hc => Header.not_isBlank_of_joins (Header.joins_of_isDotted hdotted c (List.mem_of_getLast? hc))
  · rintro c ⟨⟩
    decide

end IsNamed

theorem ofSolidity_named {name : List Char} (h : IsNamed name) :
    RustType.ofSolidity (String.ofList name) = RustType.ofElementary name := by
  refine RustType.ofSolidity_ofList h.head_not_blank h.last_not_blank fun hbrackets => ?_
  exact h.not_mem (c := ']') (by decide) (by decide) (hbrackets.subset (by decide))

/-! ### Names with array suffixes -/

/-- A type that is no mapping: a name and the texts in its array suffixes. -/
structure ArrayType where
  name : List Char
  sizes : List (List Char)
deriving DecidableEq, Repr

namespace ArrayType

def render (type : ArrayType) : List Char :=
  type.name ++ renderSizes type.sizes

structure WellFormed (type : ArrayType) : Prop where
  named : IsNamed type.name
  sized : ∀ size ∈ type.sizes, IsSize size
  noArrow : ∀ size ∈ type.sizes, occursIn "=>".toList size = false

instance (type : ArrayType) : Decidable type.WellFormed :=
  decidable_of_iff (IsNamed type.name ∧ ∀ size ∈ type.sizes, IsSize size ∧ occursIn "=>".toList size = false) <| by
    refine ⟨fun ⟨hnamed, hsizes⟩ => ⟨hnamed, fun size h => (hsizes size h).1, fun size h => (hsizes size h).2⟩, ?_⟩
    exact fun h => ⟨h.named, fun size hsize => ⟨h.sized size hsize, h.noArrow size hsize⟩⟩

theorem ofSolidity_render_array (name : List Char) (before : List (List Char)) :
    RustType.ofSolidity (String.ofList (render ⟨name, before ++ [[]]⟩)) =
      .vec (RustType.ofSolidity (String.ofList (render ⟨name, before⟩))) := by
  have htext : render ⟨name, before ++ [[]]⟩ = render ⟨name, before⟩ ++ "[]".toList := by
    rw [render, render, renderSizes, renderSizes, List.flatMap_append, List.flatMap_singleton, List.append_assoc]
    rfl
  rw [htext, RustType.ofSolidity_array]

theorem ofSolidity_render_sized {name size : List Char} {before : List (List Char)}
    (h : WellFormed ⟨name, before ++ [size]⟩) (hne : size ≠ []) :
    RustType.ofSolidity (String.ofList (render ⟨name, before ++ [size]⟩)) = .bytes := by
  have hname : name ≠ [] := h.named.ne_nil
  have htext : render ⟨name, before ++ [size]⟩ = render ⟨name, before⟩ ++ renderSizes [size] := by
    rw [render, render, renderSizes, renderSizes, renderSizes, List.flatMap_append, List.append_assoc]
  have hhead : ∀ c ∈ (render ⟨name, before⟩).head?, isBlank c = false := by
    rw [render, List.head?_append_of_ne_nil _ hname]
    exact h.named.head_not_blank
  rw [htext]
  refine RustType.ofSolidity_sized hhead (List.append_ne_nil_of_left_ne_nil hname _) (h.sized size ?_) hne
  exact List.mem_append_right before (List.mem_singleton_self size)

theorem WellFormed.of_append {name : List Char} {before after : List (List Char)}
    (h : WellFormed ⟨name, before ++ after⟩) : WellFormed ⟨name, before⟩ where
  named := h.named
  sized size hsize := h.sized size (List.mem_append_left after hsize)
  noArrow size hsize := h.noArrow size (List.mem_append_left after hsize)

theorem ofSolidity_render_nil {name : List Char} (h : WellFormed ⟨name, []⟩) :
    RustType.ofSolidity (String.ofList (render ⟨name, []⟩)) = RustType.ofElementary name := by
  have htext : render ⟨name, []⟩ = name := List.append_nil name
  rw [htext, ofSolidity_named h.named]

/-- Only `uint8` is converted to a single byte. -/
theorem eq_uint8_of_ofSolidity {name : List Char} {sizes : List (List Char)} (h : WellFormed ⟨name, sizes⟩)
    (hbyte : RustType.ofSolidity (String.ofList (render ⟨name, sizes⟩)) = .u8) : name = "uint8".toList := by
  rcases List.eq_nil_or_concat sizes with rfl | ⟨before, size, rfl⟩
  · rw [ofSolidity_render_nil h] at hbyte
    exact RustType.eq_uint8_of_ofElementary hbyte
  · rw [List.concat_eq_append] at h hbyte
    by_cases hsize : size = []
    · rw [hsize, ofSolidity_render_array] at hbyte
      exact absurd hbyte (by simp)
    · rw [ofSolidity_render_sized h hsize] at hbyte
      exact absurd hbyte (by decide)

end ArrayType

end Solidity

end ContractMigration
