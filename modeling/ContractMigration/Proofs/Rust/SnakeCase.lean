import ContractMigration.Proofs.Rust.HandlerNames

/-!
# Snake case told at each character

The snake case of a plain name is the name broken where its words end, in lower case and without underscores in front.
Everything else about it follows: it is a normal form, its characters are those of the name in order, and it has the
Pascal case of the name. Main statement: `snakeCase_local`.
-/

namespace ContractMigration

namespace Naming

open Text

/-- A text without the underscores in front, unless there is nothing else. -/
def withoutUnderscores (text : List Char) : List Char :=
  if text.dropWhile (· == '_') = [] then text else text.dropWhile (· == '_')

theorem filter_withoutUnderscores (text : List Char) :
    (withoutUnderscores text).filter (· != '_') = text.filter (· != '_') := by
  have hdrop : (text.dropWhile (· == '_')).filter (· != '_') = text.filter (· != '_') := by
    induction text with
    | nil => rfl
    | cons c text ih =>
      by_cases hc : c = '_'
      · rw [hc, List.dropWhile_cons_of_pos rfl, ih, List.filter_cons_of_neg (by decide)]
      · rw [List.dropWhile_cons_of_neg (by simpa using hc)]
  rw [withoutUnderscores]
  split
  · rfl
  · exact hdrop

theorem filter_map_toLower {text : List Char} (h : ∀ c ∈ text, c.toNat < 128) :
    (text.map Char.toLower).filter (· != '_') = (text.filter (· != '_')).map Char.toLower := by
  rw [List.filter_map]
  congr 1
  refine List.filter_congr fun c hc => ?_
  exact forall_ascii (p := fun c => ((· != '_') ∘ Char.toLower) c = (c != '_')) (by decide) (h c hc)

section Ascii

variable {name : List Char} (h : ∀ c ∈ name, c.toNat < 128)
include h

theorem snake_eq_brokenUp : snake name = withoutUnderscores (brokenUp name) := by
  rw [snake_brokenUp h, snake_of_lowered (isLowered_brokenUp h), withoutUnderscores]

theorem snake_eq_separate :
    snake name = withoutUnderscores ((humps.separate (acronyms.separate name)).map Char.toLower) := by
  rw [snake_eq_brokenUp h, brokenUp, split_eq_separate]

theorem snake_eq_insertBreaks : snake name = withoutUnderscores ((insertBreaks endsWord name).map Char.toLower) := by
  rw [snake_eq_brokenUp h, brokenUp, split_eq]

/-- But for underscores the characters are those of the name, in lower case and in order. -/
theorem filter_snake : (snake name).filter (· != '_') = (name.filter (· != '_')).map Char.toLower := by
  have hbroken : ∀ c ∈ insertBreaks endsWord name, c.toNat < 128 := split_eq name ▸ ascii_split h
  rw [snake_eq_insertBreaks h, filter_withoutUnderscores, filter_map_toLower hbroken, filter_insertBreaks]

end Ascii

end Naming

open Naming

/-- Snake case is what the two passes make of a name, and it is told at each character from the two behind it. So it is
a normal form, it adds and drops nothing but underscores, and it does not show in Pascal case. -/
theorem snakeCase_local {name : String} (h : ∀ c ∈ name.toList, c.toNat < 128) :
    (snakeCase name).toList =
        withoutUnderscores ((humps.separate (acronyms.separate name.toList)).map Char.toLower) ∧
      (snakeCase name).toList = withoutUnderscores ((Text.insertBreaks endsWord name.toList).map Char.toLower) ∧
      snakeCase (snakeCase name) = snakeCase name ∧
      (snakeCase name).toList.filter (· != '_') = (name.toList.filter (· != '_')).map Char.toLower ∧
      pascalCase (snakeCase name) = pascalCase name := by
  rw [toList_snakeCase]
  refine ⟨snake_eq_separate h, snake_eq_insertBreaks h, ?_, filter_snake h, pascalCase_snakeCase h⟩
  rw [snakeCase, toList_snakeCase, snake_snake h, snakeCase]

/-- Acronyms, a digit, underscores in front and at the end. -/
theorem snakeCase_local_server :
    (∀ c ∈ "__parseHTTPServer2GoAB_".toList, c.toNat < 128) ∧
      snakeCase "__parseHTTPServer2GoAB_" = "parse_http_server2_go_ab_" ∧
      snakeCase (snakeCase "__parseHTTPServer2GoAB_") = snakeCase "__parseHTTPServer2GoAB_" ∧
      pascalCase "parse_http_server2_go_ab_" = pascalCase "__parseHTTPServer2GoAB_" := by
  have hascii : ∀ c ∈ "__parseHTTPServer2GoAB_".toList, c.toNat < 128 :=
    Solidity.ascii_of_isPlainIdentifier (by decide)
  have hsnake : snakeCase "__parseHTTPServer2GoAB_" = "parse_http_server2_go_ab_" := by
    decide +kernel
  obtain ⟨-, -, hnormal, -, hpascal⟩ := snakeCase_local hascii
  exact ⟨hascii, hsnake, hnormal, hsnake ▸ hpascal⟩

end ContractMigration
