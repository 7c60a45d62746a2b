import ContractMigration.Proofs.Solidity.Member
import Mathlib.Data.List.Forall2

/-!
# Cutting undoes writing

Take members whose texts are tidy, whose parentheses are balanced and in which every opening brace and every semicolon
stands inside a parenthesis. Write them one behind the other, in any layout, each with a semicolon or a block behind it.
Then the body is cut into exactly these members (`members_written`). Nothing is asked of closing braces in a text, nor
of parentheses and semicolons in a block: outside all blocks a closing brace is an ordinary character, and inside one
only braces count.
-/

namespace ContractMigration.Solidity

open Text

namespace Member

/-- What a body can hold as a member and give back. -/
structure WellFormed (member : Member) : Prop where
  tidy : collapse member.text = member.text
  ne_nil : member.text ≠ []
  round : Balanced '(' ')' member.text
  inside : ∀ front c rest, member.text = front ++ c :: rest → c ∈ ['\x7b', ';'] →
    front.count ')' < front.count '('

theorem wellFormed_iff {member : Member} :
    member.WellFormed ↔ collapse member.text = member.text ∧ member.text ≠ [] ∧ Enclosed member.text := by
  rw [enclosed_iff]
  constructor
  · intro h
    exact ⟨h.tidy, h.ne_nil, h.round, h.inside⟩
  · rintro ⟨htidy, hne, hround, hinside⟩
    exact ⟨htidy, hne, hround, hinside⟩

instance (member : Member) : Decidable member.WellFormed :=
  decidable_of_iff _ wellFormed_iff.symm

/-- The ways to write a member: the words of its text in any layout, and then a semicolon or a block in which the
braces are balanced. -/
inductive Writes : Member → List Char → Prop where
  | statement {text header : List Char} (hwords : words header = words text) :
      Writes ⟨text, .statement⟩ (header ++ [';'])
  | block {text header content : List Char} (hwords : words header = words text)
      (hcontent : Balanced '\x7b' '\x7d' content) :
      Writes ⟨text, .block⟩ (header ++ '\x7b' :: (content ++ ['\x7d']))

theorem Writes.exists_written {member : Member} {piece : List Char} (h : member.Writes piece)
    (hmember : member.WellFormed) :
    ∃ written : WrittenMember, written.WellFormed ∧ written.text = piece ∧ written.member = member := by
  have hhas : ∀ header, words header = words member.text →
      Enclosed header ∧ words header ≠ [] ∧ collapse header = member.text := by
    intro header hwords
    have hcollapse : collapse header = member.text := by rw [collapse, hwords, ← collapse, hmember.tidy]
    refine ⟨(wellFormed_iff.1 hmember).2.2.of_words_eq hwords.symm, fun hnone => ?_, hcollapse⟩
    rw [collapse, hnone] at hcollapse
    exact hmember.ne_nil hcollapse.symm
  cases h with
  | @statement text header hwords =>
    obtain ⟨henclosed, hne, hcollapse⟩ := hhas header hwords
    exact ⟨⟨header, .semicolon⟩, ⟨henclosed, trivial, hne⟩, rfl, by rw [WrittenMember.member, hcollapse]; rfl⟩
  | @block text header content hwords hcontent =>
    obtain ⟨henclosed, hne, hcollapse⟩ := hhas header hwords
    exact ⟨⟨header, .block content⟩, ⟨henclosed, hcontent, hne⟩, rfl, by rw [WrittenMember.member, hcollapse]; rfl⟩

end Member

theorem exists_writtenBody {found : List Member} {pieces : List (List Char)}
    (hfound : ∀ member ∈ found, member.WellFormed) (hpieces : List.Forall₂ Member.Writes found pieces) :
    ∃ body : List WrittenMember, (∀ written ∈ body, written.WellFormed) ∧
      body.map WrittenMember.text = pieces ∧ body.map WrittenMember.member = found := by
  induction hpieces with
  | nil => exact ⟨[], fun _ hmem => absurd hmem List.not_mem_nil, rfl, rfl⟩
  | @cons member piece found pieces hpiece _ ih =>
    rw [List.forall_mem_cons] at hfound
    obtain ⟨written, hwritten, htext, hmember⟩ := hpiece.exists_written hfound.1
    obtain ⟨body, hbody, htexts, hmembers⟩ := ih hfound.2
    refine ⟨written :: body, List.forall_mem_cons.2 ⟨hwritten, hbody⟩, ?_, ?_⟩
    · rw [List.map_cons, htext, htexts]
    · rw [List.map_cons, hmember, hmembers]

/-- A body is cut into the members that it was written from. -/
theorem members_written {found : List Member} {pieces : List (List Char)} {trailing : List Char}
    (hfound : ∀ member ∈ found, member.WellFormed) (hpieces : List.Forall₂ Member.Writes found pieces)
    (htrailing : ∀ c ∈ trailing, isBlank c = true) :
    members (pieces.flatten ++ trailing) = found := by
  obtain ⟨body, hbody, rfl, rfl⟩ := exists_writtenBody hfound hpieces
  rw [← List.flatMap_def]
  exact WrittenMember.members_flatMap hbody htrailing

/-- A semicolon and braces in parentheses, a block that holds a block, loose parentheses and semicolons, an empty block,
and a header that begins with a closing brace. -/
theorem members_written_mixed :
    let found : List Member := [⟨"P p = P(\x7bx: 0; y: 0\x7d)".toList, .statement⟩, ⟨"f( uint a )".toList, .block⟩,
      ⟨"\x7d modifier m".toList, .block⟩]
    let pieces := ["\n P p =\tP(\x7bx: 0;\n y: 0\x7d) ;".toList,
      "\n f( uint a )\n \x7bif (a \x7b g(; \x7d ) ;\x7d".toList, " \x7d modifier m\x7b\x7d".toList]
    (∀ member ∈ found, member.WellFormed) ∧ List.Forall₂ Member.Writes found pieces ∧
      (∀ c ∈ "\n".toList, isBlank c = true) ∧ members (pieces.flatten ++ "\n".toList) = found := by
  intro found pieces
  have hfound : ∀ member ∈ found, member.WellFormed := by decide
  have hpieces : List.Forall₂ Member.Writes found pieces := by
    refine .cons ?_ (.cons ?_ (.cons ?_ .nil))
    · exact @Member.Writes.statement _ "\n P p =\tP(\x7bx: 0;\n y: 0\x7d) ".toList (by decide)
    · exact @Member.Writes.block _ "\n f( uint a )\n ".toList "if (a \x7b g(; \x7d ) ;".toList (by decide)
        (by decide)
    · exact @Member.Writes.block _ " \x7d modifier m".toList [] (by decide) (by decide)
  have htrailing : ∀ c ∈ "\n".toList, isBlank c = true := List.forall_mem_singleton.2 (by decide)
  exact ⟨hfound, hpieces, htrailing, members_written hfound hpieces htrailing⟩

end ContractMigration.Solidity
