import ContractMigration.Proofs.Text.SortedWords
import ContractMigration.Proofs.Text.Search
import ContractMigration.Solidity.Neighbours

/-!
# Neighbours of a keyword and substrings of the body

The index of a keyword answers like a search of the body for the name and the keyword with a space between them
(`adjoins_ofText`), whatever the body and the keyword. That a word behind the keyword is passed over as a whole loses no
place, since no word holds the space that would have to stand in front of another one. And a name that ends a word in
front of the keyword is found by the one word that ends there, however the body goes on.
-/

namespace ContractMigration.Solidity.Neighbours

open Text

/-- Somewhere in the text the name stands, and behind what was passed the keyword and a space stand in front of it. -/
def NamedBehind (keyword name passed text : List Char) : Prop :=
  ∃ front, front ++ name <+: text ∧ ' ' :: keyword.reverse <+: front.reverse ++ passed

section Name

variable {name : List Char} (hne : name ≠ []) (hname : ∀ c ∈ name, isBlank c = false)

/-! ### Behind the keyword -/

theorem namedBehind_cons (keyword passed : List Char) (c : Char) (rest : List Char) :
    NamedBehind keyword name passed (c :: rest) ↔
      (name <+: c :: rest ∧ ' ' :: keyword.reverse <+: passed) ∨ NamedBehind keyword name (c :: passed) rest := by
  constructor
  · rintro ⟨front, htext, hkeyword⟩
    cases front with
    | nil => exact .inl ⟨htext, hkeyword⟩
    | cons d front =>
      obtain ⟨rfl, hrest⟩ := List.cons_prefix_cons.1 htext
      rw [List.reverse_cons, List.append_assoc] at hkeyword
      exact .inr ⟨front, hrest, hkeyword⟩
  · rintro (⟨htext, hkeyword⟩ | ⟨front, hrest, hkeyword⟩)
    · exact ⟨[], htext, hkeyword⟩
    · refine ⟨c :: front, List.cons_prefix_cons.2 ⟨rfl, hrest⟩, ?_⟩
      rw [List.reverse_cons, List.append_assoc]
      exact hkeyword

theorem namedBehind_nil_iff (keyword text : List Char) :
    NamedBehind keyword name [] text ↔ keyword ++ ' ' :: name <:+: text := by
  have hreverse : ' ' :: keyword.reverse = (keyword ++ [' ']).reverse := by simp
  simp only [NamedBehind, hreverse, List.append_nil, List.reverse_prefix]
  constructor
  · rintro ⟨front, ⟨rest, rfl⟩, ⟨before, rfl⟩⟩
    exact ⟨before, rest, by simp⟩
  · rintro ⟨before, rest, rfl⟩
    exact ⟨before ++ (keyword ++ [' ']), ⟨rest, by simp⟩, List.suffix_append _ _⟩

include hname in
/-- A name without blanks begins a text exactly when it begins the first word of it. -/
theorem prefix_takeWhile_iff (text : List Char) : name <+: text.takeWhile (!isBlank ·) ↔ name <+: text := by
  refine ⟨fun h => h.trans (List.takeWhile_prefix _), fun ⟨rest, htext⟩ => ?_⟩
  rw [← htext, List.takeWhile_append_of_pos fun c hc => by simp [hname c hc]]
  exact List.prefix_append _ _

include hne hname

theorem exists_mem_wordsBehind_iff (keyword : List Char) {passed : List Char} {skip : Nat} {text : List Char}
    (hpassed : skip ≠ 0 → ∀ c ∈ passed.head?, isBlank c = false) (hskip : ∀ c ∈ text.take skip, isBlank c = false) :
    (∃ word ∈ wordsBehind keyword passed skip text, name <+: word) ↔ NamedBehind keyword name passed text := by
  induction text generalizing passed skip with
  | nil =>
    refine ⟨fun ⟨word, hword, _⟩ => absurd hword (by simp [wordsBehind]), fun ⟨front, htext, _⟩ => ?_⟩
    exact absurd (List.append_eq_nil_iff.1 (List.prefix_nil.1 htext)).2 hne
  | cons c rest ih =>
    rw [namedBehind_cons]
    cases skip with
    | succ skip =>
      rw [List.take_succ_cons, List.forall_mem_cons] at hskip
      -- what was passed last is a character of the word that is passed over, and no space
      have hnot : ¬(' ' :: keyword.reverse <+: passed) := by
        rintro ⟨more, rfl⟩
        exact absurd (hpassed (Nat.succ_ne_zero skip) ' ' rfl) (by decide)
      rw [wordsBehind, ih (fun _ => by simpa using hskip.1) hskip.2]
      exact ⟨.inr, fun h => h.resolve_left fun ⟨_, hkeyword⟩ => hnot hkeyword⟩
    | zero =>
      rw [wordsBehind]
      split
      · next hfound =>
        rw [Bool.and_eq_true, Bool.not_eq_true', List.isPrefixOf_iff_prefix] at hfound
        have hword : c :: rest.takeWhile (!isBlank ·) = (c :: rest).takeWhile (!isBlank ·) :=
          (List.takeWhile_cons_of_pos (by simp [hfound.1])).symm
        have htake : rest.take (rest.takeWhile (!isBlank ·)).length = rest.takeWhile (!isBlank ·) :=
          (List.prefix_iff_eq_take.1 (List.takeWhile_prefix _)).symm
        have hmore : ∀ d ∈ rest.take (rest.takeWhile (!isBlank ·)).length, isBlank d = false := by
          intro d hd
          rw [htake] at hd
          simpa using List.all_eq_true.1 List.all_takeWhile d hd
        have hpassed' : (rest.takeWhile (!isBlank ·)).length ≠ 0 → ∀ d ∈ (c :: passed).head?, isBlank d = false :=
          fun _ => by simpa using hfound.1
        have hrest := ih hpassed' hmore
        rw [List.exists_mem_cons_iff, hrest, hword, prefix_takeWhile_iff hname, and_iff_left hfound.2]
      · next hfound =>
        rw [ih (fun h => absurd rfl h) (by simp)]
        refine ⟨.inr, fun h => h.resolve_left fun ⟨htext, hkeyword⟩ => hfound ?_⟩
        obtain ⟨d, name, rfl⟩ := List.exists_cons_of_ne_nil hne
        obtain ⟨rfl, -⟩ := List.cons_prefix_cons.1 htext
        rw [Bool.and_eq_true, List.isPrefixOf_iff_prefix]
        exact ⟨by simp [hname d List.mem_cons_self], hkeyword⟩

/-! ### In front of the keyword -/

omit hne in
/-- The name and the keyword stand on both sides of the first blank, or behind it. -/
theorem infix_append_blank_iff {word : List Char} (hword : ∀ c ∈ word, isBlank c = false) {c : Char}
    (hc : isBlank c = true) (keyword rest : List Char) :
    name ++ ' ' :: keyword <:+: word ++ c :: rest ↔
      (c = ' ' ∧ name <:+ word ∧ keyword <+: rest) ∨ name ++ ' ' :: keyword <:+: rest := by
  have hspace : isBlank ' ' = true := by decide
  constructor
  · rintro ⟨before, after, htext⟩
    rw [List.append_assoc, List.append_assoc, ← List.append_assoc, List.cons_append] at htext
    rcases List.append_eq_append_iff.1 htext with ⟨middle, hbefore, hrest⟩ | ⟨middle, hbefore, hrest⟩
    · cases middle with
      | nil =>
        obtain ⟨rfl, rfl⟩ := List.cons.inj hrest
        rw [List.append_nil] at hbefore
        exact .inl ⟨rfl, ⟨before, hbefore.symm⟩, List.prefix_append _ _⟩
      | cons d middle =>
        obtain ⟨rfl, -⟩ := List.cons.inj hrest
        exact absurd (hword ' ' (by simp [hbefore])) (by simp [hspace])
    · cases middle with
      | nil =>
        obtain ⟨rfl, rfl⟩ := List.cons.inj hrest
        rw [List.append_nil] at hbefore
        exact .inl ⟨rfl, ⟨before, hbefore⟩, List.prefix_append _ _⟩
      | cons d middle =>
        obtain ⟨rfl, rfl⟩ := List.cons.inj hrest
        rcases List.append_eq_append_iff.1 hbefore with ⟨front, -, hname'⟩ | ⟨front, -, hmiddle⟩
        · exact absurd (hname c (by simp [hname'])) (by simp [hc])
        · cases front with
          | nil =>
            have hmem : c ∈ name := by
              rw [List.nil_append] at hmiddle
              exact hmiddle ▸ List.mem_cons_self
            exact absurd (hname c hmem) (by simp [hc])
          | cons e front =>
            obtain ⟨-, rfl⟩ := List.cons.inj hmiddle
            exact .inr ⟨front, after, by simp⟩
  · rintro (⟨rfl, ⟨before, rfl⟩, ⟨after, rfl⟩⟩ | ⟨before, after, rfl⟩)
    · exact ⟨before, after, by simp⟩
    · exact ⟨word ++ c :: before, after, by simp⟩

theorem exists_mem_wordsInFront_iff (keyword : List Char) {word text : List Char}
    (hword : ∀ c ∈ word, isBlank c = false) :
    (∃ found ∈ wordsInFront keyword word text, name.reverse <+: found) ↔
      name ++ ' ' :: keyword <:+: word.reverse ++ text := by
  induction text generalizing word with
  | nil =>
    refine ⟨fun ⟨found, hfound, _⟩ => absurd hfound (by simp [wordsInFront]), fun h => ?_⟩
    rw [List.append_nil] at h
    exact absurd (hword ' ' (List.mem_reverse.1 (h.subset (by simp)))) (by decide)
  | cons c rest ih =>
    rw [wordsInFront]
    split
    · next hc =>
      have hlonger : ∀ d ∈ c :: word, isBlank d = false := List.forall_mem_cons.2 ⟨by simpa using hc, hword⟩
      rw [ih hlonger, List.reverse_cons, List.append_assoc]
      exact Iff.rfl
    · next hc =>
      have hc' : isBlank c = true := by simpa using hc
      have hreversed : ∀ d ∈ word.reverse, isBlank d = false := fun d hd => hword d (List.mem_reverse.1 hd)
      have hnil : ∀ d ∈ ([] : List Char), isBlank d = false := by simp
      have hrest := ih hnil
      rw [List.reverse_nil, List.nil_append] at hrest
      rw [infix_append_blank_iff hname hreversed hc']
      split
      · next hfound =>
        simp only [Bool.and_eq_true, beq_iff_eq, List.isPrefixOf_iff_prefix] at hfound
        have hends : name.reverse <+: word ↔ name <:+ word.reverse := by
          rw [← List.reverse_prefix, List.reverse_reverse]
        rw [List.exists_mem_cons_iff, hrest, hends]
        simp only [hfound.1.2, hfound.2, true_and, and_true]
      · next hfound =>
        refine ⟨fun h => .inr (hrest.1 h), fun h => hrest.2 (h.resolve_left fun ⟨hspace, hends, hkeyword⟩ => hfound ?_)⟩
        have hword' : word ≠ [] := by
          rintro rfl
          exact hne (List.suffix_nil.1 hends)
        simpa [hspace, hword'] using hkeyword

/-! ### Both sides -/

/-- A name is looked up in the index of a keyword like a substring of the body, in front of the keyword or behind it,
with one space between them. -/
theorem adjoins_ofText (keyword body : List Char) :
    (ofText keyword body).adjoins name =
      (occursIn (name ++ ' ' :: keyword) body || occursIn (keyword ++ ' ' :: name) body) := by
  have hbehind : (ofText keyword body).behind.anyBegins name = true ↔ keyword ++ ' ' :: name <:+: body := by
    have hpassed : 0 ≠ 0 → ∀ c ∈ ([] : List Char).head?, isBlank c = false := fun h => absurd rfl h
    have hskip : ∀ c ∈ body.take 0, isBlank c = false := by simp
    have hwords := exists_mem_wordsBehind_iff hne hname keyword hpassed hskip
    simp only [SortedWords.anyBegins_iff, ofText, SortedWords.mem_ofList]
    rw [hwords, namedBehind_nil_iff]
  have hinFront : (ofText keyword body).inFront.anyBegins name.reverse = true ↔
      name ++ ' ' :: keyword <:+: body := by
    have hword : ∀ c ∈ ([] : List Char), isBlank c = false := by simp
    have hwords : (∃ found ∈ wordsInFront keyword [] body, name.reverse <+: found) ↔
        name ++ ' ' :: keyword <:+: body := exists_mem_wordsInFront_iff hne hname keyword hword
    simp only [SortedWords.anyBegins_iff, ofText, SortedWords.mem_ofList]
    exact hwords
  rw [Bool.eq_iff_iff, adjoins, Bool.or_eq_true, Bool.or_eq_true, hbehind, hinFront, occursIn_iff, occursIn_iff,
    or_comm]

end Name

/-- The keyword stands twice in a row, the name begins a longer word, and a tab is not a space. -/
theorem adjoins_ofText_rate :
    let keyword := "constant".toList
    let body := "uint256 rate; uint256 fee\tconstant constant rateCap = 5;".toList
    ("rate".toList ≠ [] ∧ ∀ c ∈ "rate".toList, isBlank c = false) ∧
      ("fee".toList ≠ [] ∧ ∀ c ∈ "fee".toList, isBlank c = false) ∧
      (ofText keyword body).adjoins "rate".toList = true ∧ (ofText keyword body).adjoins "fee".toList = false := by
  intro keyword body
  have hrate : "rate".toList ≠ [] ∧ ∀ c ∈ "rate".toList, isBlank c = false := by
    have hall : ∀ c ∈ "rate".toList, (!isBlank c) = true := List.all_eq_true.1 (by decide)
    exact ⟨by simp, by simpa using hall⟩
  have hfee : "fee".toList ≠ [] ∧ ∀ c ∈ "fee".toList, isBlank c = false := by
    have hall : ∀ c ∈ "fee".toList, (!isBlank c) = true := List.all_eq_true.1 (by decide)
    exact ⟨by simp, by simpa using hall⟩
  refine ⟨hrate, hfee, ?_, ?_⟩
  · rw [adjoins_ofText hrate.1 hrate.2]
    decide +kernel
  · rw [adjoins_ofText hfee.1 hfee.2]
    decide +kernel

end ContractMigration.Solidity.Neighbours
