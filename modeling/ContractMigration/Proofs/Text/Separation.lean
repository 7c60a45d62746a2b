import Mathlib.Data.List.Basic
import Mathlib.Data.Option.Basic

/-!
# Separating the two groups of a match

A pattern of two groups matches at the start of a text or not. Its matches in a text are taken from left to right, none
reaching into another, and an underscore is put between the groups of each. A group that is a run of characters is read
greedily: it goes on while what follows it can still be read, and is shortened only where that fails (`readRun`). What
comes out of all this can often be told at each character from what follows it alone; `separate_eq_insertBreaks` says
what has to be shown of a pattern for that.
-/

namespace ContractMigration.Text

/-- A pattern of two groups, the first of which is not empty: the groups of the match at the start of a text, and what
is left of the text. -/
structure TwoGroups where
  read : List Char → Option (List Char × List Char × List Char)
  source_eq {text first second rest : List Char} (h : read text = some (first, second, rest)) :
    text = first ++ (second ++ rest)
  first_ne_nil {text first second rest : List Char} (h : read text = some (first, second, rest)) : first ≠ []

/-- A run of characters of a class, with what the reader takes behind it. The run is as long as it can be while the
reader still accepts. -/
def readRun (inClass : Char → Bool) (follow : List Char → Option (List Char × List Char)) :
    List Char → Option (List Char × List Char × List Char)
  | [] => none
  | c :: rest =>
    if inClass c then
      match readRun inClass follow rest with
      | some (run, found) => some (c :: run, found)
      | none => (follow rest).map fun found => ([c], found)
    else none

/-- What is read is a run of the class, not empty, with what the reader takes behind it. -/
theorem readRun_eq_some {inClass : Char → Bool} {follow : List Char → Option (List Char × List Char)}
    {text run second rest : List Char} (h : readRun inClass follow text = some (run, second, rest)) :
    run ≠ [] ∧ (∀ c ∈ run, inClass c = true) ∧
      ∃ behind, text = run ++ behind ∧ follow behind = some (second, rest) := by
  induction text generalizing run with
  | nil => exact absurd h (by simp [readRun])
  | cons c text ih =>
    rw [readRun] at h
    split at h
    · next hc =>
      cases hlonger : readRun inClass follow text with
      | some found =>
        obtain ⟨longer, found⟩ := found
        rw [hlonger, Option.some.injEq, Prod.mk.injEq] at h
        obtain ⟨rfl, rfl⟩ := h
        obtain ⟨-, hclass, behind, rfl, hfollow⟩ := ih hlonger
        exact ⟨List.cons_ne_nil _ _, List.forall_mem_cons.2 ⟨hc, hclass⟩, behind, rfl, hfollow⟩
      | none =>
        rw [hlonger] at h
        obtain ⟨found, hfollow, heq⟩ := Option.map_eq_some_iff.1 h
        obtain ⟨rfl, rfl⟩ := Prod.mk.inj heq
        exact ⟨List.cons_ne_nil _ _, List.forall_mem_singleton.2 hc, text, rfl, hfollow⟩
    · exact absurd h (by simp)

/-- Where nothing is read behind a character of the class, the reader takes nothing there. -/
theorem follow_eq_none_of_readRun {inClass : Char → Bool} {follow : List Char → Option (List Char × List Char)}
    {c : Char} {rest : List Char} (h : readRun inClass follow (c :: rest) = none) (hc : inClass c = true) :
    follow rest = none := by
  rw [readRun, if_pos hc] at h
  cases hlonger : readRun inClass follow rest with
  | some found => exact absurd h (by simp [hlonger])
  | none => simpa [hlonger] using h

/-- The text with an underscore behind each character that the rule tells to break after, given what follows it. -/
def insertBreaks (breaks : Char → List Char → Bool) : List Char → List Char
  | [] => []
  | c :: rest => if breaks c rest then c :: '_' :: insertBreaks breaks rest else c :: insertBreaks breaks rest

theorem insertBreaks_of_break {breaks : Char → List Char → Bool} {c : Char} {rest : List Char}
    (h : breaks c rest = true) : insertBreaks breaks (c :: rest) = c :: '_' :: insertBreaks breaks rest := by
  rw [insertBreaks, if_pos h]

theorem insertBreaks_of_not_break {breaks : Char → List Char → Bool} {c : Char} {rest : List Char}
    (h : breaks c rest = false) : insertBreaks breaks (c :: rest) = c :: insertBreaks breaks rest := by
  rw [insertBreaks, h]
  rfl

theorem getElem?_zero_insertBreaks (breaks : Char → List Char → Bool) (text : List Char) :
    (insertBreaks breaks text)[0]? = text[0]? := by
  cases text with
  | nil => rfl
  | cons c rest =>
    rw [insertBreaks]
    split <;> rfl

theorem mem_insertBreaks {breaks : Char → List Char → Bool} {text : List Char} :
    ∀ c ∈ insertBreaks breaks text, c ∈ text ∨ c = '_' := by
  induction text with
  | nil => exact fun c hc => .inl hc
  | cons d text ih =>
    intro c hc
    rw [insertBreaks] at hc
    split at hc
    · simp only [List.mem_cons] at hc ⊢
      grind
    · simp only [List.mem_cons] at hc ⊢
      grind

/-- A text in which nothing is broken stays as it is. -/
theorem insertBreaks_eq_self {breaks : Char → List Char → Bool} {text : List Char}
    (h : ∀ c rest, c :: rest <:+ text → breaks c rest = false) : insertBreaks breaks text = text := by
  induction text with
  | nil => rfl
  | cons c text ih =>
    rw [insertBreaks_of_not_break (h c text List.suffix_rfl),
      ih fun d rest hsuffix => h d rest (hsuffix.trans (List.suffix_cons c text))]

/-- Breaks add underscores and change nothing else. -/
theorem filter_insertBreaks (breaks : Char → List Char → Bool) (text : List Char) :
    (insertBreaks breaks text).filter (· != '_') = text.filter (· != '_') := by
  induction text with
  | nil => rfl
  | cons c text ih =>
    cases hbreak : breaks c text with
    | true => simp [insertBreaks_of_break hbreak, List.filter_cons, ih]
    | false => simp only [insertBreaks_of_not_break hbreak, List.filter_cons, ih]

namespace TwoGroups

variable (pattern : TwoGroups)

theorem length_lt_of_read {text first second rest : List Char} (h : pattern.read text = some (first, second, rest)) :
    rest.length < text.length := by
  have hfirst := List.length_pos_iff.2 (pattern.first_ne_nil h)
  rw [pattern.source_eq h, List.length_append, List.length_append]
  omega

/-- The text with an underscore between the groups of each match. Where nothing matches the text is passed by one
character, and behind a match the next one is looked for. -/
def separate : List Char → List Char
  | [] => []
  | c :: rest =>
    match _h : pattern.read (c :: rest) with
    | some (first, second, behind) => first ++ '_' :: (second ++ separate behind)
    | none => c :: separate rest
termination_by text => text.length
decreasing_by
  · exact pattern.length_lt_of_read ‹_›
  · exact Nat.lt_succ_self _

/-- Matches that are told at each character: nothing is broken where no match begins, and in a match only the two
groups are. -/
theorem separate_eq_insertBreaks {breaks : Char → List Char → Bool}
    (hpass : ∀ {c rest}, pattern.read (c :: rest) = none → breaks c rest = false)
    (hmatch : ∀ {text first second rest}, pattern.read text = some (first, second, rest) →
      insertBreaks breaks text = first ++ '_' :: (second ++ insertBreaks breaks rest)) (text : List Char) :
    pattern.separate text = insertBreaks breaks text := by
  fun_induction separate pattern text with
  | case1 => rfl
  | case2 c rest first second behind hread ih => rw [hmatch hread, ih]
  | case3 c rest hread ih => rw [insertBreaks_of_not_break (hpass hread), ih]

end TwoGroups

end ContractMigration.Text
