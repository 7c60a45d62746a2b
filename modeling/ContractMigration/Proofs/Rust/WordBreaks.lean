import ContractMigration.Proofs.Text.Separation
import ContractMigration.Rust.Naming

/-!
# Where words end in a name

Names are broken up in two passes, each of which looks for a pattern: a run of capitals with another capital and a small
letter behind it, and then a small letter or a digit with a capital behind it. What a match takes in is not looked at
again in its pass, and the second pass reads what the first has written. None of this shows in what comes out
(`split_eq`): whether a word ends behind a character depends on the character and the two behind it in the name alone
(`endsWord`). A match of the first pattern is the whole rest of a run of capitals and has a break only in front of its
last one (`separate_acronyms`), a match of the second ends with a capital, and no match of the second begins with one
(`separate_humps`). An underscore that the first pass has written is neither small nor a capital, so the second pass
breaks nowhere at it (`insertBreaks_twice`).
-/

namespace ContractMigration

namespace Naming

open Text

/-! ### The two patterns -/

/-- Reads a capital with a small letter behind it. -/
def readCapitalized : List Char → Option (List Char × List Char)
  | a :: b :: rest => if isCapital a && isSmall b then some ([a, b], rest) else none
  | _ => none

theorem readCapitalized_eq_some {text second rest : List Char} (h : readCapitalized text = some (second, rest)) :
    ∃ a b, text = a :: b :: rest ∧ second = [a, b] ∧ isCapital a = true ∧ isSmall b = true := by
  unfold readCapitalized at h
  split at h
  · next a b behind =>
    obtain ⟨hclass, heq⟩ := Option.ite_none_right_eq_some.1 h
    obtain ⟨rfl, rfl⟩ := Prod.mk.inj (Option.some.inj heq)
    exact ⟨a, b, rfl, rfl, Bool.and_eq_true_iff.1 hclass⟩
  · exact absurd h (by simp)

/-- A run of capitals, and a capital with a small letter behind it. -/
def acronyms : TwoGroups where
  read := readRun isCapital readCapitalized
  source_eq h := by
    obtain ⟨-, -, behind, rfl, hfollow⟩ := readRun_eq_some h
    obtain ⟨a, b, rfl, rfl, -⟩ := readCapitalized_eq_some hfollow
    rfl
  first_ne_nil h := (readRun_eq_some h).1

/-- Reads a small letter or a digit, and a capital. -/
def readHump : List Char → Option (List Char × List Char × List Char)
  | a :: b :: rest => if (isSmall a || a.isDigit) && isCapital b then some ([a], [b], rest) else none
  | _ => none

theorem readHump_eq_some {text first second rest : List Char} (h : readHump text = some (first, second, rest)) :
    ∃ a b, text = a :: b :: rest ∧ first = [a] ∧ second = [b] ∧ (isSmall a || a.isDigit) = true ∧
      isCapital b = true := by
  unfold readHump at h
  split at h
  · next a b behind =>
    obtain ⟨hclass, heq⟩ := Option.ite_none_right_eq_some.1 h
    obtain ⟨rfl, rfl, rfl⟩ : _ ∧ _ ∧ _ := by simpa using heq
    exact ⟨a, b, rfl, rfl, rfl, Bool.and_eq_true_iff.1 hclass⟩
  · exact absurd h (by simp)

/-- A small letter or a digit, and a capital. -/
def humps : TwoGroups where
  read := readHump
  source_eq h := by
    obtain ⟨a, b, rfl, rfl, rfl, -⟩ := readHump_eq_some h
    rfl
  first_ne_nil h := by
    obtain ⟨a, b, rfl, rfl, rfl, -⟩ := readHump_eq_some h
    exact List.cons_ne_nil _ _

/-! ### Rules for one character -/

/-- A small letter or a digit with a capital behind it. -/
def endsHump (c : Char) (rest : List Char) : Bool :=
  (isSmall c || c.isDigit) && rest[0]?.any isCapital

/-- A capital with another one behind it that has a small letter behind itself. -/
def endsAcronym (c : Char) (rest : List Char) : Bool :=
  isCapital c && rest[0]?.any isCapital && rest[1]?.any isSmall

/-- Whether a word ends behind a character: a capital is next, and the character is a small letter or a digit, or it is
a capital and a small letter comes behind the next one. -/
def endsWord (c : Char) (rest : List Char) : Bool :=
  endsHump c rest || endsAcronym c rest

theorem isCapital_of_isSmall {c : Char} (h : isSmall c = true) : isCapital c = false := by
  simp only [isSmall, isCapital, Bool.and_eq_true, decide_eq_true_eq, Bool.and_eq_false_iff,
    decide_eq_false_iff_not] at h ⊢
  exact .inr fun hcapital => absurd (Char.le_trans h.1 hcapital) (by decide)

theorem isCapital_of_isSmall_or_isDigit {c : Char} (h : (isSmall c || c.isDigit) = true) : isCapital c = false := by
  rcases Bool.or_eq_true_iff.1 h with hsmall | hdigit
  · exact isCapital_of_isSmall hsmall
  · simp only [Char.isDigit, isCapital, Bool.and_eq_true, decide_eq_true_eq, Bool.and_eq_false_iff,
      decide_eq_false_iff_not] at hdigit ⊢
    exact .inl fun hcapital => absurd (UInt32.le_trans hcapital hdigit.2) (by decide)

theorem isSmall_of_isCapital {c : Char} (h : isCapital c = true) : isSmall c = false := by
  by_contra hsmall
  rw [Bool.not_eq_false] at hsmall
  rw [isCapital_of_isSmall hsmall] at h
  exact absurd h (by decide)

theorem endsHump_of_isCapital {c : Char} (h : isCapital c = true) (rest : List Char) : endsHump c rest = false := by
  have hnone : (isSmall c || c.isDigit) = false := by
    by_contra hclass
    rw [isCapital_of_isSmall_or_isDigit (Bool.not_eq_false _ ▸ hclass)] at h
    exact absurd h (by decide)
  rw [endsHump, hnone, Bool.false_and]

theorem endsAcronym_of_isSmall {c : Char} (h : isSmall c = true) (rest : List Char) : endsAcronym c rest = false := by
  rw [endsAcronym, isCapital_of_isSmall h, Bool.false_and, Bool.false_and]

/-! ### Matches told at each character -/

/-- In a run of capitals with a word behind it only the last capital of the run ends a word. -/
theorem insertBreaks_run {run rest : List Char} {a b : Char} (hne : run ≠ []) (hrun : ∀ c ∈ run, isCapital c = true)
    (ha : isCapital a = true) (hb : isSmall b = true) :
    insertBreaks endsAcronym (run ++ a :: b :: rest) = run ++ '_' :: a :: b :: insertBreaks endsAcronym rest := by
  induction run with
  | nil => exact absurd rfl hne
  | cons c run ih =>
    rw [List.forall_mem_cons] at hrun
    cases run with
    | nil =>
      have hlast : endsAcronym c (a :: b :: rest) = true := by simp [endsAcronym, hrun.1, ha, hb]
      have hcapital : endsAcronym a (b :: rest) = false := by simp [endsAcronym, isCapital_of_isSmall hb]
      rw [List.cons_append, List.nil_append, insertBreaks_of_break hlast, insertBreaks_of_not_break hcapital,
        insertBreaks_of_not_break (endsAcronym_of_isSmall hb _)]
      rfl
    | cons d run =>
      have hinner : endsAcronym c (d :: run ++ a :: b :: rest) = false := by
        -- behind the next capital stands another one, of the run or behind it
        have hnext : (run ++ a :: b :: rest)[0]?.any isSmall = false := by
          cases run with
          | nil => simpa using isSmall_of_isCapital ha
          | cons e run => simpa using isSmall_of_isCapital (hrun.2 e (by simp))
        rw [endsAcronym, List.cons_append, List.getElem?_cons_succ, hnext, Bool.and_false]
      rw [List.cons_append, insertBreaks_of_not_break hinner, ih (List.cons_ne_nil _ _) hrun.2]
      rfl

theorem separate_acronyms (name : List Char) : acronyms.separate name = insertBreaks endsAcronym name := by
  apply acronyms.separate_eq_insertBreaks
  · intro c rest hread
    by_contra hends
    simp only [endsAcronym, Bool.not_eq_false, Bool.and_eq_true, Option.any_eq_true] at hends
    obtain ⟨⟨hc, a, ha, hcapital⟩, b, hb, hsmall⟩ := hends
    obtain ⟨more, rfl⟩ : ∃ more, rest = a :: b :: more := by
      rcases rest with _ | ⟨d, _ | ⟨e, more⟩⟩
      · exact absurd ha (by simp)
      · exact absurd hb (by simp)
      · exact ⟨more, by simp_all⟩
    have hnone := follow_eq_none_of_readRun hread hc
    exact absurd hnone (by simp [readCapitalized, hcapital, hsmall])
  · intro text first second rest hread
    obtain ⟨hne, hrun, behind, rfl, hfollow⟩ := readRun_eq_some hread
    obtain ⟨a, b, rfl, rfl, ha, hb⟩ := readCapitalized_eq_some hfollow
    exact insertBreaks_run hne hrun ha hb

theorem separate_humps (name : List Char) : humps.separate name = insertBreaks endsHump name := by
  apply humps.separate_eq_insertBreaks
  · intro c rest hread
    cases rest with
    | nil => simp [endsHump]
    | cons b rest => simpa [humps, readHump, endsHump] using hread
  · intro text first second rest hread
    obtain ⟨a, b, rfl, rfl, rfl, ha, hb⟩ := readHump_eq_some hread
    have hhump : endsHump a (b :: rest) = true := by
      rw [endsHump, ha]
      simpa using hb
    rw [insertBreaks_of_break hhump, insertBreaks_of_not_break (endsHump_of_isCapital hb rest)]
    rfl

/-- The second pass breaks where it would break the name itself. -/
theorem insertBreaks_twice (name : List Char) :
    insertBreaks endsHump (insertBreaks endsAcronym name) = insertBreaks endsWord name := by
  induction name with
  | nil => rfl
  | cons c rest ih =>
    have hunderscore (behind : List Char) : endsHump '_' behind = false := by
      rw [endsHump]
      exact Bool.false_and _
    cases hacronym : endsAcronym c rest with
    | true =>
      have hword : endsWord c rest = true := by rw [endsWord, hacronym, Bool.or_true]
      have hwritten : endsHump c ('_' :: insertBreaks endsAcronym rest) = false := by
        rw [endsHump]
        exact Bool.and_false _
      rw [insertBreaks_of_break hacronym, insertBreaks_of_not_break hwritten,
        insertBreaks_of_not_break (hunderscore _), ih, insertBreaks_of_break hword]
    | false =>
      have hsame : endsHump c (insertBreaks endsAcronym rest) = endsWord c rest := by
        rw [endsWord, hacronym, Bool.or_false, endsHump, endsHump, getElem?_zero_insertBreaks]
      rw [insertBreaks_of_not_break hacronym, insertBreaks, insertBreaks, hsame, ih]

/-! ### The two passes -/

theorem splitAcronyms_eq (name : List Char) : splitAcronyms name = insertBreaks endsAcronym name := by
  fun_induction splitAcronyms name with
  | case1 a b c rest hbreak ih =>
    have hends : endsAcronym a (b :: c :: rest) = true := by simpa [endsAcronym] using hbreak
    rw [ih, insertBreaks_of_break hends]
  | case2 a b c rest hbreak ih =>
    have hends : endsAcronym a (b :: c :: rest) = false := by simpa [endsAcronym] using hbreak
    rw [ih, insertBreaks_of_not_break hends]
  | case3 name hshort =>
    rcases name with _ | ⟨a, _ | ⟨b, _ | ⟨c, rest⟩⟩⟩
    · rfl
    · simp [insertBreaks, endsAcronym]
    · simp [insertBreaks, endsAcronym]
    · exact absurd rfl (hshort a b c rest)

theorem splitHumps_eq (name : List Char) : splitHumps name = insertBreaks endsHump name := by
  fun_induction splitHumps name with
  | case1 a b rest hbreak ih =>
    have hends : endsHump a (b :: rest) = true := by simpa [endsHump] using hbreak
    rw [ih, insertBreaks_of_break hends]
  | case2 a b rest hbreak ih =>
    have hends : endsHump a (b :: rest) = false := by simpa [endsHump] using hbreak
    rw [ih, insertBreaks_of_not_break hends]
  | case3 name hshort =>
    rcases name with _ | ⟨a, _ | ⟨b, rest⟩⟩
    · rfl
    · simp [insertBreaks, endsHump]
    · exact absurd rfl (hshort a b rest)

/-- Both passes together break a name where its words end. -/
theorem split_eq (name : List Char) : splitHumps (splitAcronyms name) = insertBreaks endsWord name := by
  rw [splitHumps_eq, splitAcronyms_eq, insertBreaks_twice]

theorem split_eq_separate (name : List Char) :
    splitHumps (splitAcronyms name) = humps.separate (acronyms.separate name) := by
  rw [splitHumps_eq, splitAcronyms_eq, separate_humps, separate_acronyms]

end Naming

end ContractMigration
