import ContractMigration.Proofs.Text.Search
import ContractMigration.Solidity.Declaration
import Mathlib.Data.List.TakeWhile

/-!
# What a header is read from

A header that is read says how the text begins: the keyword of its kind, blanks and its name, with `abstract` in front
exactly when it is abstract (`read?_reads`). The last header of a piece of text is also the only one in what begins
with it (`last?_eq_some`), so it is found again when everything in front of it is cut off.
-/

namespace ContractMigration.Solidity

open Text

/-- One blank or more. -/
def IsGap (text : List Char) : Prop :=
  text ≠ [] ∧ ∀ c ∈ text, isBlank c = true

/-- What stands in front of the kind keyword of a header: the word `abstract` and a gap, or nothing. -/
def IsLead (isAbstract : Bool) (text : List Char) : Prop :=
  if isAbstract then ∃ gap, IsGap gap ∧ text = "abstract".toList ++ gap else text = []

namespace Header

/-- What a header is read from: `abstract` and a gap if it is abstract, the keyword of its kind, a gap, its name and
its tail. -/
structure Reads (header : Header) (text lead gap : List Char) : Prop where
  isLead : IsLead header.isAbstract lead
  isGap : IsGap gap
  text_eq : text = lead ++ (header.kind.word.toList ++ (gap ++ (header.name ++ header.tail)))
  lead_eq : header.lead = lead.length
  name : isIdentifier header.name = true

theorem isGap_takeWhile {text : List Char} (h : text.takeWhile isBlank ≠ []) : IsGap (text.takeWhile isBlank) :=
  ⟨h, fun _ hc => List.mem_takeWhile_imp hc⟩

theorem readDeclared_reads {text : List Char} {header : Header} (h : readDeclared text = some header) :
    header.isAbstract = false ∧ ∃ gap, header.Reads text [] gap := by
  obtain ⟨kind, -, hkind⟩ := List.exists_of_findSome?_eq_some h
  cases hrest : after? kind.word.toList text with
  | none => simp only [hrest, reduceCtorEq] at hkind
  | some rest =>
    simp only [hrest, drop_length_takeWhile] at hkind
    cases htrim : rest.dropWhile isBlank with
    | nil => simp only [htrim, reduceCtorEq] at hkind
    | cons c more =>
      simp only [htrim] at hkind
      split at hkind
      · exact absurd hkind (by simp)
      · next hstart =>
        simp only [Bool.or_eq_true, Bool.not_eq_true', not_or, Bool.not_eq_true, Bool.not_eq_false,
          List.isEmpty_eq_false_iff] at hstart
        obtain rfl := Option.some.inj hkind
        refine ⟨rfl, rest.takeWhile isBlank, ⟨rfl, isGap_takeWhile hstart.1, ?_, rfl, ?_⟩⟩
        · rw [after?_eq_some_iff.1 hrest, List.nil_append, List.cons_append, List.takeWhile_append_dropWhile, ← htrim,
            List.takeWhile_append_dropWhile]
        · simp only [isIdentifier, hstart.2, Bool.true_and, List.all_eq_true]
          exact fun c hc => List.mem_takeWhile_imp hc

theorem read?_reads {text : List Char} {header : Header} (h : read? text = some header) :
    ∃ lead gap, header.Reads text lead gap := by
  unfold read? at h
  cases hrest : after? "abstract".toList text with
  | none =>
    simp only [hrest] at h
    exact ⟨[], (readDeclared_reads h).2⟩
  | some rest =>
    simp only [hrest, drop_length_takeWhile] at h
    split at h
    · exact absurd h (by simp)
    · next hgap =>
      obtain ⟨declared, hread, rfl⟩ := Option.map_eq_some_iff.1 h
      obtain ⟨-, gap, hreads⟩ := readDeclared_reads hread
      have hlead : IsGap (rest.takeWhile isBlank) := isGap_takeWhile (by simpa using hgap)
      refine ⟨"abstract".toList ++ rest.takeWhile isBlank, gap, ⟨⟨_, hlead, rfl⟩, hreads.isGap, ?_, ?_, hreads.name⟩⟩
      · have htext := hreads.text_eq
        rw [List.nil_append] at htext
        rw [after?_eq_some_iff.1 hrest, List.append_assoc, ← htext, List.takeWhile_append_dropWhile]
      · rw [List.length_append, String.length_toList]

/-! ### The last header -/

/-- What is found does not depend on what was found before, and it moves with the index. -/
theorem lastFrom_eq (latest : Option (Nat × Header)) (skip : Nat) (joined : Bool) (index : Nat) (text : List Char) :
    lastFrom latest skip joined index text =
      match lastFrom none skip joined 0 text with
      | some (start, header) => some (index + start, header)
      | none => latest := by
  induction text generalizing latest skip joined index with
  | nil => rfl
  | cons c text ih =>
    have hshift : ∀ start, index + 1 + start = index + (0 + 1 + start) := by omega
    cases skip with
    | succ skip =>
      rw [lastFrom, lastFrom, ih, ih none _ _ (0 + 1)]
      cases lastFrom none skip (joins c) 0 text with
      | none => rfl
      | some found => simp only [hshift]
    | zero =>
      simp only [lastFrom]
      cases (if joined = true then none else read? (c :: text)) with
      | some header =>
        simp only
        rw [ih, ih (some (0, header)) _ _ (0 + 1)]
        cases lastFrom none (header.width - 1) (joins c) 0 text with
        | none => rfl
        | some found => simp only [hshift]
      | none =>
        simp only
        rw [ih, ih none _ _ (0 + 1)]
        cases lastFrom none 0 (joins c) 0 text with
        | none => rfl
        | some found => simp only [hshift]

/-- A search that begins at index one finds a header of the text one place further, or what was found before. -/
theorem lastFrom_one_eq_some {text : List Char} {skip start : Nat} {joined : Bool} {header : Header}
    {latest : Option (Nat × Header)} (h : lastFrom latest skip joined 1 text = some (start, header)) :
    (∃ behind, start = behind + 1 ∧ lastFrom none skip joined 0 text = some (behind, header)) ∨
      latest = some (start, header) := by
  rw [lastFrom_eq] at h
  cases hfound : lastFrom none skip joined 0 text with
  | none => exact .inr (by simpa only [hfound] using h)
  | some found =>
    simp only [hfound, Option.some.injEq, Prod.mk.injEq] at h
    refine .inl ⟨found.1, by omega, ?_⟩
    rw [← h.2]

/-- The last header is read at the place where it begins, and what begins there has no other. -/
theorem lastFrom_eq_some {text : List Char} {skip start : Nat} {joined : Bool} {header : Header}
    (h : lastFrom none skip joined 0 text = some (start, header)) :
    ∃ front back, text = front ++ back ∧ front.length = start ∧ read? back = some header ∧
      last? back = some (0, header) := by
  induction text generalizing skip joined start with
  | nil => exact absurd h (by simp [lastFrom])
  | cons c text ih =>
    have hlater : ∀ {skip behind : Nat}, start = behind + 1 →
        lastFrom none skip (joins c) 0 text = some (behind, header) →
        ∃ front back, c :: text = front ++ back ∧ front.length = start ∧ read? back = some header ∧
          last? back = some (0, header) := by
      intro skip behind hstart hfound
      obtain ⟨front, back, rfl, hlength, hread, hlast⟩ := ih hfound
      exact ⟨c :: front, back, rfl, by rw [List.length_cons, hlength, hstart], hread, hlast⟩
    cases skip with
    | succ skip =>
      rw [lastFrom] at h
      rcases lastFrom_one_eq_some h with ⟨behind, hstart, hfound⟩ | hnone
      · exact hlater hstart hfound
      · exact absurd hnone (by simp)
    | zero =>
      simp only [lastFrom] at h
      cases hread : (if joined = true then none else read? (c :: text)) with
      | none =>
        simp only [hread] at h
        rcases lastFrom_one_eq_some h with ⟨behind, hstart, hfound⟩ | hnone
        · exact hlater hstart hfound
        · exact absurd hnone (by simp)
      | some latest =>
        simp only [hread] at h
        rcases lastFrom_one_eq_some h with ⟨behind, hstart, hfound⟩ | hlatest
        · exact hlater hstart hfound
        · -- no header begins behind this one
          obtain ⟨rfl, rfl⟩ := Prod.mk.inj (Option.some.inj hlatest)
          have hhere : read? (c :: text) = some latest := by
            by_cases hjoined : joined = true
            · simp only [if_pos hjoined, reduceCtorEq] at hread
            · rwa [if_neg hjoined] at hread
          refine ⟨[], c :: text, rfl, rfl, hhere, ?_⟩
          simp only [last?, lastFrom, Bool.false_eq_true, if_false, hhere]
          exact h

theorem last?_eq_some {piece : List Char} {start : Nat} {header : Header} (h : last? piece = some (start, header)) :
    ∃ front back, piece = front ++ back ∧ front.length = start ∧ read? back = some header ∧
      last? back = some (0, header) :=
  lastFrom_eq_some h

end Header

end ContractMigration.Solidity
