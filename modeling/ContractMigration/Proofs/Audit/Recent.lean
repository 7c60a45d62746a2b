import ContractMigration.Proofs.Audit.ReadBack
import Mathlib.Data.List.DropRight

/-!
# The end of a log, read twice

The last lines are taken first, and those that are no entries are left out afterwards. So reading fewer lines gives
the last entries of reading more lines only sometimes: either each of the fewer lines is an entry, or none of the
lines in front of them is one (`reads_agree_iff`). A line that is no entry takes the place of an older one that is.
-/

namespace ContractMigration

/-! ### The last items of what is kept -/

section LastItems

variable {α β : Type} {count : Nat}

theorem rdrop_append_lastItems (count : Nat) (items : List α) :
    items.rdrop count ++ lastItems count items = items :=
  List.take_append_drop _ items

theorem length_lastItems (count : Nat) (items : List α) : (lastItems count items).length = min count items.length := by
  rw [lastItems, List.length_drop]
  omega

theorem lastItems_of_length_le {items : List α} (h : items.length ≤ count) : lastItems count items = items := by
  rw [lastItems, Nat.sub_eq_zero_of_le h, List.drop_zero]

theorem rdrop_of_length_le {items : List α} (h : items.length ≤ count) : items.rdrop count = [] := by
  rw [List.rdrop, Nat.sub_eq_zero_of_le h, List.take_zero]

theorem lastItems_lastItems {most : Nat} (h : count ≤ most) (items : List α) :
    lastItems count (lastItems most items) = lastItems count items := by
  rcases Nat.le_total items.length most with hfew | hmany
  · rw [lastItems_of_length_le hfew]
  · have hlength := length_lastItems most items
    conv_rhs => rw [← rdrop_append_lastItems most items]
    exact (lastItems_append (by omega) _).symm

/-- When the last items are taken of a list and then some of these left out, this is the end of what is left of the
whole list exactly when nothing is left out or nothing is left in front. -/
theorem filterMap_lastItems_iff (keep : α → Option β) (items : List α) :
    (lastItems count items).filterMap keep = lastItems count (items.filterMap keep) ↔
      (∀ x ∈ lastItems count items, (keep x).isSome = true) ∨ ∀ x ∈ items.rdrop count, keep x = none := by
  have hkept : items.filterMap keep = (items.rdrop count).filterMap keep ++ (lastItems count items).filterMap keep := by
    rw [← List.filterMap_append, rdrop_append_lastItems]
  have hlast : ((lastItems count items).filterMap keep).length ≤ (lastItems count items).length :=
    List.length_filterMap_le ..
  have hcount := length_lastItems count items
  have hself : lastItems count ((lastItems count items).filterMap keep) = (lastItems count items).filterMap keep :=
    lastItems_of_length_le (by omega)
  rw [hkept, ← List.filterMap_eq_nil_iff, ← List.filterMap_length_eq_length]
  constructor
  · intro hagree
    have hlength := congrArg List.length hagree
    rw [length_lastItems, List.length_append] at hlength
    by_cases hall : ((lastItems count items).filterMap keep).length = (lastItems count items).length
    · exact .inl hall
    · exact .inr (List.length_eq_zero_iff.1 (by omega))
  · rintro (hall | hfront)
    · rcases Nat.le_total items.length count with hfew | hmany
      · rw [rdrop_of_length_le hfew, List.filterMap_nil, List.nil_append, hself]
      · rw [lastItems_append (by omega), hself]
    · rw [hfront, List.nil_append, hself]

end LastItems

namespace AuditLog

/-! ### Lines of a log -/

/-- The entry on a line, if it is one within limits. -/
def entryWithin? (limits : Json.Limits) (line : List Char) : Option Json :=
  (Json.parseWithin limits line).toOption

/-- What is beyond the limits of a reader on a line, if anything is. -/
def excess? (limits : Json.Limits) (line : List Char) : Option Json.Excess :=
  match Json.parseWithin limits line with
  | .error (.beyond excess) => some excess
  | _ => none

/-- The last lines of a log that are not blank. -/
def lastLines (audit : AuditLog) (count : Int) : List (List Char) :=
  lastItems count.toNat (filledLines audit.file.content)

theorem readLines_eq_ok_iff {limits : Json.Limits} {lines : List (List Char)} {entries : List Json} :
    readLines limits lines = .ok entries ↔
      (∀ line ∈ lines, excess? limits line = none) ∧ lines.filterMap (entryWithin? limits) = entries := by
  induction lines generalizing entries with
  | nil => simp [readLines]
  | cons line rest ih =>
    rw [readLines, List.forall_mem_cons, List.filterMap_cons, excess?, entryWithin?]
    cases Json.parseWithin limits line with
    | ok entry =>
      cases hrest : readLines limits rest with
      | ok others =>
        obtain ⟨hwithin, hothers⟩ := ih.1 hrest
        simpa [Except.map, Except.toOption, hothers] using fun _ => hwithin
      | error refusal =>
        have hnone : ¬ ∀ line ∈ rest, excess? limits line = none := fun hwithin => by
          have hread := ih.2 ⟨hwithin, rfl⟩
          exact absurd (hrest.symm.trans hread) (by simp)
        simp [Except.map, hnone]
    | error fault =>
      cases fault with
      | stuck offset => simp [ih, Except.toOption]
      | beyond excess => simp

/-- When a log is read and what that gives. -/
theorem read_eq_ok_iff {audit : AuditLog} {count : Int} {entries : List Json} :
    audit.read count = .ok entries ↔
      (audit.file.content? = none ∨ count ≤ mostLines) ∧
        (∀ line ∈ audit.lastLines count, excess? audit.limits line = none) ∧
        (audit.lastLines count).filterMap (entryWithin? audit.limits) = entries := by
  rw [read, lastLines, LogFile.content]
  cases hcontent : audit.file.content? with
  | none => simp [filledLines, textLines, textLinesOnto, lastItems]
  | some content =>
    simp only [Option.getD_some, reduceCtorEq, false_or]
    by_cases hmost : mostLines < count
    · simp [hmost, Int.not_le.2 hmost]
    · rw [if_neg hmost, readLines_eq_ok_iff]
      simp [Int.not_lt.1 hmost]

/-- Reading the last lines of a log gives the last entries of reading more of its lines exactly when either each of
the last lines is an entry, or none of the others is one. Both readings give something exactly when the greater one
does. -/
theorem reads_agree_iff (audit : AuditLog) {count most : Int} (hle : count ≤ most) :
    (∀ few many, audit.read count = .ok few → audit.read most = .ok many →
        (few = lastItems count.toNat many ↔
          (∀ line ∈ audit.lastLines count, (entryWithin? audit.limits line).isSome = true) ∨
            ∀ line ∈ (audit.lastLines most).rdrop count.toNat, entryWithin? audit.limits line = none)) ∧
      ((∃ entries, audit.read most = .ok entries ∧ audit.read count = .ok (lastItems count.toNat entries)) ↔
        ((audit.file.content? = none ∨ most ≤ mostLines) ∧
            ∀ line ∈ audit.lastLines most, excess? audit.limits line = none) ∧
          ((∀ line ∈ audit.lastLines count, (entryWithin? audit.limits line).isSome = true) ∨
            ∀ line ∈ (audit.lastLines most).rdrop count.toNat, entryWithin? audit.limits line = none)) := by
  have hlast : audit.lastLines count = lastItems count.toNat (audit.lastLines most) :=
    (lastItems_lastItems (Int.toNat_le_toNat hle) _).symm
  constructor
  · intro few many hfew hmany
    obtain ⟨-, -, rfl⟩ := read_eq_ok_iff.1 hfew
    obtain ⟨-, -, rfl⟩ := read_eq_ok_iff.1 hmany
    rw [hlast]
    exact filterMap_lastItems_iff _ _
  rw [hlast, ← filterMap_lastItems_iff (entryWithin? audit.limits)]
  constructor
  · rintro ⟨entries, hmost, hcount⟩
    obtain ⟨hlines, hwithin, rfl⟩ := read_eq_ok_iff.1 hmost
    obtain ⟨-, -, hagree⟩ := read_eq_ok_iff.1 hcount
    rw [hlast] at hagree
    exact ⟨⟨hlines, hwithin⟩, hagree⟩
  · rintro ⟨⟨hlines, hwithin⟩, hagree⟩
    refine ⟨_, read_eq_ok_iff.2 ⟨hlines, hwithin, rfl⟩, read_eq_ok_iff.2 ⟨?_, ?_, ?_⟩⟩
    · exact hlines.imp_right (Int.le_trans hle)
    · rw [hlast]
      exact fun line hline => hwithin line (mem_of_mem_lastItems hline)
    · rw [hlast, hagree]

/-- A line that is no entry does no harm in front of the others, with blank lines between them. -/
theorem reads_agree_behind_malformed :
    let audit : AuditLog := { file := .text "not json\n\n[\"1\"]\r\n \n\"2\"".toList }
    audit.read 3 = .ok [.arr [.str "1"], .str "2"] ∧ audit.read 1 = .ok [.str "2"] ∧
      ∃ entries, audit.read 3 = .ok entries ∧ audit.read 1 = .ok (lastItems 1 entries) := by
  intro audit
  have hlines : audit.lastLines 3 = ["not json".toList, "[\"1\"]".toList, "\"2\"".toList] := by decide +kernel
  have hone : audit.lastLines 1 = ["\"2\"".toList] := by decide +kernel
  have hwithin : ∀ line ∈ audit.lastLines 3, excess? .guarded line = none := by
    rw [hlines]
    decide +kernel
  have hentries : (audit.lastLines 3).filterMap (entryWithin? .guarded) = [.arr [.str "1"], .str "2"] := by
    have hjunk : entryWithin? .guarded "not json".toList = none := by decide +kernel
    rw [hlines, List.filterMap_cons_none hjunk]
    cbv
  have hentry : ∀ line ∈ audit.lastLines 1, (entryWithin? .guarded line).isSome = true := by
    rw [hone]
    decide +kernel
  have hall : audit.read 3 = .ok [.arr [.str "1"], .str "2"] :=
    read_eq_ok_iff.2 ⟨.inr (by decide), hwithin, hentries⟩
  obtain ⟨-, hread⟩ := reads_agree_iff audit (show (1 : Int) ≤ 3 by decide)
  obtain ⟨entries, hmany, hfew⟩ := hread.2 ⟨⟨.inr (by decide), hwithin⟩, .inl hentry⟩
  obtain rfl := Except.ok.inj (hmany.symm.trans hall)
  exact ⟨hall, hfew, _, hall, hfew⟩

/-- A line behind an entry that is none takes its place. -/
theorem reads_differ_before_malformed :
    let audit : AuditLog := { file := .text "\x7b\"analysis_id\": \"1\"\x7d\nnot json\n".toList }
    let entry := Json.obj [("analysis_id", .str "1")]
    audit.read 2 = .ok [entry] ∧ audit.read 1 = .ok [] ∧ lastItems 1 [entry] = [entry] := by
  intro audit entry
  have htwo : audit.lastLines 2 = ["\x7b\"analysis_id\": \"1\"\x7d".toList, "not json".toList] := by decide +kernel
  have hone : audit.lastLines 1 = ["not json".toList] := by decide +kernel
  have hentry : entryWithin? .guarded "\x7b\"analysis_id\": \"1\"\x7d".toList = some entry := by cbv
  have hjunk : entryWithin? .guarded "not json".toList = none := by decide +kernel
  refine ⟨read_eq_ok_iff.2 ⟨.inr (by decide), ?_, ?_⟩, read_eq_ok_iff.2 ⟨.inr (by decide), ?_, ?_⟩, rfl⟩
  · rw [htwo]
    decide +kernel
  · rw [htwo, List.filterMap_cons_some hentry, List.filterMap_cons_none hjunk]
    rfl
  · rw [hone]
    decide +kernel
  · rw [hone, List.filterMap_cons_none hjunk]
    rfl

end AuditLog

end ContractMigration
