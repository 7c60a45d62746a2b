import ContractMigration.Checklist.Basic
import Mathlib.Algebra.BigOperators.Group.List.Basic
import Mathlib.Algebra.Ring.Nat
import Mathlib.Data.List.Basic
import Mathlib.Data.List.Induction
import Mathlib.Data.List.Nodup

/-!
# The tallies of sections

The items of a checklist are counted one by one, each in the tally of its section. Main statement: whatever the items
are, every section that occurs gets one tally, in the order in which the sections occur first, and its numbers are
those of its items (`counted_sectionsOf`). One more item either goes into a tally that is there or opens one behind
all others (`countIn_cases`), and in both cases the tallies stay right.
-/

namespace ContractMigration.Checklist

variable {items : List NumberedTask} {item : NumberedTask} {tallies : List SectionTally}

/-- The items of a section. -/
def ofSection (items : List NumberedTask) (name : String) : List NumberedTask :=
  items.filter fun item => item.sectionName == name

theorem ofSection_concat_self (items : List NumberedTask) (item : NumberedTask) :
    ofSection (items ++ [item]) item.sectionName = ofSection items item.sectionName ++ [item] := by
  simp [ofSection]

theorem ofSection_concat_of_ne {name : String} (h : name ≠ item.sectionName) (items : List NumberedTask) :
    ofSection (items ++ [item]) name = ofSection items name := by
  simp [ofSection, h.symm]

theorem ofSection_eq_nil {name : String} (h : name ∉ items.map NumberedTask.sectionName) :
    ofSection items name = [] := by
  rw [ofSection, List.filter_eq_nil_iff]
  intro item hmem hname
  exact h (List.mem_map.2 ⟨item, hmem, beq_iff_eq.1 hname⟩)

theorem checkedCount_concat (items : List NumberedTask) (item : NumberedTask) :
    checkedCount (items ++ [item]) = checkedCount items + item.checked.toNat := by
  rw [checkedCount, List.countP_append, List.countP_singleton]
  cases item.checked <;> rfl

/-- Tallies count items section by section. -/
structure Counted (items : List NumberedTask) (tallies : List SectionTally) : Prop where
  once : (tallies.map SectionTally.sectionName).Nodup
  occurs : ∀ name, name ∈ tallies.map SectionTally.sectionName ↔ name ∈ items.map NumberedTask.sectionName
  /-- The sections stand in the order in which they occur first. -/
  order : (tallies.map SectionTally.sectionName).Pairwise fun left right =>
    (items.map NumberedTask.sectionName).idxOf left < (items.map NumberedTask.sectionName).idxOf right
  total : ∀ tally ∈ tallies, tally.total = (ofSection items tally.sectionName).length
  done : ∀ tally ∈ tallies, tally.done = checkedCount (ofSection items tally.sectionName)
  totals : (tallies.map SectionTally.total).sum = items.length
  dones : (tallies.map SectionTally.done).sum = checkedCount items

theorem Counted.nil : Counted [] [] where
  once := List.nodup_nil
  occurs _ := Iff.rfl
  order := List.Pairwise.nil
  total _ hmem := absurd hmem List.not_mem_nil
  done _ hmem := absurd hmem List.not_mem_nil
  totals := rfl
  dones := rfl

/-- An item is counted in the tally of its section, or in a new one behind the others. -/
theorem countIn_cases (item : NumberedTask) (tallies : List SectionTally) :
    (∃ front tally back, tallies = front ++ tally :: back ∧ tally.sectionName = item.sectionName ∧
      countIn item tallies =
        front ++ { tally with done := tally.done + item.checked.toNat, total := tally.total + 1 } :: back) ∨
    (item.sectionName ∉ tallies.map SectionTally.sectionName ∧
      countIn item tallies = tallies ++ [⟨item.sectionName, item.checked.toNat, 1⟩]) := by
  induction tallies with
  | nil => exact .inr ⟨List.not_mem_nil, rfl⟩
  | cons tally rest ih =>
    by_cases hname : tally.sectionName = item.sectionName
    · exact .inl ⟨[], tally, rest, rfl, hname, by simp [countIn, hname]⟩
    · rcases ih with ⟨front, own, back, rfl, hown, heq⟩ | ⟨hnew, heq⟩
      · exact .inl ⟨tally :: front, own, back, rfl, hown, by simp [countIn, hname, heq]⟩
      · refine .inr ⟨?_, by simp [countIn, hname, heq]⟩
        rw [List.map_cons, List.mem_cons, not_or]
        exact ⟨Ne.symm hname, hnew⟩

/-- Sections that occur already keep their order when items follow. -/
theorem Counted.order_concat (h : Counted items tallies) (item : NumberedTask) :
    (tallies.map SectionTally.sectionName).Pairwise fun left right =>
      ((items ++ [item]).map NumberedTask.sectionName).idxOf left <
        ((items ++ [item]).map NumberedTask.sectionName).idxOf right := by
  refine h.order.imp_of_mem fun hleft hright hlt => ?_
  rw [List.map_append, List.idxOf_append_of_mem ((h.occurs _).1 hleft),
    List.idxOf_append_of_mem ((h.occurs _).1 hright)]
  exact hlt

/-- Tallies stay right when one more item goes into a tally that is there. -/
theorem Counted.counted_in_tally {front back : List SectionTally} {own : SectionTally}
    (h : Counted items (front ++ own :: back)) (hown : own.sectionName = item.sectionName) :
    Counted (items ++ [item])
      (front ++ { own with done := own.done + item.checked.toNat, total := own.total + 1 } :: back) := by
  have horder := h.order_concat item
  have hothers : ∀ tally ∈ front ++ back, tally.sectionName ≠ item.sectionName := by
    have honce := h.once
    rw [List.map_append, List.map_cons, List.nodup_middle, ← List.map_append, List.nodup_cons, hown] at honce
    exact fun tally hmem hname => honce.1 (List.mem_map.2 ⟨tally, hmem, hname⟩)
  have hkept : ∀ tally ∈ front ++ back, tally ∈ front ++ own :: back := fun tally hmem =>
    List.perm_middle.mem_iff.2 (List.mem_cons_of_mem own hmem)
  have hmem : own ∈ front ++ own :: back := List.mem_append_right front List.mem_cons_self
  constructor
  case once => simpa using h.once
  case order => simpa using horder
  case occurs =>
    intro name
    have hold := h.occurs name
    have hitem := (h.occurs own.sectionName).1 (List.mem_map_of_mem hmem)
    simp only [List.map_append, List.map_cons, List.map_nil] at hold ⊢
    rw [hold, List.mem_append, List.mem_singleton, iff_self_or]
    rintro rfl
    exact hown ▸ hitem
  case total =>
    intro tally htally
    rcases List.mem_cons.1 (List.perm_middle.mem_iff.1 htally) with rfl | hother
    · rw [hown, ofSection_concat_self, List.length_append, ← hown, ← h.total own hmem]
      rfl
    · rw [ofSection_concat_of_ne (hothers tally hother), h.total tally (hkept tally hother)]
  case done =>
    intro tally htally
    rcases List.mem_cons.1 (List.perm_middle.mem_iff.1 htally) with rfl | hother
    · rw [hown, ofSection_concat_self, checkedCount_concat, ← hown, ← h.done own hmem]
    · rw [ofSection_concat_of_ne (hothers tally hother), h.done tally (hkept tally hother)]
  case totals =>
    have hsum := h.totals
    simp only [List.map_append, List.map_cons, List.sum_append, List.sum_cons, List.length_append,
      List.length_singleton] at hsum ⊢
    omega
  case dones =>
    have hsum := h.dones
    rw [checkedCount_concat]
    simp only [List.map_append, List.map_cons, List.sum_append, List.sum_cons] at hsum ⊢
    omega

/-- Tallies stay right when one more item opens a tally behind the others. -/
theorem Counted.counted_in_new_tally (h : Counted items tallies)
    (hnew : item.sectionName ∉ tallies.map SectionTally.sectionName) :
    Counted (items ++ [item]) (tallies ++ [⟨item.sectionName, item.checked.toNat, 1⟩]) := by
  have horder := h.order_concat item
  have hfresh : item.sectionName ∉ items.map NumberedTask.sectionName := fun hmem => hnew ((h.occurs _).2 hmem)
  have hothers : ∀ tally ∈ tallies, tally.sectionName ≠ item.sectionName := fun tally hmem hname =>
    hnew (List.mem_map.2 ⟨tally, hmem, hname⟩)
  constructor
  case once =>
    rw [List.map_append, List.map_singleton, ← List.concat_eq_append, List.nodup_concat]
    exact ⟨hnew, h.once⟩
  case order =>
    rw [List.map_append] at horder ⊢
    rw [List.map_append, List.pairwise_append]
    refine ⟨horder, List.pairwise_singleton .., fun left hleft right hright => ?_⟩
    rw [List.mem_singleton.1 hright, List.idxOf_append_of_mem ((h.occurs left).1 hleft),
      List.idxOf_append_of_notMem hfresh]
    exact Nat.lt_of_lt_of_le (List.idxOf_lt_length_of_mem ((h.occurs left).1 hleft)) (Nat.le_add_right ..)
  case occurs =>
    intro name
    rw [List.map_append, List.map_append, List.mem_append, List.mem_append, h.occurs name]
    rfl
  case total =>
    intro tally htally
    rcases List.mem_append.1 htally with hother | hown
    · rw [ofSection_concat_of_ne (hothers tally hother), h.total tally hother]
    · rw [List.mem_singleton.1 hown, ofSection_concat_self, ofSection_eq_nil hfresh]
      rfl
  case done =>
    intro tally htally
    rcases List.mem_append.1 htally with hother | hown
    · rw [ofSection_concat_of_ne (hothers tally hother), h.done tally hother]
    · rw [List.mem_singleton.1 hown, ofSection_concat_self, checkedCount_concat, ofSection_eq_nil hfresh]
      exact (Nat.zero_add _).symm
  case totals =>
    rw [List.map_append, List.sum_append, h.totals, List.length_append]
    rfl
  case dones =>
    rw [List.map_append, List.sum_append, h.dones, checkedCount_concat]
    rfl

theorem Counted.countIn (h : Counted items tallies) (item : NumberedTask) :
    Counted (items ++ [item]) (countIn item tallies) := by
  rcases countIn_cases item tallies with ⟨front, own, back, rfl, hown, heq⟩ | ⟨hnew, heq⟩
  · exact heq ▸ h.counted_in_tally hown
  · exact heq ▸ h.counted_in_new_tally hnew

/-- Counting the items one by one gives each section its tally. -/
theorem counted_sectionsOf (items : List NumberedTask) : Counted items (sectionsOf items) := by
  -- from the end, since the loop goes from the front and each round adds the item behind all others
  induction items using List.reverseRecOn with
  | nil => exact Counted.nil
  | append_singleton items item ih =>
    rw [sectionsOf, List.foldl_concat]
    exact ih.countIn item

end ContractMigration.Checklist
