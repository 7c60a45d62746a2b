import ContractMigration.Analysis.Facts
import ContractMigration.Proofs.Text.Case
import Mathlib.Data.List.Flatten
import Mathlib.Data.List.Perm.Subperm

/-!
# What the facts about a file depend on

The facts see the contracts as four heaps of members: which contract a member belongs to and where it stands plays no
part. With more members in each heap, or more text, flags are only ever set and the complexity only rises
(`factsOf_atMost`). Heaps that are the same either way give the same facts, so the order of contracts and of their
members does not matter, and nothing that is added anywhere takes a fact away (`facts_unordered_and_growing`).
-/

namespace ContractMigration

open Text

/-! ### The order of facts -/

/-- The place of a complexity in the order low, medium, high. -/
def Complexity.rank : Complexity → Nat
  | low => 0
  | medium => 1
  | high => 2

theorem Complexity.rank_injective : Function.Injective Complexity.rank := by
  intro left right h
  cases left <;> cases right <;> first | rfl | exact absurd h (by decide)

theorem Complexity.rank_ofCounts_le {functions functions' fields fields' : Int} (hf : functions ≤ functions')
    (hv : fields ≤ fields') :
    (Complexity.ofCounts functions fields).rank ≤ (Complexity.ofCounts functions' fields').rank := by
  unfold Complexity.ofCounts
  split_ifs <;> first | decide | omega

/-- Each flag that is set in some facts is set in others, and the complexity there is no lower. -/
structure FileFacts.AtMost (facts larger : FileFacts) : Prop where
  isErc20 : facts.isErc20 = true → larger.isErc20 = true
  isErc721 : facts.isErc721 = true → larger.isErc721 = true
  hasOwnable : facts.hasOwnable = true → larger.hasOwnable = true
  hasAccessControl : facts.hasAccessControl = true → larger.hasAccessControl = true
  hasMappings : facts.hasMappings = true → larger.hasMappings = true
  hasEvents : facts.hasEvents = true → larger.hasEvents = true
  complexity : facts.complexity.rank ≤ larger.complexity.rank

/-- Facts that are bounded by each other agree, up to the number of lines. -/
theorem FileFacts.AtMost.antisymm {facts other : FileFacts} (h : facts.AtMost other) (hback : other.AtMost facts)
    (hlines : facts.lineCount = other.lineCount) : facts = other := by
  cases facts
  cases other
  simp only [FileFacts.mk.injEq]
  exact ⟨Bool.eq_iff_iff.2 ⟨h.isErc20, hback.isErc20⟩, Bool.eq_iff_iff.2 ⟨h.isErc721, hback.isErc721⟩,
    Bool.eq_iff_iff.2 ⟨h.hasOwnable, hback.hasOwnable⟩,
    Bool.eq_iff_iff.2 ⟨h.hasAccessControl, hback.hasAccessControl⟩,
    Bool.eq_iff_iff.2 ⟨h.hasMappings, hback.hasMappings⟩, Bool.eq_iff_iff.2 ⟨h.hasEvents, hback.hasEvents⟩,
    Complexity.rank_injective (Nat.le_antisymm h.complexity hback.complexity), hlines⟩

/-! ### Heaps of members -/

/-- The members of some contracts are among those of others, each as often, in whichever contracts and places. -/
structure MembersWithin (contracts larger : List Contract) : Prop where
  bases : (contracts.flatMap Contract.bases).Subperm (larger.flatMap Contract.bases)
  stateVariables : (contracts.flatMap Contract.stateVariables).Subperm (larger.flatMap Contract.stateVariables)
  functions : (contracts.flatMap Contract.functions).Subperm (larger.flatMap Contract.functions)
  events : (contracts.flatMap Contract.events).Subperm (larger.flatMap Contract.events)

theorem membersWithin_of_sublist {contracts larger : List Contract} (h : contracts.Sublist larger) :
    MembersWithin contracts larger :=
  ⟨(h.flatMap _).subperm, (h.flatMap _).subperm, (h.flatMap _).subperm, (h.flatMap _).subperm⟩

/-- The names of all functions, in lower case. -/
def functionNames (contracts : List Contract) : List (List Char) :=
  contracts.flatMap fun contract => contract.functions.map fun function => lower function.name.toList

/-- The names of all bases, in lower case. -/
def baseNames (contracts : List Contract) : List (List Char) :=
  contracts.flatMap fun contract => contract.bases.map fun base => lower base.toList

theorem any_events (contracts : List Contract) :
    (contracts.any fun contract => !contract.events.isEmpty) = true ↔ contracts.flatMap Contract.events ≠ [] := by
  simp

theorem occursIn_append {piece text : List Char} (h : occursIn piece text = true) (more : List Char) :
    occursIn piece (text ++ more) = true := by
  rw [occursIn_iff] at h ⊢
  exact h.trans (List.prefix_append _ _).isInfix

namespace MembersWithin

variable {contracts larger : List Contract} (h : MembersWithin contracts larger)
include h

theorem functionNames_subset : functionNames contracts ⊆ functionNames larger := by
  rw [functionNames, functionNames, ← List.map_flatMap, ← List.map_flatMap]
  exact List.map_subset _ h.functions.subset

theorem contains_functionNames {name : List Char} (hname : (functionNames contracts).contains name = true) :
    (functionNames larger).contains name = true := by
  rw [List.contains_iff_mem] at hname ⊢
  exact h.functionNames_subset hname

theorem baseNames_subset : baseNames contracts ⊆ baseNames larger := by
  rw [baseNames, baseNames, ← List.map_flatMap, ← List.map_flatMap]
  exact List.map_subset _ h.bases.subset

theorem functionCount_le : functionCount contracts ≤ functionCount larger := by
  rw [functionCount, functionCount, ← List.filter_flatMap, ← List.filter_flatMap]
  exact (h.functions.filter _).length_le

theorem any_events_of_any_events (hevents : (contracts.any fun contract => !contract.events.isEmpty) = true) :
    (larger.any fun contract => !contract.events.isEmpty) = true := by
  rw [any_events] at hevents ⊢
  intro hnone
  have hwithin := h.events
  rw [hnone, List.subperm_nil] at hwithin
  exact hevents hwithin

/-- More members in more text: no flag is lost, and the complexity is no lower. -/
theorem factsOf_atMost (source more : List Char) :
    (factsOf contracts source).AtMost (factsOf larger (source ++ more)) where
  isErc20 := by
    simp only [factsOf, List.all_eq_true]
    exact fun hnames name hname => h.contains_functionNames (hnames name hname)
  isErc721 := by
    simp only [factsOf, Bool.or_eq_true]
    exact Or.imp h.contains_functionNames fun htext => occursIn_lower_append (by decide) htext more
  hasOwnable := by
    simp only [factsOf, Bool.or_eq_true, List.any_eq_true]
    refine Or.imp ?_ fun htext => occursIn_lower_append (by decide) htext more
    exact fun ⟨base, hbase, hname⟩ => ⟨base, h.baseNames_subset hbase, hname⟩
  hasAccessControl := by
    simp only [factsOf, Bool.or_eq_true]
    exact Or.imp (fun htext => occursIn_lower_append (by decide) htext more)
      fun htext => occursIn_lower_append (by decide) htext more
  hasMappings hfact := occursIn_append hfact more
  hasEvents := h.any_events_of_any_events
  complexity :=
    Complexity.rank_ofCounts_le (Int.ofNat_le.2 h.functionCount_le) (Int.ofNat_le.2 h.stateVariables.length_le)

end MembersWithin

/-- The facts depend on the heaps of members alone. -/
theorem factsOf_eq_of_membersWithin {contracts other : List Contract} (h : MembersWithin contracts other)
    (hback : MembersWithin other contracts) (source : List Char) : factsOf other source = factsOf contracts source := by
  have hforth := h.factsOf_atMost source []
  have hback := hback.factsOf_atMost source []
  rw [List.append_nil] at hforth hback
  exact hback.antisymm hforth rfl

/-! ### Contracts in another order, and contracts with more in them -/

/-- Two contracts have the same members, each list of them in some order. -/
structure Contract.SameMembers (contract other : Contract) : Prop where
  bases : contract.bases.Perm other.bases
  stateVariables : contract.stateVariables.Perm other.stateVariables
  functions : contract.functions.Perm other.functions
  events : contract.events.Perm other.events

/-- The members of a contract are members of another in the same order, with others added anywhere between them. -/
structure Contract.AddedTo (contract larger : Contract) : Prop where
  bases : contract.bases.Sublist larger.bases
  stateVariables : contract.stateVariables.Sublist larger.stateVariables
  functions : contract.functions.Sublist larger.functions
  events : contract.events.Sublist larger.events

/-- Contracts in some order, with the members of each in some order. -/
def Reordered (contracts other : List Contract) : Prop :=
  ∃ moved, contracts.Perm moved ∧ List.Forall₂ Contract.SameMembers moved other

/-- Contracts with members added to each, and with other contracts added anywhere between them. -/
def Extended (contracts larger : List Contract) : Prop :=
  ∃ kept, List.Forall₂ Contract.AddedTo contracts kept ∧ kept.Sublist larger

theorem flatMap_perm_of_forall₂ {α : Type} {members : Contract → List α} {contracts other : List Contract}
    (h : List.Forall₂ (fun contract other => (members contract).Perm (members other)) contracts other) :
    (contracts.flatMap members).Perm (other.flatMap members) := by
  induction h with
  | nil => exact .nil
  | cons hfirst _ ih =>
    rw [List.flatMap_cons, List.flatMap_cons]
    exact hfirst.append ih

theorem flatMap_sublist_of_forall₂ {α : Type} {members : Contract → List α} {contracts kept : List Contract}
    (h : List.Forall₂ (fun contract larger => (members contract).Sublist (members larger)) contracts kept) :
    (contracts.flatMap members).Sublist (kept.flatMap members) := by
  induction h with
  | nil => exact .slnil
  | cons hfirst _ ih =>
    rw [List.flatMap_cons, List.flatMap_cons]
    exact hfirst.append ih

/-- In another order each heap is the same. -/
theorem Reordered.perm {α : Type} {members : Contract → List α} {contracts other : List Contract}
    (h : Reordered contracts other)
    (hmembers : ∀ contract other, contract.SameMembers other → (members contract).Perm (members other)) :
    (contracts.flatMap members).Perm (other.flatMap members) := by
  obtain ⟨moved, hmoved, hsame⟩ := h
  have hfirst : (contracts.flatMap members).Perm (moved.flatMap members) :=
    hmoved.flatMap fun _ _ => List.Perm.refl _
  exact hfirst.trans (flatMap_perm_of_forall₂ (hsame.imp hmembers))

theorem Extended.subperm {α : Type} {members : Contract → List α} {contracts larger : List Contract}
    (h : Extended contracts larger)
    (hmembers : ∀ contract larger, contract.AddedTo larger → (members contract).Sublist (members larger)) :
    (contracts.flatMap members).Subperm (larger.flatMap members) := by
  obtain ⟨kept, hadded, hkept⟩ := h
  exact ((flatMap_sublist_of_forall₂ (hadded.imp hmembers)).trans (hkept.flatMap members)).subperm

theorem Reordered.membersWithin {contracts other : List Contract} (h : Reordered contracts other) :
    MembersWithin contracts other ∧ MembersWithin other contracts := by
  have hbases := h.perm fun _ _ => Contract.SameMembers.bases
  have hvariables := h.perm fun _ _ => Contract.SameMembers.stateVariables
  have hfunctions := h.perm fun _ _ => Contract.SameMembers.functions
  have hevents := h.perm fun _ _ => Contract.SameMembers.events
  exact ⟨⟨hbases.subperm, hvariables.subperm, hfunctions.subperm, hevents.subperm⟩,
    ⟨hbases.symm.subperm, hvariables.symm.subperm, hfunctions.symm.subperm, hevents.symm.subperm⟩⟩

theorem Extended.membersWithin {contracts larger : List Contract} (h : Extended contracts larger) :
    MembersWithin contracts larger where
  bases := h.subperm fun _ _ => Contract.AddedTo.bases
  stateVariables := h.subperm fun _ _ => Contract.AddedTo.stateVariables
  functions := h.subperm fun _ _ => Contract.AddedTo.functions
  events := h.subperm fun _ _ => Contract.AddedTo.events

/-- The order of contracts and of their members has no part in the facts about a file. With contracts or members added
anywhere and text added at the end, every flag stays set and the complexity does not fall. -/
theorem facts_unordered_and_growing (contracts other : List Contract) (source more : List Char) :
    (Reordered contracts other → factsOf other source = factsOf contracts source) ∧
      (Extended contracts other → (factsOf contracts source).AtMost (factsOf other (source ++ more))) := by
  refine ⟨fun hreordered => ?_, fun hextended => ?_⟩
  · obtain ⟨hforth, hback⟩ := hreordered.membersWithin
    exact factsOf_eq_of_membersWithin hforth hback source
  · exact hextended.membersWithin.factsOf_atMost source more

/-- A token in two parts, in another order, and with the rest of a larger file around it. The sigma at the end of the
text is a final one until the text goes on. -/
theorem facts_unordered_and_growing_token :
    let transfer : Signature := { name := "transfer" }
    let approve : Signature := { name := "Approve" }
    let transferFrom : Signature := { name := "transferFrom" }
    let limited : Signature := { name := "limited", isModifier := true }
    let token : Contract :=
      { name := "Token", bases := ["IOwnable", "IToken"], functions := [transfer, limited, approve] }
    let spender : Contract := { name := "Spender", functions := [transferFrom], events := [{ name := "Spent" }] }
    let turned : Contract := { token with bases := ["IToken", "IOwnable"], functions := [approve, transfer, limited] }
    let library : Contract := { name := "Math", kind := .library }
    let longer : Contract := { spender with
      stateVariables := List.replicate 11 { name := "slot", typeName := "uint256" }
      functions := [limited, transferFrom, limited] }
    let source := "// ΤΕΛΟΣ".toList
    let facts : FileFacts := { isErc20 := true, hasOwnable := true, hasEvents := true, lineCount := 1 }
    factsOf [token, spender] source = facts ∧ factsOf [spender, turned] source = facts ∧
      facts.AtMost (factsOf [library, token, longer] (source ++ "Α mapping(".toList)) := by
  intro transfer approve transferFrom limited token spender turned library longer source facts
  have hfacts : factsOf [token, spender] source = facts := by decide +kernel
  have hturned : token.SameMembers turned := ⟨.swap .., .refl _, by decide, .refl _⟩
  have hlonger : spender.AddedTo longer := ⟨.slnil, List.nil_sublist _, by decide, .refl _⟩
  have hreordered : Reordered [token, spender] [spender, turned] :=
    ⟨[spender, token], .swap .., .cons ⟨.refl _, .refl _, .refl _, .refl _⟩ (.cons hturned .nil)⟩
  have hextended : Extended [token, spender] [library, token, longer] :=
    ⟨[token, longer], .cons ⟨.refl _, .refl _, .refl _, .refl _⟩ (.cons hlonger .nil), .cons _ (.refl _)⟩
  refine ⟨hfacts, ?_, ?_⟩
  · rw [(facts_unordered_and_growing _ _ source []).1 hreordered, hfacts]
  · rw [← hfacts]
    exact (facts_unordered_and_growing _ _ source _).2 hextended

end ContractMigration
