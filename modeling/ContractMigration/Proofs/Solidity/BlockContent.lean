import ContractMigration.Proofs.Solidity.Member
import ContractMigration.Solidity.Extraction
import Mathlib.Data.List.Forall2

/-!
# What stands in a block

A block with balanced braces leaves the walk where it found it, up to the member that its opening brace ends
(`foldl_step_braces`). Its content has no say in how the text behind it is read, however badly that text or the one in
front of the block is formed.

So two bodies that differ in the content of one block have the same members, and with them the same signatures and
events (`readAlike_of_block`). Their variables are declared by the same statements; only what the whole body is asked
for, whether a name touches `constant` or `immutable` somewhere, may come out differently.
-/

namespace ContractMigration.Solidity

/-! ### The walk past a block -/

namespace MemberWalk

/-- The walk behind a text with which a body begins. -/
def after (text : List Char) : MemberWalk :=
  text.foldl step {}

/-- Whether a brace opens a block here: in a block it always does, outside all blocks only when no parenthesis is
open. -/
def OpensBlock (walk : MemberWalk) : Prop :=
  walk.depth ≠ 0 ∨ walk.parens = 0

instance (walk : MemberWalk) : Decidable walk.OpensBlock :=
  inferInstanceAs (Decidable (walk.depth ≠ 0 ∨ walk.parens = 0))

/-- The walk behind a block that opens here. -/
def pastBlock (walk : MemberWalk) : MemberWalk :=
  if walk.depth = 0 then { walk with pending := [], done := walk.endMember .block } else walk

/-- A balanced text in a block changes nothing. -/
theorem foldl_step_balanced {walk : MemberWalk} (hdepth : walk.depth ≠ 0) {content : List Char}
    (hcontent : Balanced '\x7b' '\x7d' content) : content.foldl step walk = walk := by
  obtain ⟨depth, parens, pending, done⟩ := walk
  obtain ⟨depth, rfl⟩ := Nat.exists_eq_succ_of_ne_zero hdepth
  have hfront : ∀ front, front <+: content → front.count '\x7d' ≤ depth + front.count '\x7b' := by
    intro front hfront
    have := hcontent.front_le front hfront
    omega
  rw [foldl_step_block hfront, hcontent.total, Nat.add_sub_cancel]

theorem foldl_step_braces {walk : MemberWalk} (hopens : walk.OpensBlock) {content : List Char}
    (hcontent : Balanced '\x7b' '\x7d' content) (rest : List Char) :
    ('\x7b' :: (content ++ '\x7d' :: rest)).foldl step walk = rest.foldl step walk.pastBlock := by
  obtain ⟨depth, parens, pending, done⟩ := walk
  rw [List.foldl_cons, List.foldl_append]
  cases depth with
  | zero =>
    obtain rfl : parens = 0 := hopens.resolve_left fun hdepth => hdepth rfl
    have hopened : step ⟨0, 0, pending, done⟩ '\x7b' = ⟨1, 0, [], (MemberWalk.mk 0 0 pending done).endMember .block⟩ :=
      rfl
    rw [hopened, foldl_step_balanced Nat.one_ne_zero hcontent]
    rfl
  | succ depth =>
    have hopened : step ⟨depth + 1, parens, pending, done⟩ '\x7b' = ⟨depth + 2, parens, pending, done⟩ := rfl
    rw [hopened, foldl_step_balanced (Nat.succ_ne_zero _) hcontent]
    rfl

theorem after_block {front content : List Char} (hfront : (after front).OpensBlock)
    (hcontent : Balanced '\x7b' '\x7d' content) (rest : List Char) :
    after (front ++ '\x7b' :: (content ++ '\x7d' :: rest)) = rest.foldl step (after front).pastBlock := by
  rw [after, List.foldl_append]
  exact foldl_step_braces hfront hcontent rest

end MemberWalk

theorem members_eq (body : List Char) : members body = (MemberWalk.after body).done.reverse := rfl

/-! ### Variables of the same statement -/

/-- Two records of one declaration, read in two bodies: a flag can only differ when the bodies disagree about the name
and the keyword. -/
structure SameDeclaration (left right : Fixings) (one other : StateVariable) : Prop where
  name : one.name = other.name
  typeName : one.typeName = other.typeName
  visibility : one.visibility = other.visibility
  isConstant : left.constants.adjoins one.name.toList = right.constants.adjoins one.name.toList →
    one.isConstant = other.isConstant
  isImmutable : left.immutables.adjoins one.name.toList = right.immutables.adjoins one.name.toList →
    one.isImmutable = other.isImmutable

theorem sameDeclaration_variableRecord (left right : Fixings) (typeName : List Char) (modifiers : List (List Char))
    (name : List Char) :
    SameDeclaration left right (variableRecord left typeName modifiers name)
      (variableRecord right typeName modifiers name) where
  name := rfl
  typeName := rfl
  visibility := rfl
  isConstant h := by
    simp only [variableRecord, String.toList_ofList] at h ⊢
    rw [h]
  isImmutable h := by
    simp only [variableRecord, String.toList_ofList] at h ⊢
    rw [h]

/-- What a statement declares does not depend on the body it stands in. -/
theorem readVariable_cases (text : List Char) :
    (∀ fixings, readVariable fixings text = none) ∨
      ∃ typeName modifiers name, ∀ fixings,
        readVariable fixings text = some (variableRecord fixings typeName modifiers name) := by
  unfold readVariable
  by_cases hfunction : headWord text = "function".toList
  · simp only [if_pos hfunction]
    cases hsplit : splitFunctionVariable text with
    | none => exact .inl fun _ => rfl
    | some found => exact .inr ⟨found.1, found.2.1, found.2.2, fun _ => rfl⟩
  · simp only [if_neg hfunction]
    by_cases hword : nonVariableWords.contains (headWord text) = true
    · exact .inl fun _ => if_pos hword
    · simp only [if_neg hword]
      cases readType text with
      | none => exact .inl fun _ => rfl
      | some found =>
        obtain ⟨typeName, rest⟩ := found
        cases hdeclarator : splitDeclarator rest with
        | none => exact .inl fun _ => by simp only [hdeclarator, Option.map_none]
        | some declarator =>
          refine .inr ⟨typeName, declarator.1, declarator.2, fun _ => ?_⟩
          simp only [hdeclarator, Option.map_some]

theorem Member.readVariable_cases (member : Member) :
    (∀ fixings, member.readVariable fixings = none) ∨
      ∃ typeName modifiers name, ∀ fixings,
        member.readVariable fixings = some (variableRecord fixings typeName modifiers name) := by
  obtain ⟨text, ending⟩ := member
  cases ending with
  | block => exact .inl fun _ => rfl
  | statement => exact Solidity.readVariable_cases text

theorem forall₂_readVariable (left right : Fixings) (found : List Member) :
    List.Forall₂ (SameDeclaration left right) (found.filterMap (Member.readVariable left))
      (found.filterMap (Member.readVariable right)) := by
  induction found with
  | nil => exact .nil
  | cons member rest ih =>
    rcases member.readVariable_cases with hnone | ⟨typeName, modifiers, name, hsome⟩
    · rwa [List.filterMap_cons_none (hnone left), List.filterMap_cons_none (hnone right)]
    · rw [List.filterMap_cons_some (hsome left), List.filterMap_cons_some (hsome right)]
      exact .cons (sameDeclaration_variableRecord left right typeName modifiers name) ih

/-! ### Bodies that differ in a block -/

/-- Two bodies in which the same is read, up to what the keywords `constant` and `immutable` stand next to. -/
structure ReadAlike (left right : List Char) : Prop where
  members : Solidity.members left = Solidity.members right
  signatures : Solidity.signatures left = Solidity.signatures right
  events : Solidity.events left = Solidity.events right
  stateVariables : List.Forall₂ (SameDeclaration (.ofText left) (.ofText right)) (Solidity.stateVariables left)
    (Solidity.stateVariables right)

theorem readAlike_of_members {left right : List Char} (h : members left = members right) : ReadAlike left right where
  members := h
  signatures := by rw [signatures, signatures, h]
  events := by rw [events, events, h]
  stateVariables := by
    rw [stateVariables, stateVariables, h]
    exact forall₂_readVariable _ _ _

/-- The content of a block does not matter for what is read in the body. -/
theorem readAlike_of_block {front inside other : List Char} (hfront : (MemberWalk.after front).OpensBlock)
    (hinside : Balanced '\x7b' '\x7d' inside) (hother : Balanced '\x7b' '\x7d' other) (rest : List Char) :
    ReadAlike (front ++ '\x7b' :: (inside ++ '\x7d' :: rest)) (front ++ '\x7b' :: (other ++ '\x7d' :: rest)) := by
  apply readAlike_of_members
  rw [members_eq, members_eq, MemberWalk.after_block hfront hinside, MemberWalk.after_block hfront hother]

/-- Locals, a literal with braces and a parenthesis that is never closed stand in the block; in front of it a
parenthesis too many is closed, and behind it one is left open. -/
theorem readAlike_of_block_pay :
    let front := "uint256 sum; ) function pay(address to) public ".toList
    let inside := "uint256 local; if (x) \x7b f(S(\x7ba: 1\x7d; event E( \x7d ".toList
    let rest := " uint256 immutable kept; event Paid(uint256 amount); function open( ;".toList
    (MemberWalk.after front).OpensBlock ∧ Balanced '\x7b' '\x7d' inside ∧ Balanced '\x7b' '\x7d' [] ∧
      ReadAlike (front ++ '\x7b' :: (inside ++ '\x7d' :: rest)) (front ++ '\x7b' :: ([] ++ '\x7d' :: rest)) := by
  intro front inside rest
  have hfront : (MemberWalk.after front).OpensBlock := by decide +kernel
  have hinside : Balanced '\x7b' '\x7d' inside := by decide +kernel
  have hother : Balanced '\x7b' '\x7d' [] := by decide
  exact ⟨hfront, hinside, hother, readAlike_of_block hfront hinside hother rest⟩

/-- A keyword next to the name does reach out of the block. -/
example :
    stateVariables "uint256 sum; function f() \x7b constant sum \x7d".toList =
      [{ name := "sum", typeName := "uint256", isConstant := true }] ∧
    stateVariables "uint256 sum; function f() \x7b\x7d".toList = [{ name := "sum", typeName := "uint256" }] := by
  decide +kernel

end ContractMigration.Solidity
