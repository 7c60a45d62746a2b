import ContractMigration.Proofs.Solidity.VariableRendering

/-!
# Reading the variables of a written body

A body is written as a list of items in any order and any layout. The variables that are read back from it are those
that were declared, in order, and one more for some of the directives with a list in braces: the block ends a member, so
the target stands in a statement of its own, and behind the word `for` a name looks like a variable of type `for`. The
variables are exactly the declared ones when no target does.
-/

namespace ContractMigration.Solidity

open Text

/-! ### Items -/

/-- A top-level item of a body. -/
inductive BodyItem where
  | declared (declaration : VariableSyntax)
  /-- A function, a struct, an enum: whatever has a block. -/
  | block
  /-- An event, an error, or a `using` directive without braces. -/
  | statement
  /-- A `using` directive with a list in braces; the target is what stands behind `for`. -/
  | bracedUsing (target : List Char)
deriving DecidableEq, Repr

namespace BodyItem

def WellFormed : BodyItem → Prop
  | declared declaration => declaration.WellFormed
  | block => True
  | statement => True
  | bracedUsing target => IsTidy target ∧ Enclosed target ∧ target.head? ≠ some '['

instance : (item : BodyItem) → Decidable item.WellFormed
  | declared declaration => inferInstanceAs (Decidable declaration.WellFormed)
  | block => isTrue trivial
  | statement => isTrue trivial
  | bracedUsing target => inferInstanceAs (Decidable (IsTidy target ∧ Enclosed target ∧ target.head? ≠ some '['))

/-- How an item is written: in any layout that keeps the words, with any initialiser, header and block. -/
inductive Writes : BodyItem → List WrittenMember → Prop
  | declared {declaration : VariableSyntax} {header : List Char} (hwords : words header = words declaration.render) :
    Writes (.declared declaration) [⟨header, .semicolon⟩]
  | initialised {declaration : VariableSyntax} {header gap initialiser : List Char} (hgap : gap ∈ [[], [' ']])
      (hinitialiser : Enclosed initialiser)
      (hwords : words header = words (declaration.render ++ (gap ++ '=' :: initialiser))) :
    Writes (.declared declaration) [⟨header, .semicolon⟩]
  | block {header content : List Char} (hheader : Enclosed header) (hwords : words header ≠ [])
      (hcontent : Balanced '\x7b' '\x7d' content) :
    Writes .block [⟨header, .block content⟩]
  | statement {header keyword : List Char} {behind : List (List Char)} (hheader : Enclosed header)
      (hkeyword : keyword ∈ ["event".toList, "error".toList, "using".toList])
      (hwords : words header = keyword :: behind) :
    Writes .statement [⟨header, .semicolon⟩]
  | bracedUsing {target directive functions header : List Char} (hdirective : words directive = ["using".toList])
      (hfunctions : Balanced '\x7b' '\x7d' functions)
      (hwords : words header = words (following "for".toList target)) :
    Writes (.bracedUsing target) [⟨directive, .block functions⟩, ⟨header, .semicolon⟩]

/-- The variable that an item declares. -/
def declared? (fixings : Fixings) : BodyItem → Option StateVariable
  | declared declaration => some (declaration.record fixings)
  | block => none
  | statement => none
  | bracedUsing _ => none

/-- The variable that is read where none is declared. -/
def misread? (fixings : Fixings) : BodyItem → Option StateVariable
  | declared _ => none
  | block => none
  | statement => none
  | bracedUsing target =>
    (splitDeclarator (' ' :: target)).map fun (modifiers, name) => variableRecord fixings "for".toList modifiers name

/-- What the reader makes of an item. -/
def read? (fixings : Fixings) (item : BodyItem) : Option StateVariable :=
  (item.declared? fixings).or (item.misread? fixings)

theorem declared?_eq_none_or_misread?_eq_none (fixings : Fixings) (item : BodyItem) :
    item.declared? fixings = none ∨ item.misread? fixings = none := by
  cases item with
  | declared declaration => exact .inr rfl
  | block => exact .inl rfl
  | statement => exact .inl rfl
  | bracedUsing target => exact .inl rfl

/-! ### One item -/

theorem readVariable_statement (fixings : Fixings) {keyword : List Char}
    (hkeyword : keyword ∈ ["event".toList, "error".toList, "using".toList]) (behind : List (List Char)) :
    readVariable fixings (unwords (keyword :: behind)) = none := by
  have hall : ∀ keyword ∈ ["event".toList, "error".toList, "using".toList],
      keyword.all (fun c => c != ' ' && c != '(') = true ∧ keyword ≠ "function".toList ∧
        nonVariableWords.contains keyword = true := by decide
  obtain ⟨hword, hfunction, hcontains⟩ := hall keyword hkeyword
  have hhead : headWord (unwords (keyword :: behind)) = keyword := by
    cases behind with
    | nil =>
      rw [unwords, List.intercalate_singleton]
      exact List.takeWhile_eq_self_iff.2 (List.all_eq_true.1 hword)
    | cons next behind =>
      rw [unwords, List.intercalate_cons_cons, List.append_assoc]
      exact takeWhile_stop (List.all_eq_true.1 hword) (by decide) _
  rw [readVariable]
  simp only [hhead, hfunction, hcontains, if_false, if_true]

/-- The target of a directive is read as what stands behind a type. -/
theorem readVariable_for (fixings : Fixings) {target : List Char} (h : (bracedUsing target).WellFormed) :
    readVariable fixings (following "for".toList target) = (bracedUsing target).misread? fixings := by
  obtain ⟨c, rest, rfl, hc⟩ := h.1.exists_eq_cons
  have hsuffix : ∀ more, trimLeft (c :: rest) ≠ '[' :: more := by
    intro more hmore
    rw [trimLeft_cons hc] at hmore
    obtain ⟨rfl, -⟩ := List.cons.inj hmore
    exact h.2.2 rfl
  have htype : (TypeSyntax.word "for".toList []).WellFormed := by decide
  have hbegins : (TypeSyntax.word "for".toList []).BeginsVariable :=
    (by decide : "for".toList ∉ nonVariableWords ++ ["mapping".toList])
  have hread := readType_render htype hbegins hsuffix (fun heq => absurd heq (by decide))
  have hhead : headWord (following "for".toList (c :: rest)) = "for".toList := rfl
  have hfunction : "for".toList ≠ "function".toList := by decide
  have hcontains : nonVariableWords.contains "for".toList = false := by decide
  have hread' : readType (following "for".toList (c :: rest)) = some ("for".toList, ' ' :: c :: rest) := hread
  rw [readVariable]
  simp only [hhead, hfunction, hcontains, if_false, Bool.false_eq_true, hread']
  rfl

theorem exists_collapse_initialised {declaration : VariableSyntax} (h : declaration.WellFormed) {gap : List Char}
    (hgap : gap ∈ [[], [' ']]) (initialiser : List Char) :
    ∃ tail, collapse (declaration.render ++ (gap ++ '=' :: initialiser)) = declaration.render ++ tail ∧
      ∀ c ∈ beforeInitialiser tail, isBlank c = true := by
  have htidy := VariableSyntax.isTidy_render h
  have hequals : isBlank '=' = false := by decide
  obtain ⟨more, hmore⟩ := exists_collapse_eq_cons hequals initialiser
  simp only [List.mem_cons, List.not_mem_nil, or_false] at hgap
  rcases hgap with rfl | rfl
  · refine ⟨'=' :: more, ?_, fun c hc => absurd hc List.not_mem_nil⟩
    rw [List.nil_append, htidy.collapse_append (by simpa using hequals), hmore]
  · have hwords : words ('=' :: initialiser) ≠ [] := by
      intro hnil
      rw [collapse, hnil] at hmore
      exact absurd hmore (by simp [unwords])
    refine ⟨' ' :: '=' :: more, ?_, fun c hc => ?_⟩
    · rw [List.singleton_append, collapse_append_space htidy.words_ne_nil hwords, htidy.collapse, hmore]
    · obtain rfl : c = ' ' := List.mem_singleton.1 hc
      decide

namespace Writes

variable {item : BodyItem} {piece : List WrittenMember} (hwritten : Writes item piece) (h : item.WellFormed)
include hwritten h

theorem wellFormed : ∀ written ∈ piece, written.WellFormed := by
  cases hwritten with
  | @declared declaration header hwords =>
    have htidy := VariableSyntax.isTidy_render h
    refine List.forall_mem_singleton.2 ⟨(VariableSyntax.enclosed_render h).of_words_eq hwords.symm, trivial, ?_⟩
    rw [hwords]
    exact htidy.words_ne_nil
  | @initialised declaration header gap initialiser hgap hinitialiser hwords =>
    have htidy := VariableSyntax.isTidy_render h
    have hgaps : ∀ gap ∈ ([[], [' ']] : List (List Char)), Enclosed gap := by decide
    have hequals : Enclosed ['='] := by decide
    have henclosed := (VariableSyntax.enclosed_render h).append
      ((hgaps gap hgap).append (hequals.append hinitialiser))
    refine List.forall_mem_singleton.2 ⟨henclosed.of_words_eq hwords.symm, trivial, ?_⟩
    rw [hwords]
    exact htidy.words_append_ne_nil _
  | block hheader hwords hcontent => exact List.forall_mem_singleton.2 ⟨hheader, hcontent, hwords⟩
  | statement hheader hkeyword hwords =>
    refine List.forall_mem_singleton.2 ⟨hheader, trivial, ?_⟩
    rw [hwords]
    exact List.cons_ne_nil _ _
  | @bracedUsing target directive functions header hdirective hfunctions hwords =>
    have husing : Enclosed "using".toList := by decide
    have hfor : Enclosed "for".toList := by decide
    have htidy : IsTidy "for".toList := by decide
    have husingWords : words "using".toList = ["using".toList] := by decide
    refine List.forall_mem_cons.2 ⟨⟨husing.of_words_eq (husingWords.trans hdirective.symm), hfunctions, ?_⟩,
      List.forall_mem_singleton.2 ⟨(enclosed_following hfor h.2.1).of_words_eq hwords.symm, trivial, ?_⟩⟩
    · rw [hdirective]
      exact List.cons_ne_nil _ _
    · rw [hwords]
      exact htidy.words_append_ne_nil _

/-- From the members that an item is written as, the variable of the item is read, or the misread one. -/
theorem readVariables (fixings : Fixings) :
    (piece.map WrittenMember.member).filterMap (Member.readVariable fixings) =
      (item.read? fixings).toList := by
  have hstatement : ∀ header : List Char, ([⟨header, .semicolon⟩].map WrittenMember.member).filterMap
      (Member.readVariable fixings) = (readVariable fixings (collapse header)).toList := by
    intro header
    have hmember : (WrittenMember.mk header .semicolon).member.readVariable fixings =
      readVariable fixings (collapse header) := rfl
    rw [List.map_singleton, List.filterMap_cons, hmember]
    cases readVariable fixings (collapse header) <;> rfl
  cases hwritten with
  | @declared declaration header hwords =>
    have hnone : ∀ c ∈ beforeInitialiser [], isBlank c = true := fun c hc => absurd hc List.not_mem_nil
    have hread := VariableSyntax.readVariable_render h fixings hnone
    have htidy := VariableSyntax.isTidy_render h
    rw [hstatement, collapse, hwords, ← collapse, htidy.collapse, ← List.append_nil declaration.render, hread]
    rfl
  | @initialised declaration header gap initialiser hgap hinitialiser hwords =>
    obtain ⟨tail, hcollapse, htail⟩ := exists_collapse_initialised h hgap initialiser
    rw [hstatement, collapse, hwords, ← collapse, hcollapse, VariableSyntax.readVariable_render h fixings htail]
    rfl
  | block hheader hwords hcontent => rfl
  | @statement header keyword behind hheader hkeyword hwords =>
    rw [hstatement, collapse, hwords, readVariable_statement fixings hkeyword]
    rfl
  | @bracedUsing target directive functions header hdirective hfunctions hwords =>
    have hfor : IsTidy "for".toList := by decide
    have htidy : IsTidy (following "for".toList target) := hfor.append_space h.1
    have hblock : ∀ rest : List Member, (⟨collapse directive, .block⟩ :: rest).filterMap (Member.readVariable fixings) =
      rest.filterMap (Member.readVariable fixings) := fun rest => rfl
    have hread := hstatement header
    rw [collapse, hwords, ← collapse, htidy.collapse, readVariable_for fixings h] at hread
    exact (hblock _).trans hread

end Writes

/-! ### The whole body -/

section Body

variable {items : List BodyItem} {pieces : List (List WrittenMember)} (hwritten : List.Forall₂ Writes items pieces)
  (hvalid : ∀ item ∈ items, item.WellFormed)
include hwritten hvalid

theorem wellFormed_flatten : ∀ written ∈ pieces.flatten, written.WellFormed := by
  induction hwritten with
  | nil => exact fun written hmem => absurd hmem List.not_mem_nil
  | cons hhead htail ih =>
    rw [List.forall_mem_cons] at hvalid
    rw [List.flatten_cons]
    exact List.forall_mem_append.2 ⟨hhead.wellFormed hvalid.1, ih hvalid.2⟩

theorem readVariables_flatten (fixings : Fixings) :
    (pieces.flatten.map WrittenMember.member).filterMap (Member.readVariable fixings) =
      items.filterMap (read? fixings) := by
  induction hwritten with
  | nil => rfl
  | @cons item piece items pieces hhead htail ih =>
    rw [List.forall_mem_cons] at hvalid
    rw [List.flatten_cons, List.map_append, List.filterMap_append, hhead.readVariables hvalid.1, ih hvalid.2,
      List.filterMap_cons]
    cases item.read? fixings <;> rfl

end Body

/-- One variable too many is not made up for by other items. -/
theorem length_filterMap_declared?_le (fixings : Fixings) (items : List BodyItem) :
    (items.filterMap (declared? fixings)).length ≤ (items.filterMap (read? fixings)).length := by
  rw [List.length_filterMap_eq_countP, List.length_filterMap_eq_countP]
  apply List.countP_mono_left
  intro item _ hdeclared
  rw [read?, Option.isSome_or, hdeclared, Bool.true_or]

theorem filterMap_read?_eq_iff (fixings : Fixings) (items : List BodyItem) :
    items.filterMap (read? fixings) = items.filterMap (declared? fixings) ↔
      ∀ item ∈ items, item.misread? fixings = none := by
  induction items with
  | nil => simp
  | cons item items ih =>
    rw [List.forall_mem_cons, ← ih]
    cases hdeclared : item.declared? fixings with
    | some declared =>
      have hmisread := (declared?_eq_none_or_misread?_eq_none fixings item).resolve_left (by simp [hdeclared])
      have hread : item.read? fixings = some declared := by rw [read?, hdeclared, Option.some_or]
      rw [List.filterMap_cons_some hread, List.filterMap_cons_some hdeclared, List.cons_inj_right]
      exact ⟨fun h => ⟨hmisread, h⟩, fun h => h.2⟩
    | none =>
      have hread : item.read? fixings = item.misread? fixings := by rw [read?, hdeclared, Option.none_or]
      rw [List.filterMap_cons_none hdeclared]
      cases hmisread : item.misread? fixings with
      | none =>
        rw [List.filterMap_cons_none (hread.trans hmisread)]
        exact ⟨fun h => ⟨rfl, h⟩, fun h => h.2⟩
      | some misread =>
        rw [List.filterMap_cons_some (hread.trans hmisread)]
        refine ⟨fun h => ?_, fun h => nomatch h.1⟩
        have hlength := length_filterMap_declared?_le fixings items
        rw [← h, List.length_cons] at hlength
        omega

/-- The variables of a body are those that were declared, in order, and the misread ones. They are exactly the declared
ones when nothing is misread, and only then. -/
theorem stateVariables_written {items : List BodyItem} {pieces : List (List WrittenMember)}
    (hwritten : List.Forall₂ Writes items pieces) (hvalid : ∀ item ∈ items, item.WellFormed) {trailing : List Char}
    (htrailing : ∀ c ∈ trailing, isBlank c = true) :
    let body := pieces.flatten.flatMap WrittenMember.text ++ trailing
    let fixings := Fixings.ofText body
    stateVariables body = items.filterMap (read? fixings) ∧
      (stateVariables body = items.filterMap (declared? fixings) ↔ ∀ item ∈ items, item.misread? fixings = none) := by
  intro body fixings
  have hmembers := WrittenMember.members_flatMap (wellFormed_flatten hwritten hvalid) htrailing
  have hread : stateVariables body = items.filterMap (read? fixings) := by
    rw [stateVariables, hmembers]
    exact readVariables_flatten hwritten hvalid fixings
  refine ⟨hread, ?_⟩
  rw [hread]
  exact filterMap_read?_eq_iff fixings items

/-- Nested types, a list of overridden bases, an initialiser with braces and semicolons, and items that declare
nothing. -/
theorem stateVariables_written_ledger :
    let held : VariableSyntax :=
      ⟨.mapping (.word "address".toList []) (.mapping (.payable []) (.word "Lib.Item".toList ["2".toList]) []) [[]],
        [.keyword "public".toList, .override (some "A,L.B, C".toList)], "held".toList⟩
    let fee : VariableSyntax :=
      ⟨.word "uint256".toList [], [.keyword "constant".toList, .keyword "private".toList], "fee".toList⟩
    let items : List BodyItem :=
      [.declared held, .block, .declared fee, .statement, .bracedUsing (following "L.T".toList "global".toList)]
    let pieces : List (List WrittenMember) := [
      [⟨("\n  mapping(address =>\n    mapping(address payable => Lib.Item[2]))[]".toList ++
        " public override(A,L.B, C) held".toList), .semicolon⟩],
      [⟨" function pay() public".toList, .block "if (x) \x7b y; \x7d".toList⟩],
      [⟨"\n  uint256 constant  private fee".toList ++ '=' :: " f(\x7ba: 1\x7d; 2)".toList, .semicolon⟩],
      [⟨" event Paid(uint256 amount)".toList, .semicolon⟩],
      [⟨"\n  using".toList, .block "add".toList⟩, ⟨" for L.T global".toList, .semicolon⟩]]
    (∀ item ∈ items, item.WellFormed) ∧ List.Forall₂ Writes items pieces ∧
      stateVariables (pieces.flatten.flatMap WrittenMember.text ++ ['\n']) = [
        { name := "held", typeName := "mapping(address => mapping(address payable => Lib.Item[2]))[]"
          visibility := "public" },
        { name := "fee", typeName := "uint256", visibility := "private", isConstant := true }] := by
  intro held fee items pieces
  have hvalid : ∀ item ∈ items, item.WellFormed := by decide +kernel
  have hwritten : List.Forall₂ Writes items pieces :=
    .cons (.declared (by decide +kernel)) (.cons (.block (by decide +kernel) (by decide +kernel) (by decide +kernel))
      (.cons (.initialised (List.mem_cons_self) (by decide +kernel) rfl)
        (.cons (.statement (by decide +kernel) (by decide) rfl)
          (.cons (.bracedUsing (by decide +kernel) (by decide +kernel) (by decide +kernel)) .nil))))
  have htrailing : ∀ c ∈ ['\n'], isBlank c = true := List.forall_mem_singleton.2 (by decide)
  have hmisread : ∀ fixings, ∀ item ∈ items, item.misread? fixings = none := by
    intro fixings
    simp only [items, List.forall_mem_cons]
    exact ⟨rfl, rfl, rfl, rfl, rfl, fun item hmem => absurd hmem List.not_mem_nil⟩
  refine ⟨hvalid, hwritten, ((stateVariables_written hwritten hvalid htrailing).2.2 (hmisread _)).trans ?_⟩
  decide +kernel

/-- The type that the functions of a directive are attached to becomes a variable, and the declared one stays. -/
theorem stateVariables_bracedUsing :
    let kept : VariableSyntax := ⟨.word "uint256".toList [], [], "kept".toList⟩
    let items : List BodyItem := [.bracedUsing "uint256".toList, .declared kept]
    let pieces : List (List WrittenMember) := [
      [⟨"using ".toList, .block "add".toList⟩, ⟨" for uint256".toList, .semicolon⟩],
      [⟨"\nuint256 kept".toList, .semicolon⟩]]
    let body := pieces.flatten.flatMap WrittenMember.text
    (∀ item ∈ items, item.WellFormed) ∧ List.Forall₂ Writes items pieces ∧
      body = "using \x7badd\x7d for uint256;\nuint256 kept;".toList ∧
      items.filterMap (declared? (.ofText body)) = [{ name := "kept", typeName := "uint256" }] ∧
      stateVariables body = [{ name := "uint256", typeName := "for" }, { name := "kept", typeName := "uint256" }] := by
  intro kept items pieces body
  have hvalid : ∀ item ∈ items, item.WellFormed := by decide +kernel
  have hwritten : List.Forall₂ Writes items pieces :=
    .cons (.bracedUsing (by decide +kernel) (by decide +kernel) (by decide +kernel))
      (.cons (.declared (by decide +kernel)) .nil)
  exact ⟨hvalid, hwritten, by decide +kernel, by decide +kernel, by decide +kernel⟩

end BodyItem

end ContractMigration.Solidity
