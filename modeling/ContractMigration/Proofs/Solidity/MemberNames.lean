import ContractMigration.Proofs.Solidity.MemberReading
import ContractMigration.Proofs.Solidity.SignatureRendering

/-!
# The names of functions, modifiers and events

A member that declares a name, with parameters behind it, stands between other members of a body. What the body is read
as differs from what the others are read as by the record of this member alone, if there is one
(`exists_signaturesOnto_insert`). The readers of these members take word characters for a name, and an identifier may
also hold dollar signs: the record has the declared name exactly when the name has none (`name_recorded_iff`). Behind a
dollar sign a function or an event is not recognised at all, and a modifier is read with what stands in front of it.
-/

namespace ContractMigration.Solidity

open Text

/-! ### One member among others -/

/-- The members in front of others leave a constructor and signatures behind. -/
theorem exists_signaturesOnto_front (kept : Option Signature) (done : List Signature) (front : List Member) :
    ∃ kept' done', ∀ rest, signaturesOnto kept done (front ++ rest) = signaturesOnto kept' done' rest := by
  induction front generalizing kept done with
  | nil => exact ⟨kept, done, fun rest => rfl⟩
  | cons member front ih =>
    by_cases hopens : (!kept.isSome && (readOpened "constructor".toList member.text).isSome) = true
    · obtain ⟨kept', done', hfront⟩ := ih member.readConstructor done
      refine ⟨kept', done', fun rest => ?_⟩
      rw [List.cons_append, signaturesOnto_member, if_pos hopens, hfront]
    · obtain ⟨kept', done', hfront⟩ := ih kept (member.readCallable.toList ++ done)
      refine ⟨kept', done', fun rest => ?_⟩
      rw [List.cons_append, signaturesOnto_member, if_neg hopens, hfront]

/-- A member that is no constructor adds what is read of it, and leaves the other signatures as they are. -/
theorem exists_signaturesOnto_insert {member : Member}
    (hconstructor : readOpened "constructor".toList member.text = none) (front back : List Member) :
    ∃ before behind, signaturesOnto none [] (front ++ back) = before ++ behind ∧
      signaturesOnto none [] (front ++ member :: back) = before ++ member.readCallable.toList ++ behind := by
  obtain ⟨kept, done, hfront⟩ := exists_signaturesOnto_front none [] front
  have hback := fun done => signaturesOnto_readings (.ofText []) kept done back
  simp only at hback
  rw [hfront, hfront, signaturesOnto_member, hconstructor, Option.isSome_none, Bool.and_false,
    if_neg Bool.false_ne_true, hback, hback]
  refine ⟨_, _, rfl, ?_⟩
  cases member.readCallable with
  | none => simp
  | some signature => simp

/-- One list has a record of the name more than the other. -/
def RecordsOne {α : Type} (nameOf : α → String) (name : List Char) (without having : List α) : Prop :=
  ∃ before record behind, without = before ++ behind ∧ having = before ++ record :: behind ∧
    nameOf record = String.ofList name

theorem recordsOne_iff {α : Type} {nameOf : α → String} {name : List Char} {without having before behind : List α}
    {record : Option α} (hwithout : without = before ++ behind) (hhaving : having = before ++ record.toList ++ behind) :
    RecordsOne nameOf name without having ↔ record.map nameOf = some (String.ofList name) := by
  constructor
  · rintro ⟨front, found, back, hfront, hback, hname⟩
    -- the name occurs once more in one list than in the other
    have hcount : (having.map nameOf).count (String.ofList name) =
        (without.map nameOf).count (String.ofList name) + 1 := by
      rw [hfront, hback, List.map_append, List.map_append, List.map_cons, List.count_append, List.count_append, hname,
        List.count_cons_self, Nat.add_assoc]
    rw [hwithout, hhaving] at hcount
    simp only [List.map_append, List.count_append] at hcount
    cases record with
    | none => simp at hcount
    | some record =>
      simp only [Option.toList_some, List.map_cons, List.map_nil, List.count_singleton] at hcount
      rw [Option.map_some, Option.some.injEq]
      by_contra hne
      rw [if_neg (by simpa using hne)] at hcount
      omega
  · intro hrecord
    obtain ⟨found, rfl, hname⟩ := Option.map_eq_some_iff.1 hrecord
    refine ⟨before, found, behind, hwithout, ?_, hname⟩
    rw [hhaving, Option.toList_some, List.append_assoc, List.singleton_append]

/-! ### Members that declare a name -/

/-- The members that declare a name and have parameters behind it. -/
inductive NamedKind where
  | function
  | modifier
  | event
deriving DecidableEq, Repr

namespace NamedKind

def keyword : NamedKind → List Char
  | function => "function".toList
  | modifier => "modifier".toList
  | event => "event".toList

/-- What stands behind the parameters. -/
def tail : NamedKind → List Char
  | function => " public".toList
  | _ => []

def ending : NamedKind → Ending
  | event => .statement
  | _ => .block

def header (kind : NamedKind) (name parameters : List Char) : List Char :=
  following kind.keyword (call name parameters ++ kind.tail)

/-- A member declares a name with parameters, in any layout and with any block. -/
structure Declares (kind : NamedKind) (name parameters : List Char) (written : WrittenMember) : Prop where
  words : words written.header = words (kind.header name parameters)
  balanced : written.closing.IsBalanced
  ending : written.closing.ending = kind.ending

/-- The second body is read as the first with one record more, which has the name. -/
def Records (kind : NamedKind) (name without having : List Char) : Prop :=
  match kind with
  | event => RecordsOne Event.name name (events without) (events having)
  | _ => RecordsOne Signature.name name (signatures without) (signatures having)

section Header

variable {name parameters : List Char} (hname : isIdentifier name = true)
  (hparameters : ∀ c ∈ parameters, c ∉ ['(', ')', '\x7b', '\x7d', ';'])
include hname hparameters

theorem enclosed_header (kind : NamedKind) : Enclosed (kind.header name parameters) := by
  have hkeyword : Enclosed kind.keyword := by cases kind <;> decide
  have htail : Enclosed kind.tail := by cases kind <;> decide
  have hplain : Enclosed parameters := Enclosed.of_plain fun c hc hmem => hparameters c hc (by grind)
  exact enclosed_following hkeyword
    (((enclosed_dotted (isDotted_of_isIdentifier hname)).append hplain.parenthesise).append htail)

/-- Collapsing the header leaves the keyword, the name and the parentheses of the parameters where they are. -/
theorem exists_collapse_header (kind : NamedKind) :
    ∃ inside after, Balanced '(' ')' inside ∧
      collapse (kind.header name parameters) = following kind.keyword (call name inside ++ after) := by
  have hkeyword : IsTidy kind.keyword := by cases kind <;> decide
  have hparen : isBlank '(' = false := by decide
  obtain ⟨more, hmore⟩ := exists_collapse_eq_cons hparen (parameters ++ ')' :: kind.tail)
  have hfront : IsTidy (kind.keyword ++ ' ' :: name) :=
    hkeyword.append_space (isTidy_dotted (isDotted_of_isIdentifier hname))
  have hcut : ∀ rest, following kind.keyword (name ++ rest) = kind.keyword ++ ' ' :: name ++ rest :=
    fun rest => by simp [following]
  have hcollapse : collapse (kind.header name parameters) = kind.keyword ++ ' ' :: name ++ '(' :: more := by
    rw [header, call_append, hcut, hfront.collapse_append (by simpa using hparen), hmore]
  have henclosed : Enclosed (collapse (kind.header name parameters)) :=
    (enclosed_header hname hparameters kind).of_words_eq (words_collapse _).symm
  rw [hcollapse] at henclosed
  obtain ⟨inside, after, rfl, hinside⟩ := (enclosed_iff.1 henclosed).1.exists_closed (by decide)
  exact ⟨inside, after, hinside, by rw [hcollapse, call_append, hcut]⟩

end Header

/-! ### What the readers make of a name -/

/-- An identifier is made of word characters or goes on behind a dollar sign. -/
theorem isName_or_dollar {name : List Char} (hname : isIdentifier name = true) :
    '$' ∉ name ∧ isName name = true ∨
      ∃ word more, name = word ++ '$' :: more ∧ ∀ c ∈ word, isWordChar c = true := by
  rcases all_or_first isWordChar name with hall | ⟨word, d, more, rfl, hword, hd⟩
  · refine .inl ⟨fun hmem => absurd (hall _ hmem) (by decide), ?_⟩
    exact Bool.and_eq_true_iff.2 ⟨hname, List.all_eq_true.2 hall⟩
  · have hchar := isIdentifierChar_of_isIdentifier hname d (by simp)
    rw [isIdentifierChar, hd, Bool.false_or, beq_iff_eq] at hchar
    exact .inr ⟨word, more, by rw [hchar], hword⟩

/-- Behind a keyword the word characters in front of a dollar sign are read as the name. -/
theorem trimLeft_space_dollar {word : List Char} (hword : ∀ c ∈ word, isWordChar c = true) (rest : List Char) :
    trimLeft (' ' :: (word ++ '$' :: rest)) = word ++ '$' :: rest := by
  rw [trimLeft_blank (by decide)]
  apply trimLeft_of_head
  intro c hc
  cases word with
  | nil =>
    obtain rfl := Option.some.inj hc
    decide
  | cons d word =>
    obtain rfl := Option.some.inj hc
    exact isBlank_of_isWordChar (hword d List.mem_cons_self)

/-- The header of a block declares no variable of function type. -/
theorem readCallable_block (text : List Char) : (Member.mk text .block).readCallable = readCallable text :=
  if_neg fun h => Ending.noConfusion h.1

section Dollar

variable {word : List Char} (hword : ∀ c ∈ word, isWordChar c = true) (rest : List Char)
include hword

theorem readFunctionHead_dollar : readFunctionHead (following "function".toList (word ++ '$' :: rest)) = none := by
  have hname : (word ++ '$' :: rest).takeWhile isWordChar = word := takeWhile_stop hword (by decide) rest
  rw [readFunctionHead, following, wholeWord?_append_cons _ (by decide)]
  simp only [trimLeft_space_dollar hword, hname, List.drop_left]
  rw [trimLeft_cons (by decide)]
  rfl

theorem readNamed_dollar (keyword : List Char) :
    readNamed keyword (following keyword (word ++ '$' :: rest)) =
      if word = [] then none else some (word, '$' :: rest) := by
  have hname : (word ++ '$' :: rest).takeWhile isWordChar = word := takeWhile_stop hword (by decide) rest
  have hgap : (' ' :: (word ++ '$' :: rest)).takeWhile isBlank ≠ [] := by
    rw [List.takeWhile_cons_of_pos (by decide)]
    exact List.cons_ne_nil _ _
  rw [readNamed, following, after?_append_self]
  simp only [trimLeft_space_dollar hword, hname, List.drop_left]
  simp [hgap]

/-- A function with such a name is nothing else either. -/
theorem readCallable_dollar : readCallable (following "function".toList (word ++ '$' :: rest)) = none := by
  have hfunction : readFunction (following "function".toList (word ++ '$' :: rest)) = none := by
    rw [readFunction, readFunctionHead_dollar hword]
    rfl
  rw [readCallable, hfunction]
  rfl

/-- A modifier is taken for one without parameters, under the word in front of the dollar sign. -/
theorem readModifier_dollar :
    (Member.mk (following "modifier".toList (word ++ '$' :: rest)) .block).readCallable =
      if word = [] then none
      else some { name := String.ofList word, visibility := "internal", isModifier := true } := by
  have hfunction : readFunction (following "modifier".toList (word ++ '$' :: rest)) = none := rfl
  have hspecial : readSpecial (following "modifier".toList (word ++ '$' :: rest)) = none := rfl
  rw [readCallable_block, readCallable, hfunction, hspecial]
  simp only
  rw [readModifier, readNamed_dollar hword]
  by_cases hempty : word = []
  · rw [if_pos hempty, if_pos hempty]
  · rw [if_neg hempty, if_neg hempty]
    simp only
    rw [trimLeft_cons (by decide)]
    rfl

theorem readEvent_dollar (ending : Ending) :
    (Member.mk (following "event".toList (word ++ '$' :: rest)) ending).readEvent = none := by
  rw [Member.readEvent, readNamed_dollar hword]
  by_cases hempty : word = []
  · rw [if_pos hempty]
  · rw [if_neg hempty]
    simp only
    rw [trimLeft_cons (by decide)]
    rfl

end Dollar

section Name

variable {name inside : List Char} (hname : isName name = true) (hinside : Balanced '(' ')' inside)
  (after : List Char)
include hname hinside

theorem name_readFunction :
    (Member.mk (following "function".toList (call name inside ++ after)) .block).readCallable.map Signature.name =
      some (String.ofList name) := by
  have hne : name.isEmpty = false := by
    simpa using ne_nil_of_isIdentifier (isIdentifier_of_isName hname)
  rw [readCallable_block, readCallable, readFunction, readFunctionHead_following hname, Option.map_some]
  simp only [hne]
  rw [if_neg Bool.false_ne_true, readSignature, hinside.splitAtClosing (by decide)]
  rfl

theorem name_readModifier :
    (Member.mk (following "modifier".toList (call name inside ++ after)) .block).readCallable.map Signature.name =
      some (String.ofList name) := by
  have hfunction : readFunction (following "modifier".toList (call name inside ++ after)) = none := rfl
  have hspecial : readSpecial (following "modifier".toList (call name inside ++ after)) = none := rfl
  rw [readCallable_block, readCallable, hfunction, hspecial, readModifier, call_append,
    readNamed_following hname _ (by simp; decide)]
  simp only [trimLeft_paren]
  rw [readSignature, hinside.splitAtClosing (by decide)]
  rfl

theorem name_readEvent (ending : Ending) :
    (Member.mk (following "event".toList (call name inside ++ after)) ending).readEvent.map Event.name =
      some (String.ofList name) := by
  rw [Member.readEvent, call_append, readNamed_following hname _ (by simp; decide)]
  simp only [trimLeft_paren]
  rw [hinside.splitAtClosing (by decide)]
  rfl

end Name

/-- The name of the record that a member of this kind is read as. -/
def readName (kind : NamedKind) (member : Member) : Option String :=
  match kind with
  | event => member.readEvent.map Event.name
  | _ => member.readCallable.map Signature.name

/-- A member is read under its name when there is no dollar sign in it. -/
theorem readName_iff {name inside : List Char} (hname : isIdentifier name = true) (hinside : Balanced '(' ')' inside)
    (kind : NamedKind) (after : List Char) :
    kind.readName ⟨following kind.keyword (call name inside ++ after), kind.ending⟩ = some (String.ofList name) ↔
      '$' ∉ name := by
  rcases isName_or_dollar hname with ⟨hfree, hword⟩ | ⟨word, more, rfl, hword⟩
  · refine iff_of_true ?_ hfree
    cases kind with
    | function => exact name_readFunction hword hinside after
    | modifier => exact name_readModifier hword hinside after
    | event => exact name_readEvent hword hinside after .statement
  · refine iff_of_false ?_ fun hfree => hfree (by simp)
    have hcall : call (word ++ '$' :: more) inside ++ after =
        word ++ '$' :: (more ++ '(' :: (inside ++ ')' :: after)) := by
      rw [call_append, List.append_assoc, List.cons_append]
    rw [hcall]
    cases kind with
    | function =>
      have hread := congrArg (Option.map Signature.name)
        ((readCallable_block _).trans (readCallable_dollar hword (more ++ '(' :: (inside ++ ')' :: after))))
      exact fun h => Option.some_ne_none _ (h.symm.trans hread)
    | modifier =>
      have hread := congrArg (Option.map Signature.name)
        (readModifier_dollar hword (more ++ '(' :: (inside ++ ')' :: after)))
      by_cases hempty : word = []
      · rw [if_pos hempty] at hread
        exact fun h => Option.some_ne_none _ (h.symm.trans hread)
      · rw [if_neg hempty, Option.map_some] at hread
        -- the record is named by the front of the name only
        exact fun h => absurd (String.ofList_inj.1 (Option.some.inj (hread.symm.trans h))) (by simp)
    | event =>
      have hread := congrArg (Option.map Event.name)
        (readEvent_dollar hword (more ++ '(' :: (inside ++ ')' :: after)) .statement)
      exact fun h => Option.some_ne_none _ (h.symm.trans hread)

/-! ### The names in a body -/

/-- A member adds the record that it is read as, and nothing else. -/
theorem records_iff {front back : List WrittenMember} {written : WrittenMember} {name trailing : List Char}
    (kind : NamedKind) (hfront : ∀ member ∈ front, member.WellFormed) (hback : ∀ member ∈ back, member.WellFormed)
    (hwritten : written.WellFormed) (htrailing : ∀ c ∈ trailing, isBlank c = true)
    (hconstructor : readOpened "constructor".toList written.member.text = none) :
    kind.Records name ((front ++ back).flatMap WrittenMember.text ++ trailing)
        ((front ++ written :: back).flatMap WrittenMember.text ++ trailing) ↔
      kind.readName written.member = some (String.ofList name) := by
  have hwithout : members ((front ++ back).flatMap WrittenMember.text ++ trailing) =
      front.map WrittenMember.member ++ back.map WrittenMember.member := by
    rw [WrittenMember.members_flatMap (List.forall_mem_append.2 ⟨hfront, hback⟩) htrailing, List.map_append]
  have hhaving : members ((front ++ written :: back).flatMap WrittenMember.text ++ trailing) =
      front.map WrittenMember.member ++ written.member :: back.map WrittenMember.member := by
    rw [WrittenMember.members_flatMap (List.forall_mem_append.2 ⟨hfront, List.forall_mem_cons.2 ⟨hwritten, hback⟩⟩)
      htrailing, List.map_append, List.map_cons]
  obtain ⟨before, behind, hsignatures, hinserted⟩ :=
    exists_signaturesOnto_insert hconstructor (front.map WrittenMember.member) (back.map WrittenMember.member)
  rw [← hwithout] at hsignatures
  rw [← hhaving] at hinserted
  cases kind with
  | function => exact recordsOne_iff hsignatures hinserted
  | modifier => exact recordsOne_iff hsignatures hinserted
  | event =>
    have hevents : events ((front ++ back).flatMap WrittenMember.text ++ trailing) = _ :=
      congrArg (List.filterMap Member.readEvent) hwithout
    have hmore : events ((front ++ written :: back).flatMap WrittenMember.text ++ trailing) = _ :=
      congrArg (List.filterMap Member.readEvent) hhaving
    rw [List.filterMap_append] at hevents
    refine recordsOne_iff hevents (hmore.trans ?_)
    rw [List.filterMap_append, List.filterMap_cons]
    cases written.member.readEvent with
    | none => simp
    | some event => simp

/-- Wherever a function, a modifier or an event stands in a body, the body has one record more than without it, and the
record has the declared name, exactly when no dollar sign stands in the name. -/
theorem name_recorded_iff {kind : NamedKind} {name parameters trailing : List Char}
    {front back : List WrittenMember} {written : WrittenMember} (hname : isIdentifier name = true)
    (hparameters : ∀ c ∈ parameters, c ∉ ['(', ')', '\x7b', '\x7d', ';'])
    (hwritten : kind.Declares name parameters written) (hfront : ∀ member ∈ front, member.WellFormed)
    (hback : ∀ member ∈ back, member.WellFormed) (htrailing : ∀ c ∈ trailing, isBlank c = true) :
    kind.Records name ((front ++ back).flatMap WrittenMember.text ++ trailing)
        ((front ++ written :: back).flatMap WrittenMember.text ++ trailing) ↔ '$' ∉ name := by
  obtain ⟨inside, after, hinside, hcollapse⟩ := exists_collapse_header hname hparameters kind
  have hmember : written.member = ⟨following kind.keyword (call name inside ++ after), kind.ending⟩ := by
    rw [WrittenMember.member, hwritten.ending, ← hcollapse, collapse, collapse, hwritten.words]
  have hconstructor : readOpened "constructor".toList written.member.text = none := by
    rw [hmember]
    cases kind <;> rfl
  have hwords : words (kind.header name parameters) ≠ [] := by
    intro hempty
    rw [collapse, hempty] at hcollapse
    cases kind <;> exact List.cons_ne_nil _ _ hcollapse.symm
  have hwellFormed : written.WellFormed :=
    ⟨(enclosed_header hname hparameters kind).of_words_eq hwritten.words.symm, hwritten.balanced,
      hwritten.words ▸ hwords⟩
  rw [records_iff kind hfront hback hwellFormed htrailing hconstructor, hmember]
  exact readName_iff hname hinside kind after

/-- A function in some layout between a variable and an event, and the records of its body. -/
theorem name_recorded_deposit :
    let held : WrittenMember := ⟨"uint256 held".toList, .semicolon⟩
    let deposit : WrittenMember :=
      ⟨"\n function deposit(uint256\tamount)\n  public ".toList, .block "if (ok) \x7b held += amount; \x7d".toList⟩
    let paid : WrittenMember := ⟨" event Paid(address to)".toList, .semicolon⟩
    NamedKind.function.Declares "deposit".toList "uint256 amount".toList deposit ∧
      NamedKind.function.Records "deposit".toList (([held] ++ [paid]).flatMap WrittenMember.text ++ ['\n'])
        (([held] ++ deposit :: [paid]).flatMap WrittenMember.text ++ ['\n']) := by
  intro held deposit paid
  have hdeposit : NamedKind.function.Declares "deposit".toList "uint256 amount".toList deposit :=
    ⟨by decide +kernel, by decide +kernel, rfl⟩
  have hheld : ∀ written ∈ [held], written.WellFormed :=
    List.forall_mem_singleton.2 ⟨by decide +kernel, trivial, by decide +kernel⟩
  have hpaid : ∀ written ∈ [paid], written.WellFormed :=
    List.forall_mem_singleton.2 ⟨by decide +kernel, trivial, by decide +kernel⟩
  have htrailing : ∀ c ∈ ['\n'], isBlank c = true := List.forall_mem_singleton.2 (by decide)
  have hplain : ("uint256 amount".toList.all fun c => decide (c ∉ ['(', ')', '\x7b', '\x7d', ';'])) = true := by decide
  have hparameters := fun c hc => of_decide_eq_true (List.all_eq_true.1 hplain c hc)
  exact ⟨hdeposit, (name_recorded_iff (by decide) hparameters hdeposit hheld hpaid htrailing).2 (by decide)⟩

/-- The names of these members are identifiers, and a variable is read under one of them. A function and an event are
not read at all, and a modifier is read as another one. -/
theorem name_not_recorded_dollar :
    (["pay$now", "only$owner", "Paid$Out"].all fun name => isIdentifier name.toList) = true ∧
      (stateVariables "uint256 pay$now;".toList).map (·.name) = ["pay$now"] ∧
      signatures "function pay$now(uint256 amount) public \x7b\x7d".toList = [] ∧
      (signatures "modifier only$owner(uint256 role) \x7b\x7d".toList).map (·.name) = ["only"] ∧
      events "event Paid$Out(uint256 amount);".toList = [] := by
  decide +kernel

end NamedKind

end ContractMigration.Solidity
