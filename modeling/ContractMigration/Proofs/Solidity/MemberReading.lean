import ContractMigration.Proofs.Solidity.Identifier
import ContractMigration.Proofs.Solidity.TypeText
import ContractMigration.Solidity.Extraction

/-!
# What becomes of a member

Variables, signatures and events are read from the same members by three readers that do not know of each other. Each of
them is tied to the first word of the member: an event begins with `event`, a signature with `constructor` or one of
four words (`headWord_of_readCallable`), and a variable with none of the words that declare something else. The one word
that two readers share is `function`, and there both ask the same question (`readVariable_headWord`).

So no member is read twice (`count_reading_le`), and a body has at most as many variables, signatures and events
together as it has members (`members_read_once`). The first word of a member ends at a space and not at any blank, so
this depends on members being collapsed.
-/

namespace ContractMigration.Solidity

open Text

/-! ### First words -/

/-- The only blank in the text is the space. -/
def SpacesOnly (text : List Char) : Prop :=
  ∀ c ∈ text, isBlank c = true → c = ' '

theorem spacesOnly_collapse (text : List Char) : SpacesOnly (collapse text) := by
  intro c hc hblank
  rcases mem_intercalate_singleton hc with rfl | ⟨word, hword, hmem⟩
  · rfl
  · exact absurd hblank (by simp [isBlank_of_mem_words hword c hmem])

theorem spacesOnly_of_mem_members {body : List Char} {member : Member} (h : member ∈ members body) :
    SpacesOnly member.text := by
  obtain ⟨raw, -, htext⟩ := exists_infix_of_mem_members h
  rw [htext]
  exact spacesOnly_collapse raw

/-- A keyword with a blank or a parenthesis behind it is the first word. -/
theorem headWord_append_cons {keyword rest : List Char} {c : Char}
    (hkeyword : (keyword.all fun d => d != ' ' && d != '(') = true) (hspaces : SpacesOnly (keyword ++ c :: rest))
    (hc : isBlank c = true ∨ c = '(') : headWord (keyword ++ c :: rest) = keyword := by
  apply takeWhile_stop (List.all_eq_true.1 hkeyword)
  rcases hc with hblank | rfl
  · obtain rfl := hspaces c (by simp) hblank
    decide
  · decide

theorem exists_cons_of_trimLeft {rest more : List Char} (h : trimLeft rest = '(' :: more) :
    ∃ c behind, rest = c :: behind ∧ (isBlank c = true ∨ c = '(') := by
  cases rest with
  | nil => exact absurd h (by simp [trimLeft])
  | cons c behind =>
    refine ⟨c, behind, rfl, ?_⟩
    by_cases hblank : isBlank c = true
    · exact .inl hblank
    · rw [Bool.not_eq_true] at hblank
      rw [trimLeft_cons hblank, List.cons.injEq] at h
      exact .inr h.1

section Keyword

variable {text : List Char} (hspaces : SpacesOnly text)
include hspaces

theorem headWord_of_readOpened {keyword more : List Char}
    (hkeyword : (keyword.all fun d => d != ' ' && d != '(') = true) (h : readOpened keyword text = some more) :
    headWord text = keyword := by
  rw [readOpened] at h
  split at h
  · exact absurd h (by simp)
  · next rest hafter =>
    split at h
    · next opened hopened =>
      obtain ⟨c, behind, rfl, hc⟩ := exists_cons_of_trimLeft hopened
      obtain rfl := after?_eq_some_iff.1 hafter
      exact headWord_append_cons hkeyword hspaces hc
    · exact absurd h (by simp)

theorem headWord_of_readNamed {keyword name more : List Char}
    (hkeyword : (keyword.all fun d => d != ' ' && d != '(') = true) (h : readNamed keyword text = some (name, more)) :
    headWord text = keyword := by
  rw [readNamed] at h
  split at h
  · exact absurd h (by simp)
  · next rest hafter =>
    obtain rfl := after?_eq_some_iff.1 hafter
    simp only [Option.ite_none_left_eq_some, Bool.or_eq_true, not_or] at h
    cases rest with
    | nil => exact absurd rfl h.1.1
    | cons c rest =>
      by_cases hblank : isBlank c = true
      · exact headWord_append_cons hkeyword hspaces (.inl hblank)
      · rw [List.takeWhile_cons_of_neg hblank] at h
        exact absurd rfl h.1.1

theorem headWord_of_readFunctionHead {name more : List Char} (h : readFunctionHead text = some (name, more)) :
    headWord text = "function".toList := by
  rw [readFunctionHead] at h
  split at h
  · exact absurd h (by simp)
  · next rest hword =>
    rw [wholeWord?] at hword
    split at hword
    · next found hafter =>
      simp only [Option.ite_none_left_eq_some, Option.some.injEq] at hword
      obtain ⟨hend, rfl⟩ := hword
      obtain rfl := after?_eq_some_iff.1 hafter
      simp only at h
      split at h
      · next opened hopened =>
        have hfirst : ∃ c behind, found = c :: behind ∧ (isBlank c = true ∨ c = '(') := by
          cases found with
          | nil => exact absurd hopened (by simp [trimLeft])
          | cons c behind =>
            by_cases hblank : isBlank c = true
            · exact ⟨c, behind, rfl, .inl hblank⟩
            · -- no name can begin directly behind the keyword
              rw [Bool.not_eq_true] at hblank
              rw [trimLeft_cons hblank, List.takeWhile_cons_of_neg (by simpa using hend), List.length_nil,
                List.drop_zero] at hopened
              exact exists_cons_of_trimLeft hopened
        obtain ⟨c, behind, rfl, hc⟩ := hfirst
        exact headWord_append_cons (by decide) hspaces hc
      · exact absurd h (by simp)
    · exact absurd hword (by simp)

theorem headWord_of_readCallable {signature : Signature} (h : readCallable text = some signature) :
    headWord text ∈ ["function".toList, "fallback".toList, "receive".toList, "modifier".toList] := by
  rw [readCallable] at h
  split at h
  · next found hfunction =>
    obtain ⟨⟨name, more⟩, hhead, -⟩ := Option.map_eq_some_iff.1 hfunction
    rw [headWord_of_readFunctionHead hspaces hhead]
    decide
  · split at h
    · next found hspecial =>
      obtain ⟨keyword, hkeyword, hread⟩ := List.exists_of_findSome?_eq_some hspecial
      obtain ⟨more, hopened, -⟩ := Option.map_eq_some_iff.1 hread
      simp only [List.mem_cons, List.not_mem_nil, or_false] at hkeyword
      rcases hkeyword with rfl | rfl
      · rw [headWord_of_readOpened hspaces (by decide) hopened]
        decide
      · rw [headWord_of_readOpened hspaces (by decide) hopened]
        decide
    · rw [readModifier] at h
      split at h
      · exact absurd h (by simp)
      · next name rest hnamed =>
        rw [headWord_of_readNamed hspaces (by decide) hnamed]
        decide

theorem headWord_of_readEvent {ending : Ending} {event : Event} (h : (Member.mk text ending).readEvent = some event) :
    headWord text = "event".toList := by
  rw [Member.readEvent] at h
  split at h
  · exact absurd h (by simp)
  · next name rest hnamed => exact headWord_of_readNamed hspaces (by decide) hnamed

end Keyword

/-- A variable that begins with a word of other declarations is one of function type. -/
theorem readVariable_headWord {fixings : Fixings} {text : List Char} {declared : StateVariable}
    (h : readVariable fixings text = some declared) :
    headWord text = "function".toList ∧ (splitFunctionVariable text).isSome = true ∨
      headWord text ∉ nonVariableWords := by
  rw [readVariable] at h
  split at h
  · next hfunction =>
    obtain ⟨found, hsplit, -⟩ := Option.map_eq_some_iff.1 h
    exact .inl ⟨hfunction, Option.isSome_iff_exists.2 ⟨found, hsplit⟩⟩
  · split at h
    · exact absurd h (by simp)
    · next hword => exact .inr (by simpa using hword)

/-! ### The three readers on one member -/

/-- Reads a member as a constructor. -/
def Member.readConstructor (member : Member) : Option Signature :=
  (readOpened "constructor".toList member.text).bind (readSignature .constructor "constructor".toList)

/-- Reads a member as a signature of any kind, behind a readable constructor or not. -/
def Member.readSignature (constructed : Bool) (member : Member) : Option Signature :=
  if !constructed && (readOpened "constructor".toList member.text).isSome then member.readConstructor
  else member.readCallable

/-- What the three readers make of one member. -/
structure Reading where
  stateVariable : Option StateVariable
  signature : Option Signature
  event : Option Event
deriving DecidableEq, Repr

/-- How many records a member is made into. -/
def Reading.count (reading : Reading) : Nat :=
  reading.stateVariable.toList.length + reading.signature.toList.length + reading.event.toList.length

def Member.reading (fixings : Fixings) (constructed : Bool) (member : Member) : Reading :=
  ⟨member.readVariable fixings, member.readSignature constructed, member.readEvent⟩

/-- What is made of each member of a list. -/
def readings (fixings : Fixings) : (constructed : Bool) → List Member → List Reading
  | _, [] => []
  | constructed, member :: rest =>
    member.reading fixings constructed :: readings fixings (constructed || member.readConstructor.isSome) rest

section Member

variable {member : Member} (hspaces : SpacesOnly member.text)
include hspaces

theorem headWord_of_readSignature {constructed : Bool} {signature : Signature}
    (h : member.readSignature constructed = some signature) :
    headWord member.text = "constructor".toList ∨
      ¬ (member.ending = .statement ∧ (splitFunctionVariable member.text).isSome = true) ∧
        headWord member.text ∈ ["function".toList, "fallback".toList, "receive".toList, "modifier".toList] := by
  rw [Member.readSignature] at h
  split at h
  · next hopens =>
    obtain ⟨more, hopened⟩ := Option.isSome_iff_exists.1 (Bool.and_eq_true_iff.1 hopens).2
    exact .inl (headWord_of_readOpened hspaces (by decide) hopened)
  · rw [Member.readCallable] at h
    split at h
    · exact absurd h (by simp)
    · next hvariable => exact .inr ⟨hvariable, headWord_of_readCallable hspaces h⟩

theorem readSignature_eq_none_of_readVariable {fixings : Fixings} {declared : StateVariable}
    (h : member.readVariable fixings = some declared) (constructed : Bool) :
    member.readSignature constructed = none := by
  obtain ⟨text, ending⟩ := member
  cases ending with
  | block => exact absurd h (by simp [Member.readVariable])
  | statement =>
    rw [Option.eq_none_iff_forall_ne_some]
    intro signature hsignature
    have hwords : ∀ word ∈ ["function".toList, "fallback".toList, "receive".toList, "modifier".toList],
        word ∈ nonVariableWords := by decide
    rcases readVariable_headWord h with ⟨hfunction, hsplit⟩ | hother
    · rcases headWord_of_readSignature hspaces hsignature with hconstructor | ⟨hvariable, -⟩
      · exact absurd (hfunction.symm.trans hconstructor) (by decide)
      · exact hvariable ⟨rfl, hsplit⟩
    · rcases headWord_of_readSignature hspaces hsignature with hconstructor | ⟨-, hcallable⟩
      · refine hother ?_
        show headWord text ∈ nonVariableWords
        rw [show headWord text = "constructor".toList from hconstructor]
        decide
      · exact hother (hwords _ hcallable)

theorem readVariable_eq_none_of_readEvent {event : Event} (h : member.readEvent = some event) (fixings : Fixings) :
    member.readVariable fixings = none := by
  obtain ⟨text, ending⟩ := member
  have hevent := headWord_of_readEvent hspaces h
  cases ending with
  | block => rfl
  | statement =>
    rw [Option.eq_none_iff_forall_ne_some]
    intro declared hdeclared
    rcases readVariable_headWord hdeclared with ⟨hfunction, -⟩ | hother
    · exact absurd (hevent.symm.trans hfunction) (by decide)
    · rw [hevent] at hother
      exact hother (by decide)

theorem readSignature_eq_none_of_readEvent {event : Event} (h : member.readEvent = some event) (constructed : Bool) :
    member.readSignature constructed = none := by
  have hevent : headWord member.text = "event".toList := headWord_of_readEvent hspaces h
  rw [Option.eq_none_iff_forall_ne_some]
  intro signature hsignature
  rcases headWord_of_readSignature hspaces hsignature with hconstructor | ⟨-, hcallable⟩
  · exact absurd (hevent.symm.trans hconstructor) (by decide)
  · rw [hevent] at hcallable
    exact absurd hcallable (by decide)

theorem count_reading_le (fixings : Fixings) (constructed : Bool) :
    (member.reading fixings constructed).count ≤ 1 := by
  rw [Reading.count, Member.reading]
  cases hevent : member.readEvent with
  | some event =>
    rw [readVariable_eq_none_of_readEvent hspaces hevent, readSignature_eq_none_of_readEvent hspaces hevent]
    exact Nat.le_refl 1
  | none =>
    cases hvariable : member.readVariable fixings with
    | some declared =>
      rw [readSignature_eq_none_of_readVariable hspaces hvariable]
      exact Nat.le_refl 1
    | none =>
      cases member.readSignature constructed with
      | some signature => exact Nat.le_refl 1
      | none => exact Nat.zero_le 1

end Member

/-! ### The readers on a body -/

theorem filterMap_stateVariable_readings (fixings : Fixings) (constructed : Bool) (found : List Member) :
    (readings fixings constructed found).filterMap Reading.stateVariable =
      found.filterMap (Member.readVariable fixings) := by
  induction found generalizing constructed with
  | nil => rfl
  | cons member rest ih => rw [readings, List.filterMap_cons, List.filterMap_cons, ih]; rfl

theorem filterMap_event_readings (fixings : Fixings) (constructed : Bool) (found : List Member) :
    (readings fixings constructed found).filterMap Reading.event = found.filterMap Member.readEvent := by
  induction found generalizing constructed with
  | nil => rfl
  | cons member rest ih => rw [readings, List.filterMap_cons, List.filterMap_cons, ih]; rfl

theorem isConstructor_of_readSignature {role : SignatureRole} {name text : List Char} {signature : Signature}
    (h : readSignature role name text = some signature) : signature.isConstructor = (role == .constructor) := by
  obtain ⟨found, -, rfl⟩ := Option.map_eq_some_iff.1 h
  rfl

theorem isConstructor_of_readCallable {text : List Char} {signature : Signature}
    (h : readCallable text = some signature) : signature.isConstructor = false := by
  rw [readCallable] at h
  split at h
  · next found hfunction =>
    obtain ⟨⟨name, more⟩, -, hread⟩ := Option.map_eq_some_iff.1 hfunction
    exact isConstructor_of_readSignature (hread.trans h)
  · split at h
    · next found hspecial =>
      obtain ⟨keyword, -, hread⟩ := List.exists_of_findSome?_eq_some hspecial
      obtain ⟨more, -, hsignature⟩ := Option.map_eq_some_iff.1 hread
      exact isConstructor_of_readSignature (hsignature.trans h)
    · rw [readModifier] at h
      split at h
      · exact absurd h (by simp)
      · split at h
        · exact isConstructor_of_readSignature h
        · obtain rfl := Option.some.inj h
          rfl

theorem filterMap_signature_readings_cons (fixings : Fixings) (constructed : Bool) (member : Member)
    (rest : List Member) :
    (readings fixings constructed (member :: rest)).filterMap Reading.signature =
      (member.readSignature constructed).toList ++
        (readings fixings (constructed || member.readConstructor.isSome) rest).filterMap Reading.signature := by
  have hsignature : (member.reading fixings constructed).signature = member.readSignature constructed := rfl
  rw [readings, List.filterMap_cons, hsignature]
  cases member.readSignature constructed with
  | none => rfl
  | some signature => rfl

theorem isConstructor_of_mem_readCallable {member : Member} :
    ∀ signature ∈ member.readCallable, signature.isConstructor = false := by
  intro signature hread
  rw [Option.mem_def, Member.readCallable] at hread
  split at hread
  · exact absurd hread (by simp)
  · exact isConstructor_of_readCallable hread

theorem isConstructor_of_mem_readConstructor {member : Member} :
    ∀ signature ∈ member.readConstructor, signature.isConstructor = true := by
  intro signature hread
  obtain ⟨more, -, hsignature⟩ := Option.bind_eq_some_iff.1 hread
  exact isConstructor_of_readSignature hsignature

/-- A constructor is kept aside while none is, and every other signature goes onto the others. -/
theorem signaturesOnto_member (kept : Option Signature) (done : List Signature) (member : Member)
    (rest : List Member) :
    signaturesOnto kept done (member :: rest) =
      if !kept.isSome && (readOpened "constructor".toList member.text).isSome then
        signaturesOnto member.readConstructor done rest
      else signaturesOnto kept (member.readCallable.toList ++ done) rest := by
  rw [signaturesOnto]
  cases kept with
  | some signature =>
    cases member.readCallable with
    | none => rfl
    | some callable => rfl
  | none =>
    cases hopened : readOpened "constructor".toList member.text with
    | none =>
      cases member.readCallable with
      | none => rfl
      | some callable => rfl
    | some more =>
      rw [Member.readConstructor, hopened]
      rfl

/-- The signatures are those that the members are made into, the constructor in front of the others. -/
theorem signaturesOnto_readings (fixings : Fixings) (kept : Option Signature) (done : List Signature)
    (found : List Member) :
    let made := (readings fixings kept.isSome found).filterMap Reading.signature
    signaturesOnto kept done found =
      kept.toList ++ made.filter Signature.isConstructor ++ done.reverse ++ made.filter (!·.isConstructor) := by
  induction found generalizing kept done with
  | nil => simp [signaturesOnto, readings]
  | cons member rest ih =>
    intro made
    simp only [made, filterMap_signature_readings_cons, signaturesOnto_member, Member.readSignature]
    by_cases hopens : (!kept.isSome && (readOpened "constructor".toList member.text).isSome) = true
    · obtain rfl : kept = none := by simpa using (Bool.and_eq_true_iff.1 hopens).1
      rw [if_pos hopens, if_pos hopens, ih, Option.isSome_none, Bool.false_or]
      cases hread : member.readConstructor with
      | none => rfl
      | some signature => simp [isConstructor_of_mem_readConstructor signature hread]
    · have hkept : (kept.isSome || member.readConstructor.isSome) = kept.isSome := by
        cases kept with
        | some signature => rfl
        | none =>
          have hopened : readOpened "constructor".toList member.text = none := by
            simpa only [Option.isSome_none, Bool.not_false, Bool.true_and, Option.not_isSome_iff_eq_none] using hopens
          rw [Member.readConstructor, hopened]
          rfl
      rw [if_neg hopens, if_neg hopens, ih, hkept]
      cases hread : member.readCallable with
      | none => rfl
      | some signature => simp [isConstructor_of_mem_readCallable signature hread]

theorem length_readings (fixings : Fixings) (constructed : Bool) (found : List Member) :
    (readings fixings constructed found).length = found.length := by
  induction found generalizing constructed with
  | nil => rfl
  | cons member rest ih => rw [readings, List.length_cons, List.length_cons, ih]

theorem count_le_of_mem_readings {fixings : Fixings} {constructed : Bool} {found : List Member}
    (hspaces : ∀ member ∈ found, SpacesOnly member.text) :
    ∀ reading ∈ readings fixings constructed found, reading.count ≤ 1 := by
  induction found generalizing constructed with
  | nil => exact fun reading hmem => absurd hmem List.not_mem_nil
  | cons member rest ih =>
    rw [List.forall_mem_cons] at hspaces
    rw [readings]
    exact List.forall_mem_cons.2 ⟨count_reading_le hspaces.1 _ _, ih hspaces.2⟩

theorem length_filterMap_add_le {found : List Reading} (h : ∀ reading ∈ found, reading.count ≤ 1) :
    (found.filterMap Reading.stateVariable).length + (found.filterMap Reading.signature).length +
      (found.filterMap Reading.event).length ≤ found.length := by
  have hcons : ∀ {α : Type} (f : Reading → Option α) (reading : Reading) (rest : List Reading),
      ((reading :: rest).filterMap f).length = (f reading).toList.length + (rest.filterMap f).length := by
    intro α f reading rest
    rw [List.filterMap_cons]
    cases f reading with
    | none => simp
    | some item => simp [Nat.add_comm]
  induction found with
  | nil => exact Nat.le_refl 0
  | cons reading rest ih =>
    rw [List.forall_mem_cons, Reading.count] at h
    have hrest := ih h.2
    have hfirst := h.1
    rw [hcons, hcons, hcons, List.length_cons]
    omega

/-- What is made of each member of a body. -/
def bodyReadings (body : List Char) : List Reading :=
  readings (.ofText body) false (members body)

/-- The signatures that the members of a body are made into, in the order of the members. -/
def madeSignatures (body : List Char) : List Signature :=
  (bodyReadings body).filterMap Reading.signature

/-- Each member of a body is made into one record at most, and these records are all there are. -/
theorem members_read_once (body : List Char) :
    (∀ reading ∈ bodyReadings body, reading.count ≤ 1) ∧ (bodyReadings body).length = (members body).length ∧
      stateVariables body = (bodyReadings body).filterMap Reading.stateVariable ∧
      signatures body =
        (madeSignatures body).filter Signature.isConstructor ++ (madeSignatures body).filter (!·.isConstructor) ∧
      events body = (bodyReadings body).filterMap Reading.event ∧
      (stateVariables body).length + (signatures body).length + (events body).length ≤ (members body).length := by
  have hcount : ∀ reading ∈ bodyReadings body, reading.count ≤ 1 :=
    count_le_of_mem_readings fun member hmem => spacesOnly_of_mem_members hmem
  have hlength : (bodyReadings body).length = (members body).length := length_readings _ _ _
  have hvariables : stateVariables body = (bodyReadings body).filterMap Reading.stateVariable :=
    (filterMap_stateVariable_readings _ _ _).symm
  have hsignatures : signatures body =
      (madeSignatures body).filter Signature.isConstructor ++ (madeSignatures body).filter (!·.isConstructor) := by
    rw [signatures, signaturesOnto_readings (.ofText body) none]
    simp [madeSignatures, bodyReadings]
  have hevents : events body = (bodyReadings body).filterMap Reading.event := (filterMap_event_readings _ _ _).symm
  refine ⟨hcount, hlength, hvariables, hsignatures, hevents, ?_⟩
  have hmade : (signatures body).length = ((bodyReadings body).filterMap Reading.signature).length := by
    rw [hsignatures, List.length_append, ← List.length_eq_length_filter_add, madeSignatures]
  rw [hvariables, hmade, hevents, ← hlength]
  exact length_filterMap_add_le hcount

/-- A variable of function type, the old form of the fallback, the new one, a header with a dollar sign, a constructor
and one too many. -/
example :
    let body := ("function(uint256) internal hook; function() payable; fallback() external \x7b\x7d " ++
      "function $go(); constructor() \x7b\x7d constructor() \x7b\x7d event E();").toList
    (bodyReadings body).map
        (fun reading => (reading.stateVariable.isSome, reading.signature.isSome, reading.event.isSome)) =
      [(true, false, false), (false, true, false), (false, true, false), (false, false, false), (false, true, false),
        (false, false, false), (false, false, true)] := by
  decide +kernel

end ContractMigration.Solidity
