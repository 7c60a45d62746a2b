import ContractMigration.Proofs.Solidity.MemberSyntax

/-!
# Reading written members

Functions, modifiers, constructors and events are written into a body, in any order and any layout, and read back. The
header of each collapses to its canonical form, and every reader of signatures and events either recognises that form
or does not begin to match. So the signatures and the events of the body are those that were written.
-/

namespace ContractMigration.Solidity

open Text

/-! ### Specifiers -/

section Specifiers

variable {specifiers : List Specifier} (h : ∀ specifier ∈ specifiers, specifier.WellFormed)
include h

theorem wordRuns_renderSpecifiers : wordRuns (renderSpecifiers specifiers) = specifiers.map Specifier.word :=
  wordRuns_append_behind (isDotted_word h) (isWordChar_word h) []

theorem find?_word {keywords : List (List Char)} {pick : Specifier → Option (List Char)}
    (hpick : ∀ specifier : Specifier, specifier.WellFormed →
      pick specifier = if specifier.word ∈ keywords then some specifier.word else none) :
    (specifiers.map Specifier.word).find? keywords.contains = specifiers.findSome? pick := by
  induction specifiers with
  | nil => rfl
  | cons specifier specifiers ih =>
    rw [List.forall_mem_cons] at h
    rw [List.map_cons, List.find?_cons, List.findSome?_cons, hpick specifier h.1, ih h.2]
    by_cases hword : specifier.word ∈ keywords
    · rw [if_pos hword, List.contains_iff_mem.2 hword]
    · have hcontains : keywords.contains specifier.word = false := by simpa using hword
      rw [if_neg hword, hcontains]

theorem find?_visibility :
    (specifiers.map Specifier.word).find? visibilityWords.contains = specifiers.findSome? Specifier.visibility? := by
  refine find?_word h fun specifier hspecifier => ?_
  cases specifier with
  | visibility word => exact (if_pos hspecifier).symm
  | mutability word =>
    have hforeign : ∀ word ∈ mutabilityWords, word ∉ visibilityWords := by decide
    exact (if_neg (hforeign word hspecifier)).symm
  | virtual => exact (if_neg (by decide)).symm
  | override => exact (if_neg (by decide)).symm
  | invocation name =>
    exact (if_neg fun hword => hspecifier.2 (List.mem_append_left _ (List.mem_append_left _ hword))).symm

theorem find?_mutability :
    (specifiers.map Specifier.word).find? mutabilityWords.contains = specifiers.findSome? Specifier.mutability? := by
  refine find?_word h fun specifier hspecifier => ?_
  cases specifier with
  | visibility word =>
    have hforeign : ∀ word ∈ visibilityWords, word ∉ mutabilityWords := by decide
    exact (if_neg (hforeign word hspecifier)).symm
  | mutability word => exact (if_pos hspecifier).symm
  | virtual => exact (if_neg (by decide)).symm
  | override => exact (if_neg (by decide)).symm
  | invocation name =>
    exact (if_neg fun hword => hspecifier.2 (List.mem_append_left _ (List.mem_append_right _ hword))).symm

end Specifiers

/-! ### The results -/

/-- A word other than `returns` is not taken for it, and the beginning of a longer word is not either. -/
theorem readReturns_word {word rest : List Char} (hword : ∀ c ∈ word, isWordChar c = true)
    (hne : word ≠ "returns".toList) (hrest : ∀ c ∈ rest.head?, c = ' ') : readReturns (word ++ rest) = none := by
  rw [readReturns]
  split
  · rfl
  · next found hfound =>
    have hkeyword : ∀ c ∈ "returns".toList, isWordChar c = true := List.all_eq_true.1 (by decide)
    have hend : ∀ c ∈ rest.head?, isWordChar c = false := fun c hc => by
      rw [hrest c hc]
      decide
    obtain ⟨more, rfl, rfl⟩ := after?_run hkeyword hend hfound
    cases more with
    | nil => exact absurd (List.append_nil _) hne
    | cons c more =>
      have hc := hword c (by simp)
      have hparen : c ≠ '(' := by
        rintro rfl
        exact absurd hc (by decide)
      have htrim : trimLeft (c :: more ++ rest) = c :: more ++ rest :=
        trimLeft_of_head (by simpa using isBlank_of_isWordChar hc)
      rw [htrim]
      split
      · next heq => exact absurd (List.cons.inj heq).1 hparen
      · rfl

/-- The search for the results passes over words that are not `returns`. -/
theorem findWordFrom_behind {behind : List (List Char)}
    (h : ∀ word ∈ behind, isName word = true ∧ word ≠ "returns".toList) {rest : List Char}
    (hrest : ∀ c ∈ rest.head?, c = ' ') (passed : List Char) (joined : Bool) :
    ∃ joined', findWordFrom isWordChar readReturns passed joined (behind.flatMap (' ' :: ·) ++ rest) =
      findWordFrom isWordChar readReturns ((behind.flatMap (' ' :: ·)).reverse ++ passed) joined' rest := by
  induction behind generalizing passed joined with
  | nil => exact ⟨joined, rfl⟩
  | cons word behind ih =>
    rw [List.forall_mem_cons] at h
    have hword := isWordChar_of_isName h.1.1
    have hnext : ∀ c ∈ (behind.flatMap (' ' :: ·) ++ rest).head?, c = ' ' := by
      cases behind with
      | nil => exact hrest
      | cons next behind => simp
    have hspace : readReturns (' ' :: (word ++ (behind.flatMap (' ' :: ·) ++ rest))) = none := rfl
    obtain ⟨joined', hjoined⟩ := ih h.2 (word.reverse ++ ' ' :: passed) true
    refine ⟨joined', ?_⟩
    have hjoins : isWordChar ' ' = false := by decide
    rw [List.flatMap_cons, List.append_assoc, List.cons_append, findWordFrom_cons hspace, hjoins,
      findWordFrom_run (ne_nil_of_isIdentifier (isIdentifier_of_isName h.1.1)) hword
        (readReturns_word hword h.1.2 hnext), hjoined]
    simp

section Returns

variable {specifiers : List Specifier} (hspecifiers : ∀ specifier ∈ specifiers, specifier.WellFormed)
  {returns : Option (List ParameterSyntax)} (hreturns : ∀ parameter ∈ returns.getD [], parameter.WellFormed)

theorem enclosed_renderParameters {parameters : List ParameterSyntax}
    (h : ∀ parameter ∈ parameters, parameter.WellFormed) : Enclosed (renderParameters parameters) :=
  enclosed_commaList (List.forall_mem_map.2 fun parameter hparameter =>
    ParameterSyntax.enclosed_render (h parameter hparameter))

include hspecifiers hreturns

/-- The specifiers and the results are told apart. -/
theorem splitReturns_written :
    ∃ head, splitReturns (renderSpecifiers specifiers ++ renderReturns returns) =
        (head, (returns.getD []).map ParameterSyntax.parameter) ∧
      wordRuns head = specifiers.map Specifier.word := by
  have hnames := isName_word hspecifiers
  have hruns := wordRuns_renderSpecifiers hspecifiers
  have hfind : ∀ {rest : List Char}, (∀ c ∈ rest.head?, c = ' ') → ∃ joined,
      findWord isWordChar readReturns (renderSpecifiers specifiers ++ rest) =
        findWordFrom isWordChar readReturns (renderSpecifiers specifiers).reverse joined rest := by
    intro rest hrest
    obtain ⟨joined, hjoined⟩ := findWordFrom_behind hnames hrest [] false
    rw [List.append_nil] at hjoined
    exact ⟨joined, hjoined⟩
  cases returns with
  | none =>
    obtain ⟨joined, hnone⟩ := hfind (fun c hc => absurd hc (by simp) : ∀ c ∈ ([] : List Char).head?, c = ' ')
    refine ⟨renderSpecifiers specifiers ++ [], ?_, by rw [List.append_nil, hruns]⟩
    rw [splitReturns, renderReturns, hnone]
    rfl
  | some parameters =>
    have hvalid : ∀ parameter ∈ parameters, parameter.WellFormed := hreturns
    have hparameters : readParameters (renderParameters parameters) = _ := readParameters_commaList hvalid
    have hsplit := (enclosed_renderParameters hvalid).splitAtClosing []
    have hspace : ∀ rest, readReturns (' ' :: rest) = none := fun _ => rfl
    have hread : ∀ rest, readReturns (following "returns".toList (call [] rest)) = some (rest ++ [')']) := fun _ => rfl
    have hhead : ∀ c ∈ (renderReturns (some parameters)).head?, c = ' ' := by
      rintro c hc
      exact (Option.some.inj hc).symm
    obtain ⟨joined, hsome⟩ := hfind hhead
    have hjoins : isWordChar ' ' = false := by decide
    refine ⟨renderSpecifiers specifiers ++ [' '], ?_, ?_⟩
    · rw [splitReturns, hsome, renderReturns, findWordFrom_cons (hspace _), hjoins,
        findWordFrom_found (by simp [following]) (hread _)]
      simp only [hsplit, hparameters, List.reverse_cons, List.reverse_reverse]
      rfl
    · have hnil : wordRuns [] = [] := rfl
      rw [wordRuns_append_cons hjoins, hruns, hnil, List.append_nil]

/-- A signature is read from its parameters on. -/
theorem readSignature_written {parameters : List ParameterSyntax}
    (hparameters : ∀ parameter ∈ parameters, parameter.WellFormed) (role : SignatureRole) (name : List Char) :
    readSignature role name
        (renderParameters parameters ++ ')' :: (renderSpecifiers specifiers ++ renderReturns returns)) = some {
      name := String.ofList name
      visibility := match role with
        | .function => String.ofList ((specifiers.findSome? Specifier.visibility?).getD "public".toList)
        | .constructor => "public"
        | .modifier => "internal"
      mutability := String.ofList ((specifiers.findSome? Specifier.mutability?).getD "nonpayable".toList)
      parameters := parameters.map ParameterSyntax.parameter
      returns := (returns.getD []).map ParameterSyntax.parameter
      isConstructor := role == .constructor
      isModifier := role == .modifier } := by
  obtain ⟨head, hsplit, hruns⟩ := splitReturns_written hspecifiers hreturns
  have hread : readParameters (renderParameters parameters) = _ := readParameters_commaList hparameters
  rw [readSignature, (enclosed_renderParameters hparameters).splitAtClosing, Option.map_some]
  cases role <;>
    simp only [hsplit, firstKeyword?, hruns, find?_visibility hspecifiers, find?_mutability hspecifiers, hread]

end Returns

/-! ### Names behind keywords -/

section Gap

variable {gap : List Char} (hgap : ∀ c ∈ gap, isBlank c = true) (more : List Char)
include hgap

theorem trimLeft_gap_paren : trimLeft (gap ++ '(' :: more) = '(' :: more :=
  dropWhile_stop hgap (by decide) more

theorem not_isWordChar_gap_paren : ∀ c ∈ (gap ++ '(' :: more).head?, isWordChar c = false := by
  intro c hc
  cases gap with
  | nil =>
    obtain rfl := Option.some.inj hc
    decide
  | cons d gap =>
    obtain rfl := Option.some.inj hc
    exact isWordChar_of_isBlank (hgap d List.mem_cons_self)

theorem readOpened_gap_paren (word : List Char) : readOpened word (word ++ (gap ++ '(' :: more)) = some more := by
  rw [readOpened, after?_append_self]
  simp only [trimLeft_gap_paren hgap]

end Gap

section Named

variable {name : List Char} (hname : isName name = true)
include hname

theorem trimLeft_space_name (rest : List Char) : trimLeft (' ' :: (name ++ rest)) = name ++ rest := by
  obtain ⟨c, more, rfl⟩ := List.exists_cons_of_ne_nil (isDotted_of_isName hname).ne_nil
  have hc : isBlank c = false := isBlank_of_isWordChar (isWordChar_of_isName hname c (by simp))
  rw [trimLeft_blank (by decide), trimLeft_of_head (by simpa using hc)]

/-- What follows a name is left over. -/
theorem readNamed_following (keyword : List Char) {rest : List Char} (hrest : ∀ c ∈ rest.head?, isWordChar c = false) :
    readNamed keyword (following keyword (name ++ rest)) = some (name, rest) := by
  obtain ⟨c, more, rfl⟩ := List.exists_cons_of_ne_nil (isDotted_of_isName hname).ne_nil
  have hgap : (' ' :: (c :: more ++ rest)).takeWhile isBlank ≠ [] := by
    rw [List.takeWhile_cons_of_pos (by decide)]
    exact List.cons_ne_nil _ _
  have hword := takeWhile_append_of_head (isWordChar_of_isName hname) hrest
  rw [readNamed, following, after?_append_self]
  simp only [trimLeft_space_name hname, hword, List.drop_left]
  exact if_neg (by simpa using hgap)

theorem head?_call (inside rest : List Char) : (call name inside ++ rest).head? ≠ some '(' := by
  obtain ⟨c, more, rfl⟩ := List.exists_cons_of_ne_nil (isDotted_of_isName hname).ne_nil
  have hc := isWordChar_of_isName hname c (by simp)
  intro h
  obtain rfl : c = '(' := Option.some.inj h
  exact absurd hc (by decide)

theorem readFunctionHead_named {gap : List Char} (hgap : ∀ c ∈ gap, isBlank c = true) (more : List Char) :
    readFunctionHead (following "function".toList (name ++ (gap ++ '(' :: more))) = some (name, more) := by
  have hword := takeWhile_append_of_head (isWordChar_of_isName hname) (not_isWordChar_gap_paren hgap more)
  rw [readFunctionHead, following, wholeWord?_append_cons _ (by decide)]
  simp only [trimLeft_space_name hname, hword, List.drop_left, trimLeft_gap_paren hgap]

theorem readFunctionHead_following (inside rest : List Char) :
    readFunctionHead (following "function".toList (call name inside ++ rest)) =
      some (name, inside ++ ')' :: rest) := by
  have hgap : ∀ c ∈ ([] : List Char), isBlank c = true := fun c hc => absurd hc List.not_mem_nil
  rw [call_append]
  exact readFunctionHead_named hname hgap _

/-- A function with a name does not begin like a function type. -/
theorem splitFunctionVariable_following (inside rest : List Char) :
    splitFunctionVariable (following "function".toList (call name inside ++ rest)) = none := by
  have hhead := head?_call hname inside rest
  have hbegins : beginsFunctionType (following "function".toList (call name inside ++ rest)) = false := by
    rw [beginsFunctionType, following, after?_append_self]
    simp only
    rw [call_append, trimLeft_space_name hname, ← call_append]
    simpa using hhead
  rw [splitFunctionVariable, hbegins]
  rfl

end Named

/-! ### What each reader makes of a header -/

namespace MemberSyntax

theorem readOpened_header {item : MemberSyntax} (h : item.WellFormed) :
    (readOpened "constructor".toList item.header).map (readSignature .constructor "constructor".toList) =
      item.constructor?.map some := by
  cases item with
  | constructor parameters specifiers =>
    have hreturns : ∀ parameter ∈ (none : Option (List ParameterSyntax)).getD [], parameter.WellFormed :=
      fun parameter hparameter => absurd hparameter List.not_mem_nil
    have hread := readSignature_written h.2 hreturns h.1 .constructor "constructor".toList
    have hopened : readOpened "constructor".toList (header (constructor parameters specifiers)) =
        some (renderParameters parameters ++ ')' :: (renderSpecifiers specifiers ++ renderReturns none)) := by
      have hheader : header (constructor parameters specifiers) =
          "constructor".toList ++ '(' :: (renderParameters parameters ++ ')' :: renderSpecifiers specifiers) :=
        call_append _ _ _
      have hgap : ∀ c ∈ ([] : List Char), isBlank c = true := fun c hc => absurd hc List.not_mem_nil
      rw [hheader, renderReturns, List.append_nil]
      exact readOpened_gap_paren hgap _ _
    rw [hopened, Option.map_some, hread]
    rfl
  | function name parameters specifiers returns => rfl
  | modifier name parameters specifiers => cases parameters <;> rfl
  | event name parameters isAnonymous => rfl

/-- Behind the name of a modifier without parameters no parenthesis is opened. -/
theorem trimLeft_renderSpecifiers {specifiers : List Specifier}
    (h : ∀ specifier ∈ specifiers, specifier = .virtual ∨ specifier = .override) (rest : List Char) :
    trimLeft (renderSpecifiers specifiers) ≠ '(' :: rest := by
  cases specifiers with
  | nil => exact fun heq => absurd heq (by simp [renderSpecifiers, trimLeft])
  | cons specifier specifiers =>
    rw [List.forall_mem_cons] at h
    rcases h.1 with rfl | rfl
    · exact fun heq => absurd (List.cons.inj heq).1 (by decide)
    · exact fun heq => absurd (List.cons.inj heq).1 (by decide)

theorem findSome?_mutability_of_modifier {specifiers : List Specifier}
    (h : ∀ specifier ∈ specifiers, specifier = .virtual ∨ specifier = .override) :
    specifiers.findSome? Specifier.mutability? = none := by
  refine List.findSome?_eq_none_iff.2 fun specifier hspecifier => ?_
  rcases h specifier hspecifier with rfl | rfl <;> rfl

theorem readModifier_header {name : List Char} {parameters : Option (List ParameterSyntax)}
    {specifiers : List Specifier} (h : (modifier name parameters specifiers).WellFormed) :
    readModifier (modifier name parameters specifiers).header = (modifier name parameters specifiers).callable? := by
  obtain ⟨hname, hparameters, hspecifiers⟩ := h
  cases parameters with
  | none =>
    have hhead : ∀ c ∈ (renderSpecifiers specifiers).head?, isWordChar c = false := by
      intro c hc
      cases specifiers with
      | nil => exact absurd hc (by simp [renderSpecifiers])
      | cons specifier specifiers =>
        obtain rfl : ' ' = c := Option.some.inj hc
        decide
    have hparen := trimLeft_renderSpecifiers hspecifiers
    have hheader : (modifier name none specifiers).header =
      following "modifier".toList (name ++ renderSpecifiers specifiers) := rfl
    rw [readModifier, hheader, readNamed_following hname _ hhead]
    simp only
    rfl
  | some parameters =>
    have hwellFormed := wellFormed_of_isModifierSpecifier hspecifiers
    have hreturns : ∀ parameter ∈ (none : Option (List ParameterSyntax)).getD [], parameter.WellFormed :=
      fun parameter hparameter => absurd hparameter List.not_mem_nil
    have hvalid : ∀ parameter ∈ parameters, parameter.WellFormed := hparameters
    have hread := readSignature_written hwellFormed hreturns hvalid .modifier name
    have hheader : (modifier name (some parameters) specifiers).header =
      following "modifier".toList (call name (renderParameters parameters) ++ renderSpecifiers specifiers) := rfl
    rw [renderReturns, List.append_nil] at hread
    rw [readModifier, hheader, call_append, readNamed_following hname _ (by simp; decide)]
    simp only [trimLeft_paren]
    rw [hread, findSome?_mutability_of_modifier hspecifiers]
    rfl

theorem readCallable_header {item : MemberSyntax} (h : item.WellFormed) (ending : Ending) :
    (Member.mk item.header ending).readCallable = item.callable? := by
  rw [Member.readCallable]
  cases item with
  | function name parameters specifiers returns =>
    obtain ⟨hname, hparameters, hspecifiers, hreturns⟩ := h
    have hheader : (function name parameters specifiers returns).header = following "function".toList
        (call name (renderParameters parameters) ++ (renderSpecifiers specifiers ++ renderReturns returns)) := by
      rw [← List.append_assoc]
      rfl
    have hvariable := splitFunctionVariable_following hname (renderParameters parameters)
      (renderSpecifiers specifiers ++ renderReturns returns)
    have hread := readSignature_written hspecifiers hreturns hparameters .function name
    have hne : name.isEmpty = false := by
      simpa using (isDotted_of_isName hname).ne_nil
    simp only [hheader, hvariable, Option.isSome_none, Bool.false_eq_true, and_false, if_false]
    rw [Solidity.readCallable, readFunction, readFunctionHead_following hname, Option.map_some]
    simp only [hne, Bool.false_eq_true, if_false]
    rw [hread]
    rfl
  | modifier name parameters specifiers =>
    have hread := readModifier_header h
    have hvariable : splitFunctionVariable (modifier name parameters specifiers).header = none := by
      cases parameters <;> rfl
    have hcallable : Solidity.readCallable (modifier name parameters specifiers).header =
        readModifier (modifier name parameters specifiers).header := by
      cases parameters <;> rfl
    simp only [hvariable, Option.isSome_none, Bool.false_eq_true, and_false, if_false]
    rw [hcallable, hread]
  | constructor parameters specifiers => exact if_neg fun hvariable => absurd hvariable.2 Bool.false_ne_true
  | event name parameters isAnonymous => exact if_neg fun hvariable => absurd hvariable.2 Bool.false_ne_true

theorem readEvent_header {item : MemberSyntax} (h : item.WellFormed) (ending : Ending) :
    (Member.mk item.header ending).readEvent = item.event? := by
  cases item with
  | event name parameters isAnonymous =>
    obtain ⟨hname, hparameters⟩ := h
    have hread := readEventParameters_commaList hparameters
    have hparts : ∀ part ∈ parameters.map EventParameterSyntax.render, Enclosed part :=
      List.forall_mem_map.2 fun parameter hparameter =>
        ParameterSyntax.enclosed_render (hparameters parameter hparameter).toWellFormed
    obtain ⟨tail, htail⟩ : ∃ tail, tail = if isAnonymous then " anonymous".toList else [] := ⟨_, rfl⟩
    have hheader : (event name parameters isAnonymous).header = following "event".toList
        (call name (commaList (parameters.map EventParameterSyntax.render)) ++ tail) := by
      rw [htail]
      rfl
    have hsplit := (enclosed_commaList hparts).splitAtClosing tail
    rw [Member.readEvent]
    simp only [hheader]
    rw [call_append, readNamed_following hname _ (by simp; decide)]
    simp only [trimLeft_paren, hsplit, Option.map_some, hread]
    rfl
  | function name parameters specifiers returns => rfl
  | modifier name parameters specifiers => cases parameters <;> rfl
  | constructor parameters specifiers => rfl

/-! ### The whole body -/

/-- A member is written as the syntax says, in any layout that keeps the words of its header, with any ending. -/
structure Writes (item : MemberSyntax) (written : WrittenMember) : Prop where
  words : words written.header = words item.header
  balanced : written.closing.IsBalanced

theorem Writes.wellFormed {item : MemberSyntax} {written : WrittenMember} (hwritten : Writes item written)
    (h : item.WellFormed) : written.WellFormed where
  enclosed := (enclosed_header h).of_words_eq hwritten.words.symm
  balanced := hwritten.balanced
  hasWords := by
    rw [hwritten.words]
    exact (isTidy_header h).words_ne_nil

theorem Writes.member {item : MemberSyntax} {written : WrittenMember} (hwritten : Writes item written)
    (h : item.WellFormed) : written.member = ⟨item.header, written.closing.ending⟩ := by
  have htidy := (isTidy_header h).collapse
  rw [WrittenMember.member, collapse, hwritten.words, ← collapse, htidy]

theorem callable?_of_constructor? {item : MemberSyntax} {signature : Signature}
    (h : item.constructor? = some signature) : item.callable? = none := by
  cases item with
  | constructor parameters specifiers => rfl
  | function name parameters specifiers returns => nomatch h
  | modifier name parameters specifiers => nomatch h
  | event name parameters isAnonymous => nomatch h

/-- What one member adds: the constructor is kept aside, and a callable member goes onto the others. -/
theorem signaturesOnto_cons {item : MemberSyntax} (h : item.WellFormed) (ending : Ending)
    {kept : Option Signature} (hone : kept = none ∨ item.constructor? = none) (done : List Signature)
    (rest : List Member) :
    signaturesOnto kept done (⟨item.header, ending⟩ :: rest) =
      signaturesOnto (kept.or item.constructor?) (item.callable?.toList ++ done) rest := by
  have hopened := readOpened_header h
  have hcallable := readCallable_header h ending
  cases hconstructor : item.constructor? with
  | some signature =>
    obtain rfl := hone.resolve_right (by simp [hconstructor])
    rw [hconstructor, Option.map_some] at hopened
    obtain ⟨more, hmore, hread⟩ := Option.map_eq_some_iff.1 hopened
    rw [signaturesOnto, callable?_of_constructor? hconstructor]
    simp only [Option.isNone_none, if_true, hmore, hread]
    rfl
  | none =>
    rw [hconstructor, Option.map_none, Option.map_eq_none_iff] at hopened
    rw [signaturesOnto, hcallable]
    simp only [hopened, ite_self, Option.or_none]
    cases item.callable? with
    | none => rfl
    | some signature => rfl

theorem signaturesOnto_written {items : List MemberSyntax} {body : List WrittenMember}
    (hwritten : List.Forall₂ Writes items body) (hvalid : ∀ item ∈ items, item.WellFormed) (kept : Option Signature)
    (hone : (kept.toList ++ items.filterMap constructor?).length ≤ 1) (done : List Signature) :
    signaturesOnto kept done (body.map WrittenMember.member) =
      kept.toList ++ items.filterMap constructor? ++ done.reverse ++ items.filterMap callable? := by
  induction hwritten generalizing kept done with
  | nil => simp [signaturesOnto]
  | cons hhead htail ih =>
    next item written items body =>
    rw [List.forall_mem_cons] at hvalid
    rw [List.map_cons, hhead.member hvalid.1]
    cases hconstructor : item.constructor? with
    | some signature =>
      rw [List.filterMap_cons_some hconstructor, List.length_append, List.length_cons] at hone
      have hkept : kept = none := by
        cases kept with
        | none => rfl
        | some signature =>
          rw [Option.toList_some, List.length_singleton] at hone
          omega
      have hrest : items.filterMap constructor? = [] := List.length_eq_zero_iff.1 (by omega)
      have hlength : ((some signature).toList ++ items.filterMap constructor?).length ≤ 1 := by simp [hrest]
      subst hkept
      rw [signaturesOnto_cons hvalid.1 _ (.inl rfl), hconstructor, Option.none_or, ih hvalid.2 _ hlength,
        callable?_of_constructor? hconstructor, List.filterMap_cons_some hconstructor,
        List.filterMap_cons_none (callable?_of_constructor? hconstructor)]
      rfl
    | none =>
      rw [List.filterMap_cons_none hconstructor] at hone
      rw [signaturesOnto_cons hvalid.1 _ (.inr hconstructor), hconstructor, Option.or_none, ih hvalid.2 _ hone,
        List.filterMap_cons_none hconstructor]
      cases hcallable : item.callable? with
      | none => rw [List.filterMap_cons_none hcallable, Option.toList_none, List.nil_append]
      | some signature => simp [List.filterMap_cons_some hcallable]

/-- The signatures and the events of a body are those it was written from: the constructor first, if there is one, and
then the functions and modifiers in order. -/
theorem signatures_written {items : List MemberSyntax} {body : List WrittenMember}
    (hwritten : List.Forall₂ Writes items body) (hvalid : ∀ item ∈ items, item.WellFormed)
    (hone : (items.filterMap constructor?).length ≤ 1) {trailing : List Char}
    (htrailing : ∀ c ∈ trailing, isBlank c = true) :
    signatures (body.flatMap WrittenMember.text ++ trailing) =
        items.filterMap constructor? ++ items.filterMap callable? ∧
      events (body.flatMap WrittenMember.text ++ trailing) = items.filterMap event? := by
  have hbody : ∀ written ∈ body, written.WellFormed := by
    clear hone
    induction hwritten with
    | nil => exact fun written hmem => absurd hmem List.not_mem_nil
    | cons hhead htail ih =>
      rw [List.forall_mem_cons] at hvalid
      exact List.forall_mem_cons.2 ⟨hhead.wellFormed hvalid.1, ih hvalid.2⟩
  have hmembers := WrittenMember.members_flatMap hbody htrailing
  refine ⟨?_, ?_⟩
  · rw [signatures, hmembers, signaturesOnto_written hwritten hvalid none hone]
    simp
  · rw [events, hmembers]
    clear hmembers hone
    induction hwritten with
    | nil => rfl
    | cons hhead htail ih =>
      rw [List.forall_mem_cons] at hvalid hbody
      rw [List.map_cons, hhead.member hvalid.1, List.filterMap_cons, List.filterMap_cons, readEvent_header hvalid.1,
        ih hvalid.2 hbody.2]

/-- A function over several lines with nested mappings, a constructor behind it, and an event with an unnamed
parameter. -/
theorem signatures_written_vault :
    let accounts : TypeSyntax := .mapping (.word "address".toList []) (.payable ["2".toList]) []
    let pay : MemberSyntax :=
      .function "pay".toList [⟨accounts, some "storage".toList, some "book".toList⟩]
        [.mutability "view".toList, .invocation "onlyOwner".toList, .visibility "external".toList]
        (some [⟨.payable [], none, none⟩])
    let create : MemberSyntax := .constructor [] []
    let paid : MemberSyntax := .event "Paid".toList [⟨.payable [], true, none⟩] false
    let body : List WrittenMember := [
      ⟨"\n  function pay(mapping(address => address payable[2])\n storage book)\n  view onlyOwner external".toList ++
        "\n  returns (address payable)".toList, .block "if (x) \x7b y; \x7d".toList⟩,
      ⟨"constructor()".toList, .block []⟩, ⟨" event  Paid(address payable indexed)".toList, .semicolon⟩]
    (∀ item ∈ [pay, create, paid], item.WellFormed) ∧ List.Forall₂ Writes [pay, create, paid] body ∧
      signatures (body.flatMap WrittenMember.text ++ ['\n']) = [
        { name := "constructor", isConstructor := true },
        { name := "pay", visibility := "external", mutability := "view"
          parameters := [⟨"book", "mapping(address => address payable[2])"⟩]
          returns := [⟨"", "address payable"⟩] }] := by
  intro accounts pay create paid body
  have hvalid : ∀ item ∈ [pay, create, paid], item.WellFormed := by decide +kernel
  have hwritten : List.Forall₂ Writes [pay, create, paid] body :=
    .cons ⟨by decide +kernel, by decide +kernel⟩ (.cons ⟨by decide +kernel, by decide +kernel⟩
      (.cons ⟨by decide +kernel, trivial⟩ .nil))
  have htrailing : ∀ c ∈ ['\n'], isBlank c = true := List.forall_mem_singleton.2 (by decide)
  exact ⟨hvalid, hwritten, (signatures_written hwritten hvalid (by decide) htrailing).1⟩

end MemberSyntax

end ContractMigration.Solidity
