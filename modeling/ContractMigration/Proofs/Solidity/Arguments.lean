import ContractMigration.Proofs.Solidity.MemberNames

/-!
# Arguments of invocations

Behind its parameters a function or a constructor invokes modifiers and bases, and each may have arguments. The words
of the visibility and of the mutability and the parentheses of the results are searched for in all of this text, the
arguments included. What a signature takes from the arguments is told apart from what it takes from the text around
them (`splitReturns_arguments`), and two members that differ in the arguments are read alike exactly when the words
found first and the results are the same (`InvokingMember.readSignature_arguments_iff`). For arguments without such
words they are (`InvokingMember.agree_of_plain`).
-/

namespace ContractMigration.Solidity

open Text

/-! ### The word in front of the results -/

theorem readReturns_eq_some {text more : List Char} (h : readReturns text = some more) :
    ∃ gap, text = "returns".toList ++ gap ++ '(' :: more := by
  rw [readReturns] at h
  split at h
  · exact absurd h (by simp)
  · next rest hafter =>
    split at h
    · next found hopened =>
      obtain rfl := Option.some.inj h
      refine ⟨rest.takeWhile isBlank, ?_⟩
      rw [after?_eq_some_iff.1 hafter, List.append_assoc, ← hopened, trimLeft, List.takeWhile_append_dropWhile]
    · exact absurd h (by simp)

/-- The reader looks no further than a character that is no blank and no letter of the word. -/
theorem readReturns_append_cons {d : Char} (hforeign : d ∉ "returns".toList) (hblank : isBlank d = false)
    (text rest : List Char) : readReturns (text ++ d :: rest) = (readReturns (text ++ [d])).map (· ++ rest) := by
  rw [readReturns, readReturns, after?_append_cons hforeign text rest, after?_append_cons hforeign text []]
  cases after? "returns".toList text with
  | none => rfl
  | some found =>
    simp only [Option.map_some, trimLeft, dropWhile_append_stop hblank]
    cases found.dropWhile isBlank with
    | nil => by_cases hopen : d = '(' <;> simp [hopen]
    | cons c behind => by_cases hopen : c = '(' <;> simp [hopen]

theorem findWord_readReturns_eq_some {text head more : List Char}
    (h : findWord isWordChar readReturns text = some (head, more)) : ∃ front, text = front ++ '(' :: more := by
  obtain ⟨here, rfl, hread, -⟩ := findWordFrom_eq_some h
  obtain ⟨gap, rfl⟩ := readReturns_eq_some hread
  exact ⟨head ++ ("returns".toList ++ gap), by simp⟩

/-- What opens the results in a balanced text is closed in it, unless it is what stands behind the text. -/
theorem Balanced.closed_of_findWord {text head more : List Char} {d : Char} (h : Balanced '(' ')' text)
    (hfound : findWord isWordChar readReturns (text ++ [d]) = some (head, more)) :
    more = [] ∧ d = '(' ∨ ∃ inside after, more = inside ++ ')' :: after ∧ Balanced '(' ')' inside := by
  obtain ⟨front, hfront⟩ := findWord_readReturns_eq_some hfound
  rcases List.eq_nil_or_concat more with rfl | ⟨rest, last, rfl⟩
  · exact .inl ⟨rfl, List.singleton_inj.1 (List.append_inj' hfront rfl).2⟩
  · rw [List.concat_eq_append, ← List.cons_append, ← List.append_assoc] at hfront
    obtain ⟨rfl, -⟩ := List.append_inj' hfront rfl
    obtain ⟨inside, after, rfl, hinside⟩ := h.exists_closed (by decide)
    exact .inr ⟨inside, after ++ [last], by simp, hinside⟩

/-- The parameters that stand in front of the closing parenthesis. -/
def readResults (text : List Char) : List Parameter :=
  match splitAtClosing '(' ')' text with
  | none => []
  | some (inside, _) => readParameters inside

theorem splitReturns_of_some {text head more : List Char}
    (h : findWord isWordChar readReturns text = some (head, more)) : splitReturns text = (head, readResults more) := by
  rw [splitReturns, h]
  rfl

theorem splitReturns_of_none {text : List Char} (h : findWord isWordChar readReturns text = none) :
    splitReturns text = (text, []) := by
  rw [splitReturns, h]

theorem readResults_of_balanced {inside : List Char} (h : Balanced '(' ')' inside) (after : List Char) :
    readResults (inside ++ ')' :: after) = readParameters inside := by
  rw [readResults, h.splitAtClosing (by decide)]

section Cut

variable {d : Char} (hd : d = '(' ∨ d = ')') (left right : List Char)
include hd

/-- No word goes on behind a parenthesis, and the reader looks no further. -/
theorem findWord_readReturns_cut :
    findWord isWordChar readReturns (left ++ d :: right) =
      ((findWord isWordChar readReturns (left ++ [d])).map fun (passed, found) => (passed, found ++ right)).or
        ((findWord isWordChar readReturns right).map fun (passed, found) => (left ++ d :: passed, found)) := by
  have hcuts : d ∉ "returns".toList ∧ isBlank d = false ∧ isWordChar d = false := by
    rcases hd with rfl | rfl <;> decide
  exact findWord_append_cons hcuts.2.2 (readReturns_append_cons hcuts.1 hcuts.2.1) left right

/-- A `returns` in front of the cut stays where it is. -/
theorem splitReturns_cut_some {head more : List Char}
    (h : findWord isWordChar readReturns (left ++ [d]) = some (head, more)) :
    splitReturns (left ++ d :: right) = (head, readResults (more ++ right)) := by
  apply splitReturns_of_some
  rw [findWord_readReturns_cut hd, h]
  rfl

/-- Without one the head goes on behind the cut. -/
theorem splitReturns_cut_none (h : findWord isWordChar readReturns (left ++ [d]) = none) :
    splitReturns (left ++ d :: right) = (left ++ d :: (splitReturns right).1, (splitReturns right).2) := by
  have hcut := findWord_readReturns_cut hd left right
  rw [h, Option.map_none, Option.none_or] at hcut
  cases hright : findWord isWordChar readReturns right with
  | none =>
    rw [hright] at hcut
    rw [splitReturns_of_none hcut, splitReturns_of_none hright]
  | some found =>
    rw [hright] at hcut
    rw [splitReturns_of_some hcut, splitReturns_of_some hright]

end Cut

/-! ### The text behind an opening parenthesis -/

/-- The head and the results of arguments and of what stands behind them. Both end in the arguments when a `returns`
with a parenthesis stands there. -/
def splitArguments (arguments behind : List Char) : List Char × List Parameter :=
  if (findWord isWordChar readReturns (arguments ++ [')'])).isSome then splitReturns (arguments ++ [')'])
  else (arguments ++ ')' :: (splitReturns behind).1, (splitReturns behind).2)

theorem splitReturns_close {arguments : List Char} (h : Balanced '(' ')' arguments) (behind : List Char) :
    splitReturns (arguments ++ ')' :: behind) = splitArguments arguments behind := by
  rw [splitArguments]
  cases hfound : findWord isWordChar readReturns (arguments ++ [')']) with
  | none => exact splitReturns_cut_none (.inr rfl) arguments behind hfound
  | some found =>
    obtain ⟨head, more⟩ := found
    obtain ⟨-, hclose⟩ | ⟨inside, after, rfl, hinside⟩ := h.closed_of_findWord hfound
    · exact absurd hclose (by decide)
    · rw [splitReturns_cut_some (.inr rfl) arguments behind hfound, Option.isSome_some, if_pos rfl,
        splitReturns_of_some hfound, List.append_assoc, List.cons_append, readResults_of_balanced hinside,
        readResults_of_balanced hinside]

/-- A `returns` in front of the arguments with its own parenthesis settles the head and the results. -/
theorem exists_splitReturns_before {before head more : List Char} {c : Char} (hbefore : Balanced '(' ')' before)
    (h : findWord isWordChar readReturns (before ++ ['(']) = some (head, c :: more)) :
    ∃ results, ∀ rest, splitReturns (before ++ '(' :: rest) = (head, results) := by
  obtain ⟨hnil, -⟩ | ⟨inside, after, hmore, hinside⟩ := hbefore.closed_of_findWord h
  · exact absurd hnil (List.cons_ne_nil _ _)
  · refine ⟨readParameters inside, fun rest => ?_⟩
    rw [splitReturns_cut_some (.inl rfl) before rest h, hmore, List.append_assoc, List.cons_append,
      readResults_of_balanced hinside]

/-- When `returns` is the last word in front of the arguments, they are the results. -/
theorem splitReturns_of_returns {before head arguments : List Char}
    (h : findWord isWordChar readReturns (before ++ ['(']) = some (head, [])) (harguments : Balanced '(' ')' arguments)
    (behind : List Char) :
    splitReturns (before ++ '(' :: (arguments ++ ')' :: behind)) = (head, readParameters arguments) := by
  rw [splitReturns_cut_some (.inl rfl) before _ h, List.nil_append, readResults_of_balanced harguments]

theorem splitReturns_arguments {before arguments : List Char}
    (h : findWord isWordChar readReturns (before ++ ['(']) = none) (harguments : Balanced '(' ')' arguments)
    (behind : List Char) :
    splitReturns (before ++ '(' :: (arguments ++ ')' :: behind)) =
      (before ++ '(' :: (splitArguments arguments behind).1, (splitArguments arguments behind).2) := by
  rw [splitReturns_cut_none (.inl rfl) before _ h, splitReturns_close harguments]

/-! ### The first keyword -/

/-- The first of the given words in a text, or a default. -/
def keywordOr (keywords : List (List Char)) (default text : List Char) : List Char :=
  (firstKeyword? keywords text).getD default

theorem firstKeyword?_append_cons {d : Char} (hd : isWordChar d = false) (keywords : List (List Char))
    (left right : List Char) :
    firstKeyword? keywords (left ++ d :: right) =
      (firstKeyword? keywords left).or (firstKeyword? keywords right) := by
  rw [firstKeyword?, wordRuns_append_cons hd, List.find?_append]
  rfl

/-- Behind a text the first keywords are the same when the text has one, or when they are the same by themselves. -/
theorem keywordOr_append_iff {d : Char} (hd : isWordChar d = false) (keywords : List (List Char))
    (default left right other : List Char) :
    keywordOr keywords default (left ++ d :: right) = keywordOr keywords default (left ++ d :: other) ↔
      (firstKeyword? keywords left).isSome = true ∨
        keywordOr keywords default right = keywordOr keywords default other := by
  rw [keywordOr, keywordOr, firstKeyword?_append_cons hd, firstKeyword?_append_cons hd]
  cases firstKeyword? keywords left with
  | none => simp [keywordOr]
  | some word => simp

/-! ### Members with arguments -/

/-- The headings of members that have parameters, with invocations behind them. -/
inductive Heading where
  | function (name : List Char)
  | fallback
  | receive
  | constructor
deriving DecidableEq, Repr

namespace Heading

/-- The text in front of the parameters. A function without a name is the old form of the fallback. -/
def text : Heading → List Char
  | function name => if name = [] then "function".toList else following "function".toList name
  | fallback => "fallback".toList
  | receive => "receive".toList
  | constructor => "constructor".toList

def WellFormed : Heading → Prop
  | function name => name = [] ∨ isIdentifier name = true
  | _ => True

instance : (heading : Heading) → Decidable heading.WellFormed
  | function name => inferInstanceAs (Decidable (name = [] ∨ isIdentifier name = true))
  | fallback => isTrue trivial
  | receive => isTrue trivial
  | constructor => isTrue trivial

theorem text_named {name : List Char} (hname : name ≠ []) (rest : List Char) :
    (function name).text ++ rest = following "function".toList (name ++ rest) := by
  have htext : (function name).text = following "function".toList name := if_neg hname
  rw [htext, following, following, List.append_assoc, List.cons_append]

theorem readOpened_constructor {heading : Heading} (h : heading ≠ .constructor) (rest : List Char) :
    readOpened "constructor".toList (heading.text ++ rest) = none := by
  cases heading with
  | function name =>
    by_cases hname : name = []
    · subst hname
      rfl
    · rw [text_named hname]
      rfl
  | fallback => rfl
  | receive => rfl
  | constructor => exact absurd rfl h

/-- The name of the record. -/
def name : Heading → List Char
  | function name => if name = [] then "fallback".toList else name
  | fallback => "fallback".toList
  | receive => "receive".toList
  | constructor => "constructor".toList

def role : Heading → SignatureRole
  | constructor => .constructor
  | _ => .function

/-- Whether the member is read as a signature: a name with a dollar sign is not recognised, and neither is a second
constructor. -/
def isRead (constructed : Bool) : Heading → Bool
  | function name => !name.contains '$'
  | constructor => !constructed
  | _ => true

end Heading

/-- A member up to the arguments of an invocation, and what stands behind them. -/
structure InvokingMember where
  heading : Heading
  gap : List Char
  parameters : List Char
  before : List Char
  behind : List Char
  ending : Ending
deriving DecidableEq, Repr

namespace InvokingMember

/-- What is read behind the opening parenthesis of the parameters. -/
def rest (invoking : InvokingMember) (arguments : List Char) : List Char :=
  invoking.parameters ++ ')' :: (invoking.before ++ '(' :: (arguments ++ ')' :: invoking.behind))

/-- The member with the given arguments. -/
def member (invoking : InvokingMember) (arguments : List Char) : Member :=
  ⟨invoking.heading.text ++ (invoking.gap ++ '(' :: invoking.rest arguments), invoking.ending⟩

structure WellFormed (invoking : InvokingMember) : Prop where
  heading : invoking.heading.WellFormed
  gap : ∀ c ∈ invoking.gap, isBlank c = true
  parameters : Balanced '(' ')' invoking.parameters
  before : Balanced '(' ')' invoking.before

end InvokingMember

/-- A statement that declares a variable of function type. -/
def Member.IsFunctionVariable (member : Member) : Prop :=
  member.ending = .statement ∧ (splitFunctionVariable member.text).isSome = true

instance (member : Member) : Decidable member.IsFunctionVariable :=
  inferInstanceAs (Decidable (_ ∧ _))

namespace InvokingMember

/-- The signatures of a member with two texts for the arguments agree: in the results, and in the first keywords of a
head that ends where the results are announced. -/
def Agree (invoking : InvokingMember) (first second : List Char) : Prop :=
  match findWord isWordChar readReturns (invoking.before ++ ['(']) with
  | some (_, []) => readParameters first = readParameters second
  | some (_, _ :: _) => True
  | none =>
    let left := splitArguments first invoking.behind
    let right := splitArguments second invoking.behind
    (invoking.heading = .constructor ∨ (firstKeyword? visibilityWords invoking.before).isSome = true ∨
        keywordOr visibilityWords "public".toList left.1 = keywordOr visibilityWords "public".toList right.1) ∧
      ((firstKeyword? mutabilityWords invoking.before).isSome = true ∨
        keywordOr mutabilityWords "nonpayable".toList left.1 = keywordOr mutabilityWords "nonpayable".toList right.1) ∧
      left.2 = right.2

/-- Arguments that hold no word of a visibility or mutability and announce no results. -/
structure IsPlain (arguments : List Char) : Prop where
  silent : findWord isWordChar readReturns (arguments ++ [')']) = none
  words : ∀ word ∈ wordRuns arguments, word ∉ visibilityWords ++ mutabilityWords

theorem IsPlain.keywordOr {arguments : List Char} (h : IsPlain arguments) {keywords : List (List Char)}
    (hkeywords : keywords ⊆ visibilityWords ++ mutabilityWords) (default rest : List Char) :
    keywordOr keywords default (arguments ++ ')' :: rest) = Solidity.keywordOr keywords default rest := by
  have hnone : firstKeyword? keywords arguments = none := by
    refine List.find?_eq_none.2 fun word hword => ?_
    simpa using fun hmem => h.words word hword (hkeywords hmem)
  rw [Solidity.keywordOr, firstKeyword?_append_cons (by decide), hnone, Option.none_or]
  rfl

/-- Plain arguments are of no account, unless they are the results. -/
theorem agree_of_plain {invoking : InvokingMember} {first second : List Char}
    (hbefore : (findWord isWordChar readReturns (invoking.before ++ ['('])).map Prod.snd ≠ some [])
    (hfirst : IsPlain first) (hsecond : IsPlain second) : invoking.Agree first second := by
  have hsplit : ∀ {arguments}, IsPlain arguments → splitArguments arguments invoking.behind =
      (arguments ++ ')' :: (splitReturns invoking.behind).1, (splitReturns invoking.behind).2) := by
    intro arguments hplain
    rw [splitArguments, hplain.silent]
    rfl
  have hvisibility : visibilityWords ⊆ visibilityWords ++ mutabilityWords := List.subset_append_left _ _
  have hmutability : mutabilityWords ⊆ visibilityWords ++ mutabilityWords := List.subset_append_right _ _
  rw [Agree]
  split
  · next hfound => exact absurd (congrArg (Option.map Prod.snd) hfound) hbefore
  · trivial
  · rw [hsplit hfirst, hsplit hsecond]
    simp only
    rw [hfirst.keywordOr hvisibility, hsecond.keywordOr hvisibility, hfirst.keywordOr hmutability,
      hsecond.keywordOr hmutability]
    exact ⟨.inr (.inr rfl), .inr rfl, trivial⟩

/-! ### The records -/

/-- A signature is read from its parameters, the head behind them and the results. -/
theorem readSignature_of_balanced {parameters : List Char} (h : Balanced '(' ')' parameters) (role : SignatureRole)
    (name rest : List Char) :
    readSignature role name (parameters ++ ')' :: rest) = some {
      name := String.ofList name
      visibility := match role with
        | .function => String.ofList (keywordOr visibilityWords "public".toList (splitReturns rest).1)
        | .constructor => "public"
        | .modifier => "internal"
      mutability := String.ofList (keywordOr mutabilityWords "nonpayable".toList (splitReturns rest).1)
      parameters := readParameters parameters
      returns := (splitReturns rest).2
      isConstructor := role == .constructor
      isModifier := role == .modifier } := by
  rw [readSignature, h.splitAtClosing (by decide)]
  rfl

/-- Signatures with the same name and the same parameters are the same when the words and the results are. -/
theorem readSignature_eq_iff {parameters : List Char} (h : Balanced '(' ')' parameters) (heading : Heading)
    (name rest other : List Char) :
    readSignature heading.role name (parameters ++ ')' :: rest) =
        readSignature heading.role name (parameters ++ ')' :: other) ↔
      (heading = .constructor ∨ keywordOr visibilityWords "public".toList (splitReturns rest).1 =
          keywordOr visibilityWords "public".toList (splitReturns other).1) ∧
        keywordOr mutabilityWords "nonpayable".toList (splitReturns rest).1 =
          keywordOr mutabilityWords "nonpayable".toList (splitReturns other).1 ∧
        (splitReturns rest).2 = (splitReturns other).2 := by
  rw [readSignature_of_balanced h, readSignature_of_balanced h, Option.some.injEq, Signature.mk.injEq]
  cases heading <;> simp [Heading.role, String.ofList_inj]

/-! ### The headings -/

section Headings

variable {gap : List Char} (hgap : ∀ c ∈ gap, isBlank c = true) (more : List Char)
include hgap

theorem readFunctionHead_unnamed :
    readFunctionHead ("function".toList ++ (gap ++ '(' :: more)) = some ([], more) := by
  have hword : wholeWord? "function".toList ("function".toList ++ (gap ++ '(' :: more)) =
      some (gap ++ '(' :: more) := by
    have hhead := not_isWordChar_gap_paren hgap more
    rw [wholeWord?, after?_append_self]
    refine if_neg ?_
    cases hfirst : (gap ++ '(' :: more).head? with
    | none => exact Bool.false_ne_true
    | some c => simpa using hhead c hfirst
  have hname : ('(' :: more).takeWhile isWordChar = [] := List.takeWhile_cons_of_neg (by decide)
  rw [readFunctionHead, hword]
  simp only [trimLeft_gap_paren hgap, hname, List.length_nil, List.drop_zero, trimLeft_paren]

theorem readCallable_function {name : List Char} (h : name = [] ∨ isIdentifier name = true) :
    readCallable ((Heading.function name).text ++ (gap ++ '(' :: more)) =
      if (!name.contains '$') = true then readSignature .function (Heading.function name).name more else none := by
  by_cases hempty : name = []
  · subst hempty
    show readCallable ("function".toList ++ (gap ++ '(' :: more)) = readSignature .function "fallback".toList more
    rw [readCallable, readFunction, readFunctionHead_unnamed hgap]
    rfl
  · have hrecord : (Heading.function name).name = name := if_neg hempty
    rw [Heading.text_named hempty, hrecord]
    rcases NamedKind.isName_or_dollar (h.resolve_left hempty) with ⟨hfree, hname⟩ | ⟨word, after, rfl, hword⟩
    · have hnonempty : name.isEmpty = false := by simpa using hempty
      have hcontains : (!name.contains '$') = true := by simpa using hfree
      rw [readCallable, readFunction, readFunctionHead_named hname hgap more, Option.map_some, if_pos hcontains]
      simp only [hnonempty, Bool.false_eq_true, if_false]
    · rw [List.append_assoc, List.cons_append, NamedKind.readCallable_dollar hword]
      simp

/-- A heading is recognised with its name, and a second constructor is nothing else. -/
theorem readCallable_heading {heading : Heading} (h : heading.WellFormed) :
    readCallable (heading.text ++ (gap ++ '(' :: more)) =
      if heading.isRead true = true then readSignature heading.role heading.name more else none := by
  cases heading with
  | function name => exact readCallable_function hgap more h
  | fallback =>
    have hopened := readOpened_gap_paren hgap more "fallback".toList
    have hfunction : readFunction ("fallback".toList ++ (gap ++ '(' :: more)) = none := rfl
    show readCallable ("fallback".toList ++ (gap ++ '(' :: more)) = readSignature .function "fallback".toList more
    rw [readCallable, hfunction, readSpecial, List.findSome?_cons, hopened]
    rfl
  | receive =>
    have hopened := readOpened_gap_paren hgap more "receive".toList
    have hfunction : readFunction ("receive".toList ++ (gap ++ '(' :: more)) = none := rfl
    have hfallback : readOpened "fallback".toList ("receive".toList ++ (gap ++ '(' :: more)) = none := rfl
    show readCallable ("receive".toList ++ (gap ++ '(' :: more)) = readSignature .function "receive".toList more
    rw [readCallable, hfunction, readSpecial, List.findSome?_cons, hfallback, List.findSome?_cons, hopened]
    rfl
  | constructor => rfl

end Headings

section Read

variable {invoking : InvokingMember} (h : invoking.WellFormed)
include h

/-- A constructor is a signature as long as none was read. -/
theorem readSignature_constructor (hconstructor : invoking.heading = .constructor) (constructed : Bool)
    (arguments : List Char) :
    ¬ (invoking.member arguments).IsFunctionVariable ∧ (invoking.member arguments).readSignature constructed =
      if constructed = true then none
      else readSignature invoking.heading.role invoking.heading.name (invoking.rest arguments) := by
  have htext : (invoking.member arguments).text =
      "constructor".toList ++ (invoking.gap ++ '(' :: invoking.rest arguments) := by
    rw [member, hconstructor]
    rfl
  have hvariable : ¬ (invoking.member arguments).IsFunctionVariable := by
    rintro ⟨-, hsplit⟩
    rw [htext] at hsplit
    exact Bool.false_ne_true hsplit
  have hopened := readOpened_gap_paren h.gap (invoking.rest arguments) "constructor".toList
  refine ⟨hvariable, ?_⟩
  rw [Member.readSignature, htext, hopened, hconstructor]
  cases constructed with
  | false =>
    rw [Member.readConstructor, htext, hopened]
    rfl
  | true =>
    have hcallable : (invoking.member arguments).readCallable =
        if (invoking.member arguments).IsFunctionVariable then none
        else readCallable (invoking.member arguments).text := rfl
    rw [hcallable, if_neg hvariable, htext]
    rfl

/-- Another member is a signature when its heading is recognised and it declares no variable. -/
theorem readSignature_callable (hconstructor : invoking.heading ≠ .constructor) (constructed : Bool)
    (arguments : List Char) :
    (invoking.member arguments).readSignature constructed =
      if (invoking.member arguments).IsFunctionVariable then none
      else if invoking.heading.isRead true = true then
        readSignature invoking.heading.role invoking.heading.name (invoking.rest arguments)
      else none := by
  have hopened := Heading.readOpened_constructor hconstructor (invoking.gap ++ '(' :: invoking.rest arguments)
  have hsignature : (invoking.member arguments).readSignature constructed =
      (invoking.member arguments).readCallable := by
    refine if_neg ?_
    rw [member, hopened, Option.isSome_none, Bool.and_false]
    exact Bool.false_ne_true
  have hcallable : (invoking.member arguments).readCallable =
      if (invoking.member arguments).IsFunctionVariable then none
      else readCallable (invoking.heading.text ++ (invoking.gap ++ '(' :: invoking.rest arguments)) := rfl
  rw [hsignature, hcallable, readCallable_heading h.gap _ h.heading]

theorem readSignature_member (constructed : Bool) (arguments : List Char) :
    (invoking.member arguments).readSignature constructed =
      if invoking.heading.isRead constructed = true ∧ ¬ (invoking.member arguments).IsFunctionVariable then
        readSignature invoking.heading.role invoking.heading.name (invoking.rest arguments)
      else none := by
  by_cases hconstructor : invoking.heading = .constructor
  · obtain ⟨hvariable, hread⟩ := readSignature_constructor h hconstructor constructed arguments
    have hisRead : invoking.heading.isRead constructed = !constructed := by rw [hconstructor]; rfl
    rw [hread, hisRead]
    cases constructed with
    | false => rw [if_neg Bool.false_ne_true, if_pos ⟨rfl, hvariable⟩]
    | true => rw [if_pos rfl, if_neg fun hboth => absurd hboth.1 (by decide)]
  · have hisRead : invoking.heading.isRead constructed = invoking.heading.isRead true := by
      cases hheading : invoking.heading with
      | constructor => exact absurd hheading hconstructor
      | _ => rfl
    rw [readSignature_callable h hconstructor, hisRead]
    by_cases hvariable : (invoking.member arguments).IsFunctionVariable
    · rw [if_pos hvariable, if_neg fun hboth => hboth.2 hvariable]
    · simp only [hvariable, if_false, not_false_eq_true, and_true]

theorem agree_iff {first second : List Char} (hfirst : Balanced '(' ')' first) (hsecond : Balanced '(' ')' second) :
    readSignature invoking.heading.role invoking.heading.name (invoking.rest first) =
        readSignature invoking.heading.role invoking.heading.name (invoking.rest second) ↔
      invoking.Agree first second := by
  rw [rest, rest, readSignature_eq_iff h.parameters, Agree]
  -- the results are announced by the last word in front of the arguments, before it, or not in front of them
  split
  · next hfound =>
    rw [splitReturns_of_returns hfound hfirst, splitReturns_of_returns hfound hsecond]
    simp
  · next hfound =>
    obtain ⟨results, hsplit⟩ := exists_splitReturns_before h.before hfound
    rw [hsplit, hsplit]
    simp
  · next hnone =>
    have hparen : isWordChar '(' = false := by decide
    rw [splitReturns_arguments hnone hfirst, splitReturns_arguments hnone hsecond,
      keywordOr_append_iff hparen, keywordOr_append_iff hparen]

theorem exists_readSignature_rest (arguments : List Char) :
    ∃ signature, readSignature invoking.heading.role invoking.heading.name (invoking.rest arguments) =
      some signature :=
  ⟨_, readSignature_of_balanced h.parameters _ _ _⟩

end Read

/-- Members that differ in the arguments of an invocation are read alike exactly when both are not read, because of
the heading or because they declare variables, or both are and the texts agree. -/
theorem readSignature_arguments_iff {invoking : InvokingMember} (h : invoking.WellFormed) (constructed : Bool)
    {first second : List Char} (hfirst : Balanced '(' ')' first) (hsecond : Balanced '(' ')' second) :
    (invoking.member first).readSignature constructed = (invoking.member second).readSignature constructed ↔
      invoking.heading.isRead constructed = false ∨
      ((invoking.member first).IsFunctionVariable ∧ (invoking.member second).IsFunctionVariable) ∨
      (¬ (invoking.member first).IsFunctionVariable ∧ ¬ (invoking.member second).IsFunctionVariable ∧
        invoking.Agree first second) := by
  obtain ⟨left, hleft⟩ := exists_readSignature_rest h first
  obtain ⟨right, hright⟩ := exists_readSignature_rest h second
  have hagree := agree_iff h hfirst hsecond
  rw [hleft, hright] at hagree
  rw [readSignature_member h, readSignature_member h, hleft, hright]
  by_cases hread : invoking.heading.isRead constructed = true
  · by_cases hvariable : (invoking.member first).IsFunctionVariable
    · by_cases hother : (invoking.member second).IsFunctionVariable
      · simp [hvariable, hother]
      · simp [hread, hvariable, hother]
    · by_cases hother : (invoking.member second).IsFunctionVariable
      · simp [hread, hvariable, hother]
      · simpa [hread, hvariable, hother] using hagree
  · simp [hread]

/-- A function with an invocation between its keywords, with a single name and with a call for the arguments. -/
theorem readSignature_arguments_limited :
    let invoking : InvokingMember :=
      ⟨.function "pay".toList, [], "uint256 amount".toList, " external limited".toList,
        " view returns (bool)".toList, .block⟩
    (invoking.member "amount".toList).readSignature false =
      (invoking.member "min(amount, cap)".toList).readSignature false := by
  intro invoking
  have hwellFormed : invoking.WellFormed :=
    ⟨by decide, fun c hc => absurd hc List.not_mem_nil, by decide +kernel, by decide +kernel⟩
  have hagree : invoking.Agree "amount".toList "min(amount, cap)".toList :=
    agree_of_plain (by decide +kernel) ⟨by decide +kernel, by decide +kernel⟩ ⟨by decide +kernel, by decide +kernel⟩
  exact (readSignature_arguments_iff hwellFormed false (by decide +kernel) (by decide +kernel)).2
    (.inr (.inr ⟨by decide, by decide, hagree⟩))

/-- A conversion among the arguments makes a constructor payable, and a function payable that says `view`. -/
theorem readSignature_arguments_payable :
    let mutabilities := fun body : String => (signatures body.toList).map (·.mutability)
    mutabilities "constructor(address a) Base(a) \x7b\x7d" = ["nonpayable"] ∧
      mutabilities "constructor(address a) Base(payable(a)) \x7b\x7d" = ["payable"] ∧
      mutabilities "function due(address a) external only(a) view \x7b\x7d" = ["view"] ∧
      mutabilities "function due(address a) external only(payable(a)) view \x7b\x7d" = ["payable"] := by
  decide +kernel

end InvokingMember

end ContractMigration.Solidity
