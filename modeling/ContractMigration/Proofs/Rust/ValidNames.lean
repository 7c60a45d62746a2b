import ContractMigration.Proofs.Rust.Numbering

/-!
# Names that the generated program may use

Handlers and contexts of plain names are made of letters, digits and underscores, but not all of them may stand as
names: underscores in front of a function's name are dropped, whatever stands behind them. So what decides is the first
character of the name that is not an underscore. Snake case and numbers keep it (`initial_snake`), a handler begins with
it, and a context begins with its capital (`head?_pascal`). A digit there ends up in front, and a name of underscores
alone leaves nothing to begin a context with. `names_valid_iff` says that nothing else can go wrong.
-/

namespace ContractMigration

namespace Naming

open Text

/-! ### Plain names -/

/-- An ASCII letter, a digit or an underscore. -/
def isPlainChar (c : Char) : Bool :=
  c.isAlphanum || c == '_'

/-- Whether a text is a name: ASCII letters, digits and underscores, and no digit in front. -/
def isPlainName : List Char → Bool
  | [] => false
  | c :: rest => (c.isAlpha || c == '_') && rest.all isPlainChar

theorem toNat_lt_of_isPlainChar {c : Char} (h : isPlainChar c = true) : c.toNat < 128 := by
  simp only [isPlainChar, Char.isAlphanum, Bool.or_eq_true, beq_iff_eq] at h
  rcases h with (halpha | hdigit) | rfl
  · exact Solidity.toNat_lt_of_isAlpha halpha
  · exact toNat_lt_of_isDigit hdigit
  · decide

/-- What holds of the plain ones among the first 128 characters holds of every plain character. -/
theorem forall_plain {p : Char → Prop} (h : ∀ n < 128, isPlainChar (Char.ofNat n) = true → p (Char.ofNat n)) {c : Char}
    (hc : isPlainChar c = true) : p c :=
  forall_ascii (p := fun c => isPlainChar c = true → p c) h (toNat_lt_of_isPlainChar hc) hc

theorem isPlainName_iff {name : List Char} :
    isPlainName name = true ↔ (∀ c ∈ name, isPlainChar c = true) ∧ ∃ c ∈ name.head?, c.isDigit = false := by
  cases name with
  | nil => simp [isPlainName]
  | cons c rest =>
    have hdigit : isPlainChar c = true → ((c.isAlpha || c == '_') = true ↔ c.isDigit = false) :=
      fun hc => forall_plain (p := fun c => (c.isAlpha || c == '_') = true ↔ c.isDigit = false) (by decide) hc
    have hplain : (c.isAlpha || c == '_') = true → isPlainChar c = true := by
      simp only [isPlainChar, Char.isAlphanum, Bool.or_eq_true]
      exact fun h => h.imp_left .inl
    simp only [isPlainName, Bool.and_eq_true, List.all_eq_true, List.forall_mem_cons, List.head?_cons, Option.mem_def,
      Option.some.injEq, exists_eq_left']
    grind

theorem ascii_of_isPlainName {name : List Char} (h : isPlainName name = true) : ∀ c ∈ name, c.toNat < 128 :=
  fun c hc => toNat_lt_of_isPlainChar ((isPlainName_iff.1 h).1 c hc)

/-! ### The first character that counts -/

/-- The first character of a name that is not an underscore. -/
def initial (name : List Char) : Option Char :=
  (name.dropWhile (· == '_')).head?

theorem initial_underscore (rest : List Char) : initial ('_' :: rest) = initial rest := rfl

theorem initial_cons {c : Char} (h : c ≠ '_') (rest : List Char) : initial (c :: rest) = some c := by
  rw [initial, List.dropWhile_cons_of_neg (by simpa using h), List.head?_cons]

/-- What follows the first character matters only if that is an underscore. -/
theorem initial_cons_congr (c : Char) {left right : List Char} (h : initial left = initial right) :
    initial (c :: left) = initial (c :: right) := by
  by_cases hc : c = '_'
  · rw [hc, initial_underscore, initial_underscore, h]
  · rw [initial_cons hc, initial_cons hc]

theorem mem_of_initial {name : List Char} {c : Char} (h : initial name = some c) : c ∈ name :=
  (List.dropWhile_suffix _).subset (List.mem_of_head? h)

theorem ne_of_initial {name : List Char} {c : Char} (h : initial name = some c) : c ≠ '_' := by
  have hnot := List.head?_dropWhile_not (· == '_') name
  rw [initial] at h
  rw [h] at hnot
  simpa using hnot

theorem initial_split (name : List Char) : initial (splitHumps (splitAcronyms name)) = initial name := by
  rw [split_eq]
  induction name with
  | nil => rfl
  | cons c rest ih =>
    cases hends : endsWord c rest with
    | true =>
      have hc : c ≠ '_' := by
        rintro rfl
        exact absurd hends (by simp [endsWord, endsHump, endsAcronym, isSmall, isCapital])
      rw [insertBreaks_of_break hends, initial_cons hc, initial_cons hc]
    | false =>
      rw [insertBreaks_of_not_break hends]
      exact initial_cons_congr c ih

theorem initial_map_toLower {text : List Char} (h : ∀ c ∈ text, c.toNat < 128) :
    initial (text.map Char.toLower) = (initial text).map Char.toLower := by
  induction text with
  | nil => rfl
  | cons c text ih =>
    rw [List.forall_mem_cons] at h
    by_cases hc : c = '_'
    · rw [hc, initial_underscore, ← ih h.2]
      rfl
    · have hlower : c.toLower ≠ '_' :=
        forall_ascii (p := fun c => c ≠ '_' → c.toLower ≠ '_') (by decide) h.1 hc
      rw [List.map_cons, initial_cons hlower, initial_cons hc, Option.map_some]

theorem initial_append {name : List Char} {c : Char} (h : initial name = some c) (more : List Char) :
    initial (name ++ more) = some c := by
  induction name with
  | nil => exact absurd h (by simp [initial])
  | cons d name ih =>
    by_cases hd : d = '_'
    · rw [hd, initial_underscore] at h
      rw [hd, List.cons_append, initial_underscore, ih h]
    · rw [initial_cons hd] at h
      rw [List.cons_append, initial_cons hd, h]

theorem initial_append_of_none {name : List Char} (h : initial name = none) (more : List Char) :
    initial (name ++ more) = initial more := by
  induction name with
  | nil => rfl
  | cons d name ih =>
    by_cases hd : d = '_'
    · rw [hd, initial_underscore] at h
      rw [hd, List.cons_append, initial_underscore, ih h]
    · exact absurd h (by simp [initial_cons hd])

section Ascii

variable {name : List Char} (h : ∀ c ∈ name, c.toNat < 128)
include h

theorem initial_brokenUp : initial (brokenUp name) = (initial name).map Char.toLower := by
  rw [brokenUp, initial_map_toLower (ascii_split h), initial_split]

theorem initial_snake : initial (snake name) = (initial name).map Char.toLower := by
  rw [← initial_brokenUp h, snake_brokenUp h, snake_of_lowered (isLowered_brokenUp h)]
  split
  · rfl
  · rw [initial, initial, List.dropWhile_idempotent]

/-- Snake case begins with the first character that is not an underscore, if there is one. -/
theorem head?_snake {c : Char} (hinitial : initial name = some c) : (snake name).head? = some c.toLower := by
  have hbroken := initial_brokenUp h
  rw [hinitial, Option.map_some] at hbroken
  rw [snake_brokenUp h, snake_of_lowered (isLowered_brokenUp h), if_neg]
  · exact hbroken
  · intro hnil
    exact absurd hbroken (by simp [initial, hnil])

end Ascii

theorem snake_of_initial_eq_none {name : List Char} (hinitial : initial name = none) : snake name = name := by
  have hdrop : name.dropWhile (· == '_') = [] := List.head?_eq_none_iff.1 hinitial
  have hlowered : IsLowered name := by
    intro c hc
    have hunderscore := List.dropWhile_eq_nil_iff.1 hdrop c hc
    rw [beq_iff_eq] at hunderscore
    exact hunderscore ▸ (by decide)
  rw [snake_of_lowered hlowered, if_pos hdrop]

/-- Pascal case begins with the capital of the first character that is not an underscore. -/
theorem head?_pascal {name : List Char} (h : IsLowered name) :
    (pascal name).head? = (initial name).map Char.toUpper := by
  rw [pascal_of_lowered h]
  induction name with
  | nil => rfl
  | cons c name ih =>
    rw [IsLowered, List.forall_mem_cons] at h
    by_cases hc : c = '_'
    · have hpieces := pieces_append_cons (p := (· == '_')) (beq_self_eq_true '_') [] name
      rw [List.nil_append] at hpieces
      rw [hc, hpieces, initial_underscore, ← ih h.2]
      rfl
    · obtain ⟨first, others, hsplit⟩ := List.exists_cons_of_ne_nil (List.splitOnP_ne_nil (· == '_') name)
      rw [List.splitOnP_cons_eq_if_modifyHead, if_neg (by simpa using hc), hsplit, initial_cons hc,
        List.modifyHead_cons, List.filter_cons_of_pos rfl, List.flatMap_cons, upperFirst, upperChar, if_pos h.1.1]
      rfl

/-! ### Characters of the cases -/

theorem isPlainChar_snake {name : List Char} (h : ∀ c ∈ name, isPlainChar c = true) :
    ∀ c ∈ snake name, isPlainChar c = true := by
  have hascii : ∀ c ∈ name, c.toNat < 128 := fun c hc => toNat_lt_of_isPlainChar (h c hc)
  have hbroken : ∀ c ∈ brokenUp name, isPlainChar c = true := by
    refine List.forall_mem_map.2 fun c hc => ?_
    have hplain : isPlainChar c = true := by
      rcases mem_split c hc with hname | rfl
      · exact h c hname
      · decide
    exact forall_plain (p := fun c => isPlainChar c.toLower = true) (by decide) hplain
  rw [snake_brokenUp hascii, snake_of_lowered (isLowered_brokenUp hascii)]
  split
  · exact hbroken
  · exact fun c hc => hbroken c ((List.dropWhile_suffix _).subset hc)

theorem isPlainChar_pascal {name : List Char} (h : ∀ c ∈ name, isPlainChar c = true) :
    ∀ c ∈ pascal name, isPlainChar c = true := by
  intro c hc
  obtain ⟨piece, hpiece, hmem⟩ := List.mem_flatMap.1 hc
  have hplain : ∀ d ∈ piece, isPlainChar d = true := fun d hd =>
    isPlainChar_snake h d (subset_of_mem_splitOnP (List.mem_filter.1 hpiece).1 hd)
  cases piece with
  | nil => exact absurd hmem List.not_mem_nil
  | cons d rest =>
    rw [List.forall_mem_cons] at hplain
    rw [upperFirst, upperChar, if_pos (toNat_lt_of_isPlainChar hplain.1), List.singleton_append, List.mem_cons] at hmem
    rcases hmem with rfl | hrest
    · exact forall_plain (p := fun c => isPlainChar c.toUpper = true) (by decide) hplain.1
    · exact hplain.2 c hrest

end Naming

open Naming

/-! ### What is given to one function -/

/-- Both names of an instruction may stand in the program. -/
structure HandlerName.Valid (names : HandlerName) : Prop where
  handler : isPlainName names.handler.toList = true
  context : isPlainName names.context.toList = true

/-- Both names of an instruction are made of letters, digits and underscores. -/
structure HandlerName.Plain (names : HandlerName) : Prop where
  handler : ∀ c ∈ names.handler.toList, isPlainChar c = true
  context : ∀ c ∈ names.context.toList, isPlainChar c = true

theorem isPlainChar_contextCandidate {base : String} (h : ∀ c ∈ base.toList, isPlainChar c = true) (n : Nat) :
    ∀ c ∈ (contextCandidate base n).toList, isPlainChar c = true := by
  induction n with
  | zero => exact h
  | succ n ih =>
    rw [contextCandidate, String.toList_append]
    exact List.forall_mem_append.2 ⟨ih, List.all_eq_true.1 (by decide)⟩

theorem head?_contextCandidate {base : String} {c : Char} (h : base.toList.head? = some c) (n : Nat) :
    (contextCandidate base n).toList.head? = some c := by
  induction n with
  | zero => exact h
  | succ n ih => rw [contextCandidate, String.toList_append, List.head?_append, ih, Option.some_or]

/-- A name that a handler may get is the base, perhaps with a number behind it. -/
theorem Numbered.toList_eq {taken : List String} {base name : String} (h : Numbered taken base name) :
    name = base ∨ ∃ digits, name.toList = base.toList ++ '_' :: digits ∧ digits ≠ [] ∧
      ∀ c ∈ digits, c.isDigit = true := by
  cases h with
  | plain _ => exact .inl rfl
  | @number n _ _ _ _ => exact .inr ⟨_, numbered_toList base n, toString_toList_ne_nil n, isDigit_toString n⟩

theorem Suffixed.exists_eq {taken : List String} {base name : String} (h : Suffixed taken base name) :
    ∃ n, name = contextCandidate base n ∧ ∀ k < n, contextCandidate base k ∈ taken := by
  cases h with
  | @suffixes n _ hleast => exact ⟨n, rfl, hleast⟩

namespace Given

variable {handlers contexts : List String} {function : String} {names : HandlerName}

/-- The handler is the snake case of the function, perhaps with a number behind it. -/
theorem handler_eq (hgiven : Given handlers contexts function names) :
    names.handler.toList = snake function.toList ∨
    ∃ digits, names.handler.toList = snake function.toList ++ '_' :: digits ∧ digits ≠ [] ∧
      ∀ c ∈ digits, c.isDigit = true := by
  have hcases := hgiven.handler.toList_eq
  rw [toList_snakeCase] at hcases
  exact hcases.imp_left fun heq => by rw [heq, toList_snakeCase]

variable (hname : isPlainName function.toList = true) (hgiven : Given handlers contexts function names)
include hname hgiven

theorem plain : names.Plain := by
  have hsnake := isPlainChar_snake (isPlainName_iff.1 hname).1
  have hhandler : ∀ c ∈ names.handler.toList, isPlainChar c = true := by
    obtain heq | ⟨digits, heq, -, hdigits⟩ := hgiven.handler_eq
    · rwa [heq]
    · rw [heq]
      refine List.forall_mem_append.2 ⟨hsnake, List.forall_mem_cons.2 ⟨by decide, fun c hc => ?_⟩⟩
      simp [isPlainChar, Char.isAlphanum, hdigits c hc]
  obtain ⟨n, hcontext, -⟩ := hgiven.context.exists_eq
  refine ⟨hhandler, ?_⟩
  rw [hcontext]
  exact isPlainChar_contextCandidate (toList_pascalCase _ ▸ isPlainChar_pascal hhandler) n

/-- The Pascal case of a handler begins with the capital of the first character that is not an underscore. -/
theorem head?_pascalCase_handler :
    (pascalCase names.handler).toList.head? = (initial names.handler.toList).map Char.toUpper := by
  have hsnake := isLowered_snake (ascii_of_isPlainName hname)
  have hlowered : IsLowered names.handler.toList := by
    obtain heq | ⟨digits, heq, -, hdigits⟩ := hgiven.handler_eq
    · rwa [heq]
    · rw [heq]
      exact isLowered_numbered hsnake hdigits
  rw [toList_pascalCase, head?_pascal hlowered]

theorem head?_handler : names.handler.toList.head? = (snake function.toList).head? := by
  have hne : snake function.toList ≠ [] := by
    intro hnil
    obtain ⟨-, c, hc, -⟩ := isPlainName_iff.1 hname
    cases hinitial : initial function.toList with
    | none =>
      rw [← snake_of_initial_eq_none hinitial, hnil] at hc
      exact absurd hc (by simp)
    | some d => exact absurd (head?_snake (ascii_of_isPlainName hname) hinitial) (by simp [hnil])
  obtain heq | ⟨digits, heq, -, -⟩ := hgiven.handler_eq
  · rw [heq]
  · rw [heq, List.head?_append_of_ne_nil _ hne]

/-- A handler is valid unless a digit stands behind the underscores that the function begins with. -/
theorem handler_valid_iff :
    isPlainName names.handler.toList = true ↔ ∀ c ∈ initial function.toList, c.isDigit = false := by
  rw [isPlainName_iff, and_iff_right (plain hname hgiven).handler, head?_handler hname hgiven]
  cases hinitial : initial function.toList with
  | none =>
    rw [snake_of_initial_eq_none hinitial]
    exact iff_of_true (isPlainName_iff.1 hname).2 (by simp)
  | some c =>
    have hascii := ascii_of_isPlainName hname
    have hlower : c.toLower.isDigit = c.isDigit :=
      forall_ascii (p := fun c => c.toLower.isDigit = c.isDigit) (by decide) (hascii c (mem_of_initial hinitial))
    rw [head?_snake hascii hinitial]
    simp [hlower]

section Initial

variable {c : Char} (hinitial : initial function.toList = some c)
include hinitial

theorem initial_handler : initial names.handler.toList = some c.toLower := by
  have hsnake := initial_snake (ascii_of_isPlainName hname)
  rw [hinitial, Option.map_some] at hsnake
  obtain heq | ⟨digits, heq, -, -⟩ := hgiven.handler_eq
  · rw [heq, hsnake]
  · rw [heq, initial_append hsnake]

theorem head?_context : names.context.toList.head? = some c.toLower.toUpper := by
  obtain ⟨n, hcontext, -⟩ := hgiven.context.exists_eq
  rw [hcontext]
  refine head?_contextCandidate ?_ n
  rw [head?_pascalCase_handler hname hgiven, initial_handler hname hgiven hinitial, Option.map_some]

/-- A function whose name begins with a letter behind its underscores gets names that are valid. -/
theorem valid_of_letter (hc : c.isAlpha = true) : names.Valid := by
  have hchar : isPlainChar c = true := by simp [isPlainChar, Char.isAlphanum, hc]
  have hdigit : c.isDigit = false ∧ c.toLower.toUpper.isDigit = false :=
    forall_plain (p := fun c => c.isAlpha = true → c.isDigit = false ∧ c.toLower.toUpper.isDigit = false) (by decide)
      hchar hc
  refine ⟨(handler_valid_iff hname hgiven).2 fun d hd => ?_, isPlainName_iff.2 ⟨(plain hname hgiven).context, _,
    head?_context hname hgiven hinitial, hdigit.2⟩⟩
  obtain rfl := Option.some.inj (hinitial.symm.trans hd)
  exact hdigit.1

end Initial

/-- A function that is named by underscores alone has a handler that begins with nothing else, or with a number. -/
theorem initial_handler_of_none (hinitial : initial function.toList = none) :
    initial names.handler.toList = none ∨ ∃ d, initial names.handler.toList = some d ∧ d.isDigit = true := by
  have hsnake := initial_snake (ascii_of_isPlainName hname)
  rw [hinitial, Option.map_none] at hsnake
  obtain heq | ⟨digits, heq, hne, hdigits⟩ := hgiven.handler_eq
  · exact .inl (by rw [heq, hsnake])
  · obtain ⟨d, rest, rfl⟩ := List.exists_cons_of_ne_nil hne
    have hd := hdigits d List.mem_cons_self
    have hunderscore : d ≠ '_' := forall_digit (p := (· ≠ '_')) (by decide) hd
    refine .inr ⟨d, ?_, hd⟩
    rw [heq, initial_append_of_none hsnake, initial_underscore, initial_cons hunderscore]

/-- So nothing is left to begin a context with, or a digit. -/
theorem not_valid_of_underscores (hinitial : initial function.toList = none) (hcontexts : "" ∉ contexts) :
    ¬names.Valid := by
  intro hvalid
  obtain ⟨-, first, hfirst, hnot⟩ := isPlainName_iff.1 hvalid.context
  obtain ⟨n, hcontext, hleast⟩ := hgiven.context.exists_eq
  have hhead := head?_pascalCase_handler hname hgiven
  rw [hcontext] at hfirst
  rcases initial_handler_of_none hname hgiven hinitial with hnone | ⟨d, hdigit, hd⟩
  · rw [hnone, Option.map_none, List.head?_eq_none_iff] at hhead
    have hempty : pascalCase names.handler = "" := String.toList_injective hhead
    rw [hempty] at hfirst hleast
    cases n with
    | zero => exact absurd hfirst (by simp [contextCandidate])
    | succ n => exact hcontexts (hleast 0 (Nat.succ_pos n))
  · rw [hdigit, Option.map_some] at hhead
    obtain rfl := Option.some.inj ((head?_contextCandidate hhead n).symm.trans hfirst)
    have hupper : d.toUpper.isDigit = true := forall_digit (p := fun c => c.toUpper.isDigit = true) (by decide) hd
    exact absurd hupper (by simp [hnot])

end Given

/-! ### A whole list -/

/-- The name has a letter behind the underscores that it begins with. -/
def StartsWithLetter (function : String) : Prop :=
  ∃ c ∈ initial function.toList, c.isAlpha = true

instance (function : String) : Decidable (StartsWithLetter function) :=
  decidable_of_iff ((initial function.toList).any Char.isAlpha = true) <| by
    simp only [StartsWithLetter, Option.any_eq_true, Option.mem_def]

theorem Given.valid_iff {handlers contexts : List String} {function : String} {names : HandlerName}
    (hname : isPlainName function.toList = true) (hgiven : Given handlers contexts function names)
    (hcontexts : "" ∉ contexts) : names.Valid ↔ StartsWithLetter function := by
  refine ⟨fun hvalid => ?_, fun ⟨c, hinitial, hc⟩ => valid_of_letter hname hgiven hinitial hc⟩
  cases hinitial : initial function.toList with
  | none => exact absurd hvalid (not_valid_of_underscores hname hgiven hinitial hcontexts)
  | some c =>
    have hplain : isPlainChar c = true := (isPlainName_iff.1 hname).1 c (mem_of_initial hinitial)
    have hunderscore : c ≠ '_' := ne_of_initial hinitial
    refine ⟨c, hinitial, ?_⟩
    by_contra hletter
    have hdigit : c.isDigit = true :=
      forall_plain (p := fun c => c ≠ '_' → ¬c.isAlpha = true → c.isDigit = true) (by decide) hplain hunderscore hletter
    exact absurd hdigit (by simp [(handler_valid_iff hname hgiven).1 hvalid.handler c hinitial])

theorem plain_of_mem_handlerNames {functions : List String}
    (hnames : ∀ function ∈ functions, isPlainName function.toList = true) :
    ∀ names ∈ handlerNames functions, names.Plain := by
  intro names hmem
  obtain ⟨index, hindex⟩ := List.getElem?_of_mem hmem
  obtain ⟨function, hfunction, hgiven⟩ := given_of_getElem? _ _ _ hindex
  exact hgiven.plain (hnames function hfunction)

/-- The names of a list of plain names are made of letters, digits and underscores. A handler is valid unless a digit
stands behind the underscores that its function begins with, and all names are valid exactly when each function has a
letter there. -/
theorem names_valid_iff {functions : List String}
    (hnames : ∀ function ∈ functions, isPlainName function.toList = true) :
    (∀ names ∈ handlerNames functions, names.Plain) ∧
      (∀ (index : Nat) (function : String) (names : HandlerName), functions[index]? = some function →
        (handlerNames functions)[index]? = some names →
        (isPlainName names.handler.toList = true ↔ ∀ c ∈ initial function.toList, c.isDigit = false)) ∧
      ((∀ names ∈ handlerNames functions, names.Valid) ↔ ∀ function ∈ functions, StartsWithLetter function) := by
  refine ⟨plain_of_mem_handlerNames hnames, fun index function names hfunction hnamed => ?_,
    fun hvalid function hfunction => ?_, fun hletters names hmem => ?_⟩
  · obtain ⟨other, hother, hgiven⟩ := exists_given reservedHandlers reservedContexts hfunction
    obtain rfl := Option.some.inj (hother.symm.trans hnamed)
    exact hgiven.handler_valid_iff (hnames function (List.mem_of_getElem? hfunction))
  · obtain ⟨index, hindex⟩ := List.getElem?_of_mem hfunction
    obtain ⟨names, hnamed, hgiven⟩ := exists_given reservedHandlers reservedContexts hindex
    -- No context in front is empty, so none is free to be.
    have hcontexts : "" ∉ contextsOf ((handlerNames functions).take index) ++ reservedContexts := by
      rw [List.mem_append, contextsOf, List.mem_reverse, List.mem_map, not_or]
      refine ⟨?_, by decide⟩
      rintro ⟨other, hother, hempty⟩
      have hcontext := (hvalid other (List.mem_of_mem_take hother)).context
      rw [hempty] at hcontext
      exact absurd hcontext (by decide)
    exact (hgiven.valid_iff (hnames function hfunction) hcontexts).1 (hvalid names (List.mem_of_getElem? hnamed))
  · obtain ⟨index, hindex⟩ := List.getElem?_of_mem hmem
    obtain ⟨function, hfunction, hgiven⟩ := given_of_getElem? _ _ _ hindex
    obtain ⟨c, hinitial, hc⟩ := hletters function hfunction
    exact hgiven.valid_of_letter (hnames function hfunction) hinitial hc

/-- Underscores in front, a name that is taken and a context that is reserved. -/
theorem names_valid_token :
    let functions := ["_transferFrom", "transfer_from", "mint"]
    (∀ function ∈ functions, isPlainName function.toList = true) ∧
      (∀ function ∈ functions, StartsWithLetter function) ∧ ∀ names ∈ handlerNames functions, names.Valid := by
  intro functions
  have hnames : ∀ function ∈ functions, isPlainName function.toList = true := by decide
  have hletters : ∀ function ∈ functions, StartsWithLetter function := by decide
  exact ⟨hnames, hletters, (names_valid_iff hnames).2.2.2 hletters⟩

/-- A digit behind an underscore gets in front, and an underscore alone leaves no context. -/
theorem names_invalid_ticket :
    let functions := ["_1st", "_"]
    (∀ function ∈ functions, isPlainName function.toList = true) ∧
      handlerNames functions = [⟨"1st", "1st"⟩, ⟨"_", ""⟩] ∧ ∀ names ∈ handlerNames functions, ¬names.Valid := by
  intro functions
  have hgiven : handlerNames functions = [⟨"1st", "1st"⟩, ⟨"_", ""⟩] := by decide +kernel
  refine ⟨by decide, hgiven, ?_⟩
  rw [hgiven]
  refine List.forall_mem_cons.2 ⟨fun hvalid => ?_, List.forall_mem_singleton.2 fun hvalid => ?_⟩
  · exact absurd hvalid.handler (by decide)
  · exact absurd hvalid.context (by decide)

end ContractMigration
