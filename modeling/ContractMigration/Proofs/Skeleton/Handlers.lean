import ContractMigration.Proofs.Skeleton.Names
import ContractMigration.Proofs.Skeleton.Types

/-!
# One context for each handler

Handlers are numbered until they are apart, and contexts get suffixes until they are (`Given`). A written handler names
one context, and the program file defines the contexts from the same list of names. So exactly one of the defined
contexts is the one that a handler refers to (`handlers_matched`).
-/

namespace ContractMigration.Skeleton

/-- The names of the contexts that the program file defines, in order. -/
def definedContexts (contract : Contract) : List String :=
  (initializeDefinition contract :: contextDefinitions contract).map TypeDefinition.name

theorem definedContexts_eq (contract : Contract) :
    definedContexts contract = "Initialize" :: contextNames contract := by
  rw [definedContexts, List.map_cons, map_name_contextDefinitions]
  rfl

theorem nodup_definedContexts (contract : Contract) : (definedContexts contract).Nodup := by
  obtain ⟨hdistinct, hreserved⟩ := contextNames_fresh contract
  rw [definedContexts_eq, List.nodup_cons]
  exact ⟨fun hmem => hreserved _ hmem (by decide), hdistinct⟩

/-- The handler that creates the state refers to its own context. -/
theorem initializeHandler_eq (contractName : String) :
    ∃ rest, initializeHandler contractName = "    " ++ opening ⟨"initialize", "Initialize"⟩ ++ rest := by
  have hcut := fun after => lines_cut [] "    " (opening ⟨"initialize", "Initialize"⟩)
    ", bump: u8) -> Result<()> \x7b" after
  exact ⟨_, hcut _⟩

/-- A handler that is written out carries the names of its function, and its context is among those defined. -/
theorem exists_of_handlerTexts {contract : Contract} {index : Nat} {text : String}
    (h : (handlerTexts contract)[index]? = some text) :
    ∃ function names rest, contract.instructions[index]? = some function ∧
      (namesOf contract.instructions)[index]? = some names ∧
      text = handlerLead function ++ opening names ++ rest ∧ names.context ∈ definedContexts contract := by
  obtain ⟨function, names, hfunction, hnames, htext⟩ := List.getElem?_zipWith_eq_some.1 h
  obtain ⟨rest, hrest⟩ := handler_eq function names
  have hcontext : names.context ∈ definedContexts contract := by
    rw [definedContexts_eq]
    exact List.mem_cons_of_mem _ (List.mem_map_of_mem (List.mem_of_getElem? hnames))
  have hindex : index < mostHandlers := by
    obtain ⟨hindex, -⟩ := List.getElem?_eq_some_iff.1 hfunction
    exact lt_of_lt_of_le hindex (List.length_take_le _ _)
  rw [namesOf_take, List.getElem?_take_of_lt hindex] at hnames
  rw [List.getElem?_take_of_lt hindex] at hfunction
  exact ⟨function, names, rest, hfunction, hnames, htext ▸ hrest, hcontext⟩

/-- The names of a list of functions: a handler and a context for each, pairwise distinct and not reserved, and each as
plain as the names in front of it allow. -/
structure NamedApart (functions : List String) (given : List HandlerName) : Prop where
  length : given.length = functions.length
  handlers_nodup : (given.map HandlerName.handler).Nodup
  handlers_free : ∀ names ∈ given, names.handler ∉ reservedHandlers
  contexts_nodup : (given.map HandlerName.context).Nodup
  contexts_free : ∀ names ∈ given, names.context ∉ reservedContexts
  each : ∀ index function, functions[index]? = some function → ∃ names, given[index]? = some names ∧
    Given (handlersOf (given.take index) ++ reservedHandlers) (contextsOf (given.take index) ++ reservedContexts)
      function names

theorem namedApart_handlerNames (functions : List String) : NamedApart functions (handlerNames functions) where
  length := length_handlerNamesFrom _ _ functions
  handlers_nodup := (handlers_fresh _ _ functions).1
  handlers_free _ hnames := (handlers_fresh _ _ functions).2 _ (List.mem_map_of_mem hnames)
  contexts_nodup := (contexts_fresh _ _ functions).1
  contexts_free _ hnames := (contexts_fresh _ _ functions).2 _ (List.mem_map_of_mem hnames)
  each _ _ hfunction := exists_given _ _ hfunction

/-- Every function of a list gets a handler and a context of its own: its snake case, with the least number that makes
it free if it is not, and the Pascal case of that with as few suffixes as it takes. In the program file every handler
refers to exactly one of the contexts that are defined there. -/
theorem handlers_matched (functions : List String) (contract : Contract) (analysis : Analysis) (programName : String) :
    NamedApart functions (handlerNames functions) ∧
      programSource contract analysis programName = programLayout contract analysis programName ∧
      (∃ rest, initializeHandler contract.name = "    " ++ opening ⟨"initialize", "Initialize"⟩ ++ rest ∧
        (definedContexts contract).count "Initialize" = 1) ∧
      ∀ (index : Nat) (text : String), (handlerTexts contract)[index]? = some text →
        ∃ function names rest,
          contract.instructions[index]? = some function ∧ (namesOf contract.instructions)[index]? = some names ∧
          text = handlerLead function ++ opening names ++ rest ∧
          (definedContexts contract).count names.context = 1 := by
  have hone : ∀ {name : String}, name ∈ definedContexts contract → (definedContexts contract).count name = 1 :=
    fun hmem => List.count_eq_one_of_mem (nodup_definedContexts contract) hmem
  refine ⟨namedApart_handlerNames functions, programSource_eq contract analysis programName, ?_,
    fun index text htext => ?_⟩
  · obtain ⟨rest, hrest⟩ := initializeHandler_eq contract.name
    exact ⟨rest, hrest, hone (by rw [definedContexts_eq]; exact List.mem_cons_self)⟩
  · obtain ⟨function, names, rest, hfunction, hnames, heq, hcontext⟩ := exists_of_handlerTexts htext
    exact ⟨function, names, rest, hfunction, hnames, heq, hone hcontext⟩

/-- A number that is taken already, a handler that is reserved and a context that is. -/
theorem handlers_matched_overloaded :
    let functions := ["lock", "lock_2", "lock", "initialize", "mint"]
    NamedApart functions [⟨"lock", "Lock"⟩, ⟨"lock_2", "Lock2"⟩, ⟨"lock_3", "Lock3"⟩, ⟨"initialize_2", "Initialize2"⟩,
        ⟨"mint", "MintAccounts"⟩] ∧
      ∃ text rest, (handlerTexts overloaded)[3]? = some text ∧
        text = handlerLead { name := "mint" } ++ opening ⟨"mint", "MintAccounts"⟩ ++ rest ∧
        (definedContexts overloaded).count "MintAccounts" = 1 := by
  intro functions
  have hnames : handlerNames functions = [⟨"lock", "Lock"⟩, ⟨"lock_2", "Lock2"⟩, ⟨"lock_3", "Lock3"⟩,
      ⟨"initialize_2", "Initialize2"⟩, ⟨"mint", "MintAccounts"⟩] := by decide +kernel
  have hmint : (namesOf overloaded.instructions)[3]? = some ⟨"mint", "MintAccounts"⟩ := by decide +kernel
  obtain ⟨hapart, -, -, hmatched⟩ := handlers_matched functions overloaded { contracts := [overloaded] } "vault"
  obtain ⟨text, htext⟩ : ∃ text, (handlerTexts overloaded)[3]? = some text := ⟨_, rfl⟩
  obtain ⟨function, names, rest, hfunction, hnamed, heq, hone⟩ := hmatched 3 text htext
  have hcalled : overloaded.instructions[3]? = some { name := "mint" } := by decide
  obtain rfl := Option.some.inj (hcalled.symm.trans hfunction)
  obtain rfl := Option.some.inj (hmint.symm.trans hnamed)
  exact ⟨hnames ▸ hapart, text, rest, htext, heq, hone⟩

end ContractMigration.Skeleton
