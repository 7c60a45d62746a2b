import ContractMigration.Proofs.Rust.HandlerNames

/-!
# The least number that is free

Names are given one after the other. A handler is the snake case of its function, or that text with the least number
from two upwards that nothing in front of it has taken (`Numbered`), and a context has the fewest suffixes that keep it
apart. Since the candidates of one function are pairwise distinct there always is such a name, and it is the one that is
given (`exists_given`). So no two functions of a list share a handler or a context (`handlers_fresh`,
`contexts_fresh`).
-/

namespace ContractMigration

/-! ### Candidates -/

theorem eq_of_numbered_eq {base : String} {m n : Nat} (h : base ++ "_" ++ toString m = base ++ "_" ++ toString n) :
    m = n := by
  have hdigits : Nat.toDigits 10 m = Nat.toDigits 10 n := by
    have hlists := congrArg String.toList h
    simp only [String.toList_append, List.append_cancel_left_eq] at hlists
    simpa only [Nat.toString_eq_repr, Nat.toList_repr] using hlists
  calc
    m = Nat.ofDigitChars 10 (Nat.toDigits 10 m) 0 := Nat.ofDigitChars_ten_toDigits.symm
    _ = Nat.ofDigitChars 10 (Nat.toDigits 10 n) 0 := by rw [hdigits]
    _ = n := Nat.ofDigitChars_ten_toDigits

theorem numbered_ne (base : String) (n : Nat) : base ++ "_" ++ toString n ≠ base := by
  intro heq
  have hlength := congrArg (fun name => name.toList.length) heq
  have hone : "_".toList.length = 1 := rfl
  simp only [String.toList_append, List.length_append] at hlength
  omega

theorem handlerCandidate_injective (base : String) : Function.Injective (handlerCandidate base) := by
  intro m n heq
  cases m with
  | zero =>
    cases n with
    | zero => rfl
    | succ n => exact absurd heq.symm (numbered_ne base (n + 2))
  | succ m =>
    cases n with
    | zero => exact absurd heq (numbered_ne base (m + 2))
    | succ n =>
      have hnumber := eq_of_numbered_eq heq
      omega

/-! ### What is given to one function -/

/-- The name is free: it is the text itself or, if that is taken, the text with the least number from two upwards that
is not. -/
inductive Numbered (taken : List String) (base : String) : String → Prop
  | plain (hfree : base ∉ taken) : Numbered taken base base
  | number {n : Nat} (hbase : base ∈ taken) (htwo : 2 ≤ n) (hfree : base ++ "_" ++ toString n ∉ taken)
      (hleast : ∀ k, 2 ≤ k → k < n → base ++ "_" ++ toString k ∈ taken) :
      Numbered taken base (base ++ "_" ++ toString n)

/-- The name is free, and it is the text with as few suffixes as that takes. -/
inductive Suffixed (taken : List String) (base : String) : String → Prop
  | suffixes {n : Nat} (hfree : contextCandidate base n ∉ taken) (hleast : ∀ k < n, contextCandidate base k ∈ taken) :
      Suffixed taken base (contextCandidate base n)

theorem Numbered.not_mem {taken : List String} {base name : String} (h : Numbered taken base name) : name ∉ taken := by
  cases h with
  | plain hfree => exact hfree
  | number hbase htwo hfree hleast => exact hfree

theorem Suffixed.not_mem {taken : List String} {base name : String} (h : Suffixed taken base name) : name ∉ taken := by
  cases h with
  | suffixes hfree hleast => exact hfree

theorem numbered_firstFree (taken : List String) (base : String) :
    Numbered taken base (firstFree taken (handlerCandidate base)) := by
  have hfree : firstFree taken (handlerCandidate base) ∉ taken :=
    firstFree_not_mem (handlerCandidate_injective base)
  obtain ⟨k, hfound, hbefore⟩ := exists_firstFree_eq taken (handlerCandidate base)
  rw [hfound] at hfree ⊢
  cases k with
  | zero => exact .plain hfree
  | succ k =>
    refine .number (hbefore 0 (Nat.succ_pos k)) (by omega) hfree fun j htwo hlt => ?_
    obtain ⟨j, rfl⟩ : ∃ less, j = less + 2 := ⟨j - 2, by omega⟩
    exact hbefore (j + 1) (by omega)

theorem suffixed_firstFree (taken : List String) (base : String) :
    Suffixed taken base (firstFree taken (contextCandidate base)) := by
  have hfree : firstFree taken (contextCandidate base) ∉ taken :=
    firstFree_not_mem (contextCandidate_injective base)
  obtain ⟨k, hfound, hbefore⟩ := exists_firstFree_eq taken (contextCandidate base)
  rw [hfound] at hfree ⊢
  exact .suffixes hfree hbefore

/-- The names of a function, when some handlers and contexts are taken. -/
structure Given (handlers contexts : List String) (function : String) (names : HandlerName) : Prop where
  handler : Numbered handlers (snakeCase function) names.handler
  context : Suffixed contexts (pascalCase names.handler) names.context

/-! ### A whole list -/

/-- The handlers of a list of names, the last one first. -/
def handlersOf (given : List HandlerName) : List String :=
  (given.map HandlerName.handler).reverse

/-- The contexts of a list of names, the last one first. -/
def contextsOf (given : List HandlerName) : List String :=
  (given.map HandlerName.context).reverse

/-- Each function is named by what the functions in front of it have left. -/
theorem exists_given (handlers contexts : List String) {functions : List String} {index : Nat} {function : String}
    (h : functions[index]? = some function) :
    ∃ names, (handlerNamesFrom handlers contexts functions)[index]? = some names ∧
      Given (handlersOf ((handlerNamesFrom handlers contexts functions).take index) ++ handlers)
        (contextsOf ((handlerNamesFrom handlers contexts functions).take index) ++ contexts) function names := by
  induction functions generalizing handlers contexts index with
  | nil => exact absurd h (by simp)
  | cons first rest ih =>
    rw [handlerNamesFrom]
    cases index with
    | zero =>
      obtain rfl := Option.some.inj h
      exact ⟨_, rfl, numbered_firstFree _ _, suffixed_firstFree _ _⟩
    | succ index =>
      let handler := firstFree handlers (handlerCandidate (snakeCase first))
      let context := firstFree contexts (contextCandidate (pascalCase handler))
      obtain ⟨names, hnames, hgiven⟩ := ih (handler :: handlers) (context :: contexts) h
      refine ⟨names, hnames, ?_⟩
      simpa only [List.take_succ_cons, handlersOf, contextsOf, List.map_cons, List.reverse_cons, List.append_assoc,
        List.singleton_append] using hgiven

/-- A list has no duplicates when no item occurs in front of itself. -/
theorem nodup_of_not_mem_take {α : Type} {items : List α}
    (h : ∀ index item, items[index]? = some item → item ∉ items.take index) : items.Nodup := by
  rw [List.nodup_iff_getElem?_ne_getElem?]
  intro i j hlt hbound heq
  obtain ⟨item, hitem⟩ : ∃ item, items[j]? = some item := ⟨_, List.getElem?_eq_getElem hbound⟩
  refine h j item hitem (List.mem_of_getElem? (i := i) ?_)
  rw [List.getElem?_take_of_lt hlt, heq, hitem]

/-- Keys are distinct and not taken when each is neither taken nor the key of an item in front. -/
theorem keys_fresh {α β : Type} {key : α → β} {taken : List β} {items : List α}
    (h : ∀ index item, items[index]? = some item → key item ∉ (items.take index).map key ∧ key item ∉ taken) :
    (items.map key).Nodup ∧ ∀ name ∈ items.map key, name ∉ taken := by
  refine ⟨nodup_of_not_mem_take fun index name hname => ?_, List.forall_mem_map.2 fun item hitem => ?_⟩
  · rw [List.getElem?_map] at hname
    obtain ⟨item, hitem, rfl⟩ := Option.map_eq_some_iff.1 hname
    rw [← List.map_take]
    exact (h index item hitem).1
  · obtain ⟨index, hindex⟩ := List.getElem?_of_mem hitem
    exact (h index item hindex).2

section Fresh

variable (handlers contexts functions : List String)

theorem given_of_getElem? {index : Nat} {names : HandlerName}
    (h : (handlerNamesFrom handlers contexts functions)[index]? = some names) :
    ∃ function ∈ functions, Given (handlersOf ((handlerNamesFrom handlers contexts functions).take index) ++ handlers)
      (contextsOf ((handlerNamesFrom handlers contexts functions).take index) ++ contexts) function names := by
  obtain ⟨hindex, -⟩ := List.getElem?_eq_some_iff.1 h
  rw [length_handlerNamesFrom] at hindex
  obtain ⟨other, hother, hgiven⟩ := exists_given handlers contexts (List.getElem?_eq_getElem hindex)
  obtain rfl := Option.some.inj (h.symm.trans hother)
  exact ⟨_, List.getElem_mem _, hgiven⟩

theorem handlers_fresh :
    let made := (handlerNamesFrom handlers contexts functions).map HandlerName.handler
    made.Nodup ∧ ∀ name ∈ made, name ∉ handlers := by
  refine keys_fresh fun index names hnames => ?_
  obtain ⟨function, -, hgiven⟩ := given_of_getElem? handlers contexts functions hnames
  have hfree := hgiven.handler.not_mem
  rwa [handlersOf, List.mem_append, List.mem_reverse, not_or] at hfree

theorem contexts_fresh :
    let made := (handlerNamesFrom handlers contexts functions).map HandlerName.context
    made.Nodup ∧ ∀ name ∈ made, name ∉ contexts := by
  refine keys_fresh fun index names hnames => ?_
  obtain ⟨function, -, hgiven⟩ := given_of_getElem? handlers contexts functions hnames
  have hfree := hgiven.context.not_mem
  rwa [contextsOf, List.mem_append, List.mem_reverse, not_or] at hfree

end Fresh

end ContractMigration
