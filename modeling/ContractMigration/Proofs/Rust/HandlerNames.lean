import ContractMigration.Proofs.Rust.Casing
import Mathlib.Data.List.Nodup
import Mathlib.Data.List.Perm.Subperm

/-!
# Handlers and contexts of a list of functions

The names of a function depend on the functions in front of it alone, so numbering a beginning of a list gives a
beginning of the numbering (`handlerNames_take`). Of distinct candidates the first that is free is found
(`firstFree_not_mem`).

Numbers and suffixes leave their mark at the end of a context. A type name that ends with neither is the context of some
function exactly when it is the Pascal case of one (`mem_contexts_iff`): whatever takes the name away from that function
gives it to one in front of it.
-/

namespace ContractMigration

/-! ### The first free candidate -/

section FirstFree

variable (taken : List String) (candidate : Nat → String)

theorem firstFreeFrom_spec (tries n : Nat) :
    ∃ k, firstFreeFrom taken candidate tries n = candidate k ∧ n ≤ k ∧ k ≤ n + tries ∧
      (∀ j, n ≤ j → j < k → candidate j ∈ taken) ∧ (k < n + tries → candidate k ∉ taken) := by
  induction tries generalizing n with
  | zero => exact ⟨n, rfl, Nat.le_refl n, Nat.le_refl n, fun j hle hlt => by omega, fun hlt => by omega⟩
  | succ tries ih =>
    rw [firstFreeFrom]
    by_cases htaken : candidate n ∈ taken
    · obtain ⟨k, hfound, hle, hbound, hbefore, hfree⟩ := ih (n + 1)
      rw [if_pos (List.contains_iff_mem.2 htaken)]
      refine ⟨k, hfound, by omega, by omega, fun j hj hlt => ?_, fun hlt => hfree (by omega)⟩
      rcases Nat.eq_or_lt_of_le hj with rfl | hbehind
      · exact htaken
      · exact hbefore j hbehind hlt
    · rw [if_neg fun hcontains => htaken (List.contains_iff_mem.1 hcontains)]
      exact ⟨n, rfl, Nat.le_refl n, by omega, fun j hle hlt => by omega, fun _ => htaken⟩

/-- Only taken candidates are passed over. -/
theorem exists_firstFree_eq :
    ∃ k, firstFree taken candidate = candidate k ∧ ∀ j < k, candidate j ∈ taken := by
  obtain ⟨k, hfound, -, -, hbefore, -⟩ := firstFreeFrom_spec taken candidate taken.length 0
  exact ⟨k, hfound, fun j hlt => hbefore j (Nat.zero_le j) hlt⟩

variable {taken candidate}

theorem firstFree_of_not_mem (h : candidate 0 ∉ taken) : firstFree taken candidate = candidate 0 := by
  obtain ⟨k, hfound, hbefore⟩ := exists_firstFree_eq taken candidate
  cases k with
  | zero => exact hfound
  | succ k => exact absurd (hbefore 0 (Nat.succ_pos k)) h

/-- There are more candidates than taken names. -/
theorem firstFree_not_mem (hdistinct : Function.Injective candidate) : firstFree taken candidate ∉ taken := by
  obtain ⟨k, hfound, -, hbound, hbefore, hfree⟩ := firstFreeFrom_spec taken candidate taken.length 0
  rw [firstFree, hfound]
  rw [Nat.zero_add] at hbound hfree
  rcases Nat.lt_or_eq_of_le hbound with hlt | hlast
  · exact hfree hlt
  · intro htaken
    have hnodup : ((List.range (k + 1)).map candidate).Nodup := List.nodup_range.map hdistinct
    have hsubset : (List.range (k + 1)).map candidate ⊆ taken := by
      intro name hname
      obtain ⟨j, hj, rfl⟩ := List.mem_map.1 hname
      rcases Nat.lt_succ_iff_lt_or_eq.1 (List.mem_range.1 hj) with hlt | rfl
      · exact hbefore j (Nat.zero_le j) hlt
      · exact htaken
    have hlength := (List.subperm_of_subset hnodup hsubset).length_le
    rw [List.length_map, List.length_range] at hlength
    omega

end FirstFree

theorem length_contextCandidate (base : String) (n : Nat) :
    (contextCandidate base n).toList.length = base.toList.length + 8 * n := by
  induction n with
  | zero => rfl
  | succ n ih =>
    rw [contextCandidate, String.toList_append, List.length_append, ih]
    show base.toList.length + 8 * n + 8 = base.toList.length + 8 * (n + 1)
    omega

theorem contextCandidate_injective (base : String) : Function.Injective (contextCandidate base) := by
  intro m n heq
  have hlength := congrArg (fun name => name.toList.length) heq
  simp only [length_contextCandidate] at hlength
  omega

/-! ### Names as texts -/

theorem isDigit_toString (n : Nat) : ∀ c ∈ (toString n).toList, c.isDigit = true := by
  intro c hc
  rw [Nat.toString_eq_repr, Nat.toList_repr] at hc
  exact Nat.isDigit_of_mem_toDigits (by decide) (by decide) hc

theorem toString_toList_ne_nil (n : Nat) : (toString n).toList ≠ [] := by
  rw [Nat.toString_eq_repr, Nat.toList_repr]
  exact Nat.toDigits_ne_nil

theorem toList_snakeCase (name : String) : (snakeCase name).toList = Naming.snake name.toList :=
  String.toList_ofList

theorem toList_pascalCase (name : String) : (pascalCase name).toList = Naming.pascal name.toList :=
  String.toList_ofList

theorem numbered_toList (base : String) (n : Nat) :
    (base ++ "_" ++ toString n).toList = base.toList ++ '_' :: (toString n).toList := by
  rw [String.toList_append, String.toList_append, List.append_assoc]
  rfl

/-! ### A whole list -/

theorem length_handlerNamesFrom (handlers contexts functions : List String) :
    (handlerNamesFrom handlers contexts functions).length = functions.length := by
  induction functions generalizing handlers contexts with
  | nil => rfl
  | cons name rest ih => rw [handlerNamesFrom, List.length_cons, List.length_cons, ih]

theorem handlerNamesFrom_take (handlers contexts functions : List String) (k : Nat) :
    handlerNamesFrom handlers contexts (functions.take k) = (handlerNamesFrom handlers contexts functions).take k := by
  induction functions generalizing handlers contexts k with
  | nil => rw [List.take_nil, handlerNamesFrom, List.take_nil]
  | cons name rest ih =>
    cases k with
    | zero => rfl
    | succ k => rw [List.take_succ_cons, handlerNamesFrom, handlerNamesFrom, ih, List.take_succ_cons]

/-- The names of the first functions do not depend on those behind them. -/
theorem handlerNames_take (functions : List String) (k : Nat) :
    handlerNames (functions.take k) = (handlerNames functions).take k :=
  handlerNamesFrom_take _ _ functions k

/-! ### Type names that are contexts -/

/-- The name ends neither with a digit nor with the last letter of a suffix. Of the type names in the program only
contexts do. -/
def EndsPlain (name : String) : Prop :=
  ∀ c ∈ name.toList.getLast?, c ≠ 's' ∧ c.isDigit = false

instance (name : String) : Decidable (EndsPlain name) :=
  decidable_of_iff ((name.toList.getLast?.all fun c => c != 's' && !c.isDigit) = true) <| by
    simp only [EndsPlain, Option.all_eq_true, Option.mem_def, Bool.and_eq_true, bne_iff_ne, Bool.not_eq_true']

theorem contextCandidate_of_endsPlain {base name : String} {k : Nat} (hends : EndsPlain name)
    (h : contextCandidate base k = name) : base = name := by
  cases k with
  | zero => exact h
  | succ k =>
    have hlast : 's' ∈ name.toList.getLast? := by
      rw [← h, contextCandidate, String.toList_append, List.getLast?_append]
      rfl
    exact absurd rfl (hends 's' hlast).1

section Ascii

variable {function : String} (hascii : ∀ c ∈ function.toList, c.toNat < 128)
include hascii

theorem pascalCase_snakeCase : pascalCase (snakeCase function) = pascalCase function := by
  rw [pascalCase, toList_snakeCase, Naming.pascal_snake hascii, pascalCase]

theorem pascalCase_handlerCandidate_of_endsPlain {j : Nat}
    (hends : EndsPlain (pascalCase (handlerCandidate (snakeCase function) j))) :
    pascalCase (handlerCandidate (snakeCase function) j) = pascalCase function := by
  cases j with
  | zero => exact pascalCase_snakeCase hascii
  | succ j =>
    have hdigits := isDigit_toString (j + 2)
    have hne := toString_toList_ne_nil (j + 2)
    have hname := numbered_toList (snakeCase function) (j + 2)
    rw [toList_snakeCase] at hname
    obtain ⟨front, hfront⟩ := Naming.pascal_numbered (Naming.isLowered_snake hascii) hdigits hne
    obtain ⟨last, hlast⟩ : ∃ last, (toString (j + 2)).toList.getLast? = some last :=
      ⟨_, List.getLast?_eq_some_getLast hne⟩
    have hnumber : last ∈ (pascalCase (handlerCandidate (snakeCase function) (j + 1))).toList.getLast? := by
      rw [toList_pascalCase, handlerCandidate, hname, hfront, List.getLast?_append, hlast]
      rfl
    have hdigit := hdigits last (List.mem_of_getLast? hlast)
    exact absurd hdigit (by simp [(hends last hnumber).2])

end Ascii

section Contexts

variable {name : String} (hends : EndsPlain name)
include hends

theorem exists_pascalCase_of_mem_contexts {handlers contexts functions : List String}
    (hascii : ∀ function ∈ functions, ∀ c ∈ function.toList, c.toNat < 128)
    (h : name ∈ (handlerNamesFrom handlers contexts functions).map HandlerName.context) :
    ∃ function ∈ functions, pascalCase function = name := by
  induction functions generalizing handlers contexts with
  | nil => exact absurd h (by simp [handlerNamesFrom])
  | cons function rest ih =>
    rw [List.forall_mem_cons] at hascii
    rw [handlerNamesFrom, List.map_cons, List.mem_cons] at h
    rcases h with hfirst | hrest
    · obtain ⟨j, hhandler, -⟩ := exists_firstFree_eq handlers (handlerCandidate (snakeCase function))
      obtain ⟨k, hcontext, -⟩ := exists_firstFree_eq contexts
        (contextCandidate (pascalCase (firstFree handlers (handlerCandidate (snakeCase function)))))
      have hbase := contextCandidate_of_endsPlain hends (hcontext.symm.trans hfirst.symm)
      rw [hhandler] at hbase
      refine ⟨function, List.mem_cons_self, ?_⟩
      rw [← pascalCase_handlerCandidate_of_endsPlain hascii.1 (hbase ▸ hends), hbase]
    · obtain ⟨other, hother, hpascal⟩ := ih hascii.2 hrest
      exact ⟨other, List.mem_cons_of_mem _ hother, hpascal⟩

end Contexts

/-- While each taken handler that reads like the name has a taken context for it, a function that reads like the name
finds it taken or takes it. -/
theorem mem_contexts_of_pascalCase {name : String} {handlers contexts functions : List String}
    (hascii : ∀ function ∈ functions, ∀ c ∈ function.toList, c.toNat < 128)
    (htaken : ∀ handler ∈ handlers, pascalCase handler = name → name ∈ contexts)
    (h : ∃ function ∈ functions, pascalCase function = name) :
    name ∈ contexts ∨ name ∈ (handlerNamesFrom handlers contexts functions).map HandlerName.context := by
  induction functions generalizing handlers contexts with
  | nil => exact absurd h (by simp)
  | cons function rest ih =>
    rw [List.forall_mem_cons] at hascii
    rw [handlerNamesFrom, List.map_cons, List.mem_cons]
    simp only
    generalize hhandler : firstFree handlers (handlerCandidate (snakeCase function)) = handler
    generalize hcontext : firstFree contexts (contextCandidate (pascalCase handler)) = context
    have hgiven : pascalCase handler = name → name ∈ contexts ∨ context = name := by
      intro hpascal
      by_cases hmem : name ∈ contexts
      · exact .inl hmem
      · rw [← hcontext, firstFree_of_not_mem (by rwa [contextCandidate, hpascal])]
        exact .inr hpascal
    have hstep : ∀ other ∈ handler :: handlers, pascalCase other = name → name ∈ context :: contexts := by
      refine List.forall_mem_cons.2 ⟨fun hpascal => ?_, fun other hother hpascal => ?_⟩
      · rcases hgiven hpascal with hmem | rfl
        · exact List.mem_cons_of_mem _ hmem
        · exact List.mem_cons_self
      · exact List.mem_cons_of_mem _ (htaken other hother hpascal)
    obtain ⟨found, hfound, hpascal⟩ := h
    rcases List.mem_cons.1 hfound with rfl | hrest
    · by_cases hfree : snakeCase found ∈ handlers
      · exact .inl (htaken _ hfree ((pascalCase_snakeCase hascii.1).trans hpascal))
      · have hplain : handler = snakeCase found := by
          rw [← hhandler]
          exact firstFree_of_not_mem hfree
        rcases hgiven (by rw [hplain, pascalCase_snakeCase hascii.1, hpascal]) with hmem | hname
        · exact .inl hmem
        · exact .inr (.inl hname.symm)
    · rcases ih hascii.2 hstep ⟨found, hrest, hpascal⟩ with hmem | hlater
      · rcases List.mem_cons.1 hmem with hname | hmem
        · exact .inr (.inl hname)
        · exact .inl hmem
      · exact .inr (.inr hlater)

/-- A type name that is not reserved and that no number or suffix ends is a context exactly when some function reads
like it. -/
theorem mem_contexts_iff {name : String} (hends : EndsPlain name) (hreserved : name ∉ reservedContexts)
    {functions : List String} (hascii : ∀ function ∈ functions, ∀ c ∈ function.toList, c.toNat < 128) :
    name ∈ (handlerNames functions).map HandlerName.context ↔ ∃ function ∈ functions, pascalCase function = name := by
  refine ⟨exists_pascalCase_of_mem_contexts hends hascii, fun h => ?_⟩
  have htaken : ∀ handler ∈ reservedHandlers, pascalCase handler = name → name ∈ reservedContexts := by
    intro handler hhandler hpascal
    obtain rfl := List.mem_singleton.1 hhandler
    rw [← hpascal]
    decide
  exact (mem_contexts_of_pascalCase hascii htaken h).resolve_left hreserved

end ContractMigration
