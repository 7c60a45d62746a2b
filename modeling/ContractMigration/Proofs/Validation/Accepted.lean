import ContractMigration.Validation.Basic

/-!
# When a check accepts

A record is accepted when all of its fields are, a field when its value is or when it is not there and has a default,
and a list when all of its items are. The path to a problem plays no part in that.
-/

namespace ContractMigration.Validation

variable {α β : Type}

namespace Checked

@[simp] theorem map_accepted (f : α → β) (a : α) : f <$> accepted a = accepted (f a) :=
  rfl

@[simp] theorem under_accepted (step : Step) (a : α) : (accepted a).under step = accepted a :=
  rfl

theorem under_eq_accepted {x : Checked α} {step : Step} {a : α} : x.under step = accepted a ↔ x = accepted a := by
  cases x <;> simp [under]

end Checked

/-! ### Fields -/

section Fields

variable {name : String} {check : Json → Checked α} {json : Json} {a : α}

theorem required_eq_accepted :
    required name check json = .accepted a ↔ ∃ value, json.member? name = some value ∧ check value = .accepted a := by
  rw [required, Checked.under_eq_accepted]
  cases json.member? name <;> simp [Checked.problem]

theorem optional_eq_accepted {default : α} :
    Validation.optional name default check json = .accepted a ↔
      (∃ value, json.member? name = some value ∧ check value = .accepted a) ∨
        json.member? name = none ∧ a = default := by
  unfold Validation.optional
  cases json.member? name with
  | none => simp [eq_comm]
  | some value => simp [Checked.under_eq_accepted]

end Fields

/-! ### Values -/

theorem within_accepted {limits : Int × Int} {n : Int} (h : limits.1 ≤ n ∧ n ≤ limits.2) :
    within limits n = .accepted n := by
  rw [within, if_neg (Int.not_lt.2 h.1), if_neg (Int.not_lt.2 h.2)]

theorem oneOf_word {kind : List String → ProblemKind} {words : List String} {word : String} (h : word ∈ words) :
    oneOf kind id words (.str (CodeText.ofString word)) = .accepted word := by
  obtain ⟨found, hfound⟩ : ∃ found, (words.find? fun other => CodeText.ofString (id other) == CodeText.ofString word) =
      some found := Option.isSome_iff_exists.1 (List.find?_isSome.2 ⟨word, h, beq_self_eq_true _⟩)
  have hsays := List.find?_some hfound
  obtain rfl : found = word := by simpa using hsays
  rw [oneOf, hfound]

/-- A list is accepted as what its items are accepted as. -/
theorem sequenceOf_pairs {check : Json → Checked α} {pairs : List (Json × α)}
    (h : ∀ pair ∈ pairs, check pair.1 = .accepted pair.2) :
    sequenceOf check (.arr (pairs.map Prod.fst)) = .accepted (pairs.map Prod.snd) := by
  have hitems (index : Nat) : items check index (pairs.map Prod.fst) = .accepted (pairs.map Prod.snd) := by
    induction pairs generalizing index with
    | nil => rfl
    | cons pair pairs ih =>
      obtain ⟨hpair, hpairs⟩ := List.forall_mem_cons.1 h
      rw [List.map_cons, items, hpair, ih hpairs]
      rfl
  exact hitems 0

end ContractMigration.Validation
