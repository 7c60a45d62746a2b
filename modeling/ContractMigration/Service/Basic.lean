import ContractMigration.Session.Basic

/-!
# The service

Five routes answer requests in JSON: the state of the service, the catalogue, the recent audit entries, an analysis and
a migration. A request is first routed, then its input is checked, then the size of its source, and only then the
session works on it; so a request that is refused leaves no trace in the cache or in the log. A migration that fails
after its analysis is still logged.

What takes a request apart, finds its route and checks its input stands in front of the service and is a parameter here
(`Frontend`), for requests of any kind. What a route gives is the answer, and a failure that no route deals with takes
its place. An answer is put into bytes behind the service, when the request has had its effect; that a text which is no
Unicode text has no such form is no part of this.
-/

namespace ContractMigration

open Validation

/-- An answer. -/
structure Response where
  status : Nat
  body : Json

/-- The state of the service. -/
structure Service where
  session : Session := { audit := some {} }
  maxSourceBytes : Int := 500000
  /-- A failure of the skeleton generator, for a service whose generator fails. -/
  skeletonFailure : Option Failure := none

/-- What can be asked for. -/
inductive Route where
  | health
  | rules
  | audit
  | analyze
  | migrate
deriving DecidableEq, Repr

namespace Route

/-- All routes. -/
def all : List Route :=
  [health, analyze, migrate, rules, audit]

/-- The path of a route. -/
def path : Route → String
  | health => "/health"
  | rules => "/rules"
  | audit => "/audit"
  | analyze => "/analyze"
  | migrate => "/migrate"

/-- The method of a route. -/
def method : Route → String
  | health => "GET"
  | rules => "GET"
  | audit => "GET"
  | analyze => "POST"
  | migrate => "POST"

end Route

/-! ### What stands in front -/

/-- A number in a query, as it is declared: its name, what it is when it is not given, and the least and the greatest
that it may be. -/
structure QueryNumber where
  name : String
  default : Int
  limits : Int × Int

/-- A problem with an input: where it is, in words, and of which kind. -/
structure InputProblem where
  path : List Step
  message : String
  word : String

/-- Why an input is not taken: it was answered already, or it did not pass its checks. -/
inductive InputRefusal where
  | answered (response : Response)
  | invalid (problems : List InputProblem)

/-- The texts of an upload. The filename may be left out. -/
structure SourceUpload where
  source : CodeText
  filename? : Option CodeText := none
deriving DecidableEq, Repr

/-- The filename of an upload. -/
def SourceUpload.filename (upload : SourceUpload) : CodeText :=
  upload.filename?.getD "Contract.sol"

/-- What stands between requests and routes. -/
structure Frontend (ρ : Type) where
  /-- The method of a request. -/
  method : ρ → String
  /-- The path of a request. -/
  path : ρ → String
  /-- The names and values in the query of a request. -/
  query : ρ → List (String × String)
  /-- The body of a request as it is shown to the sender. -/
  shownBody : ρ → List Char
  /-- The route that a request is for, or the answer to a request that is for none. -/
  route : ρ → Except Response Route
  /-- A number in the query, checked against its declaration. -/
  number : QueryNumber → ρ → Except (List InputProblem) Int
  /-- The upload in the body, checked field by field. -/
  upload : ρ → Except InputRefusal SourceUpload
  /-- What writes the records of the answers. -/
  records : RecordLibrary

/-- What is documented about what stands in front of routes. -/
structure Frontend.Documented {ρ : Type} (frontend : Frontend ρ) : Prop where
  /-- The method and the path of a route lead to that route. -/
  route_declared : ∀ request (route : Route), frontend.method request = route.method →
    frontend.path request = route.path → frontend.route request = .ok route
  /-- A number in plain digits that is within its limits is taken as it is. -/
  number_digits : ∀ (declared : QueryNumber) request (n : Nat),
    frontend.query request = [(declared.name, toString n)] → declared.limits.1 ≤ n → n ≤ declared.limits.2 →
    (Nat.toDigits 10 n).length ≤ 4300 → frontend.number declared request = .ok n
  /-- No text is longer than a text can be. -/
  upload_counted : ∀ request upload, frontend.upload request = .ok upload → upload.source.length ≤ CodeText.longest

/-! ### Answers -/

namespace Response

/-- The answer without its body. -/
def withoutBody (response : Response) : Response :=
  { response with body := .null }

/-- A refusal with one sentence. -/
def refusal (status : Nat) (detail : String) : Response :=
  ⟨status, .obj [("detail", .str detail)]⟩

/-- Writes a step of a path. -/
def stepJson : Step → Json
  | .field name => .str name
  | .index n => .int n

/-- Writes a problem. -/
def problemJson (problem : InputProblem) : Json :=
  .obj [("loc", .arr (problem.path.map stepJson)), ("msg", .str problem.message), ("type", .str problem.word)]

/-- A refusal of an input that did not pass its checks, with the beginning of the body. -/
def invalid (body : List Char) (problems : List InputProblem) : Response :=
  ⟨422, .obj [("detail", .arr (problems.map problemJson)), ("body", .str (String.ofList (body.take 100)))]⟩

end Response

/-- A failure that no route deals with: a source that has no form in bytes, or a log that is not read. -/
inductive ServiceFault where
  | unencodable (source : CodeText)
  | unreadableLog (refusal : AuditLog.Refusal)
deriving DecidableEq, Repr

/-! ### Routes -/

namespace Service

/-- The version that the service reports. -/
def version : String :=
  "1.0.0"

/-- The state of the service. -/
def healthResponse (service : Service) (now : Int) : Response :=
  let stats := service.session.cache.counts now
  ⟨200, .obj [("status", .str "ok"), ("version", .str version), ("engine", .str "heuristic-source-analyzer"),
    ("cache", .obj [("total_entries", .int stats.total), ("expired_entries", .int stats.expired),
      ("active_entries", .int stats.active)])]⟩

/-- The catalogue. -/
def rulesResponse : Response :=
  ⟨200, .arr (Concepts.entries.map MigrationRule.toJson)⟩

/-- How many entries are asked for. -/
def entryCount : QueryNumber where
  name := "count"
  default := 50
  limits := (1, 1000)

/-- Whether a source is larger than the service takes, in bytes. -/
def isTooLarge (service : Service) (source : String) : Bool :=
  decide ((source.utf8ByteSize : Int) > service.maxSourceBytes)

/-- The refusal of a source that is too large. -/
def tooLarge (service : Service) : Response :=
  .refusal 400 ("Source exceeds maximum size of " ++ toString service.maxSourceBytes ++ " bytes")

/-- The answer to a migration. -/
def migrationBody (message : String) (analysisId : CodeText) (plan error : Json) : Json :=
  .obj [("message", .str message), ("analysis_id", .str analysisId), ("report", plan), ("error", error)]

section

variable {ρ : Type} (frontend : Frontend ρ) (service : Service)

/-- The recent entries. -/
def answerEntries (request : ρ) : Except ServiceFault Response :=
  match frontend.number entryCount request with
  | .error problems => .ok (.invalid (frontend.shownBody request) problems)
  | .ok count =>
    match service.session.recentEntries count with
    | .error refusal => .error (.unreadableLog refusal)
    | .ok entries => .ok ⟨200, .obj [("entries", .arr entries)]⟩

/-- The answer to an analysis, and the service after it. -/
def answerAnalysis (now : Int) (mark : Mark) (source : String) (filename : CodeText) : Response × Service :=
  let ((analysis, entry), session) := service.session.analyze now mark source filename
  (⟨200, .obj [("message", .str "analysis_complete"), ("analysis_id", .str entry.analysisId),
    ("analysis", analysis.toJson frontend.records)]⟩, { service with session })

/-- The answer to a migration, and the service after it. When the generator fails, the analysis stays logged. -/
def answerMigration (now : Int) (mark : Mark) (source : String) (filename : CodeText) : Response × Service :=
  let (plan, session) := service.session.migrate now mark source filename
  let body := match service.skeletonFailure with
    | some failure => migrationBody "error" "" .null (.str failure.describe)
    | none => migrationBody "migration_complete" plan.audit.analysisId (plan.toJson frontend.records) .null
  (⟨200, body⟩, { service with session })

/-- Answers a request whose input is an upload. A source has a size in bytes only if it is Unicode text. -/
def answerUpload (request : ρ) (answer : String → CodeText → Response × Service) :
    Except ServiceFault Response × Service :=
  match frontend.upload request with
  | .error (.answered response) => (.ok response, service)
  | .error (.invalid problems) => (.ok (.invalid (frontend.shownBody request) problems), service)
  | .ok upload =>
    match upload.source.text? with
    | none => (.error (.unencodable upload.source), service)
    | some source =>
      if service.isTooLarge source then (.ok service.tooLarge, service)
      else
        let (response, after) := answer source upload.filename
        (.ok response, after)

/-- Answers a request, and gives the service after it. -/
def handle (now : Int) (mark : Mark) (request : ρ) : Except ServiceFault Response × Service :=
  match frontend.route request with
  | .error response => (.ok response, service)
  | .ok .health => (.ok (service.healthResponse now), service)
  | .ok .rules => (.ok rulesResponse, service)
  | .ok .audit => (answerEntries frontend service request, service)
  | .ok .analyze => answerUpload frontend service request (answerAnalysis frontend service now mark)
  | .ok .migrate => answerUpload frontend service request (answerMigration frontend service now mark)

end

end Service

end ContractMigration
