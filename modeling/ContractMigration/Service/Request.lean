import ContractMigration.Json.Reader
import ContractMigration.Service.Basic
import ContractMigration.Service.Target
import ContractMigration.Text.Case

/-!
# Requests as they are sent

One frontend, for requests with a method, a target and a body that is text. A client that asks for a path with slashes
at its end is sent on to the path without them, if a route has that. An answer to a question for the head alone has no
body.
-/

namespace ContractMigration

open Validation

/-- A request. The method may be in any case; the body is the text that was sent, if any was. -/
structure Request where
  method : String
  target : Target
  body : List Char := []
deriving DecidableEq, Repr

/-- The route with a path; a line end behind the path does not matter. -/
def Route.ofPath? (path : String) : Option Route :=
  all.find? fun route => route.path == path || route.path ++ "\n" == path

/-- The target that a client ends up at: one that no route has is left for the one without slashes at its end. -/
def Target.settled (target : Target) : Target :=
  let trimmed := String.ofList (target.path.toList.reverse.dropWhile (· == '/')).reverse
  if (Route.ofPath? target.path).isNone && (Route.ofPath? trimmed).isSome then { target with path := trimmed }
  else target

namespace SourceUpload

/-- Reads an upload. -/
def check : Json → Checked SourceUpload
  | .obj members =>
    SourceUpload.mk <$> required "source" codeText (.obj members) <*>
      Validation.optional "filename" none (fun json => some <$> codeText json) (.obj members)
  | .null => .problem .missing
  | _ => .problem .notAnObject

/-- The text of a body without a byte order mark. -/
def withoutMark : List Char → List Char
  | c :: rest => if c.toNat = 0xFEFF then rest else c :: rest
  | [] => []

/-- Reads an upload from the body of a request, unless the body is beyond the limits of a reader. An offset of the body
counts as an index into it. -/
def ofBody (body : List Char) : Except Json.Excess (Checked SourceUpload) :=
  if body.isEmpty then .ok (Checked.problem .missing |>.under (.field "body"))
  else
    match Json.parseWithin .guarded (withoutMark body) with
    | .error (.beyond excess) => .error excess
    | .error (.stuck offset) => .ok (.rejected [⟨[.field "body", .index offset], .notJson⟩])
    | .ok json => .ok ((check json).under (.field "body"))

end SourceUpload

namespace Request

/-- The method of a request in capitals. -/
def verb (request : Request) : String :=
  String.ofList (Text.upper request.method.toList)

/-- A problem with its wording. -/
def inputProblem (problem : Problem) : InputProblem :=
  ⟨problem.path, problem.kind.message, problem.kind.word⟩

/-- The refusal of a request that no route answers. -/
def refusal (request : Request) (status : Nat) (detail : String) : Response :=
  if request.verb = "HEAD" then (Response.refusal status detail).withoutBody else .refusal status detail

/-- The route of a request: the one with its path, for the method of that route alone. -/
def route (request : Request) : Except Response Route :=
  match Route.ofPath? request.target.path with
  | none => .error (request.refusal 404 "Not Found")
  | some route => if request.verb = route.method then .ok route else .error (request.refusal 405 "Method Not Allowed")

/-- A number in the query of a request; of several values the last counts. -/
def number (declared : QueryNumber) (request : Request) : Except (List InputProblem) Int :=
  let found : Checked Int :=
    match request.target.query.reverse.lookup declared.name with
    | none => .accepted declared.default
    | some value => (intOfText value).andThen (within declared.limits)
  match (found.under (.field declared.name)).under (.field "query") with
  | .accepted n => .ok n
  | .rejected problems => .error (problems.map inputProblem)

/-- The upload in the body of a request. -/
def upload (request : Request) : Except InputRefusal SourceUpload :=
  match SourceUpload.ofBody request.body with
  | .ok (.accepted upload) =>
    if upload.source.length ≤ CodeText.longest then .ok upload else .error (.answered unreadable)
  | .ok (.rejected problems) => .error (.invalid (problems.map inputProblem))
  | .error _ => .error (.answered unreadable)
where
  unreadable : Response := .refusal 400 "There was an error parsing the body"

/-- The frontend for requests as they are sent. -/
def frontend : Frontend Request where
  method := verb
  path request := request.target.path
  query request := request.target.query
  shownBody := body
  route := route
  number := number
  upload := upload
  records := .standard

end Request

end ContractMigration
