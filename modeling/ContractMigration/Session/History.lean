import ContractMigration.Session.Basic

/-!
# Histories of a session

A history is a list of requests with time passing between them. Each event has an answer, so two sessions can be
compared by their answers to one and the same history.
-/

namespace ContractMigration

/-- A session and the time. -/
structure TimedSession where
  session : Session := {}
  now : Int := 0

/-- What can happen to a session. -/
inductive SessionEvent where
  | analyze (mark : Mark) (source : String) (filename : CodeText)
  | migrate (mark : Mark) (source : String) (filename : CodeText)
  | wait (seconds : Int)
deriving DecidableEq, Repr

/-- What a session answers; the passing of time is answered with the new time. -/
inductive SessionAnswer where
  | analysed (analysis : Analysis) (record : AuditRecord)
  | migrated (plan : MigrationPlan)
  | time (now : Int)
deriving DecidableEq, Repr

namespace TimedSession

/-- The answer to an event, and the state after it. -/
def step (timed : TimedSession) : SessionEvent → SessionAnswer × TimedSession
  | .analyze mark source filename =>
    let ((analysis, record), session) := timed.session.analyze timed.now mark source filename
    (.analysed analysis record, { timed with session })
  | .migrate mark source filename =>
    let (plan, session) := timed.session.migrate timed.now mark source filename
    (.migrated plan, { timed with session })
  | .wait seconds => (.time (timed.now + seconds), { timed with now := timed.now + seconds })

/-- The answers to a history. -/
def answers (timed : TimedSession) : List SessionEvent → List SessionAnswer
  | [] => []
  | event :: rest =>
    let (answer, after) := timed.step event
    answer :: after.answers rest

/-- The state after a history. -/
def run (timed : TimedSession) (events : List SessionEvent) : TimedSession :=
  events.foldl (fun timed event => (timed.step event).2) timed

end TimedSession

end ContractMigration
