import ContractMigration.Audit.Basic

/-!
# Histories of an audit log

A history is a list of calls that log a record, with time passing between them. Each record is logged at the time that
it then is, unless its call fails.
-/

namespace ContractMigration

/-- An audit log and the time. -/
structure TimedAudit where
  audit : AuditLog := {}
  now : Int := 0
deriving DecidableEq, Repr

/-- What can happen to an audit log. -/
inductive AuditEvent where
  | note (entry : AuditRecord)
  | wait (seconds : Int)
deriving DecidableEq, Repr

namespace TimedAudit

/-- The state after an event. -/
def step (timed : TimedAudit) : AuditEvent → TimedAudit
  | .note entry => { timed with audit := timed.audit.note timed.now entry }
  | .wait seconds => { timed with now := timed.now + seconds }

/-- The state after a history. -/
def run (timed : TimedAudit) (events : List AuditEvent) : TimedAudit :=
  events.foldl step timed

/-- The records of the calls that do not fail, each with the time at which it is logged. -/
def notes (timed : TimedAudit) : List AuditEvent → List (Int × AuditRecord)
  | [] => []
  | .note entry :: rest =>
    let more := (timed.step (.note entry)).notes rest
    if (timed.audit.noteExcess? timed.now entry).isNone then (timed.now, entry) :: more else more
  | .wait seconds :: rest => (timed.step (.wait seconds)).notes rest

end TimedAudit

end ContractMigration
