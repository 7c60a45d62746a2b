import ContractMigration.Service.Basic

/-!
# Histories of a service

A history is a list of requests with time passing between them. The skeleton generator may begin to fail and recover
while the service runs.
-/

namespace ContractMigration

/-- A service and the time. -/
structure TimedService where
  service : Service := {}
  now : Int := 0

/-- What can happen to a service. -/
inductive ServiceEvent (ρ : Type) where
  | request (mark : Mark) (request : ρ)
  | generator (failure : Option Failure)
  | wait (seconds : Int)
deriving DecidableEq, Repr

namespace TimedService

variable {ρ : Type} (frontend : Frontend ρ) (timed : TimedService)

/-- The answer to a request, and the state after it. -/
def ask (mark : Mark) (request : ρ) : Except ServiceFault Response × TimedService :=
  let answer := timed.service.handle frontend timed.now mark request
  (answer.1, { timed with service := answer.2 })

/-- The state after an event. -/
def step : ServiceEvent ρ → TimedService
  | .request mark request => (ask frontend timed mark request).2
  | .generator failure => { timed with service := { timed.service with skeletonFailure := failure } }
  | .wait seconds => { timed with now := timed.now + seconds }

/-- The state after a history. -/
def run (events : List (ServiceEvent ρ)) : TimedService :=
  events.foldl (step frontend) timed

end TimedService

end ContractMigration
