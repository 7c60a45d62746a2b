import ContractMigration.Cache.Basic

/-!
# Histories of a cache

A history is a list of events: writes, questions, removals, and the passing of time. One step per event leads from a
cache with a clock to the next one, so what holds after every history is shown step by step, and the state after two
histories in a row is the state after the second from where the first one ends.
-/

namespace ContractMigration

/-- A cache and the time. -/
structure TimedCache where
  cache : Cache := {}
  now : Int := 0
deriving DecidableEq, Repr

/-- What can happen to a cache. -/
inductive CacheEvent where
  | insert (key : String) (analysis : Analysis)
  | ask (key : String)
  | erase (key : String)
  | dropExpired
  | empty
  | wait (ticks : Int)
deriving DecidableEq, Repr

namespace TimedCache

/-- What is found under a key now. -/
def find? (timed : TimedCache) (key : String) : Option Analysis :=
  timed.cache.find? timed.now key

/-- The state after an event. -/
def step (timed : TimedCache) : CacheEvent → TimedCache
  | .insert key analysis => { timed with cache := timed.cache.insert timed.now key analysis }
  | .ask key => { timed with cache := timed.cache.afterAsking timed.now key }
  | .erase key => { timed with cache := timed.cache.erase key }
  | .dropExpired => { timed with cache := timed.cache.dropExpired timed.now }
  | .empty => { timed with cache := timed.cache.emptied }
  | .wait seconds => { timed with now := timed.now + seconds }

/-- The state after a history. -/
def run (timed : TimedCache) (events : List CacheEvent) : TimedCache :=
  events.foldl step timed

theorem run_append (timed : TimedCache) (first second : List CacheEvent) :
    timed.run (first ++ second) = (timed.run first).run second :=
  List.foldl_append

end TimedCache

end ContractMigration
