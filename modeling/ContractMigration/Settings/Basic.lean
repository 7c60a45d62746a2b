import ContractMigration.Validation.Scalar

/-!
# Settings

The settings come from the environment. Names are compared without regard to case and unknown ones do not matter. A
variable that is set counts even when it is empty; one that is not set leaves the default.
-/

namespace ContractMigration

open Validation

/-- The settings of the service. -/
structure Settings where
  maxSourceBytes : Int := 500000
  cacheTtlSeconds : Int := 3600
  cacheMaxEntries : Int := 256
  listenOn : Int := 5001
  host : String := "0.0.0.0"
  corsOrigins : List String := ["*"]
  logLevel : String := "INFO"
  auditEnabled : Bool := true
  auditLogPath : String := "audit.jsonl"
deriving DecidableEq, Repr

/-- A variable that should hold JSON and is not read as such. -/
structure UnreadableSetting where
  field : String
  fault : Json.Fault
deriving DecidableEq, Repr

/-- The wording of an unreadable setting. -/
def UnreadableSetting.message (unreadable : UnreadableSetting) : String :=
  "error parsing value for field \"" ++ unreadable.field ++ "\" from source \"EnvSettingsSource\""

namespace Settings

/-- Writes the settings. -/
def toJson (settings : Settings) : Json :=
  .obj [("max_source_bytes", .int settings.maxSourceBytes), ("cache_ttl_seconds", .int settings.cacheTtlSeconds),
    ("cache_max_entries", .int settings.cacheMaxEntries), ("port", .int settings.listenOn),
    ("host", .str settings.host), ("cors_origins", .ofTexts settings.corsOrigins),
    ("log_level", .str settings.logLevel), ("audit_enabled", .bool settings.auditEnabled),
    ("audit_log_path", .str settings.auditLogPath)]

/-- Reads settings from the values of the variables that are set. -/
def check (json : Json) : Checked Settings :=
  Settings.mk <$> optional "max_source_bytes" 500000 integer json <*>
    optional "cache_ttl_seconds" 3600 integer json <*> optional "cache_max_entries" 256 integer json <*>
    optional "port" 5001 integer json <*> optional "host" "0.0.0.0" text json <*>
    optional "cors_origins" ["*"] (listOf text) json <*> optional "log_level" "INFO" text json <*>
    optional "audit_enabled" true boolean json <*> optional "audit_log_path" "audit.jsonl" text json

/-- The variables by their names in lower case; of several with one name the last counts. -/
def membersOf (environment : List (String × String)) : List (CodeText × Json) :=
  environment.foldl (fun members (name, value) =>
    Json.setMember members (String.ofList (Text.lower name.toList)) (.str value)) []

/-- The variable with the list of origins. -/
def originsName : String :=
  "cors_origins"

/-- The variables with the list of origins read as JSON; null counts as not set. -/
def readOrigins : List (CodeText × Json) → Except UnreadableSetting (List (CodeText × Json))
  | [] => .ok []
  | (name, value) :: rest =>
    match readOrigins rest with
    | .error reason => .error reason
    | .ok members =>
      match text value with
      | .accepted written =>
        if name == originsName then
          match Json.parseWithin .guarded written.toList with
          | .error fault => .error ⟨originsName, fault⟩
          | .ok .null => .ok members
          | .ok origins => .ok ((name, origins) :: members)
        else .ok ((name, value) :: members)
      | .rejected _ => .ok ((name, value) :: members)

/-- The settings of an environment. -/
def ofEnvironment (environment : List (String × String)) : Except UnreadableSetting (Checked Settings) :=
  (readOrigins (membersOf environment)).map fun members => check (.obj members)

end Settings

end ContractMigration
