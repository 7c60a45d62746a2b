import ContractMigration.Analysis.Json
import ContractMigration.Analysis.Recovery
import ContractMigration.Audit.Basic
import ContractMigration.Cache.Basic
import ContractMigration.Checklist.Tasks
import ContractMigration.Cost.Json
import ContractMigration.Rule.Registry
import ContractMigration.Skeleton.Json
import ContractMigration.Skeleton.Workspace

/-!
# Sessions

A session does everything that is done for one source: the analysis, taken from the cache when the same text was
analysed before, a record in the audit log, and for a migration the plan with all that follows from the analysis. The
cache is not visible in what comes out, except for the flag in the record. The time, and the mark of each analysis,
come from outside with each request.
-/

namespace ContractMigration

/-- What no computation decides about an analysis: its id and the time it took. -/
structure Mark where
  analysisId : CodeText := ""
  durationMs : Numeric.Double := .finite false 0
deriving DecidableEq, Repr

/-- Everything that is found out and made for one source. -/
structure MigrationPlan where
  analysis : Analysis
  mappings : List MigrationRule
  skeleton : Skeleton
  costs : CostReport
  checklist : Checklist
  audit : AuditRecord
deriving DecidableEq, Repr

/-- Writes a plan. -/
def MigrationPlan.toJson (library : Validation.RecordLibrary) (plan : MigrationPlan) : Json :=
  .obj [("analysis", plan.analysis.toJson library), ("mappings", .arr (plan.mappings.map MigrationRule.toJson)),
    ("skeleton", plan.skeleton.toJson), ("costs", plan.costs.toJson), ("checklist", plan.checklist.toJson),
    ("audit", plan.audit.toJson)]

/-- What is kept between two requests: the cache, the log if there is one, and the rules to run. -/
structure Session where
  cache : Cache := {}
  audit : Option AuditLog := none
  registry : List RuleModule := RuleModule.standard

namespace Session

/-- The analysis of a source, whether it was in the cache, and the cache afterwards. -/
def cachedAnalysis (cache : Cache) (now : Int) (source : String) : Analysis × Bool × Cache :=
  let key := contentHash source
  let asked := cache.afterAsking now key
  match cache.find? now key with
  | some analysis => (analysis, true, asked)
  | none =>
    let analysis := ContractMigration.analyze source.toList
    (analysis, false, asked.insert now key analysis)

/-- The record of an analysis. -/
def recordFor (mark : Mark) (filename : CodeText) (analysis : Analysis) (cacheHit : Bool) : AuditRecord where
  analysisId := mark.analysisId
  filename
  contractsFound := analysis.contracts.length
  complexity := analysis.complexity.word
  tokenStandard := analysis.tokenStandard
  errorsFound := analysis.errors.length
  cacheHit
  durationMs := mark.durationMs

/-- Analyses a source and logs it. The counts in the record are lengths of lists, so no runtime finds them too long to
be written. -/
def analyze (session : Session) (now : Int) (mark : Mark) (source : String) (filename : CodeText) :
    (Analysis × AuditRecord) × Session :=
  let (analysis, cacheHit, cache) := cachedAnalysis session.cache now source
  let record := recordFor mark filename analysis cacheHit
  ((analysis, record), { session with cache, audit := session.audit.map (AuditLog.note · now record) })

/-- Everything that follows from an analysis. -/
def plan (registry : List RuleModule) (now : Int) (source : String) (analysis : Analysis) (record : AuditRecord) :
    MigrationPlan :=
  let skeleton := Skeleton.generate analysis
  { analysis
    mappings := (runRules registry analysis).rules
    skeleton
    costs := costReport (lineCount source.toList) analysis
    checklist := Checklist.build analysis (some skeleton) now
    audit := record }

/-- Analyses a source, logs it, and makes everything that follows. -/
def migrate (session : Session) (now : Int) (mark : Mark) (source : String) (filename : CodeText) :
    MigrationPlan × Session :=
  let ((analysis, record), after) := session.analyze now mark source filename
  (plan session.registry now source analysis record, after)

/-- The recent lines of the log, if there is one. -/
def recentEntries (session : Session) (count : Int) : Except AuditLog.Refusal (List Json) :=
  match session.audit with
  | none => .ok []
  | some audit => audit.read count

end Session

end ContractMigration
