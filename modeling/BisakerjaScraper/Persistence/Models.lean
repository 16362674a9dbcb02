import BisakerjaScraper.Python.Json
import BisakerjaScraper.Schemes.Table

/-! The rows of the scraper database.

    A datetime is the integer number of microseconds since the epoch, in UTC. A status column
    holds the value of a `StrEnum`, so it is that enumeration here. -/

namespace Bisakerja
open Schemes

/-- A timezone-aware datetime. -/
abbrev Time := ℤ

/-- `SourcePlatform`. -/
inductive SourcePlatform where | dealls | glints | jobstreet | kalibrr | kitalulus
  deriving DecidableEq

/-- `SourcePlatform.value`. -/
def SourcePlatform.value : SourcePlatform → String
  | .dealls => "dealls"
  | .glints => "glints"
  | .jobstreet => "jobstreet"
  | .kalibrr => "kalibrr"
  | .kitalulus => "kitalulus"

/-- `CanonicalJobStatus`. -/
inductive CanonicalJobStatus where | active | stale | inactive | expired | unknown
  deriving DecidableEq

/-- `CanonicalJobStatus.value`. -/
def CanonicalJobStatus.value : CanonicalJobStatus → String
  | .active => "active"
  | .stale => "stale"
  | .inactive => "inactive"
  | .expired => "expired"
  | .unknown => "unknown"

/-- A `raw_jobs` row. -/
structure RawJob where
  id : String
  scrapeRunId : String
  sourcePlatform : String
  externalId : String
  sourceUrl : Option String
  rawPayload : Dict
  metadataJson : Option Dict
  payloadHash : Option String
  scrapedAt : Time

/-- The pair a raw row is unique on. -/
def RawJob.identity (job : RawJob) : String × String := (job.sourcePlatform, job.externalId)

/-- A `job_skill_staging` row, as far as the sync payload reads it. -/
structure JobSkillStaging where
  normalizedJobId : String
  normalizedValue : String
  confidence : Option ℚ
  source : Option String

/-- A `job_requirement_staging` row, as far as the sync payload reads it. -/
structure JobRequirementStaging where
  normalizedJobId : String
  requirementType : String
  normalizedValue : String
  confidence : Option ℚ
  source : Option String

/-- A `normalized_jobs` row with its staging rows. -/
structure NormalizedJob where
  id : String
  rawJobId : Option String
  sourcePlatform : String
  externalId : String
  title : String
  companyName : String
  sourceUrl : String
  applyUrl : Option String
  status : CanonicalJobStatus
  normalizedPayload : Dict
  lastSeenAt : Time
  postedAt : Option Time
  skillsStaging : List JobSkillStaging := []
  requirementsStaging : List JobRequirementStaging := []

/-- The pair a normalized row is unique on. -/
def NormalizedJob.identity (job : NormalizedJob) : String × String :=
  (job.sourcePlatform, job.externalId)

/-- `SyncEventStatus`. -/
inductive SyncEventStatus where | pending | sent | failed | deadLetter
  deriving DecidableEq

/-- The columns `sync_events_target_job_payload_unique` spans. -/
structure EventKey where
  target : String
  normalizedJobId : String
  payloadHash : String
  deriving DecidableEq

/-- A `sync_events` row. -/
structure SyncEvent where
  id : String
  scrapeRunId : Option String
  normalizedJobId : String
  sourcePlatform : String
  externalId : String
  status : SyncEventStatus
  target : String
  payloadHash : String
  attemptCount : ℕ
  attemptedAt : Time
  completedAt : Option Time
  errorCategory : Option String
  errorMessage : Option String
  responseSummary : Option Dict
  metadataJson : Option Dict

/-- The unique key of an event. -/
def SyncEvent.key (event : SyncEvent) : EventKey :=
  ⟨event.target, event.normalizedJobId, event.payloadHash⟩

/-- The raw rows, by primary key. -/
abbrev RawJobs := Table RawJob RawJob.id

/-- The normalized rows, by primary key. -/
abbrev NormalizedJobs := Table NormalizedJob NormalizedJob.id

/-- The sync events, by their unique key. -/
abbrev SyncEvents := Table SyncEvent SyncEvent.key

/-- The job tables one sync run reads. -/
structure JobTables where
  rawJobs : RawJobs
  normalizedJobs : NormalizedJobs

/-- `job.raw_job`: the raw row a normalized row points at. -/
def JobTables.rawJob (db : JobTables) (job : NormalizedJob) : Option RawJob :=
  job.rawJobId.bind db.rawJobs.find?

end Bisakerja
