import Mathlib.Data.List.Nodup
import BisakerjaScraper.Persistence.Models

/-! The canonical job.

    What a validator of the schema accepts is what these types hold: a name that must not be empty
    is a text with that fact, a salary carries its bounds, and the deduplicated lists carry their
    distinctness. -/

namespace Bisakerja

/-- `NonEmptyStr`. -/
abbrev NonEmptyStr := { s : String // s ≠ "" }

-- the texts the sample jobs are made of
theorem one_ne_empty : "1" ≠ "" := by decide
theorem nine_ne_empty : "9" ≠ "" := by decide
theorem ac_ne_empty : "Ac" ≠ "" := by decide
theorem new_ne_empty : "New" ≠ "" := by decide
theorem old_ne_empty : "Old" ≠ "" := by decide
theorem url_ne_empty : "d.id" ≠ "" := by decide
theorem row_ne_empty : "r1" ≠ "" := by decide
theorem goDeveloper_ne_empty : "Go developer" ≠ "" := by decide

/-- `WorkType`. -/
inductive WorkType where | onsite | hybrid | remote | unknown
  deriving DecidableEq

/-- `EmploymentType`. -/
inductive EmploymentType where
  | fullTime | partTime | contract | internship | freelance | unknown
  deriving DecidableEq

/-- `ExperienceLevel`. -/
inductive ExperienceLevel where | entryLevel | junior | midLevel | senior | lead | unknown
  deriving DecidableEq

/-- `SalaryPeriod`. -/
inductive SalaryPeriod where | hourly | daily | monthly | yearly | unknown
  deriving DecidableEq

/-- `WorkType.value`. -/
def WorkType.value : WorkType → String
  | .onsite => "onsite"
  | .hybrid => "hybrid"
  | .remote => "remote"
  | .unknown => "unknown"

/-- `EmploymentType.value`. -/
def EmploymentType.value : EmploymentType → String
  | .fullTime => "full_time"
  | .partTime => "part_time"
  | .contract => "contract"
  | .internship => "internship"
  | .freelance => "freelance"
  | .unknown => "unknown"

/-- `ExperienceLevel.value`. -/
def ExperienceLevel.value : ExperienceLevel → String
  | .entryLevel => "entry_level"
  | .junior => "junior"
  | .midLevel => "mid_level"
  | .senior => "senior"
  | .lead => "lead"
  | .unknown => "unknown"

/-- `SalaryPeriod.value`. -/
def SalaryPeriod.value : SalaryPeriod → String
  | .hourly => "hourly"
  | .daily => "daily"
  | .monthly => "monthly"
  | .yearly => "yearly"
  | .unknown => "unknown"

/-- `deduplicate_list`: the first of equal items stays. -/
def deduplicateList (value : List String) : List String :=
  value.foldl (fun deduplicated item =>
    if item ∈ deduplicated then deduplicated else deduplicated ++ [item]) []

theorem nodup_deduplicateList (value : List String) : (deduplicateList value).Nodup := by
  refine List.foldlRecOn (motive := List.Nodup) value _ List.nodup_nil ?_
  intro deduplicated hnodup item _
  split
  · exact hnodup
  · next hnew => exact hnodup.append (List.nodup_singleton item) (by simpa using hnew)

/-- `CompanySchema`. -/
structure CompanySchema where
  name : NonEmptyStr
  logoUrl : Option String := none
  industry : Option String := none
  sourceCompanyId : Option String := none
  sourceSlug : Option String := none

/-- `LocationSchema`. -/
structure LocationSchema where
  display : Option NonEmptyStr := none
  city : Option String := none
  region : Option String := none
  country : Option String := none
  isRemote : Option Bool := none

/-- `SalarySchema`. -/
structure SalarySchema where
  minAmount : Option ℕ := none
  maxAmount : Option ℕ := none
  currency : Option { s : String // s.length = 3 } := none
  period : Option SalaryPeriod := none
  display : Option String := none
  min_le_max : ∀ low ∈ minAmount, ∀ high ∈ maxAmount, low ≤ high

/-- `SourceMetadataSchema`. -/
structure SourceMetadataSchema where
  platform : SourcePlatform
  externalJobId : NonEmptyStr
  sourceSlug : Option String := none
  sourceUrl : NonEmptyStr
  externalApplyUrl : Option String := none
  rawPayloadHash : Option String := none
  scrapedAt : Time
  sourceUpdatedAt : Option Time := none

/-- `PresentationMetadataSchema`. -/
structure PresentationMetadataSchema where
  postedLabel : Option String := none
  salaryLabel : Option String := none
  badges : List String := []
  sourceLabels : Dict := []

/-- `CanonicalJobSchema`. -/
structure CanonicalJobSchema where
  source : SourceMetadataSchema
  title : NonEmptyStr
  normalizedTitle : Option String := none
  category : Option String := none
  company : CompanySchema
  location : LocationSchema := {}
  salary : Option SalarySchema := none
  employmentTypes : List EmploymentType := []
  workType : WorkType := .unknown
  experienceLevel : ExperienceLevel := .unknown
  description : Option String := none
  requirements : Option String := none
  skills : List String := []
  postedAt : Option Time := none
  lastSeenAt : Time
  status : CanonicalJobStatus := .unknown
  presentation : PresentationMetadataSchema := {}
  employmentTypes_nodup : employmentTypes.Nodup := by decide
  skills_nodup : skills.Nodup := by decide

/-- The pair a job is stored under. -/
def CanonicalJobSchema.identity (job : CanonicalJobSchema) : String × String :=
  (job.source.platform.value, job.source.externalJobId)

/-! ### Dumping -/

/-- An optional value dumped. -/
def dumpOption {α : Type} (dump : α → Json) : Option α → Json
  | some x => dump x
  | none => .null

/-- `SalarySchema` dumped. -/
def SalarySchema.modelDump (salary : SalarySchema) : Json :=
  .dict [("min_amount", dumpOption (fun n => .int n) salary.minAmount),
    ("max_amount", dumpOption (fun n => .int n) salary.maxAmount),
    ("currency", dumpOption (fun s => .str s.1) salary.currency),
    ("period", dumpOption (fun p => .str p.value) salary.period),
    ("display", .ofOption salary.display)]

/-- `job.model_dump(mode="json")`, given how a datetime is written. -/
def CanonicalJobSchema.modelDump (isoformat : Time → String) (job : CanonicalJobSchema) : Dict :=
  let time := fun t => Json.str (isoformat t)
  [("source", .dict [("platform", .str job.source.platform.value),
      ("external_job_id", .str job.source.externalJobId),
      ("source_slug", .ofOption job.source.sourceSlug),
      ("source_url", .str job.source.sourceUrl),
      ("external_apply_url", .ofOption job.source.externalApplyUrl),
      ("raw_payload_hash", .ofOption job.source.rawPayloadHash),
      ("scraped_at", time job.source.scrapedAt),
      ("source_updated_at", dumpOption time job.source.sourceUpdatedAt)]),
    ("title", .str job.title), ("normalized_title", .ofOption job.normalizedTitle),
    ("category", .ofOption job.category),
    ("company", .dict [("name", .str job.company.name), ("logo_url", .ofOption job.company.logoUrl),
      ("industry", .ofOption job.company.industry),
      ("source_company_id", .ofOption job.company.sourceCompanyId),
      ("source_slug", .ofOption job.company.sourceSlug)]),
    ("location", .dict [("display", dumpOption (fun s => .str s.1) job.location.display),
      ("city", .ofOption job.location.city), ("region", .ofOption job.location.region),
      ("country", .ofOption job.location.country),
      ("is_remote", dumpOption .bool job.location.isRemote)]),
    ("salary", dumpOption SalarySchema.modelDump job.salary),
    ("employment_types", .list (job.employmentTypes.map fun e => .str e.value)),
    ("work_type", .str job.workType.value),
    ("experience_level", .str job.experienceLevel.value),
    ("description", .ofOption job.description), ("requirements", .ofOption job.requirements),
    ("skills", .list (job.skills.map .str)), ("posted_at", dumpOption time job.postedAt),
    ("last_seen_at", time job.lastSeenAt), ("status", .str job.status.value),
    ("presentation", .dict [("posted_label", .ofOption job.presentation.postedLabel),
      ("salary_label", .ofOption job.presentation.salaryLabel),
      ("badges", .list (job.presentation.badges.map .str)),
      ("source_labels", .dict job.presentation.sourceLabels)])]

end Bisakerja
