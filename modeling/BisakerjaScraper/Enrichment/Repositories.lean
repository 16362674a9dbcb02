import BisakerjaScraper.Enrichment.Schemas
import BisakerjaScraper.Pipeline.Normalize
import BisakerjaScraper.Shared.Text

/-! The audit log of the AI requests and the staging rows of an enrichment.

    A job is up for enrichment while it lacks rows of either kind and the log holds no success that
    names it. The log does not say which stage asked: the normalize stage writes into it too. -/

namespace Bisakerja
open Schemes

/-- `EnrichmentSource`. -/
inductive EnrichmentSource where | ai | source

/-- `EnrichmentSource.value`. -/
def EnrichmentSource.value : EnrichmentSource → String
  | .ai => "ai"
  | .source => "source"

/-! ### What may stand in a log -/

/-- The alternatives of `SECRET_KEY_PATTERN`. -/
def secretKeyWords : List String := secretLikeWords ++ ["prompt"]

/-- `SECRET_KEY_PATTERN.search(value)`. -/
def secretKey (value : String) : Bool :=
  secretKeyWords.any fun word => word.toList <:+: value.toList.map foldLetter

/-- `safe_message` on a text. -/
def safeText (value : String) : String :=
  if secretKey value then "[REDACTED]" else String.ofList (value.toList.take 500)

mutual

/-- `safe_summary_value`. -/
def safeSummaryValue : Json → Json
  | .dict entries => .dict (sanitizeSummary entries)
  | .list xs => .list ((safeSummaryItems xs).take 20)
  | .str s => .str (safeText s)
  | value => value

/-- `sanitize_summary` on a dict. -/
def sanitizeSummary : List (String × Json) → List (String × Json)
  | [] => []
  | (key, item) :: rest =>
    (key, if secretKey key then .str "[REDACTED]" else safeSummaryValue item) ::
      sanitizeSummary rest

/-- The items of a summary list. -/
def safeSummaryItems : List Json → List Json
  | [] => []
  | item :: rest => safeSummaryValue item :: safeSummaryItems rest

end

/-- `safe_base_url_alias`, given how a URL is parsed. -/
def safeBaseUrlAlias (hostname : String → Option String) (baseUrl : Option String) :
    Option String :=
  (baseUrl.bind hostname).filter (· ≠ "")

/-! ### The log -/

/-- `AIRequestLogInput`; the request is its dump. -/
structure AIRequestLogInput where
  normalizedJobId : String
  scrapeRunId : Option String
  provider : String
  model : String
  baseUrl : Option String
  latencyMs : Option ℤ
  status : AIRequestStatus
  retryCount : ℕ
  request : Json
  responseSummary : Option Dict := none
  errorCategory : Option String := none
  errorMessage : Option String := none

/-- `AIRequestLogRepository.create`. -/
def createAiRequestLog (hash : StableHash) (hostname : String → Option String)
    (item : AIRequestLogInput) (tables : StageTables) : StageTables :=
  { tables with aiRequestLogs := tables.aiRequestLogs ++
    [{ scrapeRunId := item.scrapeRunId
       normalizedJobId := some item.normalizedJobId
       provider := item.provider
       model := item.model
       baseUrlAlias := safeBaseUrlAlias hostname item.baseUrl
       latencyMs := item.latencyMs
       status := item.status
       retryCount := item.retryCount
       requestHash := hash.digest item.request
       responseSummary := item.responseSummary.map sanitizeSummary
       errorCategory := item.errorCategory
       errorMessage := item.errorMessage.map safeText }] }

/-- The job a log row reports a success for. -/
def AIRequestLog.successFor (log : AIRequestLog) : Option String :=
  if log.status = .success then log.normalizedJobId else none

/-- The jobs the log reports a success for. -/
def StageTables.succeeded (tables : StageTables) : List String :=
  tables.aiRequestLogs.filterMap AIRequestLog.successFor

/-! ### The jobs to enrich -/

/-- The rows of an outer join: one of them, `NULL`, when there is none. -/
def outerJoined {α : Type} (rows : List α) : List (Option α) :=
  if rows.isEmpty then [none] else rows.map some

/-- `or_(JobSkillStaging.id.is_(None), JobRequirementStaging.id.is_(None))` on some joined row. -/
def lacksStaging (job : NormalizedJob) : Bool :=
  (outerJoined job.skillsStaging).any fun skill =>
    (outerJoined job.requirementsStaging).any fun requirement =>
      skill.isNone || requirement.isNone

/-- `list_unenriched_jobs`. -/
def StageTables.listUnenrichedJobs (tables : StageTables) (limit : ℕ) : List NormalizedJob :=
  ((tables.jobs.normalizedJobs.rows.filter fun job =>
    job.id ∉ tables.succeeded && lacksStaging job).insertionSort newestFirst).take limit

theorem mem_outerJoined_none {α : Type} {rows : List α} : none ∈ outerJoined rows ↔ rows = [] := by
  cases rows <;> simp [outerJoined]

/-- A job lacks staging rows when it has none of a kind. -/
theorem lacksStaging_iff {job : NormalizedJob} :
    lacksStaging job = true ↔ job.skillsStaging = [] ∨ job.requirementsStaging = [] := by
  obtain ⟨skill, hskill⟩ : ∃ skill, skill ∈ outerJoined job.skillsStaging := by
    cases h : job.skillsStaging <;> simp [outerJoined]
  obtain ⟨requirement, hrequirement⟩ :
      ∃ requirement, requirement ∈ outerJoined job.requirementsStaging := by
    cases h : job.requirementsStaging <;> simp [outerJoined]
  simp only [lacksStaging, List.any_eq_true, Bool.or_eq_true, Option.isNone_iff_eq_none,
    ← mem_outerJoined_none]
  constructor
  · rintro ⟨_, hs, _, hr, rfl | rfl⟩
    · exact .inl hs
    · exact .inr hr
  · rintro (hs | hr)
    · exact ⟨none, hs, requirement, hrequirement, .inl rfl⟩
    · exact ⟨skill, hskill, none, hr, .inr rfl⟩

/-! ### Staging rows -/

/-- `normalize_value`. -/
def normalizeValue (value : String) : String :=
  String.ofList (collapseSpaces false (strip value).toList)

/-- The rows of `upsert_skill`. -/
def upsertSkill (jobId : String) (origin : EnrichmentSource) (skill : EnrichedSkill)
    (rows : List JobSkillStaging) : List JobSkillStaging :=
  let value := normalizeValue skill.name
  if rows.any fun row => row.normalizedValue = value then
    rows.map fun row =>
      if row.normalizedValue = value then
        { row with source := some origin.value, confidence := some skill.confidence.1 }
      else row
  else
    rows ++ [{ normalizedJobId := jobId, source := some origin.value, normalizedValue := value
               confidence := some skill.confidence.1 }]

/-- The rows of `upsert_requirement`. -/
def upsertRequirement (jobId : String) (origin : EnrichmentSource)
    (requirement : EnrichedRequirement) (rows : List JobRequirementStaging) :
    List JobRequirementStaging :=
  let value := normalizeValue requirement.value
  let same := fun row : JobRequirementStaging =>
    decide (row.requirementType = requirement.type.value ∧ row.normalizedValue = value)
  if rows.any same then
    rows.map fun row =>
      if same row then
        { row with source := some origin.value, confidence := some requirement.confidence.1 }
      else row
  else
    rows ++ [{ normalizedJobId := jobId, source := some origin.value
               requirementType := requirement.type.value, normalizedValue := value
               confidence := some requirement.confidence.1 }]

/-- The staging rows a job has after `upsert_output`. -/
def NormalizedJob.withOutput {casefold : String → String} (origin : EnrichmentSource)
    (output : EnrichmentOutput casefold) (job : NormalizedJob) : NormalizedJob :=
  { job with
    skillsStaging := output.skills.foldl (fun rows skill =>
      upsertSkill job.id origin skill rows) job.skillsStaging
    requirementsStaging := output.requirements.foldl (fun rows requirement =>
      upsertRequirement job.id origin requirement rows) job.requirementsStaging }

/-- `upsert_output`. -/
def upsertOutput {casefold : String → String} (jobId : String) (output : EnrichmentOutput casefold)
    (origin : EnrichmentSource) (tables : StageTables) : StageTables :=
  { tables with jobs := { tables.jobs with
    normalizedJobs := tables.jobs.normalizedJobs.modify jobId
      (NormalizedJob.withOutput origin output) fun _ => rfl } }

/-- `response_summary_from_output`. -/
def responseSummaryFromOutput {casefold : String → String} (output : EnrichmentOutput casefold) :
    Dict :=
  [("skillsCount", .int output.skills.length),
    ("requirementsCount", .int output.requirements.length),
    ("confidence", .float (.finite output.confidence.1)),
    ("warningsCount", .int output.warnings.length)]

end Bisakerja
