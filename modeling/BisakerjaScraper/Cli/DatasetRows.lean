import BisakerjaScraper.Cli.DatasetSignals
import Mathlib.Data.Prod.Lex
import Mathlib.Data.String.Basic

/-! The rows of a dataset export.

    The row of a job is built from the row of its query, from what is counted in its requirements
    and skills, and from its signals, in this order: a later dict overwrites an earlier one. The
    last column is the hash of the others. -/

namespace Bisakerja
open Schemes

/-! ### The columns -/

/-- `DATASET_VERSION`. -/
def datasetVersion : String := "1.0.0"

/-- `DATASET_SCHEMA_VERSION`. -/
def datasetSchemaVersion : String := "1.0.0"

/-- `JOB_LISTINGS_COLUMNS`. -/
def jobListingsColumns : List String :=
  ["job_id", "source_platform_id", "source_platform_slug", "source_platform_name",
    "source_platform_base_url", "source_platform_is_active", "company_id", "company_name",
    "company_slug", "company_logo_url", "company_website_url", "ingestion_run_id",
    "external_job_id", "dataset_exported_at", "dataset_version", "dataset_row_hash",
    "dataset_schema_version", "title", "normalized_title", "category", "description",
    "requirement_summary", "work_type", "employment_type", "experience_level", "location_display",
    "province", "city", "salary_min", "salary_max", "salary_currency", "salary_period",
    "salary_display", "source_url", "external_apply_url", "source_posted_at", "source_updated_at",
    "last_seen_at", "expired_at", "status", "created_at", "updated_at", "is_stale",
    "has_salary_range", "salary_midpoint", "salary_range_width", "location_key",
    "search_blob_preview", "detail_readiness_score", "description_length_chars",
    "description_paragraph_count", "requirement_summary_length_chars",
    "requirement_summary_has_prefix_legacy", "has_safe_display_html", "has_unsafe_html_signal",
    "language_signal", "is_mixed_language_signal", "normalization_completeness_score",
    "requirements_count_total", "requirements_count_skill", "requirements_count_experience",
    "requirements_count_education", "requirements_count_responsibility",
    "requirements_count_other", "requirements_priority_high_count",
    "requirements_priority_medium_count", "requirements_priority_low_count",
    "requirements_first_value", "requirements_concat", "skills_count_total",
    "skills_unique_slug_count", "skills_confidence_avg", "skills_confidence_min",
    "skills_confidence_max", "skills_top_10_names", "skills_top_10_slugs",
    "skills_categories_concat", "bookmark_count_total", "bookmark_last_created_at",
    "application_count_total", "application_count_applied", "application_count_interview",
    "application_count_rejected", "application_count_accepted", "application_last_status",
    "application_last_applied_at", "application_last_updated_at", "fit_score_run_count",
    "fit_score_latest", "fit_score_latest_readiness_level", "fit_score_latest_decision",
    "fit_score_latest_model_name", "fit_score_latest_analyzed_at", "skill_gap_run_count",
    "skill_gap_latest_gap_count", "skill_gap_latest_model_name", "skill_gap_latest_analyzed_at",
    "cv_analysis_run_count", "cv_analysis_latest_language", "cv_analysis_latest_input_mode",
    "cv_analysis_latest_compare_source", "cv_analysis_latest_model_name",
    "cv_analysis_latest_analyzed_at", "ai_request_count_total", "ai_request_count_succeeded",
    "ai_request_count_failed", "ai_request_latest_kind", "ai_request_latest_status",
    "ai_request_latest_model_name", "ai_request_latest_created_at", "ai_request_error_code_top",
    "filter_keyword_ready", "filter_location_ready", "filter_work_type_ready",
    "filter_employment_type_ready", "filter_experience_ready", "filter_salary_ready",
    "filter_category_ready", "fit_input_has_requirements", "fit_input_has_skills",
    "fit_input_has_experience_signal", "fit_input_quality_score", "skill_gap_input_coverage_score",
    "skill_gap_requirements_vs_skills_ratio", "tracker_signal_available",
    "tracker_conversion_state"]

/-- `JOB_REQUIREMENTS_COLUMNS`. -/
def jobRequirementsColumns : List String :=
  ["job_id", "requirement_id", "requirement_type", "requirement_value", "requirement_priority",
    "requirement_sort_order", "requirement_created_at", "source_platform_slug", "company_name",
    "job_title", "job_status", "job_last_seen_at"]

/-- `JOB_SKILLS_COLUMNS`. -/
def jobSkillsColumns : List String :=
  ["job_id", "job_skill_id", "skill_id", "skill_name", "skill_slug", "skill_category",
    "skill_confidence", "job_skill_created_at", "source_platform_slug", "company_name",
    "job_title", "job_status", "job_last_seen_at"]

/-- `JOB_USER_SIGNALS_COLUMNS`. -/
def jobUserSignalsColumns : List String :=
  ["job_id", "source_platform_slug", "job_title", "company_name", "job_status",
    "bookmark_count_total", "bookmark_last_created_at", "application_count_total",
    "application_count_applied", "application_count_interview", "application_count_rejected",
    "application_count_accepted", "application_last_status", "application_last_applied_at",
    "application_last_updated_at", "fit_score_run_count", "fit_score_latest",
    "fit_score_latest_readiness_level", "fit_score_latest_decision", "fit_score_latest_model_name",
    "fit_score_latest_analyzed_at", "skill_gap_run_count", "skill_gap_latest_gap_count",
    "skill_gap_latest_model_name", "skill_gap_latest_analyzed_at", "cv_analysis_run_count",
    "cv_analysis_latest_language", "cv_analysis_latest_input_mode",
    "cv_analysis_latest_compare_source", "cv_analysis_latest_model_name",
    "cv_analysis_latest_analyzed_at", "ai_request_count_total", "ai_request_count_succeeded",
    "ai_request_count_failed", "ai_request_latest_kind", "ai_request_latest_status",
    "ai_request_latest_model_name", "ai_request_latest_created_at", "ai_request_error_code_top"]

/-- The prefixes of the columns that are copied from the signals. -/
def signalPrefixes : List String :=
  ["bookmark_", "application_", "fit_score_", "skill_gap_", "cv_analysis_", "ai_request_"]

/-- `key.startswith(…)`. -/
def isSignalColumn (column : String) : Bool :=
  signalPrefixes.any fun start => start.toList.isPrefixOf column.toList

/-! ### The aggregates -/

/-- The result of `build_aggregates`. -/
structure Aggregates where
  columns : ExportRow
  skillNames : List String
  skillSlugs : List String
  skillCategories : List String
  requirementsValues : List String
  requirementsRows : List DbRow

/-- `round(count / total * 100)`. -/
def percent (count total : ℕ) : ℤ := roundHalfEven (100 * count) total

/-- The texts that are not empty. -/
def nonEmpty (texts : List String) : List String := texts.filter (· ≠ "")

/-- How many texts are not empty. -/
def filled (texts : List String) : ℕ := texts.countP (· ≠ "")

/-- A part of a score. -/
def part (weight : ℤ) (present : Bool) : ℤ := if present then weight else 0

namespace DatasetText

variable (text : DatasetText)

/-- `safe_text(row.get(column))`. -/
def textOf (row : DbRow) (column : String) : String := text.safeText (row.get column)

/-- `normalize_enum(row.get(column))`. -/
def enumOf (row : DbRow) (column : String) : String := text.normalizeEnum (row.get column)

/-- `iso_utc(row.get(column))`. -/
def isoOf (row : DbRow) (column : String) : String := text.isoUtc (row.get column)

/-- `int(row.get("requirement_sort_order") or 0)`. -/
def sortOrder (row : DbRow) : ℤ := (toOptionalInt (row.get "requirement_sort_order")).getD 0

/-- The requirements in their order. -/
def sortedRequirements (requirements : List DbRow) : List DbRow :=
  let key := fun row : DbRow => toLex (sortOrder row,
    toLex (text.isoOf row "requirement_created_at", text.textOf row "requirement_id"))
  requirements.insertionSort fun a b => key a ≤ key b

/-- `is_stale`. -/
def isStale (base : DbRow) (staleAfterHours : ℤ) (now : Timestamp) : Bool :=
  text.enumOf base "status" ∈ ["STALE", "EXPIRED", "CLOSED", "HIDDEN"] ||
    (text.parseDt (base.get "last_seen_at")).any fun lastSeenAt =>
      lastSeenAt < now - staleAfterHours * 3600000000

/-- `tracker_conversion_state`. -/
def trackerState (signal : SignalRow) : String :=
  if 0 < signal.application.countAccepted then "accepted"
  else if 0 < signal.application.countInterview then "interview"
  else if 0 < signal.application.countRejected then "rejected"
  else if 0 < signal.application.countApplied then "applied"
  else if 0 < signal.bookmark.countTotal then "bookmarked"
  else "none"

/-- `build_aggregates`. -/
def buildAggregates (base : DbRow) (requirements skills : List DbRow) (signal : SignalRow)
    (staleAfterHours : ℤ) (now : Timestamp) : Aggregates :=
  let description := text.textOf base "description"
  let requirementSummary := text.textOf base "requirement_summary"
  let title := text.textOf base "title"
  let category := text.textOf base "category"
  let locationDisplay := text.textOf base "location_display"
  let workType := text.textOf base "work_type"
  let employmentType := text.textOf base "employment_type"
  let experienceLevel := text.textOf base "experience_level"
  let sourceUrl := text.textOf base "source_url"
  let salaryMin := toOptionalInt (base.get "salary_min")
  let salaryMax := toOptionalInt (base.get "salary_max")
  let htmlSafety := text.alphabet.htmlSafety description requirementSummary
  let languageSignal := text.inferLanguage description requirementSummary
  let types := requirements.map fun row => text.enumOf row "requirement_type"
  let priorities := requirements.map fun row => text.enumOf row "requirement_priority"
  let reqSorted := text.sortedRequirements requirements
  let reqValues := nonEmpty (reqSorted.map fun row => text.textOf row "requirement_value")
  let confidences := skills.filterMap fun row => text.toOptionalFloat (row.get "skill_confidence")
  let ofConfidences := fun f : List PyFloat → PyFloat =>
    if confidences = [] then RowValue.text "" else .float (f confidences)
  let skillSlugs :=
    (nonEmpty (skills.map fun row => text.textOf row "skill_slug")).map text.lower
  let skillNames := nonEmpty (skills.map fun row => text.textOf row "skill_name")
  let skillCategories := nonEmpty (skills.map fun row => text.textOf row "skill_category")
  let province := strip (text.lower (text.textOf base "province"))
  let city := strip (text.lower (text.textOf base "city"))
  let hasRequirements := !reqValues.isEmpty
  let hasSkills := !skillSlugs.isEmpty
  { columns :=
      [("is_stale", .bool (text.isStale base staleAfterHours now)),
        ("has_salary_range", .bool (match salaryMin, salaryMax with
          | some low, some high => low ≤ high
          | _, _ => false)),
        ("salary_midpoint", match salaryMin, salaryMax with
          | some low, some high => if low ≤ high then .int (text.half (low + high)) else .int low
          | some low, none => .int low
          | none, some high => .int high
          | none, none => .none),
        ("salary_range_width", match salaryMin, salaryMax with
          | some low, some high => if low ≤ high then .int (high - low) else .none
          | _, _ => .none),
        ("location_key", .text (if province ≠ "" ∨ city ≠ "" then province ++ "|" ++ city else "")),
        ("search_blob_preview", .text (joinText " | "
          (nonEmpty [title, text.textOf base "company_name", category, locationDisplay]))),
        ("detail_readiness_score", .int (percent (filled [title, description, requirementSummary,
          workType, employmentType, experienceLevel, locationDisplay,
          text.textOf base "salary_display", sourceUrl,
          text.textOf base "external_apply_url"]) 10)),
        ("description_length_chars", .int description.length),
        ("description_paragraph_count", .int (countParagraphs description)),
        ("requirement_summary_length_chars", .int requirementSummary.length),
        ("requirement_summary_has_prefix_legacy", .bool (hasPrefixLegacy requirementSummary)),
        ("has_safe_display_html", .bool htmlSafety.1),
        ("has_unsafe_html_signal", .bool htmlSafety.2),
        ("language_signal", .text languageSignal),
        ("is_mixed_language_signal", .bool (languageSignal = "MIXED")),
        ("normalization_completeness_score", .int (percent (filled [title,
          text.textOf base "normalized_title", category, description, requirementSummary,
          workType, employmentType, experienceLevel, locationDisplay, sourceUrl,
          text.textOf base "status"]) 11)),
        ("requirements_count_total", .int requirements.length),
        ("requirements_count_skill", .int (types.count "SKILL")),
        ("requirements_count_experience", .int (types.count "EXPERIENCE")),
        ("requirements_count_education", .int (types.count "EDUCATION")),
        ("requirements_count_responsibility", .int (types.count "RESPONSIBILITY")),
        ("requirements_count_other", .int (types.count "OTHER")),
        ("requirements_priority_high_count", .int (priorities.count "HIGH")),
        ("requirements_priority_medium_count", .int (priorities.count "MEDIUM")),
        ("requirements_priority_low_count", .int (priorities.count "LOW")),
        ("requirements_first_value", .text (reqValues.head?.getD "")),
        ("requirements_concat", .text (joinText " || " reqValues)),
        ("skills_count_total", .int skills.length),
        ("skills_unique_slug_count", .int skillSlugs.dedup.length),
        ("skills_confidence_avg", ofConfidences text.average),
        ("skills_confidence_min", ofConfidences text.least),
        ("skills_confidence_max", ofConfidences text.greatest),
        ("skills_top_10_names", .text (joinText " | " (mostCommon 10 skillNames))),
        ("skills_top_10_slugs", .text (joinText " | " (mostCommon 10 skillSlugs))),
        ("skills_categories_concat", .text (joinText " | "
          (skillCategories.dedup.insertionSort (· ≤ ·)))),
        ("filter_keyword_ready", .bool (title ≠ "" || text.textOf base "normalized_title" ≠ "")),
        ("filter_location_ready", .bool (locationDisplay ≠ "" || province ≠ "" || city ≠ "")),
        ("filter_work_type_ready", .bool (workType ≠ "")),
        ("filter_employment_type_ready", .bool (employmentType ≠ "")),
        ("filter_experience_ready", .bool (experienceLevel ≠ "")),
        ("filter_salary_ready", .bool (salaryMin.isSome || salaryMax.isSome ||
          text.textOf base "salary_display" ≠ "")),
        ("filter_category_ready", .bool (category ≠ "")),
        ("fit_input_has_requirements", .bool hasRequirements),
        ("fit_input_has_skills", .bool hasSkills),
        ("fit_input_has_experience_signal", .bool (experienceLevel ≠ "")),
        ("fit_input_quality_score", .int (part 50 hasRequirements + part 40 hasSkills +
          part 10 (experienceLevel ≠ ""))),
        ("skill_gap_input_coverage_score", .int (part 50 hasRequirements + part 50 hasSkills)),
        ("skill_gap_requirements_vs_skills_ratio",
          if hasSkills then .float (text.ratio reqValues.length skillSlugs.length) else .text ""),
        ("tracker_signal_available", .bool (0 < signal.bookmark.countTotal ||
          0 < signal.application.countTotal || 0 < signal.fitScore.runCount ||
          0 < signal.skillGap.runCount || 0 < signal.cvAnalysis.runCount)),
        ("tracker_conversion_state", .text (trackerState signal))]
    skillNames, skillSlugs, skillCategories
    requirementsValues := reqValues
    requirementsRows := reqSorted }

end DatasetText

/-! ### The rows -/

/-- What `build_model_row` makes of the same values. -/
structure ModelDataset where
  columns : List String
  buildModelRow : DbRow → Aggregates → SignalRow → Timestamp → ExportRow

/-- An export: how texts are read, the hex digest of a text, the model dataset, and the setting
    `freshness_stale_after_hours`. -/
structure DatasetExport where
  text : DatasetText
  sha256 : String → String
  model : ModelDataset
  staleAfterHours : ℤ

namespace DatasetText

variable (text : DatasetText)

/-- `normalize_csv_value(row.get(column, ""))`. -/
def cellOf (row : ExportRow) (column : String) : Cell :=
  text.normalizeCsvValue (Columns.getD row column (.text ""))

/-- The payload of `stable_row_hash`, its keys sorted. -/
def hashPayload (row : ExportRow) (columns : List String) : List (String × Cell) :=
  (columns.insertionSort (· ≤ ·)).map fun column => (column, text.cellOf row column)

/-- `align_row`. -/
def alignRow (row : ExportRow) (columns : List String) : Columns Cell :=
  columns.map fun column => (column, text.cellOf row column)

/-- `align_rows`. -/
def alignRows (rows : List ExportRow) (columns : List String) : List (Columns Cell) :=
  rows.map fun row => text.alignRow row columns

/-- `safe_text(base.get(column))` under the same column. -/
def copyText (base : DbRow) (column : String) : String × RowValue :=
  (column, .text (text.textOf base column))

/-- `normalize_enum(base.get(column))` under the same column. -/
def copyEnum (base : DbRow) (column : String) : String × RowValue :=
  (column, .text (text.enumOf base column))

/-- `iso_utc(base.get(column))` under the same column. -/
def copyTime (base : DbRow) (column : String) : String × RowValue :=
  (column, .text (text.isoOf base column))

/-- `to_optional_int(base.get(column)) or ""` under the same column. -/
def copyInt (base : DbRow) (column : String) : String × RowValue :=
  (column, .orEmpty .int ((toOptionalInt (base.get column)).filter (· ≠ 0)))

/-- The first dict of `build_job_listing_row`. -/
def baseColumns (base : DbRow) (exportedAt : Timestamp) : ExportRow :=
  ["job_id", "source_platform_id", "source_platform_slug", "source_platform_name",
    "source_platform_base_url"].map (text.copyText base) ++
  [("source_platform_is_active", .int (boolToInt (base.get "source_platform_is_active")))] ++
  ["company_id", "company_name", "company_slug", "company_logo_url", "company_website_url",
    "ingestion_run_id", "external_job_id"].map (text.copyText base) ++
  [("dataset_exported_at", .text (text.isoUtc (.time exportedAt))),
    ("dataset_version", .text datasetVersion),
    ("dataset_schema_version", .text datasetSchemaVersion)] ++
  ["title", "normalized_title", "category", "description", "requirement_summary"].map
    (text.copyText base) ++
  ["work_type", "employment_type", "experience_level"].map (text.copyEnum base) ++
  ["location_display", "province", "city"].map (text.copyText base) ++
  ["salary_min", "salary_max"].map (copyInt base) ++
  [text.copyText base "salary_currency", text.copyEnum base "salary_period",
    text.copyText base "salary_display", text.copyText base "source_url",
    text.copyText base "external_apply_url"] ++
  ["source_posted_at", "source_updated_at", "last_seen_at", "expired_at"].map
    (text.copyTime base) ++
  [text.copyEnum base "status", text.copyTime base "created_at", text.copyTime base "updated_at"]

/-- The aggregates that are columns of a job. -/
def aggregateColumns (aggregates : Aggregates) : ExportRow :=
  (aggregates.columns.filter fun entry => entry.1 ∈ jobListingsColumns).map fun entry =>
    (entry.1, .cell (text.normalizeCsvValue entry.2))

/-- The signals that are columns of a job. -/
def signalColumns (signal : SignalRow) : ExportRow :=
  (jobListingsColumns.filter isSignalColumn).map fun column =>
    (column, .cell (text.cellOf signal.toRow column))

/-- The row of a job before its hash. -/
def jobColumns (base : DbRow) (aggregates : Aggregates) (signal : SignalRow)
    (exportedAt : Timestamp) : ExportRow :=
  Columns.update (Columns.update (text.baseColumns base exportedAt)
    (text.aggregateColumns aggregates)) (text.signalColumns signal)

/-- `build_requirement_rows`. -/
def buildRequirementRows (base : DbRow) (requirements : List DbRow) : List ExportRow :=
  requirements.map fun item =>
    [text.copyText base "job_id", text.copyText item "requirement_id",
      text.copyEnum item "requirement_type", text.copyText item "requirement_value",
      text.copyEnum item "requirement_priority",
      ("requirement_sort_order", .int (sortOrder item)),
      text.copyTime item "requirement_created_at", text.copyText base "source_platform_slug",
      text.copyText base "company_name", ("job_title", .text (text.textOf base "title")),
      ("job_status", .text (text.enumOf base "status")),
      ("job_last_seen_at", .text (text.isoOf base "last_seen_at"))]

/-- `to_optional_float(value) or ""`. -/
def floatOrEmpty (value : DbValue) : RowValue :=
  .orEmpty .float ((text.toOptionalFloat value).filter fun x => (Json.float x).truthy)

/-- `build_skill_rows`. -/
def buildSkillRows (base : DbRow) (skills : List DbRow) : List ExportRow :=
  skills.map fun item =>
    [text.copyText base "job_id", text.copyText item "job_skill_id",
      text.copyText item "skill_id", text.copyText item "skill_name",
      text.copyText item "skill_slug", text.copyText item "skill_category",
      ("skill_confidence", text.floatOrEmpty (item.get "skill_confidence")),
      text.copyTime item "job_skill_created_at", text.copyText base "source_platform_slug",
      text.copyText base "company_name", ("job_title", .text (text.textOf base "title")),
      ("job_status", .text (text.enumOf base "status")),
      ("job_last_seen_at", .text (text.isoOf base "last_seen_at"))]

/-- `build_signal_row`. -/
def buildSignalRow (base : DbRow) (signal : SignalRow) : ExportRow :=
  let row := [text.copyText base "job_id", text.copyText base "source_platform_slug",
    ("job_title", .text (text.textOf base "title")), text.copyText base "company_name",
    ("job_status", .text (text.enumOf base "status"))]
  row ++ ((jobUserSignalsColumns.filter fun column => column ∉ row.map Prod.fst).map fun column =>
    (column, .cell (text.cellOf signal.toRow column)))

end DatasetText

/-! ### The export -/

/-- The content of a database: the rows of the joins on jobs, requirements and skills, in the order
    their queries ask for, and the tables of signals. -/
structure DatasetContent where
  jobs : List DbRow
  requirements : List DbRow
  skills : List DbRow
  signals : SignalTables

/-- `DatasetExportOptions`, as far as rows depend on it. -/
structure DatasetExportOptions where
  source : String := "all"
  status : String := "all"
  includeAiSignals : Bool := true
  includeUserSignals : Bool := true
  includeModelDataset : Bool := true
  limit : Option ℕ := none
  updatedSinceUtc : Option Timestamp := none

/-- The times of an export: `exported_at`, and the time at which each job is aggregated. -/
structure ExportTimes where
  exportedAt : Timestamp
  now : DbRow → Timestamp

/-- The rows of an export. -/
structure ExportPayload where
  jobRows : List (Columns Cell)
  requirementsRows : List (Columns Cell)
  skillsRows : List (Columns Cell)
  signalsRows : List (Columns Cell)
  modelRows : List (Columns Cell)

/-- The status a choice of `--status` stands for. -/
def statusOfChoice : List (String × String) :=
  [("active", "ACTIVE"), ("stale", "STALE"), ("expired", "EXPIRED")]

/-- The conditions of `fetch_jobs`. -/
def DatasetExportOptions.selects (options : DatasetExportOptions) (row : DbRow) : Bool :=
  (options.source = "all" || (row.get "source_platform_slug").isText options.source) &&
    (options.status = "all" ||
      (statusOfChoice.lookup options.status).any fun status => (row.get "status").isText status) &&
    options.updatedSinceUtc.all fun since =>
      match row.get "updated_at" with
      | .time updatedAt => since ≤ updatedAt
      | _ => false

namespace DatasetExport

variable (run : DatasetExport)

/-- `stable_row_hash`. -/
def stableRowHash (row : ExportRow) (columns : List String) : String :=
  run.sha256 (dumps run.text.floats (run.text.hashPayload row columns))

/-- `build_job_listing_row`. -/
def buildJobListingRow (base : DbRow) (aggregates : Aggregates) (signal : SignalRow)
    (exportedAt : Timestamp) : ExportRow :=
  let row := run.text.jobColumns base aggregates signal exportedAt
  Columns.update row [("dataset_row_hash", .text (run.stableRowHash row jobListingsColumns))]

/-- `fetch_jobs`. -/
def fetchJobs (db : DatasetContent) (options : DatasetExportOptions) : List DbRow :=
  let rows := db.jobs.filter options.selects
  match options.limit with
  | some limit => rows.take limit
  | none => rows

/-- `str(base["job_id"])`. -/
def jobIdOf (base : DbRow) : String := run.text.str (base.get "job_id")

/-- The rows of a job among the fetched ones: `WHERE job_listing_id IN (…)` and `group_rows`. -/
def rowsOfJob (jobIds : List String) (jobId : String) (rows : List DbRow) : List DbRow :=
  (rows.filter fun row => run.jobIdOf row ∈ jobIds).filter fun row =>
    run.text.textOf row "job_id" = jobId

/-- The signals of a job: `signals_by_job.get(job_id, {})` over the defaults. -/
def signalOf (signals : List SignalRow) (jobId : String) : SignalRow :=
  (signals.find? fun signal => signal.jobId = jobId).getD { jobId }

/-- What the rows of a job are built from. -/
structure JobInput where
  base : DbRow
  requirements : List DbRow
  skills : List DbRow
  signal : SignalRow

/-- The jobs of an export. -/
def jobInputs (db : DatasetContent) (options : DatasetExportOptions) : List JobInput :=
  let jobs := fetchJobs db options
  let jobIds := jobs.map run.jobIdOf
  let signals := run.text.fetchSignals db.signals jobIds options.includeAiSignals
    options.includeUserSignals
  jobs.map fun base =>
    { base
      requirements := run.rowsOfJob jobIds (run.jobIdOf base) db.requirements
      skills := run.rowsOfJob jobIds (run.jobIdOf base) db.skills
      signal := signalOf signals (run.jobIdOf base) }

/-- The aggregates of a job. -/
def aggregatesOf (times : ExportTimes) (job : JobInput) : Aggregates :=
  run.text.buildAggregates job.base job.requirements job.skills job.signal run.staleAfterHours
    (times.now job.base)

/-- The row of a job. -/
def jobRow (times : ExportTimes) (job : JobInput) : ExportRow :=
  run.buildJobListingRow job.base (run.aggregatesOf times job) job.signal times.exportedAt

/-- `collect_export_payload`. -/
def collectExportPayload (db : DatasetContent) (options : DatasetExportOptions)
    (times : ExportTimes) : ExportPayload :=
  let jobs := run.jobInputs db options
  { jobRows := run.text.alignRows (jobs.map (run.jobRow times)) jobListingsColumns
    requirementsRows := run.text.alignRows
      (jobs.flatMap fun job => run.text.buildRequirementRows job.base job.requirements)
      jobRequirementsColumns
    skillsRows := run.text.alignRows
      (jobs.flatMap fun job => run.text.buildSkillRows job.base job.skills) jobSkillsColumns
    signalsRows := run.text.alignRows
      (jobs.map fun job => run.text.buildSignalRow job.base job.signal) jobUserSignalsColumns
    modelRows :=
      if options.includeModelDataset then
        run.text.alignRows (jobs.map fun job => run.model.buildModelRow job.base
          (run.aggregatesOf times job) job.signal times.exportedAt) run.model.columns
      else [] }

end DatasetExport

/-! ### The cells of a job -/

/-- The columns that are aggregated. -/
def aggregateNames : List String :=
  ["is_stale", "has_salary_range", "salary_midpoint", "salary_range_width", "location_key",
    "search_blob_preview", "detail_readiness_score", "description_length_chars",
    "description_paragraph_count", "requirement_summary_length_chars",
    "requirement_summary_has_prefix_legacy", "has_safe_display_html", "has_unsafe_html_signal",
    "language_signal", "is_mixed_language_signal", "normalization_completeness_score",
    "requirements_count_total", "requirements_count_skill", "requirements_count_experience",
    "requirements_count_education", "requirements_count_responsibility",
    "requirements_count_other", "requirements_priority_high_count",
    "requirements_priority_medium_count", "requirements_priority_low_count",
    "requirements_first_value", "requirements_concat", "skills_count_total",
    "skills_unique_slug_count", "skills_confidence_avg", "skills_confidence_min",
    "skills_confidence_max", "skills_top_10_names", "skills_top_10_slugs",
    "skills_categories_concat", "filter_keyword_ready", "filter_location_ready",
    "filter_work_type_ready", "filter_employment_type_ready", "filter_experience_ready",
    "filter_salary_ready", "filter_category_ready", "fit_input_has_requirements",
    "fit_input_has_skills", "fit_input_has_experience_signal", "fit_input_quality_score",
    "skill_gap_input_coverage_score", "skill_gap_requirements_vs_skills_ratio",
    "tracker_signal_available", "tracker_conversion_state"]

namespace DatasetText

variable {text : DatasetText} {base : DbRow} {aggregates : Aggregates} {signal : SignalRow}
  {exportedAt : Timestamp} {column : String}

/-- A column that is set leaves the others as they are. -/
theorem cellOf_update_of_ne {row : ExportRow} {other : String} {value : RowValue}
    (h : column ≠ other) :
    text.cellOf (Columns.update row [(other, value)]) column = text.cellOf row column := by
  have hne : (column == other) = false := beq_eq_false_iff_ne.mpr h
  rw [cellOf, cellOf, Columns.getD, Columns.getD, Columns.lookup_update, List.lookup_cons, hne]
  rfl

/-- A column of signals shows the signals. -/
theorem cellOf_signal (hmem : column ∈ jobListingsColumns)
    (hsignal : isSignalColumn column = true) :
    text.cellOf (text.jobColumns base aggregates signal exportedAt) column
      = text.cellOf signal.toRow column := by
  have hfound : List.lookup column (text.signalColumns signal)
      = some (.cell (text.cellOf signal.toRow column)) := by
    rw [signalColumns, Columns.lookup_map, if_pos (List.mem_filter.mpr ⟨hmem, hsignal⟩)]
  rw [cellOf, Columns.getD, jobColumns, Columns.lookup_update, hfound]
  rfl

/-- Two aggregates are named like signals of skill gaps, and the signals, which have no such
    columns, overwrite them. -/
theorem cellOf_overwritten (h : column = "skill_gap_input_coverage_score" ∨
    column = "skill_gap_requirements_vs_skills_ratio") :
    text.cellOf (text.jobColumns base aggregates signal exportedAt) column = .text "" := by
  rcases h with rfl | rfl <;> rw [cellOf_signal (by decide +kernel) (by decide +kernel)] <;>
    simp [cellOf, Columns.getD, SignalRow.toRow, List.lookup_cons, normalizeCsvValue, RowValue.text]

/-- Any other column shows an aggregate or a value of the job. -/
theorem lookup_jobColumns (hsignal : isSignalColumn column = false) :
    List.lookup column (text.jobColumns base aggregates signal exportedAt)
      = (List.lookup column (text.aggregateColumns aggregates)).or
          (List.lookup column (text.baseColumns base exportedAt)) := by
  have hnone : List.lookup column (text.signalColumns signal) = none := by
    rw [signalColumns, Columns.lookup_map, if_neg]
    simp [hsignal]
  rw [jobColumns, Columns.lookup_update, hnone, Columns.lookup_update]
  rfl

theorem lookup_aggregateColumns (hmem : column ∈ jobListingsColumns) :
    List.lookup column (text.aggregateColumns aggregates)
      = (List.lookup column aggregates.columns).map fun value =>
          .cell (text.normalizeCsvValue value) := by
  have hlookup := Columns.lookup_filter_map
    (fun value => RowValue.cell (text.normalizeCsvValue value))
    (fun column => decide (column ∈ jobListingsColumns)) aggregates.columns column
  rw [aggregateColumns, hlookup, if_pos (by simpa using hmem)]

variable {requirements skills : List DbRow} {staleAfterHours : ℤ} {now : Timestamp}

theorem buildAggregates_names :
    (text.buildAggregates base requirements skills signal staleAfterHours now).columns.map Prod.fst
      = aggregateNames := rfl

theorem lookup_baseColumns_exportedAt :
    List.lookup "dataset_exported_at" (text.baseColumns base exportedAt)
      = some (.text (text.isoUtc (.time exportedAt))) := by
  simp [baseColumns, copyText, List.lookup_cons]

theorem cellOf_exportedAt :
    text.cellOf (text.jobColumns base (text.buildAggregates base requirements skills signal
      staleAfterHours now) signal exportedAt) "dataset_exported_at"
      = .text (text.isoformat exportedAt) := by
  have hagg : List.lookup "dataset_exported_at"
      (text.buildAggregates base requirements skills signal staleAfterHours now).columns
        = none := by
    have hnames : "dataset_exported_at" ∉ (text.buildAggregates base requirements skills signal
        staleAfterHours now).columns.map Prod.fst := by
      rw [buildAggregates_names]
      decide +kernel
    rw [List.lookup_eq_none_iff]
    intro entry hmem
    rw [bne_iff_ne]
    rintro heq
    rw [heq] at hnames
    exact hnames (List.mem_map_of_mem hmem)
  rw [cellOf, Columns.getD, lookup_jobColumns (by decide +kernel),
    lookup_aggregateColumns (by decide +kernel), hagg, lookup_baseColumns_exportedAt]
  rfl

theorem cellOf_isStale :
    text.cellOf (text.jobColumns base (text.buildAggregates base requirements skills signal
      staleAfterHours now) signal exportedAt) "is_stale"
      = .text (if text.isStale base staleAfterHours now then "1" else "0") := by
  have hmem : "is_stale" ∈ jobListingsColumns := by decide
  have hagg : List.lookup "is_stale"
      (text.buildAggregates base requirements skills signal staleAfterHours now).columns
        = some (.bool (text.isStale base staleAfterHours now)) := List.lookup_cons_self
  rw [cellOf, Columns.getD, lookup_jobColumns (by decide), lookup_aggregateColumns hmem, hagg]
  rfl

theorem buildAggregates_congr {now' : Timestamp}
    (h : text.isStale base staleAfterHours now = text.isStale base staleAfterHours now') :
    text.buildAggregates base requirements skills signal staleAfterHours now
      = text.buildAggregates base requirements skills signal staleAfterHours now' := by
  unfold buildAggregates
  rw [h]

end DatasetText

end Bisakerja
