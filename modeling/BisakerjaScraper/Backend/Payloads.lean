import BisakerjaScraper.Persistence.Models
import BisakerjaScraper.Python.Text

/-! The payload a job is synced with.

    `buildBackendJobPayload` reads a normalized row, its staging rows and the run id of the raw row
    it came from, and checks the result field by field against the backend contract. The text
    helpers that rest on regular expressions, HTML parsing or Unicode casing are parameters: no
    result here depends on what they do. Everything else, the fallbacks, the salary rules, the
    order of the checks and the dumped field names, is as in the source. -/

namespace Bisakerja

/-- `BackendPayloadValidationError`. -/
structure BackendPayloadValidationError where
  message : String
  externalJobId : Option String := none
  details : List Json := []

/-! ### Enumerations -/

/-- `PrismaWorkType`. -/
inductive PrismaWorkType where | remote | hybrid | onsite
  deriving DecidableEq

/-- `PrismaEmploymentType`. -/
inductive PrismaEmploymentType where | fullTime | partTime | internship | contract | freelance
  deriving DecidableEq

/-- `PrismaExperienceLevel`. -/
inductive PrismaExperienceLevel where | entryLevel | junior | midLevel | senior | lead
  deriving DecidableEq

/-- `PrismaSalaryPeriod`. -/
inductive PrismaSalaryPeriod where | monthly | yearly
  deriving DecidableEq

/-- `PrismaJobListingStatus`. -/
inductive PrismaJobListingStatus where | active | stale | expired | closed | hidden
  deriving DecidableEq

/-- `PrismaRequirementType`. -/
inductive PrismaRequirementType where
  | skill | experience | education | responsibility | other
  deriving DecidableEq

/-- The values of `PrismaWorkType`. -/
def PrismaWorkType.values : List (String × PrismaWorkType) :=
  [("REMOTE", .remote), ("HYBRID", .hybrid), ("ONSITE", .onsite)]

/-- The values of `PrismaEmploymentType`. -/
def PrismaEmploymentType.values : List (String × PrismaEmploymentType) :=
  [("FULL_TIME", .fullTime), ("PART_TIME", .partTime), ("INTERNSHIP", .internship),
    ("CONTRACT", .contract), ("FREELANCE", .freelance)]

/-- The values of `PrismaExperienceLevel`. -/
def PrismaExperienceLevel.values : List (String × PrismaExperienceLevel) :=
  [("ENTRY_LEVEL", .entryLevel), ("JUNIOR", .junior), ("MID_LEVEL", .midLevel),
    ("SENIOR", .senior), ("LEAD", .lead)]

/-- The values of `PrismaSalaryPeriod`. -/
def PrismaSalaryPeriod.values : List (String × PrismaSalaryPeriod) :=
  [("MONTHLY", .monthly), ("YEARLY", .yearly)]

/-- The values of `PrismaJobListingStatus`. -/
def PrismaJobListingStatus.values : List (String × PrismaJobListingStatus) :=
  [("ACTIVE", .active), ("STALE", .stale), ("EXPIRED", .expired), ("CLOSED", .closed),
    ("HIDDEN", .hidden)]

/-- The values of `PrismaRequirementType`. -/
def PrismaRequirementType.values : List (String × PrismaRequirementType) :=
  [("SKILL", .skill), ("EXPERIENCE", .experience), ("EDUCATION", .education),
    ("RESPONSIBILITY", .responsibility), ("OTHER", .other)]

/-- The value of an enumeration member as JSON. -/
def enumJson {α : Type} [DecidableEq α] (values : List (String × α)) (x : α) : Json :=
  match values.find? fun entry => entry.2 = x with
  | some entry => .str entry.1
  | none => .null

/-! ### Text helpers -/

/-- The helpers of the payload builder that are parameters here, under the source's names. -/
structure PayloadText where
  lower : String → String
  upper : String → String
  title : String → String
  casefold : String → String
  digits : String → Option ℤ
  isoformat : Time → String
  parseAbsoluteDatetime : Json → Option Time
  cleanText : String → Option String
  ensureDisplayHtml : Option String → Option String
  normalizeTextBlock : Option String → Option String
  splitRequirementText : String → List String
  classifyRequirementType : String → PrismaRequirementType
  isNoisyRequirement : String → Bool
  isLowSignalRequirement : String → Bool
  isLowSignalSkill : String → Bool
  sanitizeSkillValues : List Json → List String
  deriveFallbackSkills : List String → List String
  improveRequirementSummary : Option String → List String → Option String
  improveDescription : Option String → String → String → Option String → Option String →
    Option String → List String → Option String
  inferExperienceLevel : Json → Json → Option String → Option String → String
  monthlyPattern : String → Bool
  yearlyPattern : String → Bool
  looksLikeZeroSalaryDisplay : String → Bool

/-- `_PLACEHOLDER_VALUES`. -/
def placeholderValues : List String :=
  ["-", "--", "n/a", "na", "none", "null", "unknown", "tidak tersedia", "not available"]

/-- `SALARY_PLACEHOLDER_TEXTS`. -/
def salaryPlaceholderTexts : List String := ["tidak dicantumkan", "not specified", "not disclosed"]

/-- `MAX_RELATIONS_PER_BACKEND_JOB`. -/
def maxRelationsPerBackendJob : ℕ := 100

/-- Joins texts by a separator. -/
def joinText (sep : String) : List String → String
  | [] => ""
  | [s] => s
  | s :: rest => s ++ sep ++ joinText sep rest

theorem toList_joinText (sep : String) (parts : List String) :
    (joinText sep parts).toList = sep.toList.intercalate (parts.map String.toList) := by
  induction parts with
  | nil => rfl
  | cons part rest ih =>
    cases rest with
    | nil => simp [joinText]
    | cons other more =>
      have hjoin : joinText sep (part :: other :: more)
          = part ++ sep ++ joinText sep (other :: more) := rfl
      simp only [hjoin, String.toList_append, ih, List.map_cons, List.intercalate_cons_cons]

/-- The digits of a number in groups of three, from the right. -/
def groupDigits : List Char → List Char
  | a :: b :: c :: d :: rest => a :: b :: c :: ',' :: groupDigits (d :: rest)
  | short => short

/-- `f"{value:,}"`. -/
def formatThousands (value : ℤ) : String :=
  (if value < 0 then "-" else "") ++
    String.ofList (groupDigits (toString value.natAbs).toList.reverse).reverse

/-- The pieces of a text between commas. -/
def splitCommas : List Char → List Char → List String
  | acc, [] => [String.ofList acc.reverse]
  | acc, c :: rest =>
    if c = ',' then String.ofList acc.reverse :: splitCommas [] rest else splitCommas (c :: acc) rest

namespace PayloadText

variable (text : PayloadText)

/-- `is_placeholder_text` on a text. -/
def isPlaceholderText (value : String) : Bool := text.lower (strip value) ∈ placeholderValues

/-- `optional_text`. -/
def optionalText : Json → Option String
  | .str value =>
    let value := strip value
    if value = "" || text.isPlaceholderText value then none else some value
  | _ => none

/-- `first_non_empty`. -/
def firstNonEmpty (values : List Json) : Option String := values.findSome? text.optionalText

/-- `optional_int`. -/
def optionalInt : Json → Option ℤ
  | .int n => some n
  | .float (.finite q) => if q.den = 1 then some q.num else none
  | .str value => text.digits value
  | _ => none

/-- `as_clean_text`. -/
def asCleanText : Json → Option String
  | .str value => text.cleanText value
  | _ => none

/-- `clean_description`. -/
def cleanDescription (value : Json) : Option String :=
  (text.asCleanText value).filter fun cleaned => !text.isPlaceholderText cleaned

/-- `map_backend_enum`. -/
def mapBackendEnum : Json → Option String
  | .str value => some (text.upper (replaceChar (replaceChar (strip value) '-' '_') ' ' '_'))
  | _ => none

/-- The member a value maps to, if it is one. -/
def mapEnum {α : Type} (values : List (String × α)) (value : Json) : Option α :=
  (text.mapBackendEnum value).bind fun mapped => values.lookup mapped

/-- `map_work_type`. -/
def mapWorkType (value : Json) : Option PrismaWorkType := text.mapEnum PrismaWorkType.values value

/-- `map_experience_level`. -/
def mapExperienceLevel (value : Json) : Option PrismaExperienceLevel :=
  text.mapEnum PrismaExperienceLevel.values value

mutual

/-- `map_employment_type`. -/
def mapEmploymentType : Json → Option PrismaEmploymentType
  | .list values => mapEmploymentTypes values
  | value => text.mapEnum PrismaEmploymentType.values value

/-- The first element of a list that maps. -/
def mapEmploymentTypes : List Json → Option PrismaEmploymentType
  | [] => none
  | value :: values =>
    match mapEmploymentType value with
    | some mapped => some mapped
    | none => mapEmploymentTypes values

end

/-- `map_salary_period`. -/
def mapSalaryPeriod (value : Json) (display : Option String) : Option PrismaSalaryPeriod :=
  match text.mapEnum PrismaSalaryPeriod.values value with
  | some period => some period
  | none =>
    match display with
    | some display =>
      if text.monthlyPattern display then some .monthly
      else if text.yearlyPattern display then some .yearly
      else none
    | none => none

/-- `normalized_currency`. -/
def normalizedCurrency (value : Json) : Option String :=
  (text.optionalText value).bind fun currency =>
    if currency.length = 3 then some (text.upper currency) else none

/-- `platform_display_name`. -/
def platformDisplayName (slug : String) : String :=
  let normalized := text.lower (strip slug)
  ([("dealls", "Dealls"), ("glints", "Glints"), ("jobstreet", "JobStreet"),
    ("kalibrr", "Kalibrr"), ("kitalulus", "Kitalulus")].lookup normalized).getD
      (text.title normalized)

end PayloadText

/-- `map_job_status`. -/
def mapJobStatus : CanonicalJobStatus → PrismaJobListingStatus
  | .active => .active
  | .stale => .stale
  | .expired => .expired
  | .inactive => .closed
  | .unknown => .active

/-! ### Location and salary -/

/-- The fields of `normalize_location_fields`. -/
structure LocationFields where
  city : Option String
  region : Option String
  country : Option String
  display : Option String

namespace PayloadText

variable (text : PayloadText)

/-- `infer_city_from_display`. -/
def inferCityFromDisplay (display : Json) : Option String :=
  (text.asCleanText display).bind fun display =>
    ((splitCommas [] display.toList).head?.map strip).bind text.cleanText

/-- `infer_region_from_display`. -/
def inferRegionFromDisplay (display : Json) : Option String :=
  (text.asCleanText display).bind fun display =>
    (((splitCommas [] display.toList).map strip).filter (· ≠ ""))[1]?.bind text.cleanText

/-- `normalize_location_fields`. -/
def normalizeLocationFields (city region country display isRemote : Json) : LocationFields :=
  let city := (text.asCleanText city).or (text.inferCityFromDisplay display)
  let region := (text.asCleanText region).or (text.inferRegionFromDisplay display)
  let country := text.asCleanText country
  let remoteInIndonesia :=
    (match isRemote with | .bool b => b | _ => false) &&
      text.lower (country.getD "") = "indonesia"
  let city := if remoteInIndonesia then city.or (some "Remote") else city
  let region := if remoteInIndonesia then region.or (some "Indonesia") else region
  let display := (text.asCleanText display).or
    (match [city, region, country].filterMap id with
      | [] => none
      | parts => some (joinText ", " parts))
  { city, region, country, display }

/-- `build_source_limited_summary`, in English as the payload builder asks for it. -/
def buildSourceLimitedSummary (title : String) (company location : Option String)
    (sourcePlatform : String) : String :=
  let title := (text.cleanText title).getD "Unknown position"
  let company := (company.bind text.cleanText).getD "unknown company"
  let location := (location.bind text.cleanText).getD "location unavailable"
  let source := (text.cleanText sourcePlatform).getD "source"
  title ++ " at " ++ company ++ " (" ++ location ++ "). This summary is based on " ++ source ++
    " listing-level data; full details are unavailable."

end PayloadText

/-- `period_suffix`. -/
def periodSuffix : Option PrismaSalaryPeriod → String
  | some .monthly => "/ month"
  | some .yearly => "/ year"
  | none => ""

/-- `format_salary_amount`. -/
def formatSalaryAmount (value : ℤ) (currency : String) : String :=
  currency ++ " " ++ formatThousands value

/-- `build_salary_display_fallback`. -/
def buildSalaryDisplayFallback (minAmount maxAmount : Option ℤ) (currency : String)
    (period : Option PrismaSalaryPeriod) : Option String :=
  let withPeriod (amount : String) : String :=
    if periodSuffix period = "" then amount else amount ++ " " ++ periodSuffix period
  match minAmount, maxAmount with
  | none, none => none
  | some single, none => some (withPeriod (formatSalaryAmount single currency))
  | none, some single => some (withPeriod (formatSalaryAmount single currency))
  | some low, some high =>
    let (low, high) := if low > high then (high, low) else (low, high)
    if low = high then some (withPeriod (formatSalaryAmount low currency))
    else if currency = "IDR" then
      some (withPeriod ("IDR " ++ formatThousands low ++ " - " ++ formatThousands high))
    else
      some (withPeriod
        (formatSalaryAmount low currency ++ " - " ++ formatSalaryAmount high currency))

/-- The salary fields of a listing. -/
structure SalaryFields where
  min : Option ℤ
  max : Option ℤ
  currency : String
  period : PrismaSalaryPeriod
  display : String

/-- The bounds after zeros are dropped. -/
def dropZeroBounds : Option ℤ → Option ℤ → Option ℤ × Option ℤ
  | some 0, some 0 => (none, none)
  | some 0, some high => if high > 0 then (none, some high) else (some 0, some high)
  | some low, some 0 => if low > 0 then (some low, none) else (some low, some 0)
  | low, high => (low, high)

/-- The salary block of `build_backend_job_payload`. -/
def PayloadText.salaryFields (text : PayloadText) (salary : Dict) : SalaryFields :=
  let (low, high) := dropZeroBounds (text.optionalInt (salary.get "min_amount"))
    (text.optionalInt (salary.get "max_amount"))
  let display := text.optionalText (salary.get "display")
  let period := (text.mapSalaryPeriod (salary.get "period") display).getD .monthly
  let currency := (text.normalizedCurrency (salary.get "currency")).getD "IDR"
  let bounded := low.isSome || high.isSome
  let display := display.filter fun shown =>
    !(bounded && text.casefold shown ∈ salaryPlaceholderTexts)
  let display := display.filter fun shown => !(!bounded && text.looksLikeZeroSalaryDisplay shown)
  let display :=
    if bounded || display.isNone then buildSalaryDisplayFallback low high currency (some period)
    else display
  { min := low, max := high, currency, period, display := display.getD "Not specified" }

/-! ### The payload models -/

/-- `BackendRequirementPayload`. -/
structure BackendRequirementPayload where
  type : PrismaRequirementType
  value : String
  confidence : Option ℚ
  source : Option String

/-- `BackendSkillPayload`. -/
structure BackendSkillPayload where
  name : String
  confidence : Option ℚ
  source : Option String

/-- `BackendCompanyPayload`. -/
structure BackendCompanyPayload where
  name : String
  sourceCompanyId : Option String
  sourceSlug : Option String
  logoUrl : Option String
  websiteUrl : Option String
  industry : Option String

/-- `BackendJobListingPayload`. -/
structure BackendJobListingPayload where
  externalJobId : String
  title : String
  normalizedTitle : Option String
  category : Option String
  description : Option String
  requirementSummary : Option String
  workType : PrismaWorkType
  employmentType : PrismaEmploymentType
  experienceLevel : PrismaExperienceLevel
  locationDisplay : Option String
  province : Option String
  city : Option String
  salary : SalaryFields
  sourceUrl : String
  externalApplyUrl : String
  sourcePostedAt : Option String
  sourceUpdatedAt : Option String
  lastSeenAt : String
  status : PrismaJobListingStatus

/-- `BackendJobPayload`. -/
structure BackendJobPayload where
  slug : String
  platformName : String
  company : BackendCompanyPayload
  sourceRunId : Option String
  jobListing : BackendJobListingPayload
  requirements : List BackendRequirementPayload
  skills : List BackendSkillPayload

/-- One entry of `ValidationError.errors()`. -/
def fieldError (type : String) (loc : List String) (input : Json) : Json :=
  .dict [("type", .str type), ("loc", .list (loc.map .str)), ("input", input)]

/-- The check of a `str` field with `min_length` and `max_length`. -/
def textErrors (field : String) (minLength maxLength : ℕ) (value : String) : List Json :=
  if value.length < minLength then [fieldError "string_too_short" [field] (.str value)]
  else if maxLength < value.length then [fieldError "string_too_long" [field] (.str value)]
  else []

/-- The check of a `str | None` field with `max_length`. -/
def optionalTextErrors (field : String) (maxLength : ℕ) : Option String → List Json
  | some value => textErrors field 0 maxLength value
  | none => []

/-- The check of an `int | None` field with `ge=0`. -/
def amountErrors (field : String) : Option ℤ → List Json
  | some n => if n < 0 then [fieldError "greater_than_equal" [field] (.int n)] else []
  | none => []

/-- The check of `confidence`. -/
def confidenceErrors : Option ℚ → List Json
  | some q =>
    if q < 0 then [fieldError "greater_than_equal" ["confidence"] (.float (.finite q))]
    else if 1 < q then [fieldError "less_than_equal" ["confidence"] (.float (.finite q))]
    else []
  | none => []

/-- What `build_backend_job_payload` makes of the errors of one model. -/
def contract {α : Type} (job : NormalizedJob) (errors : List Json) (value : α) :
    Except BackendPayloadValidationError α :=
  if errors.isEmpty then .ok value
  else .error ⟨"sync payload failed contract validation", some job.externalId, errors⟩

/-- A model is built when it has no errors. -/
theorem contract_ok_iff {α : Type} {job : NormalizedJob} {errors : List Json} {value out : α} :
    contract job errors value = .ok out ↔ errors = [] ∧ out = value := by
  unfold contract
  cases errors with
  | nil => simp [eq_comm]
  | cons error errors => simp

/-- `BackendSourcePlatformPayload(...)`: the slug is normalized after its length is checked. -/
def checkSourcePlatform (job : NormalizedJob) (slug name : String) :
    Except BackendPayloadValidationError Unit :=
  contract job (textErrors "slug" 1 80 slug ++ textErrors "name" 1 120 name) ()

/-- `BackendCompanyPayload(...)`. -/
def checkCompany (job : NormalizedJob) (company : BackendCompanyPayload) :
    Except BackendPayloadValidationError BackendCompanyPayload :=
  contract job
    (textErrors "name" 1 180 company.name ++
      optionalTextErrors "source_company_id" 120 company.sourceCompanyId ++
      optionalTextErrors "source_slug" 120 company.sourceSlug ++
      optionalTextErrors "logo_url" 2000 company.logoUrl ++
      optionalTextErrors "website_url" 2000 company.websiteUrl ++
      optionalTextErrors "industry" 120 company.industry) company

/-- `BackendIngestionRunPayload(source_run_id=run_id) if run_id else None`. -/
def checkIngestionRun (job : NormalizedJob) (runId : Option String) :
    Except BackendPayloadValidationError (Option String) :=
  match runId with
  | some runId =>
    if runId = "" then .ok none
    else contract job (textErrors "source_run_id" 1 160 runId) (some runId)
  | none => .ok none

/-- `BackendJobListingPayload(...)`: the fields, then the salary range. -/
def checkJobListing (job : NormalizedJob) (listing : BackendJobListingPayload) :
    Except BackendPayloadValidationError BackendJobListingPayload := do
  let listing ← contract job
    (textErrors "external_job_id" 1 255 listing.externalJobId ++
      textErrors "title" 1 255 listing.title ++
      optionalTextErrors "normalized_title" 255 listing.normalizedTitle ++
      optionalTextErrors "category" 120 listing.category ++
      optionalTextErrors "description" 10000 listing.description ++
      optionalTextErrors "requirement_summary" 10000 listing.requirementSummary ++
      optionalTextErrors "location_display" 255 listing.locationDisplay ++
      optionalTextErrors "province" 120 listing.province ++
      optionalTextErrors "city" 120 listing.city ++
      amountErrors "salary_min" listing.salary.min ++
      amountErrors "salary_max" listing.salary.max ++
      textErrors "salary_currency" 3 3 listing.salary.currency ++
      optionalTextErrors "salary_display" 255 (some listing.salary.display) ++
      textErrors "source_url" 1 2000 listing.sourceUrl ++
      textErrors "external_apply_url" 1 2000 listing.externalApplyUrl ++
      textErrors "last_seen_at" 1 80 listing.lastSeenAt) listing
  match listing.salary.min, listing.salary.max with
  | some low, some high =>
    contract job (if low > high then [fieldError "value_error" [] .null] else []) listing
  | _, _ => .ok listing

/-- `BackendRequirementPayload(...)`. -/
def checkRequirement (job : NormalizedJob) (requirement : BackendRequirementPayload) :
    Except BackendPayloadValidationError BackendRequirementPayload :=
  contract job
    (textErrors "value" 1 2000 requirement.value ++ confidenceErrors requirement.confidence ++
      optionalTextErrors "source" 80 requirement.source) requirement

/-- `BackendSkillPayload(...)`. -/
def checkSkill (job : NormalizedJob) (skill : BackendSkillPayload) :
    Except BackendPayloadValidationError BackendSkillPayload :=
  contract job
    (textErrors "name" 1 120 skill.name ++ confidenceErrors skill.confidence ++
      optionalTextErrors "source" 80 skill.source) skill

/-! ### Requirements and skills -/

namespace PayloadText

variable (text : PayloadText)

/-- The loop of `dedupe_skill_payloads`. -/
def dedupeSkillsFrom (seen : List String) : List BackendSkillPayload → List BackendSkillPayload
  | [] => []
  | skill :: skills =>
    let key := strip (text.casefold skill.name)
    if key = "" || key ∈ seen then dedupeSkillsFrom seen skills
    else skill :: dedupeSkillsFrom (key :: seen) skills

/-- `dedupe_skill_payloads`. -/
def dedupeSkillPayloads (skills : List BackendSkillPayload) : List BackendSkillPayload :=
  text.dedupeSkillsFrom [] skills

/-- The loop of `dedupe_requirement_payloads`. -/
def dedupeRequirementsFrom (seen : List (PrismaRequirementType × String)) :
    List BackendRequirementPayload → List BackendRequirementPayload
  | [] => []
  | requirement :: requirements =>
    let key := (requirement.type, strip (text.casefold requirement.value))
    if key.2 = "" || key ∈ seen || text.isNoisyRequirement requirement.value then
      dedupeRequirementsFrom seen requirements
    else requirement :: dedupeRequirementsFrom (key :: seen) requirements

/-- `dedupe_requirement_payloads`. -/
def dedupeRequirementPayloads (requirements : List BackendRequirementPayload) :
    List BackendRequirementPayload :=
  (text.dedupeRequirementsFrom [] requirements).take maxRelationsPerBackendJob

/-- `requirement_payload_from_staging`. -/
def requirementPayloadFromStaging (job : NormalizedJob) (requirement : JobRequirementStaging) :
    Except BackendPayloadValidationError (Option BackendRequirementPayload) :=
  if requirement.normalizedJobId ≠ job.id then
    .error ⟨"orphan JobRequirement row: normalized job relation mismatch", some job.externalId, []⟩
  else
    match PrismaRequirementType.values.lookup (text.upper (strip requirement.requirementType)) with
    | none =>
      .error ⟨"invalid requirement type for backend sync contract", some job.externalId,
        [fieldError "enum" ["requirements", "type"] (.str requirement.requirementType)]⟩
    | some type =>
      let value := (text.normalizeTextBlock (some requirement.normalizedValue)).getD ""
      if text.isNoisyRequirement value || text.isLowSignalRequirement value then .ok none
      else
        (checkRequirement job ⟨type, value, requirement.confidence, requirement.source⟩).map some

/-- `skill_payloads_from_staging`. -/
def skillPayloadsFromStaging (job : NormalizedJob) (skill : JobSkillStaging) :
    Except BackendPayloadValidationError (List BackendSkillPayload) :=
  if skill.normalizedJobId ≠ job.id then
    .error ⟨"orphan JobSkill row: normalized job relation mismatch", some job.externalId, []⟩
  else
    let names := text.sanitizeSkillValues [.str skill.normalizedValue]
    let names :=
      if names.isEmpty then
        ((text.normalizeTextBlock (some skill.normalizedValue)).filter
          fun fallback => !text.isLowSignalSkill fallback).toList
      else names
    names.mapM fun name => checkSkill job ⟨name, skill.confidence, skill.source⟩

/-- `derive_generic_requirement`. -/
def deriveGenericRequirement (job : NormalizedJob) : String :=
  let payload := job.normalizedPayload
  let items := match text.normalizeTextBlock (text.optionalText (payload.get "description")) with
    | some description => text.splitRequirementText description
    | none => []
  match items with
  | item :: _ => item
  | [] =>
    let title := (text.optionalText (payload.get "title")).getD job.title
    "Has core competencies relevant to the " ++ title ++ " role."

/-- `derive_fallback_requirements`. -/
def deriveFallbackRequirements (job : NormalizedJob) : List (PrismaRequirementType × String) :=
  let classified (field : String) : List (PrismaRequirementType × String) :=
    match text.normalizeTextBlock (text.optionalText (job.normalizedPayload.get field)) with
    | some value =>
      (text.splitRequirementText value).map fun item => (text.classifyRequirementType item, item)
    | none => []
  if (classified "requirements").isEmpty then (classified "description").take 8
  else classified "requirements"

/-- `build_requirement_payloads`. -/
def buildRequirementPayloads (job : NormalizedJob) :
    Except BackendPayloadValidationError (List BackendRequirementPayload) := do
  let staged ← job.requirementsStaging.mapM (text.requirementPayloadFromStaging job)
  let staged := text.dedupeRequirementPayloads (staged.filterMap id)
  if !staged.isEmpty then return staged
  let fallback := text.deriveFallbackRequirements job
  if !fallback.isEmpty then
    let normalized ← fallback.mapM fun item =>
      checkRequirement job ⟨item.1, item.2, none, some "normalized"⟩
    return text.dedupeRequirementPayloads normalized
  let generic := text.deriveGenericRequirement job
  if generic = "" then return []
  let generic ← checkRequirement job ⟨.other, generic, none, some "normalized"⟩
  return [generic]

/-- `build_skill_payloads`. -/
def buildSkillPayloads (job : NormalizedJob) :
    Except BackendPayloadValidationError (List BackendSkillPayload) := do
  let staged ← job.skillsStaging.mapM (text.skillPayloadsFromStaging job)
  let staged := text.dedupeSkillPayloads staged.flatten
  if !staged.isEmpty then return staged
  let payload := job.normalizedPayload
  let normalized := text.sanitizeSkillValues (payload.get "skills").asList
  if !normalized.isEmpty then
    let skills ← normalized.mapM fun name => checkSkill job ⟨name, none, some "normalized"⟩
    return text.dedupeSkillPayloads skills
  let title := (text.optionalText (payload.get "title")).getD job.title
  let texts := title :: [text.optionalText (payload.get "requirements"),
    text.optionalText (payload.get "description")].filterMap id
  let skills ← (text.deriveFallbackSkills (texts.filter (· ≠ ""))).mapM fun name =>
    checkSkill job ⟨name, none, some "normalized"⟩
  return text.dedupeSkillPayloads skills

/-! ### The payload -/

/-- `build_backend_job_payload`. -/
def buildBackendJobPayload (rawJob : Option RawJob) (job : NormalizedJob) :
    Except BackendPayloadValidationError BackendJobPayload := do
  let payload := job.normalizedPayload
  let source := (payload.get "source").asDict
  let company := (payload.get "company").asDict
  let location := (payload.get "location").asDict
  let runId := rawJob.map RawJob.scrapeRunId
  let externalApplyUrl := (text.firstNonEmpty [source.get "external_apply_url",
    .ofOption job.applyUrl, source.get "source_url", .str job.sourceUrl]).getD ""
  let sourceUrl := (text.firstNonEmpty [source.get "source_url", .str job.sourceUrl]).getD ""
  let place := text.normalizeLocationFields (location.get "city") (location.get "region")
    (location.get "country") (location.get "display") (location.get "is_remote")
  let locationDisplay := text.optionalText (.ofOption place.display)
  let companyName := text.firstNonEmpty [company.get "name", .str job.companyName]
  let description := text.ensureDisplayHtml (text.cleanDescription (payload.get "description"))
  let description :=
    if description.isNone && text.lower (strip job.sourcePlatform) = "glints" then
      text.ensureDisplayHtml (some (text.buildSourceLimitedSummary job.title companyName
        locationDisplay job.sourcePlatform))
    else description
  let skills := text.sanitizeSkillValues (payload.get "skills").asList
  let requirementSummary := (text.improveRequirementSummary
    (text.cleanDescription (payload.get "requirements")) skills).or
      (text.improveRequirementSummary (some (text.deriveGenericRequirement job)) skills)
  let description := text.ensureDisplayHtml (text.improveDescription description
    job.sourcePlatform job.title companyName locationDisplay requirementSummary skills)
  let experienceLevel := (text.mapExperienceLevel (payload.get "experience_level")).or
    (text.mapExperienceLevel (.str (text.inferExperienceLevel (payload.get "experience_level")
      (payload.get "title") description requirementSummary)))
  let postedAt := job.postedAt.or (text.parseAbsoluteDatetime (payload.get "posted_at"))
  checkSourcePlatform job job.sourcePlatform (text.platformDisplayName job.sourcePlatform)
  let companyPayload ← checkCompany job {
    name := companyName.getD ""
    sourceCompanyId := text.optionalText (company.get "source_company_id")
    sourceSlug := text.optionalText (company.get "source_slug")
    logoUrl := text.optionalText (company.get "logo_url")
    websiteUrl := text.optionalText (company.get "website_url")
    industry := text.optionalText (company.get "industry") }
  let sourceRunId ← checkIngestionRun job runId
  let jobListing ← checkJobListing job {
    externalJobId := job.externalId
    title := job.title
    normalizedTitle := some ((text.optionalText (payload.get "normalized_title")).getD job.title)
    category := text.optionalText (payload.get "category")
    description := description
    requirementSummary := requirementSummary
    workType := (text.mapWorkType (payload.get "work_type")).getD .onsite
    employmentType := (text.mapEmploymentType (payload.get "employment_types")).getD .fullTime
    experienceLevel := experienceLevel.getD .entryLevel
    locationDisplay := locationDisplay
    province := text.optionalText (.ofOption place.region)
    city := text.optionalText (.ofOption place.city)
    salary := text.salaryFields (payload.get "salary").asDict
    sourceUrl := sourceUrl
    externalApplyUrl := externalApplyUrl
    sourcePostedAt := postedAt.map text.isoformat
    sourceUpdatedAt :=
      (text.parseAbsoluteDatetime (source.get "source_updated_at")).map text.isoformat
    lastSeenAt := text.isoformat job.lastSeenAt
    status := mapJobStatus job.status }
  let requirements ← text.buildRequirementPayloads job
  let skillPayloads ← text.buildSkillPayloads job
  let slug := text.lower (strip job.sourcePlatform)
  contract job
    ((if maxRelationsPerBackendJob < requirements.length then
        [fieldError "too_long" ["requirements"] .null] else []) ++
      (if maxRelationsPerBackendJob < skillPayloads.length then
        [fieldError "too_long" ["skills"] .null] else [])) ()
  contract job (if slug = "" then [fieldError "value_error" [] .null] else []) {
    slug := slug
    platformName := text.platformDisplayName job.sourcePlatform
    company := companyPayload
    sourceRunId := sourceRunId
    jobListing := jobListing
    requirements := requirements
    skills := skillPayloads }

end PayloadText

/-! ### Dumping -/

/-- An optional rational as JSON. -/
def confidenceJson : Option ℚ → Json
  | some q => .float (.finite q)
  | none => .null

/-- An optional integer as JSON. -/
def amountJson : Option ℤ → Json
  | some n => .int n
  | none => .null

/-- A requirement dumped by alias. -/
def BackendRequirementPayload.modelDump (requirement : BackendRequirementPayload) : Json :=
  .dict [("type", enumJson PrismaRequirementType.values requirement.type),
    ("value", .str requirement.value), ("priority", .null),
    ("confidence", confidenceJson requirement.confidence),
    ("source", .ofOption requirement.source)]

/-- A skill dumped by alias. -/
def BackendSkillPayload.modelDump (skill : BackendSkillPayload) : Json :=
  .dict [("name", .str skill.name), ("confidence", confidenceJson skill.confidence),
    ("source", .ofOption skill.source)]

/-- A company dumped by alias. -/
def BackendCompanyPayload.modelDump (company : BackendCompanyPayload) : Json :=
  .dict [("name", .str company.name), ("sourceCompanyId", .ofOption company.sourceCompanyId),
    ("sourceSlug", .ofOption company.sourceSlug), ("logoUrl", .ofOption company.logoUrl),
    ("websiteUrl", .ofOption company.websiteUrl), ("industry", .ofOption company.industry)]

/-- A listing dumped by alias; the currency is upper-cased by its validator. -/
def BackendJobListingPayload.modelDump (text : PayloadText) (listing : BackendJobListingPayload) :
    Json :=
  .dict [("externalJobId", .str listing.externalJobId), ("title", .str listing.title),
    ("normalizedTitle", .ofOption listing.normalizedTitle),
    ("category", .ofOption listing.category), ("description", .ofOption listing.description),
    ("requirementSummary", .ofOption listing.requirementSummary),
    ("workType", enumJson PrismaWorkType.values listing.workType),
    ("employmentType", enumJson PrismaEmploymentType.values listing.employmentType),
    ("experienceLevel", enumJson PrismaExperienceLevel.values listing.experienceLevel),
    ("locationDisplay", .ofOption listing.locationDisplay),
    ("province", .ofOption listing.province), ("city", .ofOption listing.city),
    ("salaryMin", amountJson listing.salary.min), ("salaryMax", amountJson listing.salary.max),
    ("salaryCurrency", .str (text.upper (strip listing.salary.currency))),
    ("salaryPeriod", enumJson PrismaSalaryPeriod.values listing.salary.period),
    ("salaryDisplay", .str listing.salary.display), ("sourceUrl", .str listing.sourceUrl),
    ("externalApplyUrl", .str listing.externalApplyUrl),
    ("sourcePostedAt", .ofOption listing.sourcePostedAt),
    ("sourceUpdatedAt", .ofOption listing.sourceUpdatedAt),
    ("lastSeenAt", .str listing.lastSeenAt),
    ("status", enumJson PrismaJobListingStatus.values listing.status)]

/-- `ingestion_run` dumped by alias. -/
def ingestionRunJson : Option String → Json
  | some runId => .dict [("sourceRunId", .str runId)]
  | none => .null

/-- `model_dump(mode="json", by_alias=True)`. -/
def BackendJobPayload.modelDump (text : PayloadText) (payload : BackendJobPayload) : Json :=
  .dict [
    ("sourcePlatform", .dict [("slug", .str payload.slug), ("name", .str payload.platformName)]),
    ("company", payload.company.modelDump),
    ("ingestionRun", ingestionRunJson payload.sourceRunId),
    ("jobListing", payload.jobListing.modelDump text),
    ("requirements", .list (payload.requirements.map BackendRequirementPayload.modelDump)),
    ("skills", .list (payload.skills.map BackendSkillPayload.modelDump))]

/-- `build_backend_job_payload(job).model_dump(mode="json", by_alias=True)`. -/
def dumpedJobPayload (text : PayloadText) (rawJob : Option RawJob) (job : NormalizedJob) :
    Except BackendPayloadValidationError Json :=
  (text.buildBackendJobPayload rawJob job).map (BackendJobPayload.modelDump text)

/-- Text helpers that do what the real ones do on plain lower-case text without markup. -/
def plainText : PayloadText where
  lower s := String.ofList (s.toList.map Char.toLower)
  upper s := String.ofList (s.toList.map Char.toUpper)
  title s := s
  casefold s := String.ofList (s.toList.map Char.toLower)
  digits _ := none
  isoformat _ := "1970-01-01"
  parseAbsoluteDatetime _ := none
  cleanText s := if s = "" then none else some s
  ensureDisplayHtml s := s
  normalizeTextBlock s := s
  splitRequirementText s := [s]
  classifyRequirementType _ := .other
  isNoisyRequirement _ := false
  isLowSignalRequirement _ := false
  isLowSignalSkill _ := false
  sanitizeSkillValues _ := []
  deriveFallbackSkills _ := ["Go"]
  improveRequirementSummary s _ := s
  improveDescription s _ title _ _ _ _ := s.or (some title)
  inferExperienceLevel _ _ _ _ := "lead"
  monthlyPattern _ := false
  yearlyPattern _ := false
  looksLikeZeroSalaryDisplay _ := false

end Bisakerja
