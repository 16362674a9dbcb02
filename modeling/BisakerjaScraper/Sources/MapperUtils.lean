import BisakerjaScraper.Backend.Payloads
import BisakerjaScraper.Jobs.Salary
import BisakerjaScraper.Shared.DisplayHtml
import BisakerjaScraper.Sources.Timestamps

/-! What the mappers of the sources share.

    A mapper reads the payload of a raw job into the fields of a canonical job and has the schema
    validate them. What the schema refuses becomes a `NormalizeError`; what Python refuses on the
    way there, iterating over a value or reading its HTML, its datetime or its amounts, does not. -/

namespace Bisakerja
open Schemes

/-- What the mappers use of the Unicode tables, of reading dates and of the HTML parser. A timestamp
    that cannot be converted raises one of Python's own exceptions. -/
structure MapperText extends UnicodeText where
  alphabet : Alphabet
  casefold : String → String
  dates : DateText
  dateFromIsoformat : String → Option Time
  treeText : String → String
  str : Json → String
  fromTimestamp_error : ∀ value divisor exc, dates.fromTimestamp value divisor = .error exc →
    ∃ className message, exc = .plain className message

/-! ### Values -/

/-- `d.get(key, default)`. -/
def Dict.getOr (d : Dict) (key : String) (default : Json) : Json := (d.lookup key).getD default

/-- `a or b`. -/
def Json.orElse (a b : Json) : Json := if a.truthy then a else b

/-- `type(value).__name__`. -/
def Json.typeName : Json → String
  | .null => "NoneType"
  | .bool _ => "bool"
  | .int _ => "int"
  | .float _ => "float"
  | .str _ => "str"
  | .list _ => "list"
  | .dict _ => "dict"

/-- `for item in value`: a text has its characters, a dict its keys. -/
def Json.iterate : Json → Except PyException (List Json)
  | .list xs => .ok xs
  | .str s => .ok (s.toList.map fun c => .str (String.singleton c))
  | .dict entries => .ok (entries.map fun entry => .str entry.1)
  | value => .error (.plain "TypeError" ("'" ++ value.typeName ++ "' object is not iterable"))

/-- `first_text`. -/
def firstText (values : List Json) : Option String := values.findSome? optionalCleanText

/-- `unique_texts`. -/
def uniqueTexts (values : List Json) : List String :=
  deduplicateList (values.filterMap optionalCleanText)

/-- `", ".join(part for part in parts if isinstance(part, str) and part)`. -/
def joinParts (parts : List Json) : String := joinText ", " (parts.filterMap nonEmptyText)

/-! ### Datetimes -/

/-- The units of `_RELATIVE_LABEL_PATTERN`. -/
def relativeUnits : List String :=
  ["detik", "menit", "jam", "hari", "minggu", "bulan", "tahun", "second", "seconds", "minute",
    "minutes", "hour", "hours", "day", "days", "week", "weeks", "month", "months", "year", "years"]

/-- `\s+` at the front. -/
def behindSpaces (text : List Char) : Option (List Char) :=
  if text.head?.any isSpace then some (lstrip text) else none

namespace Alphabet

variable (alphabet : Alphabet)

/-- `\b` behind a word. -/
def endsWord : Option (List Char) → Bool
  | none => false
  | some rest => !rest.head?.any alphabet.isWord

/-- `_RELATIVE_LABEL_PATTERN` at a character. A number in front of the unit is optional, so a match
    with one has a match without one behind it. -/
def relativeAt (afterWord : Bool) (text : List Char) : Bool :=
  !afterWord && relativeUnits.any fun unit =>
    ((literal unit.toList text).bind behindSpaces).any fun rest =>
      alphabet.endsWord (literal "ago".toList rest) ||
        alphabet.endsWord (((literal "yang".toList rest).bind behindSpaces).bind
          (literal "lalu".toList))

/-- `_is_relative_label`. -/
def isRelativeLabel (value : String) : Bool :=
  let lowered := lowerText value
  alphabet.search alphabet.relativeAt false lowered.toList ||
    lowered ∈ ["baru saja", "just now", "today", "yesterday"]

end Alphabet

namespace MapperText

variable (text : MapperText)

/-- `datetime.fromisoformat(value.replace("Z", "+00:00"))`, or else midnight of
    `date.fromisoformat(value)` in UTC. -/
def parseIso (value : String) : Option (Time × Option ℤ) :=
  (text.dates.fromIsoformat (replaceText value "Z" "+00:00")).or
    ((text.dateFromIsoformat value).map fun date => (date, some 0))

/-- `parse_absolute_datetime`; the conversion to UTC overflows outside the range of datetimes. -/
def parseDatetime (value : Json) : Except PyException (Option Time) :=
  match optionalCleanText value with
  | none => .ok none
  | some label =>
    if text.alphabet.isRelativeLabel label then .ok none
    else
      match text.parseIso label with
      | none => .ok none
      | some (time, none) => .ok (some time)
      | some (time, some offset) =>
        if datetimeMin ≤ time - offset ∧ time - offset ≤ datetimeMax then .ok (some (time - offset))
        else .error (.plain "OverflowError" "date value out of range")

/-- `parse_datetime(a) or parse_datetime(b)`. -/
def parseDatetimeOr (a b : Json) : Except PyException (Option Time) := do
  match ← text.parseDatetime a with
  | some time => pure (some time)
  | none => text.parseDatetime b

/-! ### HTML, salaries -/

/-- `html_to_text`. -/
def htmlToText : Json → Except PyException (Option String)
  | .null => .ok none
  | .str html => .ok (if strip html = "" then none else cleanText (text.treeText html))
  | value => .error
    (.plain "AttributeError" ("'" ++ value.typeName ++ "' object has no attribute 'strip'"))

/-- `salary_or_none`. -/
def salaryOrNone (minAmount maxAmount currency period display : Json) :
    Except PyException (Option SalarySchema) := do
  let normalized ← normalizeSalary text.toUnicodeText
    { minAmount, maxAmount, currency, period := .value period, label := display }
  pure normalized.salary

end MapperText

/-! ### Enumerations -/

/-- `text.lower().replace("-", "_").replace(" ", "_")`. -/
def underscored (value : String) : String := replaceChar (replaceChar (lowerText value) '-' '_') ' ' '_'

/-- `map_employment_type`. -/
def mapEmploymentType (value : Json) : EmploymentType :=
  match optionalCleanText value with
  | none => .unknown
  | some label =>
    let normalized := replaceText (replaceText (underscored label) "fulltime" "full_time")
      "parttime" "part_time"
    if normalized ∈ ["full_time", "full"] then .fullTime
    else if normalized ∈ ["part_time", "part"] then .partTime
    else if isInfix "contract" normalized then .contract
    else if isInfix "intern" normalized then .internship
    else if isInfix "freelance" normalized then .freelance
    else .unknown

/-- `map_work_type`. -/
def mapWorkType (value : Json) : WorkType :=
  match optionalCleanText value with
  | none => .unknown
  | some label =>
    let normalized := underscored label
    if isInfix "remote" normalized || isInfix "work_from_home" normalized || normalized = "wfh" then
      .remote
    else if isInfix "hybrid" normalized then .hybrid
    else if ["onsite", "on_site", "kantor"].any (isInfix · normalized) then .onsite
    else .unknown

/-- `map_status`. -/
def mapStatus (value : Json) : CanonicalJobStatus :=
  match optionalCleanText value with
  | none => .unknown
  | some label =>
    let normalized := lowerText label
    if normalized ∈ ["active", "open"] then .active
    else if normalized = "stale" then .stale
    else if normalized ∈ ["inactive", "closed"] then .inactive
    else if normalized = "expired" then .expired
    else .unknown

/-- `map_experience_level`. -/
def mapExperienceLevel (value : Json) : ExperienceLevel :=
  match optionalCleanText value with
  | none => .unknown
  | some label =>
    let normalized := underscored label
    if ["entry", "fresh", "intern"].any (isInfix · normalized) then .entryLevel
    else if isInfix "junior" normalized then .junior
    else if ["mid", "intermediate"].any (isInfix · normalized) then .midLevel
    else if isInfix "senior" normalized then .senior
    else if ["lead", "head", "principal", "manager"].any (isInfix · normalized) then .lead
    else .unknown

/-- The first explicit level that is known. -/
def knownLevel (values : List Json) : Option ExperienceLevel :=
  (values.map mapExperienceLevel).find? (· ≠ .unknown)

/-! ### The schema -/

/-- What a mapper hands to `validate_mapped_job` beside the identity and the scrape time. A field
    that still holds a value of the payload is a JSON value. -/
structure MappedPayload where
  sourceSlug : Json := .null
  externalApplyUrl : Json := .null
  sourceUpdatedAt : Option Time
  title : Json
  companyName : Json
  logoUrl : Json
  industry : Json
  sourceCompanyId : Json
  companySlug : Json := .null
  display : Json
  city : Json := .null
  region : Json := .null
  country : Json := .null
  isRemote : Json := .null
  salary : Option SalarySchema
  employmentTypes : List EmploymentType
  workType : WorkType
  experienceLevel : ExperienceLevel
  description : Json
  requirements : Option String
  skills : List String
  postedAt : Option Time
  status : CanonicalJobStatus
  postedLabel : Json := .null
  salaryLabel : Option String := none
  badges : List String
  sourceLabels : Dict

/-- A value of a field `str | None`. -/
def optionalField : Json → Option (Option String)
  | .null => some none
  | .str s => some (some s)
  | _ => none

/-- A value of a field `NonEmptyStr`. -/
def nonEmptyField : Json → Option NonEmptyStr
  | .str s => if h : s ≠ "" then some ⟨s, h⟩ else none
  | _ => none

/-- A value of a field `NonEmptyStr | None`. -/
def optionalNonEmptyField : Json → Option (Option NonEmptyStr)
  | .null => some none
  | value => (nonEmptyField value).map some

/-- A value of a field `bool | None`; some numbers and texts stand for a boolean. -/
def boolField : Json → Option (Option Bool)
  | .null => some none
  | .bool b => some (some b)
  | .int n => if n = 0 then some (some false) else if n = 1 then some (some true) else none
  | .float (.finite q) =>
    if q = 0 then some (some false) else if q = 1 then some (some true) else none
  | .str s =>
    if lowerText s ∈ ["0", "off", "f", "false", "n", "no"] then some (some false)
    else if lowerText s ∈ ["1", "on", "t", "true", "y", "yes"] then some (some true)
    else none
  | _ => none

/-- `deduplicate_list` on the employment types. -/
def deduplicateTypes (value : List EmploymentType) : List EmploymentType :=
  value.foldl (fun deduplicated item =>
    if item ∈ deduplicated then deduplicated else deduplicated ++ [item]) []

theorem nodup_deduplicateTypes (value : List EmploymentType) : (deduplicateTypes value).Nodup := by
  refine List.foldlRecOn (motive := List.Nodup) value _ List.nodup_nil ?_
  intro deduplicated hnodup item _
  split
  · exact hnodup
  · next hnew => exact hnodup.append (List.nodup_singleton item) (by simpa using hnew)

/-- `CanonicalJobSchema.model_validate`; none is its `ValidationError`. -/
def MappedPayload.validate (payload : MappedPayload) (platform : SourcePlatform)
    (raw : RawSourceJob) (scrapedAt : Time) : Option CanonicalJobSchema := do
  let externalJobId ← nonEmptyField (.str raw.externalId)
  let sourceSlug ← optionalField payload.sourceSlug
  let sourceUrl ← nonEmptyField (.str raw.sourceUrl)
  let externalApplyUrl ← optionalField payload.externalApplyUrl
  let title ← nonEmptyField payload.title
  let name ← nonEmptyField payload.companyName
  let logoUrl ← optionalField payload.logoUrl
  let industry ← optionalField payload.industry
  let sourceCompanyId ← optionalField payload.sourceCompanyId
  let companySlug ← optionalField payload.companySlug
  let display ← optionalNonEmptyField payload.display
  let city ← optionalField payload.city
  let region ← optionalField payload.region
  let country ← optionalField payload.country
  let isRemote ← boolField payload.isRemote
  let description ← optionalField payload.description
  let postedLabel ← optionalField payload.postedLabel
  pure
    { source :=
        { platform, externalJobId, sourceSlug, sourceUrl, externalApplyUrl, scrapedAt
          sourceUpdatedAt := payload.sourceUpdatedAt }
      title
      company := { name, logoUrl, industry, sourceCompanyId, sourceSlug := companySlug }
      location := { display, city, region, country, isRemote }
      salary := payload.salary
      employmentTypes := deduplicateTypes payload.employmentTypes
      workType := payload.workType
      experienceLevel := payload.experienceLevel
      description
      requirements := payload.requirements
      skills := deduplicateList payload.skills
      postedAt := payload.postedAt
      lastSeenAt := scrapedAt
      status := payload.status
      presentation :=
        { postedLabel, salaryLabel := payload.salaryLabel, badges := payload.badges
          sourceLabels := payload.sourceLabels }
      employmentTypes_nodup := nodup_deduplicateTypes _
      skills_nodup := nodup_deduplicateList _ }

/-- `validate_mapped_job`. -/
def validateMappedJob (platform : SourcePlatform) (raw : RawSourceJob) (scrapedAt : Time)
    (payload : MappedPayload) : Except PyException CanonicalJobSchema :=
  match payload.validate platform raw scrapedAt with
  | some job => .ok job
  | none => .error (.scraper .normalize "mapped job failed canonical validation"
      (some raw.externalId) false [("error", .str "ValidationError")])

end Bisakerja
