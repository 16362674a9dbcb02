import BisakerjaScraper.Python.Numbers
import BisakerjaScraper.Sources.MapperUtils

/-! The mappers of the five sources.

    Each reads the list payload and, where there is one, the detail payload of a raw job. What may
    raise stands in the order in which Python evaluates it. -/

namespace Bisakerja
open Schemes

/-- `raw.get("list") if isinstance(raw.get("list"), dict) else raw`. -/
def listPayloadOf (raw : Dict) : Dict :=
  match raw.get "list" with
  | .dict entries => entries
  | _ => raw

/-- `raw.get("detail") if isinstance(raw.get("detail"), dict) else list_payload`. -/
def detailPayloadOf (raw : Dict) : Dict :=
  match raw.get "detail" with
  | .dict entries => entries
  | _ => listPayloadOf raw

/-- `value is True`. -/
def Json.isTrue : Json → Bool
  | .bool b => b
  | _ => false

/-- `[label] if flag is True else []`. -/
def badgeIf (flag : Json) (label : String) : List String := if flag.isTrue then [label] else []

namespace MapperText

variable (text : MapperText)

/-! ### Dealls -/

/-- `_compose_dealls_description`; a detail that is missing reads as an empty one. -/
def composeDeallsDescription (detail : Json) : Except PyException (Option String) := do
  let description ← text.htmlToText (detail.get "description")
  let responsibilities ← text.htmlToText (detail.get "responsibilities")
  match description, responsibilities with
  | some description, some responsibilities =>
    if isInfix responsibilities description then pure (some description)
    else if isInfix description responsibilities then pure (some responsibilities)
    else pure (some (description ++ "\n\n" ++ responsibilities))
  | description, responsibilities => pure (description.or responsibilities)

/-- `_compose_dealls_requirements`. -/
def composeDeallsRequirements (detail : Json) : Except PyException (Option String) := do
  let requirements ← text.htmlToText (detail.get "requirements")
  let qualifications ← text.htmlToText (detail.get "qualifications")
  pure (requirements.or qualifications)

/-- The names of some skills: `skill.get("name") for skill in skills if isinstance(skill, dict)`. -/
def skillNames (skills : List Json) : List Json :=
  (skills.filter Json.isDict).map fun skill => skill.get "name"

/-- The payload of `map_dealls_job` up to its validation. -/
def deallsPayload (raw : Dict) : Except PyException MappedPayload := do
  let list := listPayloadOf raw
  let detail := raw.get "detail"
  let metadata := raw.get "detailMetadata"
  let company := list.get "company"
  let city := list.get "city"
  let country := list.get "country"
  let salaryRange := (list.get "salaryRange").asDict
  let postedAt ← text.parseDatetime (list.get "publishedAt")
  let updatedAt ← text.parseDatetimeOr (list.get "latestUpdatedAt") (list.get "updatedAt")
  let description ← text.composeDeallsDescription detail
  let requirements ← text.composeDeallsRequirements detail
  let salary ← text.salaryOrNone (salaryRange.get "start") (salaryRange.get "end")
    (if salaryRange.isEmpty then .null else .str "IDR")
    (if salaryRange.isEmpty then .null else .str "monthly") .null
  let employmentTypes ← (list.getOr "employmentTypes" (.list [])).iterate
  let skills ← (list.getOr "skills" (.list [])).iterate
  pure
    { sourceSlug := list.get "slug"
      externalApplyUrl := list.get "externalPlatformApplyUrl"
      sourceUpdatedAt := updatedAt
      title := list.get "role"
      companyName := (company.get "name").orElse (.str "Unknown company")
      logoUrl := company.get "logoUrl"
      industry := company.get "sector"
      sourceCompanyId := company.get "id"
      companySlug := company.get "slug"
      display := .ofOption (firstText [.str (joinParts [city.get "name", country.get "name"])])
      city := city.get "name"
      country := country.get "name"
      salary
      employmentTypes := (employmentTypes.filter Json.truthy).map mapEmploymentType
      workType := mapWorkType (list.get "workplaceType")
      experienceLevel := mapExperienceLevel (list.get "experienceLevel")
      description := .ofOption description
      requirements
      skills := uniqueTexts (skillNames skills)
      postedAt
      status := mapStatus (list.get "status")
      badges := badgeIf (list.get "urgentlyNeeded") "urgent" ++
        badgeIf (list.get "thereAreStillFewApplicants") "few_applicants"
      sourceLabels :=
        [("detailCoverage", metadata.asDict.getOr "coverage" (.str "missing")),
          ("detailCompleteness", metadata.asDict.getOr "detailCompleteness" (.str "partial")),
          ("detailMissingReason", metadata.get "missingReason")] }

/-! ### Glints -/

/-- `_first_dict`. -/
def firstDict (value : Json) : Dict := ((value.asList.find? Json.isDict).map Json.asDict).getD []

/-- `_status_from_list_visibility`. -/
def statusFromListVisibility (value : Json) : CanonicalJobStatus :=
  let mapped := mapStatus value
  if mapped ∈ [.stale, .inactive, .expired] then mapped else .active

/-- `_as_non_negative_int`; not every digit of `isdigit` is one for `int`. -/
def asNonNegativeInt : Json → Except PyException (Option ℕ)
  | .int n => .ok (if 0 ≤ n then some n.toNat else none)
  | .float (.finite q) => .ok (if q.den = 1 ∧ 0 ≤ q.num then some q.num.toNat else none)
  | .str s =>
    if isDigitText (strip s) then
      match intOfText (strip s) with
      | some n => .ok (if 0 ≤ n then some n.toNat else none)
      | none => .error (.plain "ValueError" "invalid literal for int()")
    else .ok none
  | _ => .ok none

/-- `_is_absurd_experience_range`. -/
def isAbsurdExperienceRange (minimum maximum : ℕ) : Bool :=
  30 < maximum || 15 < maximum - minimum || (minimum = 0 && 10 ≤ maximum)

/-- The part of `_build_requirements_summary` on the years of experience. -/
def experienceSummary : Option ℕ → Option ℕ → Option String
  | some minimum, some maximum =>
    let low := min minimum maximum
    let high := max minimum maximum
    some (if isAbsurdExperienceRange low high then "Pengalaman: relevan sesuai kebutuhan posisi."
      else if low = 0 ∧ high ≤ 1 then "Pengalaman: terbuka untuk kandidat pemula hingga 1 tahun."
      else "Pengalaman: " ++ toString low ++ "-" ++ toString high ++ " tahun.")
  | some minimum, none =>
    some (if 30 < minimum then "Pengalaman: relevan sesuai kebutuhan posisi."
      else "Pengalaman: minimal " ++ toString minimum ++ " tahun.")
  | none, some maximum =>
    some (if 30 < maximum then "Pengalaman: relevan sesuai kebutuhan posisi."
      else "Pengalaman: hingga " ++ toString maximum ++ " tahun.")
  | none, none => none

/-- `skill.get("skill", {}).get("name")` of the skills that are nested objects. -/
def nestedSkillNames (skills : List Json) : List Json :=
  ((skills.filter Json.isDict).filter fun skill => (skill.get "skill").isDict).map fun skill =>
    (skill.get "skill").get "name"

/-- `_build_requirements_summary`. -/
def buildRequirementsSummary (list : Dict) : Except PyException (Option String) := do
  let minimum ← asNonNegativeInt (list.get "minYearsOfExperience")
  let maximum ← asNonNegativeInt (list.get "maxYearsOfExperience")
  let skills ← (list.getOr "skills" (.list [])).iterate
  let category := match (list.get "hierarchicalJobCategory").get "name" with
    | .str s => if strip s = "" then none else some ("Kategori: " ++ strip s ++ ".")
    | _ => none
  let names := uniqueTexts (nestedSkillNames skills)
  let skillPart := if names = [] then none else some ("Keahlian: " ++ joinText ", " names ++ ".")
  let parts := [experienceSummary minimum maximum, category, skillPart].filterMap id
  pure (if parts = [] then none else some (joinText " " parts))

/-- The level some years of experience stand for. -/
def levelOfYears (years : ℕ) : Option ExperienceLevel :=
  if 5 ≤ years then some .senior
  else if 3 ≤ years then some .midLevel
  else if 1 ≤ years then some .junior
  else none

/-- `_experience_level_from_payload` of Glints. -/
def glintsExperienceLevel (list : Dict) : Except PyException ExperienceLevel :=
  match knownLevel [list.get "experienceLevel", list.get "seniorityLevel", list.get "careerLevel"] with
  | some level => .ok level
  | none => do
    let minimum ← asNonNegativeInt (list.get "minYearsOfExperience")
    let maximum ← asNonNegativeInt (list.get "maxYearsOfExperience")
    pure (((maximum.bind levelOfYears).or (minimum.bind levelOfYears)).getD .entryLevel)

/-- The payload of `map_glints_job` up to its validation. -/
def glintsPayload (raw : RawSourceJob) : Except PyException MappedPayload := do
  let list := listPayloadOf raw.rawPayload
  let metadata := Dict.get raw.rawPayload "detailMetadata"
  let company := list.get "company"
  let location := list.get "location"
  let country := list.get "country"
  let salary := firstDict (list.get "salaries")
  let postedAt ← text.parseDatetime (list.get "createdAt")
  let updatedAt ← text.parseDatetime (list.get "updatedAt")
  let requirements ← buildRequirementsSummary list
  let salary ← text.salaryOrNone (salary.get "minAmount") (salary.get "maxAmount")
    (salary.get "CurrencyCode") (salary.get "salaryMode") .null
  let experienceLevel ← glintsExperienceLevel list
  let skills ← (list.getOr "skills" (.list [])).iterate
  pure
    { externalApplyUrl := .str raw.sourceUrl
      sourceUpdatedAt := updatedAt
      title := list.get "title"
      companyName := ((company.get "name").orElse (company.get "brandName")).orElse
        (.str "Unknown company")
      logoUrl := company.get "logo"
      industry := (company.get "industry").get "name"
      sourceCompanyId := company.get "id"
      display := .ofOption (firstText [location.get "formattedName", country.get "name"])
      city := location.get "formattedName"
      country := country.get "name"
      salary
      employmentTypes := [mapEmploymentType (list.get "type")]
      workType := mapWorkType (list.get "workArrangementOption")
      experienceLevel
      description := .null
      requirements
      skills := uniqueTexts (nestedSkillNames skills)
      postedAt
      status := statusFromListVisibility (list.get "status")
      badges := badgeIf (list.get "isHot") "hot"
      sourceLabels :=
        [("detailCoverage", metadata.asDict.getOr "coverage" (.str "unavailable")),
          ("detailCompleteness", metadata.asDict.getOr "detailCompleteness" (.str "partial")),
          ("fallbackPolicy", .str "list-only")] }

/-! ### JobStreet -/

/-- `needle`'s first place in `haystack`: `haystack.find(needle)`, none for `-1`. -/
def findText (haystack needle : List Char) : Option ℕ :=
  haystack.tails.findIdx? fun tail => needle.isPrefixOf tail

/-- `char.isalnum()`. -/
def isAlnum (c : Char) : Bool := c ≠ '_' && text.alphabet.isWord c

/-- `_requirement_heading_key`. -/
def requirementHeadingKey : Json → String
  | .str s => joinText "" ((s.toList.filter text.isAlnum).map fun c =>
      text.casefold (String.singleton c))
  | _ => ""

/-- A heading in capitals of at most six words. -/
def isCapitalHeading (value : String) : Bool :=
  text.upper value = value && (words isSpace value.toList).length ≤ 6

/-- `_looks_like_requirement_heading`. -/
def looksLikeRequirementHeading (value : String) : Bool :=
  let line := strip value
  if line = "" then true
  else if ["minimal", "pengalaman", "menguasai"].any (isInfix · (text.casefold line)) then false
  else text.isCapitalHeading line

/-- `_drop_inline_requirement_heading`. -/
def dropInlineRequirementHeading (value : String) : String :=
  let lowered := (text.casefold value).toList
  let positions := (["minimal", "pengalaman", "menguasai", "lulusan", "usia"].filterMap fun marker =>
    findText lowered marker.toList).filter (0 < ·)
  match positions.min? with
  | none => value
  | some start =>
    if text.isCapitalHeading (strip (String.ofList (value.toList.take start))) then
      strip (String.ofList (value.toList.drop start))
    else value

/-- The texts of `values or []`, stripped. -/
def bulletTexts (values : Json) : Except PyException (List String) := do
  let items ← (values.orElse (.list [])).iterate
  pure (items.filterMap fun item => match item with
    | .str s => if strip s = "" then none else some (strip s)
    | _ => none)

/-- The lines of the content that are no heading. -/
def requirementLines (content : String) (title : Json) : Option String :=
  let content := text.dropInlineRequirementHeading content
  let lines := ((splitlinesFrom [] content.toList).map String.ofList).filter fun line =>
    text.requirementHeadingKey (.str line) ≠ text.requirementHeadingKey title &&
      !text.looksLikeRequirementHeading line && strip line ≠ ""
  if joinText "\n" lines = "" then none else some (joinText "\n" lines)

/-- `_requirements_text`. -/
def requirementsText (list : Dict) (detailJob title : Json) : Except PyException (Option String) := do
  let productBullets ← bulletTexts ((detailJob.get "products").get "bullets")
  if productBullets ≠ [] then return some (joinText "\n" productBullets)
  let listBullets ← bulletTexts (list.get "bulletPoints")
  if listBullets ≠ [] then return some (joinText "\n" listBullets)
  let content ← text.htmlToText (detailJob.get "content")
  pure (content.bind fun content => text.requirementLines content title)

/-- `logo if isinstance(logo, str) and logo else …` over the places of a logo. -/
def jobstreetLogo (list : Dict) (detailJob companyProfile : Json) : Json :=
  .ofOption ([(list.get "branding").get "serpLogoUrl",
    (((detailJob.get "products").get "branding").get "logo").get "url",
    (companyProfile.get "branding").get "logo"].findSome? nonEmptyText)

/-- `_salary_label` of JobStreet. -/
def jobstreetSalaryLabel (list : Dict) (detailJob : Json) : Option String :=
  firstText [(detailJob.get "salary").get "label", list.get "salaryLabel"]

/-- `_employment_types`. -/
def jobstreetEmploymentTypes (list : Dict) (detailJob : Json) :
    Except PyException (List EmploymentType) := do
  let workTypes ← ((list.get "workTypes").orElse (.list [])).iterate
  let detailTypes := if (detailJob.get "workTypes").isDict then
    [(detailJob.get "workTypes").get "label"] else []
  let mapped := ((detailTypes ++ workTypes).filter Json.truthy).map mapEmploymentType
  pure (if mapped = [] then [mapEmploymentType .null] else mapped)

/-- `_first_arrangement_type`. -/
def firstArrangementType (workArrangements : Json) : Option String :=
  (workArrangements.get "arrangements").asList.findSome? fun arrangement =>
    nonEmptyText ((arrangement.get "type").orElse (arrangement.get "label"))

/-- `_experience_level_from_payload` of JobStreet. -/
def jobstreetExperienceLevel (list : Dict) (detailJob : Json) : Except PyException ExperienceLevel :=
  match knownLevel
      [list.get "experienceLevel", list.get "careerLevel", detailJob.get "careerLevel"] with
  | some level => .ok level
  | none => do
    let title := firstText [detailJob.get "title", list.get "title"]
    let description := firstText [detailJob.get "content", list.get "teaser"]
    let bullets ← ((((detailJob.get "products").get "bullets").orElse
      (list.get "bulletPoints")).orElse (.list [])).iterate
    pure (mapExperienceLevel
      (.str (joinText " " ([title, description, firstText bullets].filterMap id))))

/-- `_location_display`. -/
def locationDisplay (list : Dict) : Json :=
  .ofOption (firstText (((list.get "locations").asList.filter Json.isDict).map (·.get "label")))

/-- The payload of `map_jobstreet_job` up to its validation. -/
def jobstreetPayload (raw : Dict) : Except PyException MappedPayload := do
  let list := listPayloadOf raw
  let detail := raw.get "detail"
  let metadata := raw.get "detailMetadata"
  let detailJob := detail.get "job"
  let companyProfile := detail.get "companyProfile"
  let listingDate := list.get "listingDate"
  let listedAt := detailJob.get "listedAt"
  let title := (detailJob.get "title").orElse (list.get "title")
  let postedAt ← text.parseDatetimeOr (listedAt.get "dateTimeUtc") (listingDate.get "dateTimeUtc")
  let salary ← text.salaryOrNone .null .null .null .null
    (.ofOption (jobstreetSalaryLabel list detailJob))
  let employmentTypes ← jobstreetEmploymentTypes list detailJob
  let experienceLevel ← jobstreetExperienceLevel list detailJob
  let content ← text.htmlToText (detailJob.get "content")
  let requirements ← text.requirementsText list detailJob title
  let tags ← (list.getOr "tags" (.list [])).iterate
  pure
    { sourceUpdatedAt := postedAt
      title
      companyName := (((companyProfile.get "name").orElse
        ((detailJob.get "advertiser").get "name")).orElse (list.get "companyName")).orElse
        (.str "Unknown company")
      logoUrl := jobstreetLogo list detailJob companyProfile
      industry := (companyProfile.get "overview").get "industry"
      sourceCompanyId := companyProfile.get "id"
      companySlug := companyProfile.get "companyNameSlug"
      display := ((detailJob.get "location").get "label").orElse (locationDisplay list)
      salary
      employmentTypes
      workType := mapWorkType (.ofOption (firstText
        [.ofOption (firstArrangementType (detail.get "workArrangements")),
          (list.get "workArrangements").get "displayText"]))
      experienceLevel
      description := match content with
        | some content => .str content
        | none => list.get "teaser"
      requirements
      skills := []
      postedAt
      status := if detailJob.asDict.isEmpty then mapStatus (.str "active")
        else mapStatus (detailJob.get "status")
      postedLabel := (listedAt.get "label").orElse (listingDate.get "label")
      salaryLabel := jobstreetSalaryLabel list detailJob
      badges := uniqueTexts ((tags.filter Json.isDict).map fun tag =>
        (tag.get "type").orElse (tag.get "label"))
      sourceLabels :=
        [("detailCoverage", metadata.asDict.getOr "coverage" (.str "missing")),
          ("detailCompleteness", metadata.asDict.getOr "detailCompleteness" (.str "partial")),
          ("detailMissingReason", metadata.get "missingReason")] }

/-! ### Kalibrr -/

/-- `_kalibrr_work_type`. -/
def kalibrrWorkType (list : Dict) : WorkType :=
  if (list.get "isWorkFromHome").isTrue then .remote
  else if (list.get "isHybrid").isTrue then .hybrid
  else mapWorkType (.str "onsite")

/-- `_kalibrr_experience_level`. -/
def kalibrrExperienceLevel (list : Dict) : ExperienceLevel :=
  if (list.get "isOpenToFreshGrads").isTrue then .entryLevel
  else (knownLevel [list.get "experienceLevel"]).getD (mapExperienceLevel (list.get "qualifications"))

/-- The payload of `map_kalibrr_job` up to its validation. -/
def kalibrrPayload (raw : Dict) : Except PyException MappedPayload := do
  let list := listPayloadOf raw
  let detail := detailPayloadOf raw
  let metadata := raw.get "detailMetadata"
  let company := list.get "company"
  let companyInfo := list.get "companyInfo"
  let location := (list.get "googleLocation").get "addressComponents"
  let postedAt ← text.parseDatetimeOr (list.get "activationDate") (list.get "createdAt")
  let updatedAt ← text.parseDatetime (list.get "activationDate")
  let salary ← text.salaryOrNone (list.get "baseSalary") (list.get "maximumSalary")
    (list.get "salaryCurrency") (list.get "salaryInterval") .null
  let description ← text.htmlToText (detail.get "description")
  let requirements ← text.htmlToText (detail.get "qualifications")
  let skills ← (list.getOr "jobSdsSkills" (.list [])).iterate
  pure
    { sourceSlug := list.get "slug"
      externalApplyUrl := list.get "applyRedirectUrl"
      sourceUpdatedAt := updatedAt
      title := list.get "name"
      companyName := (((list.get "companyName").orElse (company.get "name")).orElse
        (companyInfo.get "name")).orElse (.str "Unknown company")
      logoUrl := (company.get "logoSmall").orElse (companyInfo.get "logoSmall")
      industry := (company.get "industry").orElse (companyInfo.get "industry")
      sourceCompanyId := match company.get "id" with
        | .null => .null
        | value => .str (text.str value)
      companySlug := (company.get "code").orElse (companyInfo.get "code")
      display := .ofOption (firstText
        [.str (joinParts [location.get "city", location.get "region", location.get "country"])])
      city := location.get "city"
      region := location.get "region"
      country := location.get "country"
      isRemote := list.get "isWorkFromHome"
      salary
      employmentTypes := [mapEmploymentType (list.get "tenure")]
      workType := kalibrrWorkType list
      experienceLevel := kalibrrExperienceLevel list
      description := .ofOption description
      requirements
      skills := uniqueTexts ((skills.filter Json.isDict).map fun skill =>
        (skill.get "name").orElse (skill.get "skill"))
      postedAt
      status := .active
      badges := badgeIf (list.get "isFeatured") "featured"
      sourceLabels :=
        [("detailCoverage", metadata.asDict.getOr "coverage" (.str "embedded")),
          ("detailCompleteness", metadata.asDict.getOr "detailCompleteness" (.str "complete"))] }

/-! ### Kitalulus -/

/-- `value == 0`: a number, or `False`. -/
def isZero : Json → Bool
  | .int n => n = 0
  | .float (.finite q) => q = 0
  | .bool b => !b
  | _ => false

/-- `_zero_as_none`. -/
def zeroAsNone (value : Json) : Json := if isZero value then .null else value

/-- `_dict_value(a) or _dict_value(b)`. -/
def dictOr (a b : Json) : Json := if a.asDict.isEmpty then .dict b.asDict else a

/-- `_safe_logo_url`. -/
def safeLogoUrl : Json → Json
  | .str s => if strip s = "" then .null else .str (String.ofList (s.toList.takeWhile (· ≠ '?')))
  | _ => .null

/-- `_is_remote`. -/
def isRemote (detail : Dict) : Json :=
  match detail.get "locationSiteStr" with
  | .str s =>
    let lowered := text.casefold s
    if isInfix "wfh" lowered || isInfix "rumah" lowered then .bool true
    else if isInfix "wfo" lowered || isInfix "kantor" lowered then .bool false
    else .null
  | _ => .null

/-- `_kitalulus_work_type`. -/
def kitalulusWorkType (detail : Dict) : WorkType :=
  let mapped := mapWorkType (detail.get "locationSiteStr")
  if mapped ≠ .unknown then mapped else .onsite

/-- `value == label` for a text. -/
def isText (value : Json) (label : String) : Bool :=
  match value with
  | .str s => s = label
  | _ => false

/-- `_kitalulus_employment_type`. -/
def kitalulusEmploymentType (detail : Dict) : EmploymentType :=
  let mapped := mapEmploymentType (detail.get "typeStr")
  if isText (detail.get "googleType") "CONTRACTOR" then .contract
  else if mapped ≠ .unknown then mapped
  else if isText (detail.get "typeStr") "Magang" then .internship
  else if isText (detail.get "typeStr") "Kontrak" then .contract
  else .fullTime

/-- `value in {None, 0}`: the value is hashed first. -/
def isNoneOrZero : Json → Except PyException Bool
  | .list _ => .error (.plain "TypeError" "unhashable type: 'list'")
  | .dict _ => .error (.plain "TypeError" "unhashable type: 'dict'")
  | .null => .ok true
  | value => .ok (isZero value)

/-- `isinstance(value, int)`, and the number it is. -/
def asInt : Json → Option ℤ
  | .int n => some n
  | .bool b => some (if b then 1 else 0)
  | _ => none

/-- `_kitalulus_experience_level`. -/
def kitalulusExperienceLevel (detail : Dict) : Except PyException ExperienceLevel := do
  if ← isNoneOrZero (detail.get "minExperience") then return .entryLevel
  let mapped := mapExperienceLevel (detail.get "minExperienceStr")
  if mapped ≠ .unknown then return mapped
  match asInt (detail.get "minExperience") with
  | some years =>
    pure (if years ≤ 1 then .junior else if years ≤ 3 then .midLevel else .senior)
  | none => pure .unknown

/-- `_kitalulus_status`. -/
def kitalulusStatus (detail : Dict) : CanonicalJobStatus :=
  if (detail.get "isClosed").isTrue then .inactive
  else match detail.get "isPublished" with
    | .bool false => .inactive
    | _ => .active

/-- The salary of `map_kitalulus_job`, where a bound is there. -/
def kitalulusSalary (detail : Dict) : Except PyException (Option SalarySchema) :=
  match zeroAsNone (detail.get "salaryLowerBound"), zeroAsNone (detail.get "salaryUpperBound") with
  | .null, .null => .ok none
  | low, high => text.salaryOrNone low high (.str "IDR") (.str "monthly") .null

/-- The description of `map_kitalulus_job`. -/
def kitalulusDescription (detail : Dict) : Except PyException (Option String) := do
  let formatted := detail.get "formattedDescription"
  match ← if formatted.truthy then text.htmlToText formatted else .ok none with
  | some description => pure (some description)
  | none => text.htmlToText (detail.get "description")

/-- The payload of `map_kitalulus_job` up to its validation. -/
def kitalulusPayload (raw : RawSourceJob) : Except PyException MappedPayload := do
  let list := listPayloadOf raw.rawPayload
  let detail := detailPayloadOf raw.rawPayload
  let metadata := Dict.get raw.rawPayload "detailMetadata"
  let company := dictOr (detail.get "company") (list.get "company")
  let province := dictOr (detail.get "province") (list.get "province")
  let city := dictOr (detail.get "city") (list.get "city")
  let updatedAt ← text.dates.parseKitalulusEpochDatetime (detail.get "updatedAt")
  let salary ← text.kitalulusSalary detail
  let description ← text.kitalulusDescription detail
  let experienceLevel ← kitalulusExperienceLevel detail
  pure
    { sourceSlug := (detail.get "slug").orElse (list.get "slug")
      externalApplyUrl := .str raw.sourceUrl
      sourceUpdatedAt := updatedAt
      title := (detail.get "positionName").orElse (list.get "positionName")
      companyName := (company.get "name").orElse (.str "Unknown company")
      logoUrl := safeLogoUrl (company.get "logoUrl")
      industry := (company.get "companyIndustry").get "name"
      sourceCompanyId := .ofOption (firstText [company.get "id", company.get "code"])
      companySlug := (company.get "slug").orElse (company.get "code")
      display := .ofOption (firstText
        [.str (joinParts [city.get "name", province.get "name", .str "Indonesia"])])
      city := city.get "name"
      region := province.get "name"
      country := .str "Indonesia"
      isRemote := text.isRemote detail
      salary
      employmentTypes := [kitalulusEmploymentType detail]
      workType := kitalulusWorkType detail
      experienceLevel
      description := .ofOption description
      requirements := description
      skills := uniqueTexts (detail.get "skillTags").asList
      postedAt := updatedAt
      status := kitalulusStatus detail
      postedLabel := (detail.get "updatedAtStr").orElse (list.get "updatedAtStr")
      badges := badgeIf (detail.get "isHighlighted") "highlighted"
      sourceLabels :=
        [("detailCoverage", metadata.asDict.getOr "coverage" (.str "list")),
          ("detailCompleteness", metadata.asDict.getOr "detailCompleteness" (.str "partial")),
          ("jobRole", (detail.get "jobRole").get "displayName"),
          ("education", detail.get "educationLevelStr"),
          ("minExperience", (detail.get "minExperienceStr").orElse (detail.get "minExperience"))] }

/-! ### All sources -/

/-- The payload each mapper builds. -/
def mappedPayload : SourcePlatform → RawSourceJob → Except PyException MappedPayload
  | .dealls, raw => text.deallsPayload raw.rawPayload
  | .glints, raw => text.glintsPayload raw
  | .jobstreet, raw => text.jobstreetPayload raw.rawPayload
  | .kalibrr, raw => text.kalibrrPayload raw.rawPayload
  | .kitalulus, raw => text.kitalulusPayload raw

/-- `map_dealls_job`, `map_glints_job` and so on: the payload, and its validation. -/
def mapJob (platform : SourcePlatform) (raw : RawSourceJob) (scrapedAt : Time) :
    Except PyException CanonicalJobSchema := do
  let payload ← text.mappedPayload platform raw
  validateMappedJob platform raw scrapedAt payload

end MapperText

end Bisakerja
