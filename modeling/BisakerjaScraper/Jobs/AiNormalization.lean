import BisakerjaScraper.Jobs.Evidence
import BisakerjaScraper.Jobs.Schemas

/-! What an AI answer goes through before it is stored.

    An answer is validated against the schema, completed by `_apply_defaults` and checked by
    `_validate_source_policy`, one by one or as the entries of a batch. The helpers that work on
    text by regular expressions are a parameter. -/

namespace Bisakerja
open Schemes

/-- `NormalizationEndpointType`. -/
inductive NormalizationEndpointType where | list | detail
  deriving DecidableEq

/-- `NormalizationEndpointType.value`. -/
def NormalizationEndpointType.value : NormalizationEndpointType → String
  | .list => "list"
  | .detail => "detail"

/-- The values of `output_language`. -/
inductive OutputLanguage where | english | indonesian
  deriving DecidableEq

/-- `AINormalizationPromptInput`. -/
structure AINormalizationPromptInput where
  sourcePlatform : SourcePlatform
  endpointType : NormalizationEndpointType
  rawPayloadSubset : Dict
  targetSchema : String := "CanonicalJobSchema"
  outputLanguage : OutputLanguage := .english

/-- `AINormalizationBatchPromptItem`. -/
structure AINormalizationBatchPromptItem where
  itemId : String
  sourcePlatform : SourcePlatform
  endpointType : NormalizationEndpointType
  rawPayloadSubset : Dict

/-- `AINormalizationBatchPromptInput`. -/
structure AINormalizationBatchPromptInput where
  items : List AINormalizationBatchPromptItem
  targetSchema : String := "CanonicalJobSchema"
  outputLanguage : OutputLanguage := .english

/-- `bool(error_code and error_message)`. -/
def hasError (errorCode errorMessage : Option String) : Bool :=
  orText errorCode "" ≠ "" && orText errorMessage "" ≠ ""

/-- `AINormalizationBatchItemResult`: a job or an error, and not both. -/
structure AINormalizationBatchItemResult where
  itemId : NonEmptyStr
  normalizedJob : Option CanonicalJobSchema := none
  errorCode : Option String := none
  errorMessage : Option String := none
  jobOrError : normalizedJob.isSome = !hasError errorCode errorMessage

theorem AINormalizationBatchItemResult.isSome_completed {result : AINormalizationBatchItemResult}
    {job : CanonicalJobSchema} (h : result.normalizedJob = some job)
    (completed : CanonicalJobSchema) :
    (some completed).isSome = !hasError result.errorCode result.errorMessage := by
  rw [← result.jobOrError, h]
  rfl

/-- `AINormalizationBatchOutput`. -/
abbrev AINormalizationBatchOutput := { results : List AINormalizationBatchItemResult // results ≠ [] }

/-- The prompt of one item of a batch. -/
def AINormalizationBatchPromptInput.promptFor (input : AINormalizationBatchPromptInput)
    (item : AINormalizationBatchPromptItem) : AINormalizationPromptInput where
  sourcePlatform := item.sourcePlatform
  endpointType := item.endpointType
  rawPayloadSubset := item.rawPayloadSubset
  targetSchema := input.targetSchema
  outputLanguage := input.outputLanguage

/-- `AINormalizationContractError`. -/
def contractError (message : String) : PyException :=
  .plain "AINormalizationContractError" message

/-- `_SOURCE_DETAIL_KEYS`, which are the `_DETAIL_HINT_KEYS` of the pipeline as well. -/
def sourceDetailKeys : List String :=
  ["description", "responsibilities", "requirements", "qualifications", "content"]

/-- `_FOREIGN_COUNTRY_HINTS`. -/
def foreignCountryHints : List String :=
  ["singapore", "malaysia", "philippines", "thailand", "vietnam", "india", "china", "japan",
    "korea", "taiwan", "hong kong", "australia", "new zealand", "united states", "usa", "canada",
    "united kingdom", "uk", "germany", "france", "netherlands"]

mutual

/-- `has_detail_coverage`: some text under a detail key covers, at any depth. -/
def hasDetailCoverage (covers : String → Bool) : Json → Bool
  | .dict entries => entriesCover covers entries
  | .list xs => itemsCover covers xs
  | _ => false

/-- The entries of a dict. -/
def entriesCover (covers : String → Bool) : List (String × Json) → Bool
  | [] => false
  | (key, item) :: rest =>
    (sourceDetailKeys.contains key && (match item with | .str s => covers s | _ => false)) ||
      hasDetailCoverage covers item || entriesCover covers rest

/-- The items of a list. -/
def itemsCover (covers : String → Bool) : List Json → Bool
  | [] => false
  | item :: rest => hasDetailCoverage covers item || itemsCover covers rest

end

/-- The helpers of the normalization that are parameters here, under the source's names. -/
structure NormalizationText extends PayloadText, EvidenceText where
  parseDatetime : Json → Except PyException (Option Time)
  normalizeSalary : SalarySchema → Except PyException (Option SalarySchema)
  experienceLevelOf : String → Option String → Option String → Except PyException ExperienceLevel
  textToDisplayHtml : String → Option String
  indonesianSummary : String → Option String → Option String → String → String

/-- `default_work_type`. -/
def defaultWorkType (value : WorkType) : WorkType :=
  if value ≠ .unknown then value else .onsite

/-- `default_employment_types`. -/
def defaultEmploymentTypes (values : List EmploymentType) : List EmploymentType :=
  match values.filter (· ≠ .unknown) with
  | [] => [.fullTime]
  | normalized => normalized

theorem defaultEmploymentTypes_nodup {values : List EmploymentType} (h : values.Nodup) :
    (defaultEmploymentTypes values).Nodup := by
  unfold defaultEmploymentTypes
  split
  · exact List.nodup_singleton _
  · exact h.filter _

namespace NormalizationText

variable (text : NormalizationText)

/-- A text under a detail key covers, if `_normalize_text` leaves something of it. -/
def coversUnder (key : String) : Json → Except PyException Bool
  | .str value =>
    if sourceDetailKeys.contains key then
      return orText (← text.normalizeText value) "" ≠ ""
    else .ok false
  | _ => .ok false

mutual

/-- `_has_detail_coverage`. -/
def hasDetailCoverage : Json → Except PyException Bool
  | .dict entries => entriesCover entries
  | .list xs => itemsCover xs
  | _ => .ok false

/-- The entries of a dict, up to the first that covers. -/
def entriesCover : List (String × Json) → Except PyException Bool
  | [] => .ok false
  | (key, item) :: rest => do
    if ← text.coversUnder key item then return true
    if ← hasDetailCoverage item then return true
    entriesCover rest

/-- The items of a list, up to the first that covers. -/
def itemsCover : List Json → Except PyException Bool
  | [] => .ok false
  | item :: rest => do
    if ← hasDetailCoverage item then return true
    itemsCover rest

end

/-- `_country_with_indonesia_default`; every platform is one of the five it lists. -/
def countryWithIndonesiaDefault (country city region display : Option String) :
    Except PyException (Option String) := do
  let country ← text.normalizeValue country
  if orText country "" ≠ "" then return country
  let city ← text.normalizeValue city
  let region ← text.normalizeValue region
  let display ← text.normalizeValue display
  let joined := text.casefold
    (joinText " " (([city, region, display].filterMap id).filter (· ≠ "")))
  if joined = "" then return some "Indonesia"
  return if foreignCountryHints.any (isInfix · joined) then none else some "Indonesia"

/-- `infer_experience_level`. -/
def inferLevel (explicit : ExperienceLevel) (title : String)
    (description requirements : Option String) : Except PyException ExperienceLevel :=
  if explicit ≠ .unknown then .ok explicit
  else text.experienceLevelOf title description requirements

/-- `build_source_limited_summary`. -/
def sourceLimitedSummary (title : String) (company location : Option String)
    (sourcePlatform : String) : OutputLanguage → String
  | .english => text.buildSourceLimitedSummary title company location sourcePlatform
  | .indonesian => text.indonesianSummary title company location sourcePlatform

/-- The sentences `_build_description_from_evidence` writes for a title. -/
def evidenceSentences (title : String) (company : Option String) (evidence : Evidence) :
    OutputLanguage → String
  | .english =>
    let first := "The " ++ title ++ " role at " ++ orText company "the related company" ++
      " focuses on carrying out core responsibilities supported by the available source evidence."
    if orText evidence.requirements "" ≠ "" then
      first ++ " Core qualifications include: " ++ orText evidence.requirements ""
    else if evidence.skills ≠ [] then
      first ++ " Required skills include: " ++ joinText ", " (evidence.skills.take 8) ++ "."
    else first
  | .indonesian =>
    let first := "Posisi " ++ title ++ " di " ++ orText company "perusahaan terkait" ++
      " berfokus pada pelaksanaan tanggung jawab teknis sesuai kebutuhan bisnis."
    if orText evidence.requirements "" ≠ "" then
      first ++ " Kualifikasi inti mencakup: " ++ orText evidence.requirements ""
    else if evidence.skills ≠ [] then
      first ++ " Keahlian yang dibutuhkan antara lain: " ++ joinText ", " (evidence.skills.take 8) ++
        "."
    else first

/-- `_build_description_from_evidence`. -/
def descriptionFromEvidence (job : CanonicalJobSchema) (evidence : Evidence)
    (language : OutputLanguage) : Except PyException (Option String) := do
  if orText evidence.description "" ≠ "" then return evidence.description
  let title ← text.normalizeText job.title
  let company ← text.normalizeText job.company.name
  return title.map fun title => evidenceSentences title company evidence language

/-- What the raw payload, or the subset itself where it has none, holds as evidence. -/
def rawEvidence (input : AINormalizationPromptInput) : Except PyException Evidence :=
  text.evidenceFromRawPayload (if input.rawPayloadSubset.contains "payload"
    then input.rawPayloadSubset.get "payload" else .dict input.rawPayloadSubset)

/-- The description `_apply_quality_guards` leaves, given what `_normalize_text` makes of it. -/
def guardedDescription (input : AINormalizationPromptInput) (job : CanonicalJobSchema)
    (evidence : Evidence) : Option String → Except PyException (Option String)
  | none => do
    let generated ← text.descriptionFromEvidence job evidence input.outputLanguage
    return if orText generated "" ≠ "" then generated else job.description
  | some _ => .ok job.description

/-- `_apply_quality_guards`; a list of skills passes the schema deduplicated. -/
def applyQualityGuards (input : AINormalizationPromptInput) (job : CanonicalJobSchema) :
    Except PyException CanonicalJobSchema := do
  let descriptionText ← text.normalizeValue job.description
  let requirementsText ← text.normalizeValue job.requirements
  let evidence ← text.rawEvidence input
  let description ← text.guardedDescription input job evidence descriptionText
  let requirements :=
    if requirementsText.isNone ∧ orText evidence.requirements "" ≠ "" then evidence.requirements
    else job.requirements
  let guarded := { job with description := description, requirements := requirements }
  return if (job.skills.filter fun skill => strip skill ≠ "") = [] ∧ evidence.skills ≠ [] then
    { guarded with
      skills := deduplicateList evidence.skills
      skills_nodup := nodup_deduplicateList _ }
  else guarded

/-- The part of `_apply_defaults` on the source: the apply URL falls back to the source URL, and
    the scrape time of the run replaces the answer's. -/
def defaultSource (runScrapedAt : Option Time) (source : SourceMetadataSchema) :
    SourceMetadataSchema :=
  let applyUrl :=
    if strip (source.externalApplyUrl.getD "") = "" ∧ strip source.sourceUrl ≠ "" then
      some (strip source.sourceUrl)
    else source.externalApplyUrl
  { source with
    externalApplyUrl := applyUrl
    scrapedAt := runScrapedAt.getD source.scrapedAt }

/-- The part of `_apply_defaults` on the salary. -/
def defaultSalary : Option SalarySchema → Except PyException (Option SalarySchema)
  | none => .ok none
  | some salary => text.normalizeSalary salary

/-- The part of `_apply_defaults` on the location; the schema refuses an empty display text. -/
def defaultLocation (location : LocationSchema) : Except PyException LocationSchema := do
  let fields := text.normalizeLocationFields (.ofOption location.city) (.ofOption location.region)
    (.ofOption location.country) (.ofOption (location.display.map Subtype.val))
    (dumpOption .bool location.isRemote)
  let country ← text.countryWithIndonesiaDefault fields.country fields.city fields.region
    fields.display
  match fields.display with
  | none =>
    pure { display := none, city := fields.city, region := fields.region, country := country
           isRemote := location.isRemote }
  | some display =>
    if h : display ≠ "" then
      pure { display := some ⟨display, h⟩, city := fields.city, region := fields.region
             country := country, isRemote := location.isRemote }
    else throw (.plain "ValidationError" "location.display")

/-- The listing-level description `_apply_defaults` gives a Glints job without detail. -/
def listingDescription (input : AINormalizationPromptInput) (job : CanonicalJobSchema)
    (location : LocationSchema) (description : Option String) :
    Except PyException (Option String) := do
  if input.sourcePlatform = .glints ∧ input.endpointType = .list then
    let covered ← text.hasDetailCoverage (.dict input.rawPayloadSubset)
    if covered = false ∧ description = none then
      return text.textToDisplayHtml (text.sourceLimitedSummary job.title (some job.company.name)
        (location.display.map Subtype.val) input.sourcePlatform.value input.outputLanguage)
  return description

/-- `_apply_defaults` up to the quality guards. -/
def fillDefaults (input : AINormalizationPromptInput) (job : CanonicalJobSchema) :
    Except PyException CanonicalJobSchema := do
  let runScrapedAt ← text.parseDatetime (input.rawPayloadSubset.get "scrapedAt")
  let description := text.ensureDisplayHtml job.description
  let requirements := text.cleanDescription (.ofOption (← text.normalizeValue job.requirements))
  let salary ← text.defaultSalary job.salary
  let location ← text.defaultLocation job.location
  let descriptionText ← text.normalizeValue description
  let level ← text.inferLevel job.experienceLevel job.title descriptionText requirements
  let description ← text.listingDescription input job location description
  return { job with
    source := defaultSource runScrapedAt job.source
    description := description
    requirements := requirements
    salary := salary
    location := location
    workType := defaultWorkType job.workType
    employmentTypes := defaultEmploymentTypes job.employmentTypes
    employmentTypes_nodup := defaultEmploymentTypes_nodup job.employmentTypes_nodup
    experienceLevel := level
    lastSeenAt := runScrapedAt.getD job.lastSeenAt }

/-- `_apply_defaults`. -/
def applyDefaults (input : AINormalizationPromptInput) (job : CanonicalJobSchema) :
    Except PyException CanonicalJobSchema := do
  let filled ← text.fillDefaults input job
  text.applyQualityGuards input filled

/-- `_validate_source_policy`. -/
def validateSourcePolicy (job : CanonicalJobSchema) (input : AINormalizationPromptInput) :
    Except PyException PUnit := do
  if input.sourcePlatform = .glints ∧ input.endpointType = .list then
    let covered ← text.hasDetailCoverage (.dict input.rawPayloadSubset)
    if covered = false ∧ job.description = none then
      throw (contractError "glints list normalization requires source-limited description summary")

/-- What follows the schema validation of one answer. -/
def completeJob (input : AINormalizationPromptInput) (job : CanonicalJobSchema) :
    Except PyException CanonicalJobSchema := do
  let job ← text.applyDefaults input job
  text.validateSourcePolicy job input
  pure job

/-- `validate_ai_normalization_output`: `output` is what the schema makes of the answer. -/
def validateAiNormalizationOutput (output : Option CanonicalJobSchema)
    (input : AINormalizationPromptInput) : Except PyException CanonicalJobSchema :=
  match output with
  | none => .error (contractError "AI normalization output does not match CanonicalJobSchema")
  | some job => text.completeJob input job

/-- One entry of a batch answer. -/
def completeItem (input : AINormalizationBatchPromptInput)
    (item : AINormalizationBatchPromptItem) (result : AINormalizationBatchItemResult) :
    Except PyException AINormalizationBatchItemResult :=
  match h : result.normalizedJob with
  | none => .ok result
  | some job =>
    (text.completeJob (input.promptFor item) job).map fun normalized =>
      { result with
        normalizedJob := some normalized
        jobOrError := result.isSome_completed h normalized }

/-- The entries of a batch answer, in order; the first exception ends the batch. -/
def completeItems (input : AINormalizationBatchPromptInput) :
    List AINormalizationBatchPromptItem → List AINormalizationBatchItemResult →
      Except PyException (List AINormalizationBatchItemResult)
  | item :: items, result :: results => do
    let completed ← text.completeItem input item result
    let rest ← completeItems input items results
    pure (completed :: rest)
  | _, _ => .ok []

/-- `validate_ai_normalization_batch_output`. -/
def validateAiNormalizationBatchOutput (output : Option AINormalizationBatchOutput)
    (input : AINormalizationBatchPromptInput) :
    Except PyException (List AINormalizationBatchItemResult) :=
  match output with
  | none => .error (contractError "AI normalization batch output does not match batch schema")
  | some output =>
    if output.1.map (fun result => result.itemId.1) ≠ input.items.map (·.itemId) then
      .error (contractError
        "AI normalization batch output must preserve input item order and identity")
    else text.completeItems input input.items output.1

/-! ### Identity

    Nothing on the way from the answer to the row looks at the source platform or the external id
    of the answer, or changes them. -/

variable {text}

theorem applyQualityGuards_identity {input : AINormalizationPromptInput}
    {job guarded : CanonicalJobSchema} (h : text.applyQualityGuards input job = .ok guarded) :
    guarded.identity = job.identity := by
  unfold applyQualityGuards at h
  simp only [ok_bind_iff] at h
  obtain ⟨_, _, _, _, _, _, _, _, hlast⟩ := h
  cases hlast
  split <;> rfl

theorem fillDefaults_identity {input : AINormalizationPromptInput}
    {job filled : CanonicalJobSchema} (h : text.fillDefaults input job = .ok filled) :
    filled.identity = job.identity := by
  unfold fillDefaults at h
  simp only [ok_bind_iff] at h
  obtain ⟨_, _, _, _, _, _, _, _, _, _, _, _, _, _, hlast⟩ := h
  cases hlast
  rfl

theorem applyDefaults_identity {input : AINormalizationPromptInput}
    {job completed : CanonicalJobSchema} (h : text.applyDefaults input job = .ok completed) :
    completed.identity = job.identity := by
  obtain ⟨filled, hfilled, hguarded⟩ := ok_bind_iff.mp h
  rw [applyQualityGuards_identity hguarded, fillDefaults_identity hfilled]

/-- What a completed answer is: what the defaults make of it. -/
theorem applyDefaults_of_completeJob {input : AINormalizationPromptInput}
    {job completed : CanonicalJobSchema} (h : text.completeJob input job = .ok completed) :
    text.applyDefaults input job = .ok completed := by
  unfold completeJob at h
  simp only [ok_bind_iff] at h
  obtain ⟨_, hdefaults, _, _, hlast⟩ := h
  cases hlast
  exact hdefaults

theorem completeJob_identity {input : AINormalizationPromptInput}
    {job completed : CanonicalJobSchema} (h : text.completeJob input job = .ok completed) :
    completed.identity = job.identity :=
  applyDefaults_identity (applyDefaults_of_completeJob h)

theorem validateAiNormalizationOutput_ok {output : Option CanonicalJobSchema}
    {input : AINormalizationPromptInput} {job : CanonicalJobSchema}
    (h : text.validateAiNormalizationOutput output input = .ok job) :
    ∃ answer, output = some answer ∧ text.completeJob input answer = .ok job := by
  unfold validateAiNormalizationOutput at h
  split at h
  · cases h
  · next answer => exact ⟨answer, rfl, h⟩

/-- A completed entry of a batch keeps its item id, and its job keeps its identity. -/
structure Completes (result completed : AINormalizationBatchItemResult) : Prop where
  itemId : completed.itemId = result.itemId
  identity : completed.normalizedJob.map CanonicalJobSchema.identity
    = result.normalizedJob.map CanonicalJobSchema.identity

theorem completeItem_ok {input : AINormalizationBatchPromptInput}
    {item : AINormalizationBatchPromptItem} {result completed : AINormalizationBatchItemResult}
    (h : text.completeItem input item result = .ok completed) : Completes result completed := by
  unfold completeItem at h
  split at h
  · cases h
    exact ⟨rfl, rfl⟩
  · next job hjob =>
    obtain ⟨normalized, hnormalized, rfl⟩ := ok_map_iff.mp h
    have hidentity := congrArg (Option.map CanonicalJobSchema.identity) hjob
    exact ⟨rfl, (congrArg some (completeJob_identity hnormalized)).trans hidentity.symm⟩

theorem completeItems_ok {input : AINormalizationBatchPromptInput}
    (items : List AINormalizationBatchPromptItem) :
    ∀ (results completed : List AINormalizationBatchItemResult), items.length = results.length →
      text.completeItems input items results = .ok completed →
        List.Forall₂ Completes results completed := by
  induction items with
  | nil =>
    intro results completed hlen h
    rw [List.length_nil] at hlen
    rw [List.eq_nil_of_length_eq_zero hlen.symm] at h ⊢
    rw [← Except.ok.inj h]
    exact .nil
  | cons item items ih =>
    intro results completed hlen h
    cases results with
    | nil => cases hlen
    | cons result results =>
      rw [completeItems, ok_bind_iff] at h
      obtain ⟨first, hfirst, h⟩ := h
      rw [ok_bind_iff] at h
      obtain ⟨rest, hrest, hlast⟩ := h
      rw [← Except.ok.inj hlast]
      exact .cons (completeItem_ok hfirst) (ih results rest (Nat.succ.inj hlen) hrest)

/-- The job of a completed entry is what is made of the answer to its item. -/
theorem completeItem_job {input : AINormalizationBatchPromptInput}
    {item : AINormalizationBatchPromptItem} {result completed : AINormalizationBatchItemResult}
    (h : text.completeItem input item result = .ok completed) {job : CanonicalJobSchema}
    (hjob : completed.normalizedJob = some job) :
    ∃ output, result.normalizedJob = some output ∧
      text.completeJob (input.promptFor item) output = .ok job := by
  unfold completeItem at h
  split at h
  · next hnone =>
    cases h
    rw [hnone] at hjob
    cases hjob
  · next output houtput =>
    obtain ⟨normalized, hnormalized, rfl⟩ := ok_map_iff.mp h
    cases hjob
    exact ⟨output, houtput, hnormalized⟩

/-- An entry is completed when its job is. -/
theorem exists_completeItem {input : AINormalizationBatchPromptInput}
    {item : AINormalizationBatchPromptItem} {result : AINormalizationBatchItemResult}
    {job normalized : CanonicalJobSchema} (hjob : result.normalizedJob = some job)
    (h : text.completeJob (input.promptFor item) job = .ok normalized) :
    ∃ completed, text.completeItem input item result = .ok completed := by
  unfold completeItem
  split
  · next hnone =>
    rw [hjob] at hnone
    cases hnone
  · next output houtput =>
    rw [hjob] at houtput
    cases houtput
    exact ⟨_, ok_map_iff.mpr ⟨normalized, h, rfl⟩⟩

theorem completeItems_job {input : AINormalizationBatchPromptInput}
    (items : List AINormalizationBatchPromptItem) :
    ∀ (results completed : List AINormalizationBatchItemResult),
      text.completeItems input items results = .ok completed → ∀ result ∈ completed, ∀ job,
        result.normalizedJob = some job → ∃ entry ∈ items.zip results,
          result.itemId = entry.2.itemId ∧ ∃ output, entry.2.normalizedJob = some output ∧
            text.completeJob (input.promptFor entry.1) output = .ok job := by
  induction items with
  | nil =>
    intro results completed h result hresult
    cases h
    cases hresult
  | cons item items ih =>
    intro results completed h result hresult job hjob
    cases results with
    | nil =>
      cases h
      cases hresult
    | cons answer results =>
      obtain ⟨first, hfirst, h⟩ := ok_bind_iff.mp h
      obtain ⟨rest, hrest, h⟩ := ok_bind_iff.mp h
      cases h
      rcases List.mem_cons.mp hresult with rfl | hresult
      · exact ⟨(item, answer), List.mem_cons_self, (completeItem_ok hfirst).itemId,
          completeItem_job hfirst hjob⟩
      · obtain ⟨entry, hentry, hanswer⟩ := ih results rest hrest result hresult job hjob
        exact ⟨entry, List.mem_cons_of_mem _ hentry, hanswer⟩

/-- A batch answer is completed entry by entry. -/
theorem completeItems_entries {input : AINormalizationBatchPromptInput}
    (items : List AINormalizationBatchPromptItem) :
    ∀ (results completed : List AINormalizationBatchItemResult),
      text.completeItems input items results = .ok completed →
        List.Forall₂ (fun entry result => text.completeItem input entry.1 entry.2 = .ok result)
          (items.zip results) completed := by
  induction items with
  | nil =>
    intro results completed h
    cases h
    exact .nil
  | cons item items ih =>
    intro results completed h
    cases results with
    | nil =>
      cases h
      exact .nil
    | cons answer results =>
      obtain ⟨first, hfirst, h⟩ := ok_bind_iff.mp h
      obtain ⟨rest, hrest, h⟩ := ok_bind_iff.mp h
      cases h
      exact .cons hfirst (ih results rest hrest)

/-- An accepted batch answer: the item ids are those of the prompt, in order, and every job keeps
    its identity. -/
theorem validateAiNormalizationBatchOutput_ok {output : Option AINormalizationBatchOutput}
    {input : AINormalizationBatchPromptInput} {validated : List AINormalizationBatchItemResult}
    (h : text.validateAiNormalizationBatchOutput output input = .ok validated) :
    ∃ answer, output = some answer ∧
      answer.1.map (fun result => result.itemId.1) = input.items.map (·.itemId) ∧
      List.Forall₂ Completes answer.1 validated ∧
      text.completeItems input input.items answer.1 = .ok validated := by
  unfold validateAiNormalizationBatchOutput at h
  split at h
  · cases h
  · next answer =>
    split at h
    · cases h
    · next hids =>
      have hids := not_not.mp hids
      have hlen := congrArg List.length hids
      rw [List.length_map, List.length_map] at hlen
      exact ⟨answer, rfl, hids, completeItems_ok _ _ _ hlen.symm h, h⟩

end NormalizationText

end Bisakerja
