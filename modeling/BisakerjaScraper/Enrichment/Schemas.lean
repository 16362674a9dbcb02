import BisakerjaScraper.Backend.Payloads
import BisakerjaScraper.Core.Errors
import BisakerjaScraper.Jobs.Schemas
import BisakerjaScraper.Python.Patterns

/-! What an enrichment is asked about and what it may answer.

    A request carries no text that looks like a secret. An answer is deduplicated by the schema and
    then held against the text of the request: every skill and every requirement must be in it, as
    a whole or word by word. Casefolding is a parameter. -/

namespace Bisakerja
open Schemes

/-- The alternatives of `SECRET_LIKE_PATTERN`. -/
def secretLikeWords : List String :=
  ["authorization", "bearer", "cookie", "csrf", "token", "secret", "credential", "password",
    "session", "visitor", "device", "raw_payload", "raw payload", "database_url", "db_url"]

/-- `SECRET_LIKE_PATTERN.search(value)`. -/
def secretLike (value : String) : Bool :=
  secretLikeWords.any fun word => word.toList <:+: value.toList.map foldLetter

/-- `reject_secret_like_text` lets an optional text through. -/
def passesSecretCheck (value : Option String) : Bool := value.all (!secretLike ·)

/-- `EnrichmentJobInput`. -/
structure EnrichmentJobInput where
  title : NonEmptyStr
  description : Option String
  requirements : Option String
  company : NonEmptyStr
  source : NonEmptyStr
  clean : [some title.1, description, requirements, some company.1, some source.1].all
    passesSecretCheck

namespace EnrichmentJobInput

/-- `EnrichmentJobInput(...)`; `none` is a `ValidationError`. -/
def validate (title : String) (description requirements : Option String)
    (company source : String) : Option EnrichmentJobInput :=
  if h : title ≠ "" ∧ company ≠ "" ∧ source ≠ "" ∧
      [some title, description, requirements, some company, some source].all
        passesSecretCheck then
    some ⟨⟨title, h.1⟩, description, requirements, ⟨company, h.2.1⟩, ⟨source, h.2.2.1⟩, h.2.2.2⟩
  else none

/-- `clean_text`. -/
def cleanText (job : EnrichmentJobInput) : String :=
  joinText "\n" (([some job.title.1, job.description, job.requirements, some job.company.1,
    some job.source.1].filterMap id).filter (· ≠ ""))

end EnrichmentJobInput

/-- `RequirementType`. -/
inductive RequirementType where | skill | experience | education | responsibility | other
  deriving DecidableEq

/-- `RequirementType.value`. -/
def RequirementType.value : RequirementType → String
  | .skill => "SKILL"
  | .experience => "EXPERIENCE"
  | .education => "EDUCATION"
  | .responsibility => "RESPONSIBILITY"
  | .other => "OTHER"

/-- A field `confidence`, between 0 and 1. -/
abbrev Confidence := { value : ℚ // 0 ≤ value ∧ value ≤ 1 }

theorem confidence_one : (0 : ℚ) ≤ 1 ∧ (1 : ℚ) ≤ 1 := by decide +kernel

/-- `EnrichedSkill`; the name is stripped after its length is checked. -/
structure EnrichedSkill where
  name : String
  confidence : Confidence

/-- `EnrichedRequirement`; the value is stripped after its length is checked. -/
structure EnrichedRequirement where
  type : RequirementType
  value : String
  confidence : Confidence

/-- `EnrichmentOutput`: `deduplicate_items` leaves one item a key. -/
structure EnrichmentOutput (casefold : String → String) where
  skills : List EnrichedSkill := []
  requirements : List EnrichedRequirement := []
  confidence : Confidence
  warnings : List String := []
  skills_nodup : (skills.map fun skill => casefold skill.name).Nodup
  requirements_nodup : (requirements.map fun requirement =>
    (requirement.type, casefold requirement.value)).Nodup

theorem requirements_nodup_nil : ([] : List (RequirementType × String)).Nodup := List.nodup_nil

namespace Enrichment

/-- A character `WORD_PATTERN` takes. -/
def isWordPart (c : Char) : Bool :=
  isLetter c || (48 ≤ c.toNat && c.toNat ≤ 57) || c = '+' || c = '#' || c = '.'

/-- `WORD_PATTERN.findall(value)`. -/
def wordsOf (value : String) : List String :=
  (words (fun c => !isWordPart c) value.toList).map String.ofList

variable (casefold : String → String)

/-- `normalize_text`. -/
def normalizeText (value : String) : String := joinText " " (wordsOf (casefold value))

/-- `is_supported_by_source`. -/
def isSupportedBySource (value normalizedSource : String) : Bool :=
  let normalizedValue := normalizeText casefold value
  if normalizedValue = "" then false
  else if isInfix normalizedValue normalizedSource then true
  else
    let tokens := (wordsOf normalizedValue).filter (2 ≤ ·.length)
    if tokens = [] then false else tokens.all (isInfix · normalizedSource)

/-- The facts of an answer that its source text does not support. -/
def unsupportedFacts (output : EnrichmentOutput casefold) (normalizedSource : String) :
    List String :=
  (output.skills.filterMap fun skill =>
    if isSupportedBySource casefold skill.name normalizedSource then none
    else some ("skill:" ++ skill.name)) ++
  output.requirements.filterMap fun requirement =>
    if isSupportedBySource casefold requirement.value normalizedSource then none
    else some ("requirement:" ++ requirement.value)

/-- `validate_enrichment_output`. -/
def validateEnrichmentOutput (output : EnrichmentOutput casefold) (sourceText : String) :
    Except PyException (EnrichmentOutput casefold) :=
  let unsupported := unsupportedFacts casefold output (normalizeText casefold sourceText)
  if unsupported = [] then .ok output
  else .error (.plain "EnrichmentValidationError"
    ("AI enrichment output contains unsupported facts: " ++ joinText ", " unsupported))

variable {casefold}

/-- An accepted answer is passed on as it is. -/
theorem eq_of_validateEnrichmentOutput {output validated : EnrichmentOutput casefold}
    {sourceText : String} (h : validateEnrichmentOutput casefold output sourceText = .ok validated) :
    validated = output := by
  unfold validateEnrichmentOutput at h
  dsimp only at h
  split at h <;> cases h
  rfl

end Enrichment

end Bisakerja
