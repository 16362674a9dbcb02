import BisakerjaScraper.Backend.Payloads
import BisakerjaScraper.Core.Errors
import BisakerjaScraper.Schemes.Fallible
import BisakerjaScraper.Shared.Text

/-! The evidence a raw payload holds.

    Texts are collected at any depth, under keys that announce a description, requirements or
    skills. Every text is read by `_normalize_text`, which may raise: one text decides whether there
    is any evidence at all, under whatever key it stands. -/

namespace Bisakerja
open Schemes

/-- `_DESCRIPTION_KEYS`. -/
def descriptionKeys : List String :=
  ["description", "responsibilities", "job_description", "about", "content"]

/-- `_SKILL_LIST_KEYS`. -/
def skillListKeys : List String :=
  ["skills", "skill", "technologies", "technology", "tech_stack", "tags"]

/-- `_REQUIREMENT_KEYS`. -/
def requirementKeys : List String :=
  ["requirements", "qualification", "qualifications", "requirement_summary"]

/-- `_TECH_CANONICAL_MAP`. -/
def techCanonicalMap : List (String × String) :=
  [("python", "Python"), ("java", "Java"), ("javascript", "JavaScript"),
    ("typescript", "TypeScript"), ("go", "Go"), ("golang", "Go"), ("php", "PHP"), ("ruby", "Ruby"),
    ("kotlin", "Kotlin"), ("swift", "Swift"), ("rust", "Rust"), ("c++", "C++"), ("c#", "C#"),
    ("sql", "SQL"), ("postgres", "PostgreSQL"), ("postgresql", "PostgreSQL"), ("mysql", "MySQL"),
    ("mariadb", "MariaDB"), ("mongodb", "MongoDB"), ("redis", "Redis"), ("oracle", "Oracle"),
    ("docker", "Docker"), ("kubernetes", "Kubernetes"), ("terraform", "Terraform"),
    ("ansible", "Ansible"), ("linux", "Linux"), ("git", "Git"), ("node", "Node.js"),
    ("node.js", "Node.js"), ("react", "React"), ("react.js", "React"), ("vue", "Vue"),
    ("vue.js", "Vue"), ("angular", "Angular"), ("next", "Next.js"), ("next.js", "Next.js"),
    ("nuxt", "Nuxt.js"), ("nuxt.js", "Nuxt.js"), ("laravel", "Laravel"), ("django", "Django"),
    ("flask", "Flask"), ("fastapi", "FastAPI"), ("spring", "Spring"),
    ("spring boot", "Spring Boot"), ("express", "Express.js"), ("express.js", "Express.js"),
    ("aws", "AWS"), ("gcp", "GCP"), ("azure", "Azure"), ("rest api", "REST API"),
    ("restful api", "REST API"), ("graphql", "GraphQL"), ("ci/cd", "CI/CD"),
    ("microservice", "Microservices"), ("microservices", "Microservices")]

/-- What evidence is read with, under the source's names; `_normalize_text` may raise. -/
structure EvidenceText where
  casefold : String → String
  normalizeText : String → Except PyException (Option String)
  benefitNoise : String → Bool
  techTokens : String → List String

/-- The lists `_collect_evidence_strings` fills. -/
structure EvidenceCandidates where
  descriptions : List String := []
  requirements : List String := []
  skills : List String := []

/-- What one part of a value adds, and then another. -/
def EvidenceCandidates.append (a b : EvidenceCandidates) : EvidenceCandidates where
  descriptions := a.descriptions ++ b.descriptions
  requirements := a.requirements ++ b.requirements
  skills := a.skills ++ b.skills

/-- Where a value stands: the key above it, and what the keys on the way to it announce. -/
structure EvidencePlace where
  parentKey : String := ""
  description : Bool := false
  requirement : Bool := false
  skill : Bool := false

/-- The place below a key. -/
def EvidencePlace.below (place : EvidencePlace) (lowered : String) : EvidencePlace where
  parentKey := lowered
  description := place.description || descriptionKeys.contains lowered
  requirement := place.requirement || requirementKeys.contains lowered
  skill := place.skill || skillListKeys.contains lowered

/-- What `_evidence_from_raw_payload` returns. -/
structure Evidence where
  description : Option String
  requirements : Option String
  skills : List String

/-- The first of the longest texts: `sorted(texts, key=len, reverse=True)[0]`. -/
def longestText : List String → Option String
  | [] => none
  | value :: rest =>
    match longestText rest with
    | none => some value
    | some other => if value.length < other.length then some other else some value

namespace EvidenceText

variable (text : EvidenceText)

/-- `_normalize_text` on an optional text. -/
def normalizeValue : Option String → Except PyException (Option String)
  | none => .ok none
  | some value => text.normalizeText value

/-- What a text is a candidate for. -/
def candidatesOf (place : EvidencePlace) (value : String) :
    Except PyException EvidenceCandidates := do
  let found ← text.normalizeText value
  pure <|
    match found with
    | none => {}
    | some found =>
      if found.length < 2 then {}
      else
        { descriptions :=
            if place.description || descriptionKeys.contains place.parentKey then [found] else []
          requirements :=
            if place.requirement || requirementKeys.contains place.parentKey then [found] else []
          skills :=
            if (place.skill || skillListKeys.contains place.parentKey) && found.length ≤ 80 then
              [found]
            else [] }

mutual

/-- `_collect_evidence_strings`. -/
def collectEvidenceStrings (place : EvidencePlace) : Json → Except PyException EvidenceCandidates
  | .dict entries => collectEntries place entries
  | .list xs => collectItems place xs
  | .str value => text.candidatesOf place value
  | _ => .ok {}

/-- The entries of a dict. -/
def collectEntries (place : EvidencePlace) :
    List (String × Json) → Except PyException EvidenceCandidates
  | [] => .ok {}
  | (key, item) :: rest => do
    let first ← collectEvidenceStrings (place.below (text.casefold key)) item
    let others ← collectEntries place rest
    pure (first.append others)

/-- The items of a list. -/
def collectItems (place : EvidencePlace) : List Json → Except PyException EvidenceCandidates
  | [] => .ok {}
  | item :: rest => do
    let first ← collectEvidenceStrings place item
    let others ← collectItems place rest
    pure (first.append others)

end

/-- `_best_requirement_text`. -/
def bestRequirementText (candidates : List String) : Option String :=
  match candidates.filter fun candidate => !text.benefitNoise candidate with
  | [] => longestText candidates
  | filtered => longestText filtered

/-- The loop of `_dedupe_texts`. -/
def dedupeFrom (seen : List String) : List String → List String
  | [] => []
  | value :: rest =>
    let key := text.casefold value
    if seen.contains key then dedupeFrom seen rest else value :: dedupeFrom (key :: seen) rest

/-- `_dedupe_texts`. -/
def dedupeTexts (values : List String) : List String := text.dedupeFrom [] values

/-- `_canonical_skill_name`. -/
def canonicalSkillName (raw : String) : Option String :=
  techCanonicalMap.lookup
    (String.ofList (collapseSpaces false (text.casefold (strip raw)).toList))

/-- The skills named in one text. -/
def skillsNamed (value : String) : Except PyException (List String) := do
  let normalized ← text.normalizeText value
  pure (((normalized.map text.techTokens).getD []).filterMap text.canonicalSkillName)

/-- `_derive_skills_from_text`. -/
def deriveSkillsFromText (texts : List String) : Except PyException (List String) := do
  let extracted ← texts.mapM text.skillsNamed
  pure (text.dedupeTexts extracted.flatten)

/-- The skills of `_evidence_from_raw_payload`: those found, or else those the texts name. -/
def evidenceSkills (found : List String) (requirements description : Option String) :
    Except PyException (List String) :=
  match text.dedupeTexts found with
  | [] => text.deriveSkillsFromText ([requirements, description].filterMap id)
  | skills => .ok skills

/-- `_evidence_from_raw_payload`, on what stands under `payload`. -/
def evidenceFromRawPayload (payload : Json) : Except PyException Evidence := do
  let candidates ← text.collectEvidenceStrings {} payload
  let description := longestText candidates.descriptions
  let requirements := text.bestRequirementText candidates.requirements
  let skills ← text.evidenceSkills candidates.skills requirements description
  pure { description, requirements, skills := skills.take 20 }

/-! ### When there is evidence -/

/-- `_normalize_text` does not raise on a text. -/
def Reads (value : String) : Prop := ∃ found, text.normalizeText value = .ok found

end EvidenceText

mutual

/-- The texts of a value, at any depth. -/
def textsIn : Json → List String
  | .dict entries => textsInEntries entries
  | .list xs => textsInItems xs
  | .str value => [value]
  | _ => []

/-- The texts in the entries of a dict; a key is none of them. -/
def textsInEntries : List (String × Json) → List String
  | [] => []
  | (_, item) :: rest => textsIn item ++ textsInEntries rest

/-- The texts in the items of a list. -/
def textsInItems : List Json → List String
  | [] => []
  | item :: rest => textsIn item ++ textsInItems rest

end

namespace EvidenceText

variable {text : EvidenceText}

theorem goodWhen_normalizeText (value : String) :
    GoodWhen (fun _ => True) (text.Reads value) (text.normalizeText value) where
  ok h := h
  fails hnot := by
    cases h : text.normalizeText value with
    | error exc => exact fails_error_iff.mpr trivial
    | ok found => exact absurd ⟨found, h⟩ hnot

theorem goodWhen_normalizeValue (value : Option String) :
    GoodWhen (fun _ => True) (∀ s ∈ value, text.Reads s) (text.normalizeValue value) := by
  cases value with
  | none => exact goodWhen_ok (by simp) _
  | some s => exact (goodWhen_normalizeText s).congr (by simp)

mutual

/-- Collecting raises exactly where a text is not read. -/
theorem goodWhen_collect (place : EvidencePlace) : ∀ value : Json,
    GoodWhen (fun _ => True) (∀ s ∈ textsIn value, text.Reads s)
      (text.collectEvidenceStrings place value)
  | .dict entries => by
    simpa only [collectEvidenceStrings, textsIn] using goodWhen_collectEntries place entries
  | .list xs => by
    simpa only [collectEvidenceStrings, textsIn] using goodWhen_collectItems place xs
  | .str value => by
    have hread : GoodWhen (fun _ => True) (text.Reads value) (text.candidatesOf place value) :=
      (goodWhen_normalizeText value).bind_pure _
    simpa only [collectEvidenceStrings, textsIn, List.forall_mem_singleton] using hread
  | .null | .bool _ | .int _ | .float _ => by
    simp only [collectEvidenceStrings, textsIn]
    exact goodWhen_ok (by simp) _

theorem goodWhen_collectEntries (place : EvidencePlace) : ∀ entries : List (String × Json),
    GoodWhen (fun _ => True) (∀ s ∈ textsInEntries entries, text.Reads s)
      (text.collectEntries place entries)
  | [] => by
    simp only [collectEntries, textsInEntries]
    exact goodWhen_ok (by simp) _
  | (key, item) :: rest => by
    simp only [collectEntries, textsInEntries, List.forall_mem_append]
    exact (goodWhen_collect _ item).bind fun _ _ => (goodWhen_collectEntries place rest).bind_pure _

theorem goodWhen_collectItems (place : EvidencePlace) : ∀ xs : List Json,
    GoodWhen (fun _ => True) (∀ s ∈ textsInItems xs, text.Reads s) (text.collectItems place xs)
  | [] => by
    simp only [collectItems, textsInItems]
    exact goodWhen_ok (by simp) _
  | item :: rest => by
    simp only [collectItems, textsInItems, List.forall_mem_append]
    exact (goodWhen_collect _ item).bind fun _ _ => (goodWhen_collectItems place rest).bind_pure _

end

/-- Skills are derived where the texts are read. -/
theorem goodWhen_deriveSkillsFromText (texts : List String) :
    GoodWhen (fun _ => True) (∀ s ∈ texts, text.Reads s) (text.deriveSkillsFromText texts) :=
  (goodWhen_mapM fun s _ => (goodWhen_normalizeText s).bind_pure _).bind_pure _

theorem goodWhen_evidenceSkills (found : List String) (requirements description : Option String) :
    GoodWhen (fun _ => True)
      (text.dedupeTexts found = [] → ∀ s ∈ [requirements, description].filterMap id, text.Reads s)
      (text.evidenceSkills found requirements description) := by
  unfold evidenceSkills
  split
  · next hnone => exact (goodWhen_deriveSkillsFromText _).congr ⟨fun h _ => h, fun h => h hnone⟩
  · next hne => exact goodWhen_ok (fun hnone => absurd hnone hne) _

/-- What is collected where nothing raises. -/
def candidatesIn (text : EvidenceText) (payload : Json) : EvidenceCandidates :=
  (text.collectEvidenceStrings {} payload).toOption.getD {}

/-- The texts read for the evidence: all of the payload, and those skills are derived from. -/
def evidenceTexts (text : EvidenceText) (payload : Json) : List String :=
  let candidates := text.candidatesIn payload
  textsIn payload ++
    if text.dedupeTexts candidates.skills = [] then
      [text.bestRequirementText candidates.requirements,
        longestText candidates.descriptions].filterMap id
    else []

theorem candidatesIn_of_ok {payload : Json} {candidates : EvidenceCandidates}
    (h : text.collectEvidenceStrings {} payload = .ok candidates) :
    text.candidatesIn payload = candidates := by
  unfold candidatesIn
  rw [h]
  rfl

/-- There is evidence where every text is read. -/
theorem goodWhen_evidenceFromRawPayload (payload : Json) :
    GoodWhen (fun _ => True) (∀ s ∈ text.evidenceTexts payload, text.Reads s)
      (text.evidenceFromRawPayload payload) := by
  unfold evidenceFromRawPayload evidenceTexts
  simp only [List.forall_mem_append]
  refine (goodWhen_collect {} payload).bind fun candidates hcandidates => ?_
  rw [candidatesIn_of_ok hcandidates]
  refine ((goodWhen_evidenceSkills _ _ _).bind_pure _).congr ?_
  split
  · next hnone => exact ⟨fun h => h hnone, fun h _ => h⟩
  · next hne => exact iff_of_true (fun hnone => absurd hnone hne) (by simp)

theorem evidence_description {payload : Json} {evidence : Evidence}
    (h : text.evidenceFromRawPayload payload = .ok evidence) :
    evidence.description = longestText (text.candidatesIn payload).descriptions := by
  unfold evidenceFromRawPayload at h
  simp only [ok_bind_iff] at h
  obtain ⟨candidates, hcandidates, skills, hskills, hlast⟩ := h
  cases hlast
  rw [candidatesIn_of_ok hcandidates]

end EvidenceText

end Bisakerja
