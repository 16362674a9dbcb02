import BisakerjaScraper.Jobs.Completion
import BisakerjaScraper.Jobs.SalaryReads
import BisakerjaScraper.Sources.MapperContract

/-! When an answer gets its defaults.

    Every text that is read on the way may raise, and so may the scrape time and the numbers of
    years. The salary, the location and the policy on listings never do. -/

namespace Bisakerja
open Schemes

/-! ### The texts that are read -/

mutual

/-- The texts `_has_detail_coverage` reads, in order. -/
def detailTexts : Json → List String
  | .dict entries => detailTextsInEntries entries
  | .list xs => detailTextsInItems xs
  | _ => []

/-- Those in the entries of a dict. -/
def detailTextsInEntries : List (String × Json) → List String
  | [] => []
  | (key, item) :: rest =>
    (match item with
      | .str value => if sourceDetailKeys.contains key then [value] else []
      | _ => []) ++ (detailTexts item ++ detailTextsInEntries rest)

/-- Those in the items of a list. -/
def detailTextsInItems : List Json → List String
  | [] => []
  | item :: rest => detailTexts item ++ detailTextsInItems rest

end

namespace NormalizationText

variable (text : NormalizationText)

/-- What `_normalize_text` leaves of a text it reads. -/
def found (value : Option String) : Option String := (text.normalizeValue value).toOption.join

/-- Some texts up to the first that covers. -/
def upToCover : List String → List String
  | [] => []
  | value :: rest =>
    value :: if orText (text.found (some value)) "" ≠ "" then [] else upToCover rest

/-- Whether one of some texts covers. -/
def firstCovers : List String → Except PyException Bool
  | [] => .ok false
  | value :: rest => do
    if orText (← text.normalizeText value) "" ≠ "" then return true
    firstCovers rest

/-- The texts `_country_with_indonesia_default` reads. -/
def placeTexts (fields : LocationFields) : List String :=
  fields.country.toList ++
    if orText (text.found fields.country) "" ≠ "" then []
    else [fields.city, fields.region, fields.display].filterMap id

/-- The location fields of an answer. -/
def place (location : LocationSchema) : LocationFields :=
  text.normalizeLocationFields (.ofOption location.city) (.ofOption location.region)
    (.ofOption location.country) (.ofOption (location.display.map Subtype.val))
    (dumpOption .bool location.isRemote)

/-- The description an answer has before the quality guards look at it. -/
def listed (input : AINormalizationPromptInput) (job : CanonicalJobSchema) : Option String :=
  if (input.sourcePlatform = .glints ∧ input.endpointType = .list) ∧
      (text.hasDetailCoverage (.dict input.rawPayloadSubset)).toOption = some false ∧
      text.ensureDisplayHtml job.description = none then
    text.textToDisplayHtml (text.sourceLimitedSummary job.title (some job.company.name)
      (text.place job.location).display input.sourcePlatform.value input.outputLanguage)
  else text.ensureDisplayHtml job.description

/-- The requirements an answer has before the quality guards look at them. -/
def cleanRequirements (job : CanonicalJobSchema) : Option String :=
  text.cleanDescription (.ofOption (text.found job.requirements))

/-- The payload the evidence is looked for in. -/
def evidencePayload (input : AINormalizationPromptInput) : Json :=
  if input.rawPayloadSubset.contains "payload" then input.rawPayloadSubset.get "payload"
  else .dict input.rawPayloadSubset

/-- The texts the defaults read. -/
def filledTexts (input : AINormalizationPromptInput) (job : CanonicalJobSchema) : List String :=
  job.requirements.toList ++ text.placeTexts (text.place job.location) ++
    (text.ensureDisplayHtml job.description).toList ++
    if input.sourcePlatform = .glints ∧ input.endpointType = .list then
      text.upToCover (detailTexts (.dict input.rawPayloadSubset))
    else []

/-- The texts the quality guards read; the title and the company where a sentence is written. -/
def guardedTexts (input : AINormalizationPromptInput) (job : CanonicalJobSchema) : List String :=
  job.description.toList ++ job.requirements.toList ++
    text.evidenceTexts (evidencePayload input) ++
    if text.found job.description = none ∧
        orText (longestText (text.candidatesIn (evidencePayload input)).descriptions) "" = "" then
      [job.title.1, job.company.name.1]
    else []

variable {text}

theorem found_of_ok {value found : Option String} (h : text.normalizeValue value = .ok found) :
    text.found value = found := by
  unfold NormalizationText.found
  rw [h]
  rfl

/-! ### Coverage -/

theorem firstCovers_append (a b : List String) :
    text.firstCovers (a ++ b) = (do
      if ← text.firstCovers a then return true
      text.firstCovers b) := by
  induction a with
  | nil => rfl
  | cons value rest ih =>
    rw [List.cons_append, firstCovers, firstCovers, ih]
    cases text.normalizeText value with
    | error exc => rfl
    | ok found =>
      by_cases hfound : orText found "" = "" <;> simp [ok_bind, hfound]

mutual

/-- The recursion over the payload is one over the texts under detail keys. -/
theorem hasDetailCoverage_eq : ∀ value : Json,
    text.hasDetailCoverage value = text.firstCovers (detailTexts value)
  | .dict entries => by
    simpa only [hasDetailCoverage, detailTexts] using entriesCover_eq entries
  | .list xs => by
    simpa only [hasDetailCoverage, detailTexts] using itemsCover_eq xs
  | .str _ | .null | .bool _ | .int _ | .float _ => by
    simp only [hasDetailCoverage, detailTexts, firstCovers]

theorem entriesCover_eq : ∀ entries : List (String × Json),
    text.entriesCover entries = text.firstCovers (detailTextsInEntries entries)
  | [] => by simp only [entriesCover, detailTextsInEntries, firstCovers]
  | (key, item) :: rest => by
    have hunder : text.coversUnder key item = text.firstCovers
        (match item with
          | .str value => if sourceDetailKeys.contains key then [value] else []
          | _ => []) := by
      cases item with
      | str value =>
        by_cases hkey : sourceDetailKeys.contains key = true
        · simp only [coversUnder, hkey, if_true, firstCovers]
          cases text.normalizeText value with
          | error exc => rfl
          | ok found =>
            by_cases hfound : orText found "" = "" <;> simp [ok_bind, hfound, pure, Except.pure]
        · simp only [coversUnder, if_neg hkey, firstCovers]
      | _ => rfl
    simp only [entriesCover, detailTextsInEntries, firstCovers_append, hunder,
      hasDetailCoverage_eq item, entriesCover_eq rest]

theorem itemsCover_eq : ∀ xs : List Json,
    text.itemsCover xs = text.firstCovers (detailTextsInItems xs)
  | [] => by simp only [itemsCover, detailTextsInItems, firstCovers]
  | item :: rest => by
    simp only [itemsCover, detailTextsInItems, firstCovers_append, hasDetailCoverage_eq item,
      itemsCover_eq rest]

end

theorem goodWhen_firstCovers (texts : List String) :
    GoodWhen (fun _ => True) (∀ s ∈ text.upToCover texts, text.Reads s) (text.firstCovers texts) := by
  induction texts with
  | nil => exact goodWhen_ok (by simp [upToCover]) _
  | cons value rest ih =>
    rw [upToCover, firstCovers, List.forall_mem_cons]
    refine (EvidenceText.goodWhen_normalizeText value).bind fun found hfound => ?_
    have hvalue : text.found (some value) = found := found_of_ok hfound
    rw [hvalue]
    by_cases hcovers : orText found "" ≠ ""
    · simp only [if_pos hcovers]
      exact goodWhen_ok (by simp) _
    · simp only [if_neg hcovers]
      exact ih

theorem goodWhen_hasDetailCoverage (value : Json) :
    GoodWhen (fun _ => True) (∀ s ∈ text.upToCover (detailTexts value), text.Reads s)
      (text.hasDetailCoverage value) := by
  rw [hasDetailCoverage_eq]
  exact goodWhen_firstCovers _

/-! ### The location -/

theorem goodWhen_countryWithIndonesiaDefault (fields : LocationFields) :
    GoodWhen (fun _ => True) (∀ s ∈ text.placeTexts fields, text.Reads s)
      (text.countryWithIndonesiaDefault fields.country fields.city fields.region
        fields.display) := by
  unfold countryWithIndonesiaDefault placeTexts
  simp only [List.forall_mem_append, Option.mem_toList]
  refine (EvidenceText.goodWhen_normalizeValue fields.country).bind fun country hcountry => ?_
  rw [found_of_ok hcountry]
  by_cases hcountry : orText country "" ≠ ""
  · simp only [if_pos hcountry]
    exact goodWhen_ok (by simp) _
  · simp only [if_neg hcountry]
    have hthree : (∀ s ∈ [fields.city, fields.region, fields.display].filterMap id,
          text.Reads s) ↔ (∀ s ∈ fields.city, text.Reads s) ∧ (∀ s ∈ fields.region, text.Reads s) ∧
        ∀ s ∈ fields.display, text.Reads s := by
      simp [or_imp, forall_and, eq_comm]
    refine GoodWhen.congr ?_ hthree.symm
    refine (EvidenceText.goodWhen_normalizeValue _).bind fun _ _ =>
      (EvidenceText.goodWhen_normalizeValue _).bind fun _ _ =>
        (EvidenceText.goodWhen_normalizeValue _).bind_total fun _ => ?_
    split <;> exact ⟨_, rfl⟩

theorem joinText_ne_empty {sep s : String} (hs : s ≠ "") (rest : List String) :
    joinText sep (s :: rest) ≠ "" := by
  cases rest with
  | nil => exact hs
  | cons t rest =>
    intro hempty
    change s ++ sep ++ joinText sep (t :: rest) = "" at hempty
    rw [String.append_eq_empty_iff, String.append_eq_empty_iff] at hempty
    exact hs hempty.1.1

theorem or_ne_empty {a b : Option String} (ha : a ≠ some "") (hb : b ≠ some "") :
    a.or b ≠ some "" := by
  cases a with
  | none => simpa using hb
  | some a => simpa using ha

/-- What texts that are not empty are joined to is not empty. -/
theorem joined_ne_empty {sep : String} {parts : List (Option String)}
    (h : ∀ part ∈ parts, part ≠ some "") :
    (match parts.filterMap id with
      | [] => none
      | parts => some (joinText sep parts)) ≠ some "" := by
  split
  · exact nofun
  · next hne =>
    cases hparts : parts.filterMap id with
    | nil => exact absurd hparts hne
    | cons s rest =>
      have hmem : s ∈ parts.filterMap id := by
        rw [hparts]
        exact List.mem_cons_self
      simp only [List.mem_filterMap, id, exists_eq_right] at hmem
      have hs : s ≠ "" := by simpa using h _ hmem
      simpa using joinText_ne_empty hs rest

/-- No display of a location is empty, if cleaning leaves no empty text. -/
theorem place_display_ne (hclean : ∀ s, text.cleanText s ≠ some "") (location : LocationSchema) :
    (text.place location).display ≠ some "" := by
  have has : ∀ value, text.asCleanText value ≠ some "" := by
    intro value
    cases value <;> first | exact hclean _ | exact nofun
  have hbind : ∀ value : Option String, value.bind text.cleanText ≠ some "" := by
    rintro (- | value)
    · exact nofun
    · exact hclean value
  have hcity : ∀ display, text.inferCityFromDisplay display ≠ some "" := by
    intro display
    unfold PayloadText.inferCityFromDisplay
    cases text.asCleanText display with
    | none => exact nofun
    | some display => exact hbind _
  have hregion : ∀ display, text.inferRegionFromDisplay display ≠ some "" := by
    intro display
    unfold PayloadText.inferRegionFromDisplay
    cases text.asCleanText display with
    | none => exact nofun
    | some display => exact hbind _
  have hremote : ∀ {a : Option String} {remote : Bool} {s : String}, a ≠ some "" → s ≠ "" →
      (if remote then a.or (some s) else a) ≠ some "" := by
    intro a remote s ha hs
    split
    · exact or_ne_empty ha (by simpa using hs)
    · exact ha
  unfold place PayloadText.normalizeLocationFields
  refine or_ne_empty (has _) (joined_ne_empty ?_)
  simp only [List.forall_mem_cons, List.not_mem_nil, false_imp_iff, implies_true, and_true]
  exact ⟨hremote (or_ne_empty (has _) (hcity _)) (by decide),
    hremote (or_ne_empty (has _) (hregion _)) (by decide), has _⟩

theorem goodWhen_defaultLocation (hclean : ∀ s, text.cleanText s ≠ some "")
    (location : LocationSchema) :
    GoodWhen (fun _ => True) (∀ s ∈ text.placeTexts (text.place location), text.Reads s)
      (text.defaultLocation location) := by
  refine (goodWhen_countryWithIndonesiaDefault (text.place location)).bind_total fun country => ?_
  split
  · exact ⟨_, rfl⟩
  · next display hdisplay =>
    have hne : display ≠ "" := by
      rintro rfl
      exact place_display_ne hclean location hdisplay
    exact ⟨_, dif_pos hne⟩

/-- The display of a location is the one its fields make. -/
theorem defaultLocation_display {location filled : LocationSchema}
    (h : text.defaultLocation location = .ok filled) :
    filled.display.map Subtype.val = (text.place location).display := by
  obtain ⟨country, -, h⟩ := ok_bind_iff.mp h
  split at h
  · next hnone =>
    cases h
    exact hnone.symm
  · next display hdisplay =>
    split at h
    · cases h
      exact hdisplay.symm
    · cases h

/-! ### The description -/

theorem goodWhen_listingDescription (input : AINormalizationPromptInput) (job : CanonicalJobSchema)
    (location : LocationSchema) (description : Option String) :
    GoodWhen (fun _ => True)
      (∀ s ∈ (if input.sourcePlatform = .glints ∧ input.endpointType = .list then
        text.upToCover (detailTexts (.dict input.rawPayloadSubset)) else []), text.Reads s)
      (text.listingDescription input job location description) := by
  unfold listingDescription
  by_cases hlisting : input.sourcePlatform = .glints ∧ input.endpointType = .list
  · simp only [if_pos hlisting]
    refine (goodWhen_hasDetailCoverage _).bind_total fun covered => ?_
    split <;> exact ⟨_, rfl⟩
  · simp only [if_neg hlisting]
    exact goodWhen_ok (by simp) _

theorem listingDescription_ok {input : AINormalizationPromptInput} {job : CanonicalJobSchema}
    {location : LocationSchema} {description : Option String}
    (hlocation : text.defaultLocation job.location = .ok location)
    (h : text.listingDescription input job location (text.ensureDisplayHtml job.description)
      = .ok description) : description = text.listed input job := by
  unfold listingDescription at h
  unfold listed
  by_cases hlisting : input.sourcePlatform = .glints ∧ input.endpointType = .list
  · simp only [if_pos hlisting] at h
    obtain ⟨covered, hcovered, h⟩ := ok_bind_iff.mp h
    rw [hcovered, ← defaultLocation_display hlocation]
    by_cases hneeds : covered = false ∧ text.ensureDisplayHtml job.description = none
    · rw [if_pos hneeds] at h
      rw [if_pos ⟨hlisting, congrArg some hneeds.1, hneeds.2⟩]
      exact (Except.ok.inj h).symm
    · rw [if_neg hneeds] at h
      rw [if_neg fun hall => hneeds ⟨Option.some.inj hall.2.1, hall.2.2⟩]
      exact (Except.ok.inj h).symm
  · simp only [if_neg hlisting] at h
    rw [if_neg fun hall => hlisting hall.1]
    exact (Except.ok.inj h).symm

theorem goodWhen_descriptionFromEvidence (job : CanonicalJobSchema) (evidence : Evidence)
    (language : OutputLanguage) :
    GoodWhen (fun _ => True)
      (orText evidence.description "" = "" → text.Reads job.title ∧ text.Reads job.company.name)
      (text.descriptionFromEvidence job evidence language) := by
  unfold descriptionFromEvidence
  by_cases hdescription : orText evidence.description "" ≠ ""
  · simp only [if_pos hdescription]
    exact goodWhen_ok (fun h => absurd h hdescription) _
  · simp only [if_neg hdescription]
    refine GoodWhen.congr ?_ ⟨fun h _ => h, fun h => h (not_not.mp hdescription)⟩
    exact (EvidenceText.goodWhen_normalizeText _).bind fun _ _ =>
      (EvidenceText.goodWhen_normalizeText _).bind_pure _

theorem goodWhen_guardedDescription (input : AINormalizationPromptInput) (job : CanonicalJobSchema)
    (evidence : Evidence) (descriptionText : Option String) :
    GoodWhen (fun _ => True)
      (descriptionText = none ∧ orText evidence.description "" = "" →
        text.Reads job.title ∧ text.Reads job.company.name)
      (text.guardedDescription input job evidence descriptionText) := by
  cases descriptionText with
  | none =>
    exact ((goodWhen_descriptionFromEvidence job evidence _).bind_pure _).congr (by simp)
  | some found => exact goodWhen_ok (by simp) _

/-- The quality guards raise exactly where a text is not read. -/
theorem goodWhen_applyQualityGuards (input : AINormalizationPromptInput)
    (job : CanonicalJobSchema) :
    GoodWhen (fun _ => True) (∀ s ∈ text.guardedTexts input job, text.Reads s)
      (text.applyQualityGuards input job) := by
  unfold applyQualityGuards guardedTexts
  simp only [List.forall_mem_append, Option.mem_toList, and_assoc]
  refine (EvidenceText.goodWhen_normalizeValue _).bind fun descriptionText hdescription =>
    (EvidenceText.goodWhen_normalizeValue _).bind fun requirementsText _ =>
      (EvidenceText.goodWhen_evidenceFromRawPayload _).bind fun evidence hevidence =>
        GoodWhen.congr ((goodWhen_guardedDescription input job evidence _).bind_pure _) ?_
  rw [found_of_ok hdescription, ← EvidenceText.evidence_description hevidence]
  split
  · next hneeds => simp [hneeds]
  · next hneeds => exact iff_of_true (fun h => absurd h hneeds) (by simp)

/-- The quality guards take no description away. -/
theorem applyQualityGuards_description_ne {input : AINormalizationPromptInput}
    {job guarded : CanonicalJobSchema} (h : text.applyQualityGuards input job = .ok guarded)
    (hjob : job.description ≠ none) : guarded.description ≠ none := by
  unfold applyQualityGuards at h
  simp only [ok_bind_iff] at h
  obtain ⟨descriptionText, -, _, -, evidence, -, description, hdescription, hlast⟩ := h
  have hsame : guarded.description = description := by
    cases hlast
    split <;> rfl
  rw [hsame]
  cases descriptionText with
  | some found =>
    cases hdescription
    exact hjob
  | none =>
    obtain ⟨generated, -, hlast⟩ := ok_bind_iff.mp hdescription
    cases hlast
    split
    · next hne =>
      rintro rfl
      exact hne rfl
    · exact hjob

/-! ### The defaults -/

/-- The defaults up to the quality guards raise where the scrape time, a text or the level does. -/
theorem goodWhen_fillDefaults {input : AINormalizationPromptInput} {job : CanonicalJobSchema}
    {dated leveled : Prop} (hclean : ∀ s, text.cleanText s ≠ some "")
    (hdated : GoodWhen (fun _ => True) dated
      (text.parseDatetime (input.rawPayloadSubset.get "scrapedAt")))
    (hsalary : ∃ salary, text.defaultSalary job.salary = .ok salary)
    (hleveled : GoodWhen (fun _ => True) leveled
      (text.inferLevel job.experienceLevel job.title
        (text.found (text.ensureDisplayHtml job.description)) (text.cleanRequirements job))) :
    GoodWhen (fun _ => True)
      (dated ∧ (∀ s ∈ text.filledTexts input job, text.Reads s) ∧ leveled)
      (text.fillDefaults input job) := by
  have hchain : GoodWhen (fun _ => True)
      (dated ∧ (∀ s ∈ job.requirements, text.Reads s) ∧
        (∀ s ∈ text.placeTexts (text.place job.location), text.Reads s) ∧
        (∀ s ∈ text.ensureDisplayHtml job.description, text.Reads s) ∧ leveled ∧
        ∀ s ∈ (if input.sourcePlatform = .glints ∧ input.endpointType = .list then
          text.upToCover (detailTexts (.dict input.rawPayloadSubset)) else []), text.Reads s)
      (text.fillDefaults input job) := by
    unfold fillDefaults
    refine hdated.bind fun runScrapedAt _ => ?_
    refine (EvidenceText.goodWhen_normalizeValue job.requirements).bind
      fun requirements hrequirements => ?_
    obtain ⟨salary, hsalary⟩ := hsalary
    rw [hsalary, ok_bind]
    refine (goodWhen_defaultLocation hclean job.location).bind fun location _ => ?_
    refine (EvidenceText.goodWhen_normalizeValue _).bind fun descriptionText hdescription => ?_
    rw [cleanRequirements, found_of_ok hrequirements, found_of_ok hdescription] at hleveled
    refine hleveled.bind fun level _ => ?_
    exact (goodWhen_listingDescription input job location _).bind_pure _
  refine hchain.congr ?_
  unfold filledTexts
  simp only [List.forall_mem_append, Option.mem_toList]
  tauto

/-- What the defaults leave for the quality guards. -/
theorem fillDefaults_ok {input : AINormalizationPromptInput} {job filled : CanonicalJobSchema}
    (h : text.fillDefaults input job = .ok filled) :
    filled.description = text.listed input job ∧ filled.requirements = text.cleanRequirements job ∧
      filled.title = job.title ∧ filled.company = job.company := by
  unfold fillDefaults at h
  simp only [ok_bind_iff] at h
  obtain ⟨_, _, requirements, hrequirements, _, _, location, hlocation, _, _, _, _, description,
    hdescription, hlast⟩ := h
  cases hlast
  rw [cleanRequirements, found_of_ok hrequirements]
  exact ⟨listingDescription_ok hlocation hdescription, rfl, rfl, rfl⟩

/-- What an answer is to get from the defaults: they raise nothing, a listing without detail has a
    description, and the policy on listings passes. -/
def DefaultsHold (text : NormalizationText) (input : AINormalizationPromptInput)
    (job : CanonicalJobSchema) : Prop :=
  ∃ completed, text.applyDefaults input job = .ok completed ∧
    (input.sourcePlatform = .glints ∧ input.endpointType = .list →
      text.hasDetailCoverage (.dict input.rawPayloadSubset) = .ok false →
        completed.description ≠ none) ∧
    text.validateSourcePolicy completed input = .ok ⟨⟩

end NormalizationText

/-! ### The level -/

/-- The numbers of years in a text have at most 4300 digits. -/
structure YearsRead (found : List Char) : Prop where
  ranges : ∀ range ∈ scan yearsRange found, range.1.length ≤ 4300 ∧ range.2.length ≤ 4300
  pluses : ∀ digits ∈ scan yearsPlus found, digits.length ≤ 4300

theorem goodWhen_readYears (digits : List Char) :
    GoodWhen (fun _ => True) (digits.length ≤ 4300) (readYears digits) := by
  unfold readYears
  split
  · next hfits => exact goodWhen_ok hfits _
  · next hlong => exact goodWhen_error hlong trivial

theorem goodWhen_yearsEvidence (found : List Char) :
    GoodWhen (fun _ => True) (YearsRead found) (yearsEvidence found) := by
  have hranges : ∀ range ∈ scan yearsRange found,
      GoodWhen (fun _ => True) (range.1.length ≤ 4300 ∧ range.2.length ≤ 4300) (readRange range) :=
    fun range _ => (goodWhen_readYears range.1).bind fun _ _ =>
      (goodWhen_readYears range.2).bind_pure _
  have hpluses : ∀ digits ∈ scan yearsPlus found,
      GoodWhen (fun _ => True) (digits.length ≤ 4300) (readPlus digits) :=
    fun digits _ => (goodWhen_readYears digits).bind_pure _
  refine ((goodWhen_mapM hranges).bind fun _ _ => (goodWhen_mapM hpluses).bind_pure _).congr ?_
  exact ⟨fun h => ⟨h.1, h.2⟩, fun h => ⟨h.ranges, h.pluses⟩⟩

theorem goodWhen_experienceLevelOf (title : String) (description requirements : Option String) :
    GoodWhen (fun _ => True)
      (keywordLevel (levelText title description requirements) = none →
        YearsRead (levelText title description requirements).toList)
      (experienceLevelOf title description requirements) := by
  unfold experienceLevelOf
  dsimp only
  split
  · next level hlevel => exact goodWhen_ok (fun h => by rw [hlevel] at h; cases h) _
  · next hnone =>
    refine GoodWhen.congr ?_ ⟨fun h _ => h, fun h => h hnone⟩
    exact (goodWhen_yearsEvidence _).map _

namespace NormalizerText

variable (text : NormalizerText)

/-- A text that looks like HTML has text in it. -/
def TextRead (value : String) : Prop :=
  hasHtmlTag value.toList = true → text.htmlToText (.str (removeVisualNoise value)) ≠ .ok none

/-- The text a level is read from, where the answer has none. -/
def levelSource (job : CanonicalJobSchema) : String :=
  levelText job.title (text.normalization.found (text.normalization.ensureDisplayHtml job.description))
    (text.normalization.cleanRequirements job)

/-- The answer with the texts the quality guards look at. -/
def listedJob (input : AINormalizationPromptInput) (job : CanonicalJobSchema) :
    CanonicalJobSchema :=
  { job with
    description := text.normalization.listed input job
    requirements := text.normalization.cleanRequirements job }

/-- The scrape time is one in UTC, too; the texts that are read have text in them where they look
    like HTML; and the numbers of years are not too long, if it comes to them. -/
structure Defaultable (input : AINormalizationPromptInput) (job : CanonicalJobSchema) : Prop where
  scrapedAt : text.InRange (input.rawPayloadSubset.get "scrapedAt")
  filled : ∀ s ∈ text.normalization.filledTexts input job, text.TextRead s
  guarded : ∀ s ∈ text.normalization.guardedTexts input (text.listedJob input job), text.TextRead s
  years : job.experienceLevel = .unknown → keywordLevel (text.levelSource job) = none →
    YearsRead (text.levelSource job).toList

variable {text}

theorem reads_iff (value : String) : text.normalization.Reads value ↔ text.TextRead value := by
  have hreads : ∀ text : NormalizationText,
      text.Reads value ↔ ∃ found, text.normalizeText value = .ok found := fun _ => Iff.rfl
  rw [hreads, normalization_normalizeText]
  unfold MapperText.readText TextRead
  by_cases htag : hasHtmlTag value.toList = true
  · obtain ⟨found, hfound⟩ : ∃ found, text.htmlToText (.str (removeVisualNoise value)) = .ok found :=
      ⟨_, rfl⟩
    rw [if_neg (strip_ne_empty (lt_mem_of_hasHtmlTag htag) (by decide)), if_pos htag, hfound, ok_bind]
    cases found with
    | none => exact iff_of_false (fun ⟨_, h⟩ => by cases h) fun h => h htag rfl
    | some found => exact iff_of_true ⟨_, rfl⟩ fun _ => nofun
  · refine iff_of_true ?_ fun h => absurd h htag
    rw [if_neg htag]
    split <;> exact ⟨_, rfl⟩

/-- The salary of an answer is read without raising. -/
theorem goodWhen_defaultSalary (salary : Option SalarySchema) :
    GoodWhen (fun _ => True) True (text.normalization.defaultSalary salary) := by
  cases salary with
  | none => exact goodWhen_ok trivial _
  | some salary =>
    have hamount : ∀ amount : Option ℕ, AmountRead (dumpOption (fun n : ℕ => .int n) amount) := by
      rintro (- | n)
      · trivial
      · exact Int.natCast_nonneg n
    have hread : GoodWhen (fun _ => True) _ (normalizeSalary text.toUnicodeText salary.arguments) :=
      goodWhen_normalizeSalary (fun _ _ => trivial) _ _
    exact (hread.congr (iff_true_intro ⟨hamount _, hamount _⟩)).map _

theorem goodWhen_inferLevel (job : CanonicalJobSchema) :
    GoodWhen (fun _ => True)
      (job.experienceLevel = .unknown → keywordLevel (text.levelSource job) = none →
        YearsRead (text.levelSource job).toList)
      (text.normalization.inferLevel job.experienceLevel job.title
        (text.normalization.found (text.normalization.ensureDisplayHtml job.description))
        (text.normalization.cleanRequirements job)) := by
  rw [NormalizationText.inferLevel, normalization_experienceLevelOf]
  unfold levelSource
  split
  · next hexplicit => exact goodWhen_ok (fun h => absurd h hexplicit) _
  · next hunknown =>
    refine GoodWhen.congr ?_ ⟨fun h _ => h, fun h => h (not_not.mp hunknown)⟩
    exact goodWhen_experienceLevelOf _ _ _

/-- The defaults raise exactly where the scrape time, a text or a number of years is not read. -/
theorem goodWhen_applyDefaults (input : AINormalizationPromptInput) (job : CanonicalJobSchema) :
    GoodWhen (fun _ => True) (text.Defaultable input job)
      (text.normalization.applyDefaults input job) := by
  have hfill : GoodWhen (fun _ => True)
      (text.InRange (input.rawPayloadSubset.get "scrapedAt") ∧
        (∀ s ∈ text.normalization.filledTexts input job, text.normalization.Reads s) ∧
        (job.experienceLevel = .unknown → keywordLevel (text.levelSource job) = none →
          YearsRead (text.levelSource job).toList))
      (text.normalization.fillDefaults input job) :=
    NormalizationText.goodWhen_fillDefaults (normalization_cleanText text ▸ cleanText_ne_empty)
      (MapperText.goodWhen_parseDatetime (fun _ _ => trivial) _)
      ((goodWhen_defaultSalary job.salary).ok trivial) (goodWhen_inferLevel job)
  have hguard : ∀ filled, text.normalization.fillDefaults input job = .ok filled →
      GoodWhen (fun _ => True)
        (∀ s ∈ text.normalization.guardedTexts input (text.listedJob input job),
          text.normalization.Reads s)
        (text.normalization.applyQualityGuards input filled) := by
    intro filled hfilled
    obtain ⟨hdescription, hrequirements, htitle, hcompany⟩ :=
      NormalizationText.fillDefaults_ok hfilled
    have hsame : text.normalization.guardedTexts input (text.listedJob input job)
        = text.normalization.guardedTexts input filled := by
      unfold NormalizationText.guardedTexts listedJob
      rw [hdescription, hrequirements, htitle, hcompany]
    rw [hsame]
    exact NormalizationText.goodWhen_applyQualityGuards input filled
  refine (hfill.bind hguard).congr ?_
  simp only [reads_iff]
  exact ⟨fun ⟨⟨hdate, hfilled, hyears⟩, hguarded⟩ => ⟨hdate, hfilled, hguarded, hyears⟩,
    fun h => ⟨⟨h.scrapedAt, h.filled, h.years⟩, h.guarded⟩⟩

theorem exists_mem_sourceLimitedSummary (title : String) (company location : Option String)
    (platform : String) (language : OutputLanguage) :
    ∃ c ∈ (text.normalization.sourceLimitedSummary title company location platform language).toList,
      isSpace c = false := by
  refine ⟨'(', ?_, by decide⟩
  cases language with
  | english =>
    simp [NormalizationText.sourceLimitedSummary, PayloadText.buildSourceLimitedSummary]
  | indonesian =>
    rw [NormalizationText.sourceLimitedSummary, normalization_indonesianSummary]
    simp [indonesianSummary]

theorem textToDisplayHtml_ne_none {value : String} {c : Char} (hc : c ∈ value.toList)
    (hspace : isSpace c = false) : textToDisplayHtml value ≠ none := by
  have halphabet : Alphabet := ⟨fun _ => false, fun _ _ => rfl⟩
  rcases textToDisplayHtml_spec halphabet value with ⟨hblank, -⟩ | ⟨html, hsome, -⟩
  · rw [hblank c hc] at hspace
    cases hspace
  · rw [hsome]
    exact nofun

/-- The summary of a listing has a text. -/
theorem listed_ne_none {input : AINormalizationPromptInput} {job : CanonicalJobSchema}
    (hlisting : input.sourcePlatform = .glints ∧ input.endpointType = .list)
    (hcovered : text.normalization.hasDetailCoverage (.dict input.rawPayloadSubset) = .ok false) :
    text.normalization.listed input job ≠ none := by
  unfold NormalizationText.listed
  split
  · rw [normalization_textToDisplayHtml]
    obtain ⟨c, hc, hspace⟩ := exists_mem_sourceLimitedSummary job.title (some job.company.name)
      (text.normalization.place job.location).display input.sourcePlatform.value
      input.outputLanguage
    exact textToDisplayHtml_ne_none hc hspace
  · next hnone =>
    intro h
    exact hnone ⟨hlisting, by rw [hcovered]; rfl, h⟩

/-- Whatever the defaults return passes the policy, and a listing without detail has a description. -/
theorem policy_of_applyDefaults {input : AINormalizationPromptInput}
    {job completed : CanonicalJobSchema}
    (h : text.normalization.applyDefaults input job = .ok completed) :
    (input.sourcePlatform = .glints ∧ input.endpointType = .list →
      text.normalization.hasDetailCoverage (.dict input.rawPayloadSubset) = .ok false →
        completed.description ≠ none) ∧
      text.normalization.validateSourcePolicy completed input = .ok ⟨⟩ := by
  have hdefaultable := (goodWhen_applyDefaults input job).of_ok h
  obtain ⟨filled, hfilled, hguarded⟩ := ok_bind_iff.mp h
  have hdescribed : input.sourcePlatform = .glints ∧ input.endpointType = .list →
      text.normalization.hasDetailCoverage (.dict input.rawPayloadSubset) = .ok false →
        completed.description ≠ none := by
    intro hlisting hcovered
    refine NormalizationText.applyQualityGuards_description_ne hguarded ?_
    rw [(NormalizationText.fillDefaults_ok hfilled).1]
    exact listed_ne_none hlisting hcovered
  refine ⟨hdescribed, ?_⟩
  unfold NormalizationText.validateSourcePolicy
  by_cases hlisting : input.sourcePlatform = .glints ∧ input.endpointType = .list
  · obtain ⟨covered, hcovered⟩ : ∃ covered,
        text.normalization.hasDetailCoverage (.dict input.rawPayloadSubset) = .ok covered := by
      refine (NormalizationText.goodWhen_hasDetailCoverage _).ok fun s hs => ?_
      refine (reads_iff s).mpr (hdefaultable.filled s ?_)
      unfold NormalizationText.filledTexts
      rw [if_pos hlisting]
      exact List.mem_append_right _ hs
    simp only [if_pos hlisting, hcovered, ok_bind]
    rw [if_neg]
    · rfl
    · rintro ⟨rfl, hnone⟩
      exact hdescribed hlisting hcovered hnone
  · simp only [if_neg hlisting]
    rfl

/-- An answer is completed as soon as it gets its defaults. -/
theorem completeJob_of_applyDefaults {input : AINormalizationPromptInput}
    {job completed : CanonicalJobSchema}
    (h : text.normalization.applyDefaults input job = .ok completed) :
    text.normalization.completeJob input job = .ok completed := by
  unfold NormalizationText.completeJob
  rw [h, ok_bind, (policy_of_applyDefaults h).2]
  rfl

/-- The defaults hold exactly where nothing they read makes Python raise. -/
theorem defaultsHold_iff (text : NormalizerText) (input : AINormalizationPromptInput)
    (job : CanonicalJobSchema) :
    text.normalization.DefaultsHold input job ↔ text.Defaultable input job := by
  constructor
  · rintro ⟨completed, hcompleted, -⟩
    exact (goodWhen_applyDefaults input job).of_ok hcompleted
  · intro hdefaultable
    obtain ⟨completed, hcompleted⟩ := (goodWhen_applyDefaults input job).ok hdefaultable
    exact ⟨completed, hcompleted, policy_of_applyDefaults hcompleted⟩

end NormalizerText

/-- The text outside of tags. -/
def outsideTags : Bool → List Char → List Char
  | _, [] => []
  | inTag, c :: rest =>
    if c = '<' then outsideTags true rest
    else if c = '>' then outsideTags false rest
    else if inTag then outsideTags inTag rest
    else c :: outsideTags inTag rest

/-- A normalization of texts in ASCII without entities. -/
def asciiNormalizerText : NormalizerText where
  toMapperText := { MapperText.asciiMapperText with
    treeText := fun html => String.ofList (outsideTags false html.toList) }
  payload := plainText
  parser := { parse := fun text => [.data text], casefold := id }
  benefitNoise _ := false
  techTokens _ := []

/-- An answer about a Go job. -/
def goAnswer : CanonicalJobSchema where
  source :=
    { platform := .glints, externalJobId := ⟨"g1", by decide⟩, sourceUrl := ⟨"g.id", by decide⟩
      scrapedAt := 0 }
  title := ⟨"Go developer", goDeveloper_ne_empty⟩
  company := { name := ⟨"Ac", ac_ne_empty⟩ }
  experienceLevel := .junior
  lastSeenAt := 0

/-- A Glints listing whose description is HTML without text. -/
def blankListing : AINormalizationPromptInput where
  sourcePlatform := .glints
  endpointType := .list
  rawPayloadSubset := [("payload", .dict [("description", .str "<p></p>")])]

/-- No answer for a listing with a blank description in HTML gets its defaults. -/
theorem blank_description_raises :
    ¬ asciiNormalizerText.normalization.DefaultsHold blankListing goAnswer := by
  rintro ⟨completed, hcompleted, -⟩
  have hdefaultable := (NormalizerText.goodWhen_applyDefaults _ _).of_ok hcompleted
  have hread : asciiNormalizerText.TextRead "<p></p>" := by
    refine hdefaultable.filled _ ?_
    unfold NormalizationText.filledTexts
    rw [if_pos ⟨rfl, rfl⟩]
    exact List.mem_append_right _ List.mem_cons_self
  exact hread (by decide) (by rfl)

end Bisakerja
