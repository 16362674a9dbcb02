import BisakerjaScraper.Backend.RoleSentence
import BisakerjaScraper.Schemes.Fallible
import BisakerjaScraper.Schemes.Collect

/-! The requirements and skills of a payload.

    Both lists come from the first of several sources that gives anything, and are deduplicated up
    to case. Noise is left out of every source but the last: the sentence made of the title is taken
    as it is. -/

namespace Bisakerja
open Schemes

/-! ### Deduplication -/

namespace PayloadText

variable {text : PayloadText} {job : NormalizedJob}

/-- The key of a skill. -/
def skillKey (text : PayloadText) (skill : BackendSkillPayload) : String :=
  strip (text.casefold skill.name)

/-- The key of a requirement. -/
def requirementKey (text : PayloadText) (requirement : BackendRequirementPayload) :
    PrismaRequirementType × String :=
  (requirement.type, strip (text.casefold requirement.value))

/-- A requirement that is left aside: it is blank, or noise. -/
def skipsRequirement (text : PayloadText) (requirement : BackendRequirementPayload) : Bool :=
  strip (text.casefold requirement.value) = "" || text.isNoisyRequirement requirement.value

theorem dedupeSkillsFrom_eq (seen : List String) (skills : List BackendSkillPayload) :
    text.dedupeSkillsFrom seen skills
      = firstsFrom text.skillKey (fun skill => text.skillKey skill = "") seen skills := by
  induction skills generalizing seen with
  | nil => rfl
  | cons skill skills ih =>
    rw [dedupeSkillsFrom, firstsFrom, ih, ih]
    rfl

theorem dedupeRequirementsFrom_eq (seen : List (PrismaRequirementType × String))
    (requirements : List BackendRequirementPayload) : text.dedupeRequirementsFrom seen requirements
      = firstsFrom text.requirementKey text.skipsRequirement seen requirements := by
  induction requirements generalizing seen with
  | nil => rfl
  | cons requirement requirements ih =>
    rw [dedupeRequirementsFrom, firstsFrom, ih, ih]
    by_cases hseen : text.requirementKey requirement ∈ seen <;>
      simp_all [skipsRequirement, requirementKey]

/-- What stays of some skills. -/
theorem dedupeSkillPayloads_sound (skills : List BackendSkillPayload) :
    (text.dedupeSkillPayloads skills).Pairwise
      fun a b => text.casefold a.name ≠ text.casefold b.name := by
  rw [dedupeSkillPayloads, dedupeSkillsFrom_eq]
  refine (pairwise_firstsFrom _ _ [] skills).imp fun hne heq => hne ?_
  simp only [skillKey, heq]

theorem dedupeSkillPayloads_eq_nil_iff {skills : List BackendSkillPayload} :
    text.dedupeSkillPayloads skills = [] ↔ ∀ skill ∈ skills, text.skillKey skill = "" := by
  rw [dedupeSkillPayloads, dedupeSkillsFrom_eq, firstsFrom_eq_nil_iff]
  simp

theorem dedupeRequirementPayloads_eq_nil_iff {requirements : List BackendRequirementPayload} :
    text.dedupeRequirementPayloads requirements = [] ↔
      ∀ requirement ∈ requirements, text.skipsRequirement requirement = true := by
  rw [dedupeRequirementPayloads, dedupeRequirementsFrom_eq, List.take_eq_nil_iff,
    firstsFrom_eq_nil_iff]
  simp [maxRelationsPerBackendJob]

/-- Requirements that a backend can tell apart, none of them noise. -/
structure RequirementsSound (text : PayloadText) (requirements : List BackendRequirementPayload) :
    Prop where
  count : 1 ≤ requirements.length ∧ requirements.length ≤ 100
  distinct : requirements.Pairwise fun a b =>
    ¬ (a.type = b.type ∧ text.casefold a.value = text.casefold b.value)
  quiet : ∀ requirement ∈ requirements, text.isNoisyRequirement requirement.value = false

/-- Relations that a backend can tell apart, some of each, with requirements that are no noise. -/
structure RelationsSound (text : PayloadText) (payload : BackendJobPayload) : Prop where
  requirements : text.RequirementsSound payload.requirements
  skillCount : 1 ≤ payload.skills.length ∧ payload.skills.length ≤ 100
  skillsDistinct : payload.skills.Pairwise fun a b => text.casefold a.name ≠ text.casefold b.name

/-- What stays of some requirements is sound, if anything stays. -/
theorem requirementsSound_dedupe {requirements : List BackendRequirementPayload}
    (hne : text.dedupeRequirementPayloads requirements ≠ []) :
    text.RequirementsSound (text.dedupeRequirementPayloads requirements) where
  count := by
    refine ⟨List.length_pos_iff.mpr hne, ?_⟩
    exact List.length_take_le _ _
  distinct := by
    rw [dedupeRequirementPayloads, dedupeRequirementsFrom_eq]
    refine ((pairwise_firstsFrom _ _ [] requirements).imp fun hne heq => hne ?_).sublist
      (List.take_sublist _ _)
    simp only [requirementKey, heq.1, heq.2]
  quiet requirement hmem := by
    rw [dedupeRequirementPayloads, dedupeRequirementsFrom_eq] at hmem
    obtain ⟨-, hskip, -⟩ := of_mem_firstsFrom (List.mem_of_mem_take hmem)
    exact (Bool.or_eq_false_iff.mp hskip).2

/-! ### Sources -/

theorem mapM_checkRequirement {α : Type} {f : α → BackendRequirementPayload} {xs : List α}
    {ys : List BackendRequirementPayload}
    (h : xs.mapM (fun x => checkRequirement job (f x)) = .ok ys) : ys = xs.map f := by
  have hmap := map_eq_of_mapM_ok (g := f) (k := id) (fun x y hy => (contract_ok_iff.mp hy).2) h
  rwa [List.map_id] at hmap

theorem mapM_checkSkill {α : Type} {f : α → BackendSkillPayload} {xs : List α}
    {ys : List BackendSkillPayload} (h : xs.mapM (fun x => checkSkill job (f x)) = .ok ys) :
    ys = xs.map f := by
  have hmap := map_eq_of_mapM_ok (g := f) (k := id) (fun x y hy => (contract_ok_iff.mp hy).2) h
  rwa [List.map_id] at hmap

/-- The requirements of a job: its staging rows, else what its texts say, else a sentence. -/
theorem buildRequirementPayloads_cases {requirements : List BackendRequirementPayload}
    (h : text.buildRequirementPayloads job = .ok requirements) : ∃ staged,
      job.requirementsStaging.mapM (text.requirementPayloadFromStaging job) = .ok staged ∧
      (text.dedupeRequirementPayloads (staged.filterMap id) ≠ [] ∧
          requirements = text.dedupeRequirementPayloads (staged.filterMap id) ∨
        text.dedupeRequirementPayloads (staged.filterMap id) = [] ∧
          (text.deriveFallbackRequirements job ≠ [] ∧
              requirements = text.dedupeRequirementPayloads
                ((text.deriveFallbackRequirements job).map fun item =>
                  ⟨item.1, item.2, none, some "normalized"⟩) ∨
            text.deriveFallbackRequirements job = [] ∧
              requirements = if text.deriveGenericRequirement job = "" then [] else
                [⟨.other, text.deriveGenericRequirement job, none, some "normalized"⟩])) := by
  unfold buildRequirementPayloads at h
  obtain ⟨staged, hstaged, h⟩ := ok_bind_iff.mp h
  refine ⟨staged, hstaged, ?_⟩
  dsimp only at h
  split at h
  · next hsome =>
    cases h
    exact .inl ⟨by simpa using hsome, rfl⟩
  · next hnone =>
    refine .inr ⟨by simpa using hnone, ?_⟩
    split at h
    · next hfallback =>
      obtain ⟨normalized, hnormalized, h⟩ := ok_bind_iff.mp h
      cases h
      rw [mapM_checkRequirement hnormalized]
      exact .inl ⟨by simpa using hfallback, rfl⟩
    · next hfallback =>
      refine .inr ⟨by simpa using hfallback, ?_⟩
      split at h
      · next hempty =>
        cases h
        rw [if_pos hempty]
      · next hsentence =>
        obtain ⟨generic, hgeneric, h⟩ := ok_bind_iff.mp h
        cases h
        rw [if_neg hsentence, (contract_ok_iff.mp hgeneric).2]

/-- The skills of a job: its staging rows, else those of its payload, else derived ones. -/
theorem buildSkillPayloads_cases {skills : List BackendSkillPayload}
    (h : text.buildSkillPayloads job = .ok skills) :
    (∃ staged, skills = text.dedupeSkillPayloads staged ∧ skills ≠ []) ∨
      (∃ names, names = text.sanitizeSkillValues (job.normalizedPayload.get "skills").asList ∧
        names ≠ [] ∧ skills = text.dedupeSkillPayloads
          (names.map fun name => ⟨name, none, some "normalized"⟩)) ∨
      ∃ texts, skills = text.dedupeSkillPayloads
        ((text.deriveFallbackSkills texts).map fun name => ⟨name, none, some "normalized"⟩) := by
  unfold buildSkillPayloads at h
  obtain ⟨staged, -, h⟩ := ok_bind_iff.mp h
  dsimp only at h
  split at h
  · next hsome =>
    cases h
    exact .inl ⟨_, rfl, by simpa using hsome⟩
  · split at h
    · next hnames =>
      obtain ⟨skills', hskills, h⟩ := ok_bind_iff.mp h
      cases h
      rw [mapM_checkSkill hskills]
      exact .inr (.inl ⟨_, rfl, by simpa using hnames, rfl⟩)
    · obtain ⟨skills', hskills, h⟩ := ok_bind_iff.mp h
      cases h
      rw [mapM_checkSkill hskills]
      exact .inr (.inr ⟨_, rfl⟩)

/-- A built payload has the requirements and the skills of its job, and at most a hundred. -/
theorem of_buildBackendJobPayload {rawJob : Option RawJob} {payload : BackendJobPayload}
    (h : text.buildBackendJobPayload rawJob job = .ok payload) :
    text.buildRequirementPayloads job = .ok payload.requirements ∧
      text.buildSkillPayloads job = .ok payload.skills ∧ payload.skills.length ≤ 100 := by
  unfold buildBackendJobPayload at h
  simp only [ok_bind_iff] at h
  obtain ⟨_, _, _, _, _, _, _, _, requirements, hrequirements, skills, hskills, _, hcount, hlast⟩ := h
  obtain ⟨-, rfl⟩ := contract_ok_iff.mp hlast
  obtain ⟨herrors, -⟩ := contract_ok_iff.mp hcount
  refine ⟨hrequirements, hskills, ?_⟩
  by_contra hlong
  have hmany : maxRelationsPerBackendJob < skills.length := by
    simpa [maxRelationsPerBackendJob] using hlong
  simp [hmany] at herrors

/-! ### What a job requires -/

/-- What a staging row says. -/
def stagedValue (text : PayloadText) (row : JobRequirementStaging) : String :=
  (text.normalizeTextBlock (some row.normalizedValue)).getD ""

/-- A staging row that is kept. -/
def Keeps (text : PayloadText) (row : JobRequirementStaging) : Prop :=
  text.isNoisyRequirement (text.stagedValue row) = false ∧
    text.isLowSignalRequirement (text.stagedValue row) = false

/-- A field of the payload with an item. -/
def HasItem (text : PayloadText) (job : NormalizedJob) (field : String) : Prop :=
  ∃ block, text.normalizeTextBlock (text.optionalText (job.normalizedPayload.get field))
      = some block ∧ text.splitRequirementText block ≠ []

/-- The job says what it requires: in a staging row, or in one of its texts. -/
def StatesRequirement (text : PayloadText) (job : NormalizedJob) : Prop :=
  (∃ row ∈ job.requirementsStaging, text.Keeps row) ∨
    text.HasItem job "requirements" ∨ text.HasItem job "description"

/-- The title of a job in its payload, else its own. -/
def roleTitle (text : PayloadText) (job : NormalizedJob) : String :=
  (text.optionalText (job.normalizedPayload.get "title")).getD job.title

/-- A staging row gives a requirement when it is kept. -/
theorem requirementPayloadFromStaging_cases {row : JobRequirementStaging}
    {result : Option BackendRequirementPayload}
    (h : text.requirementPayloadFromStaging job row = .ok result) :
    (∃ requirement, result = some requirement ∧ requirement.value = text.stagedValue row) ∧
        text.Keeps row ∨
      result = none ∧ ¬ text.Keeps row := by
  unfold requirementPayloadFromStaging at h
  split at h
  · cases h
  · split at h
    · cases h
    · next type htype =>
      dsimp only at h
      rw [← stagedValue] at h
      split at h
      · next hleft =>
        cases h
        refine .inr ⟨rfl, fun hkeeps => ?_⟩
        rw [hkeeps.1, hkeeps.2] at hleft
        cases hleft
      · next hkept =>
        obtain ⟨requirement, hchecked, rfl⟩ := ok_map_iff.mp h
        refine .inl ⟨⟨requirement, rfl, ?_⟩, by simpa [Keeps] using hkept⟩
        rw [(contract_ok_iff.mp hchecked).2]

/-- The items of a field, with their types. -/
def classified (text : PayloadText) (job : NormalizedJob) (field : String) :
    List (PrismaRequirementType × String) :=
  match text.normalizeTextBlock (text.optionalText (job.normalizedPayload.get field)) with
  | some value =>
    (text.splitRequirementText value).map fun item => (text.classifyRequirementType item, item)
  | none => []

theorem deriveFallbackRequirements_eq : text.deriveFallbackRequirements job
    = if (text.classified job "requirements").isEmpty then (text.classified job "description").take 8
      else text.classified job "requirements" := rfl

theorem classified_ne_nil_iff {field : String} :
    text.classified job field ≠ [] ↔ text.HasItem job field := by
  unfold classified HasItem
  split
  · next value hvalue => simp [hvalue]
  · next hnone => simp [hnone]

theorem deriveFallbackRequirements_ne_nil_iff : text.deriveFallbackRequirements job ≠ [] ↔
    text.HasItem job "requirements" ∨ text.HasItem job "description" := by
  rw [deriveFallbackRequirements_eq, ← classified_ne_nil_iff, ← classified_ne_nil_iff]
  cases text.classified job "requirements" with
  | nil => simp
  | cons item items => simp

/-- Every item is one of a text. -/
theorem of_mem_deriveFallbackRequirements {item : PrismaRequirementType × String}
    (h : item ∈ text.deriveFallbackRequirements job) :
    ∃ value, item.2 ∈ text.splitRequirementText value := by
  have hof : ∀ {field : String}, item ∈ text.classified job field →
      ∃ value, item.2 ∈ text.splitRequirementText value := by
    intro field hmem
    unfold classified at hmem
    split at hmem
    · next value _ =>
      obtain ⟨s, hs, rfl⟩ := List.mem_map.mp hmem
      exact ⟨value, hs⟩
    · cases hmem
  rw [deriveFallbackRequirements_eq] at h
  split at h
  · exact hof (List.mem_of_mem_take h)
  · exact hof h

/-- A description without items leaves the sentence of the title. -/
theorem deriveGenericRequirement_of_no_item (h : ¬ text.HasItem job "description") :
    text.deriveGenericRequirement job = RelationText.roleSentence (text.roleTitle job) := by
  unfold deriveGenericRequirement
  dsimp only
  split
  · next item items hitems =>
    split at hitems
    · next description hdescription =>
      refine absurd ⟨description, hdescription, ?_⟩ h
      rw [hitems]
      exact List.cons_ne_nil item items
    · cases hitems
  · rfl

end PayloadText

/-! ### Blank texts -/

namespace RelationText

variable {text : RelationText} {rest : PayloadText} {job : NormalizedJob} {value name : String}

/-- A blank text is noise. -/
theorem isNoisyRequirement_of_blank (h : strip value = "") :
    text.isNoisyRequirement value = true := by
  rw [strip_eq_empty_iff] at h
  have htag : hasHtmlTag value.toList = false := by
    by_contra htag
    have hspace := h '<' (lt_mem_of_hasHtmlTag (by simpa using htag))
    cases hspace
  have hblank : joinWords (stripVisualNoise (text.sourceChars value)) = [] := by
    rw [joinWords_eq_nil_iff, sourceChars, htag]
    intro d hd
    obtain ⟨c, hc, hmem⟩ := List.mem_flatMap.mp hd
    have hspace := h c hc
    unfold visibleChars at hmem
    split at hmem
    · rw [List.mem_singleton.mp hmem]
      rfl
    · split at hmem
      · cases hmem
      · split at hmem
        · rw [List.mem_singleton.mp hmem]
          rfl
        · rwa [List.mem_singleton.mp hmem]
  have hnone : text.normalizeTextBlock (some value) = none := if_pos hblank
  rw [isNoisyRequirement, hnone]

/-- Replacing by what is not blank leaves a text that is not blank. -/
theorem exists_mem_replaceFrom {old new : List Char} (hnew : ∃ c ∈ new, isSpace c = false)
    {chars : List Char} (h : ∃ c ∈ chars, isSpace c = false) :
    ∃ c ∈ replaceFrom old new 0 chars, isSpace c = false := by
  induction chars with
  | nil => exact h
  | cons c chars ih =>
    rw [replaceFrom]
    split
    · obtain ⟨d, hd, hspace⟩ := hnew
      exact ⟨d, List.mem_append_left _ hd, hspace⟩
    · obtain ⟨d, hd, hspace⟩ := h
      rcases List.mem_cons.mp hd with rfl | hd
      · exact ⟨d, List.mem_cons_self, hspace⟩
      · obtain ⟨e, he, hspace⟩ := ih ⟨d, hd, hspace⟩
        exact ⟨e, List.mem_cons_of_mem c he, hspace⟩

theorem exists_mem_joinWords {chars : List Char} (h : ∃ c ∈ chars, isSpace c = false) :
    ∃ c ∈ joinWords chars, isSpace c = false := by
  have hne : joinWords chars ≠ [] := by
    rw [ne_eq, joinWords_eq_nil_iff]
    obtain ⟨c, hc, hspace⟩ := h
    intro hall
    simpa [hspace] using hall c hc
  obtain ⟨c, rest, hcons⟩ := List.exists_cons_of_ne_nil hne
  refine ⟨c, hcons ▸ List.mem_cons_self, head?_joinWords chars c ?_⟩
  rw [hcons]
  rfl

/-- A block of text is not blank. -/
theorem strip_ne_of_normalizeTextBlock {given : Option String}
    (h : text.normalizeTextBlock given = some name) : strip name ≠ "" := by
  cases given with
  | none => cases h
  | some value =>
    rw [normalizeTextBlock] at h
    split at h
    · cases h
    · next hne =>
      obtain rfl := Option.some.inj h
      have hdot : ∃ c ∈ ". ".toList, isSpace c = false := ⟨'.', by decide, rfl⟩
      obtain ⟨c, rest, hcons⟩ := List.exists_cons_of_ne_nil hne
      have hfirst : isSpace c = false := head?_joinWords _ c (by rw [hcons]; rfl)
      obtain ⟨d, hd, hspace⟩ := exists_mem_joinWords (exists_mem_replaceFrom hdot
        (exists_mem_replaceFrom hdot ⟨c, hcons ▸ List.mem_cons_self, hfirst⟩))
      refine strip_ne_empty ?_ hspace
      rw [String.toList_ofList]
      exact hd

/-! ### Skills -/

theorem techSkillCanonicalMap_ne_blank :
    (techSkillCanonicalMap.all fun entry => strip entry.2 ≠ "") = true := by
  decide +kernel

theorem roleBasedSkillFallbacks_ne_blank {alphabet : Alphabet} {entry : TextPattern × String}
    (h : entry ∈ alphabet.roleBasedSkillFallbacks) : strip entry.2 ≠ "" := by
  have hname : entry.2 ∈ alphabet.roleBasedSkillFallbacks.map Prod.snd := List.mem_map_of_mem h
  simp only [Alphabet.roleBasedSkillFallbacks, List.map_cons, List.map_nil] at hname
  revert hname
  generalize entry.2 = name
  revert name
  decide +kernel

theorem strip_ne_of_mem_deriveTechSkills {texts : List String}
    (h : name ∈ text.deriveTechSkillsFromTexts texts) : strip name ≠ "" := by
  obtain ⟨value, -, hvalue⟩ := List.mem_flatMap.mp (mem_dedupeStringsFrom h)
  split at hvalue
  · cases hvalue
  · obtain ⟨found, -, hfound⟩ := List.mem_filterMap.mp hvalue
    obtain ⟨front, back, hentry, -⟩ := List.lookup_eq_some_iff.mp hfound
    have hmem : (text.casefold (strip (String.ofList found)), name) ∈ techSkillCanonicalMap := by
      rw [hentry]
      exact List.mem_append_right _ List.mem_cons_self
    simpa using List.all_eq_true.mp techSkillCanonicalMap_ne_blank _ hmem

theorem strip_ne_of_mem_sanitizeSkillValues {values : List Json}
    (h : name ∈ text.sanitizeSkillValues values) : strip name ≠ "" := by
  obtain ⟨value, -, hvalue⟩ := List.mem_flatMap.mp (mem_dedupeStringsFrom h)
  split at hvalue
  · rcases List.mem_append.mp hvalue with hname | htech
    · obtain ⟨candidate, -, hcandidate⟩ := List.mem_filterMap.mp hname
      exact strip_ne_of_normalizeTextBlock (Option.filter_eq_some_iff.mp hcandidate).1
    · exact strip_ne_of_mem_deriveTechSkills htech
  · cases hvalue

/-- Some skill is derived from any texts. -/
theorem deriveFallbackSkills_sound (texts : List String) :
    ∃ name ∈ text.deriveFallbackSkills texts, strip name ≠ "" := by
  have hdefault : strip "Effective Communication" ≠ "" := by decide
  unfold deriveFallbackSkills
  dsimp only
  split
  · next hsome =>
    obtain ⟨name, more, hcons⟩ := List.exists_cons_of_ne_nil
      (by simpa using hsome : text.deriveTechSkillsFromTexts texts ≠ [])
    have hmem : name ∈ text.deriveTechSkillsFromTexts texts := by
      rw [hcons]
      exact List.mem_cons_self
    exact ⟨name, by simp [hcons], strip_ne_of_mem_deriveTechSkills hmem⟩
  · split
    · exact ⟨_, List.mem_singleton_self _, hdefault⟩
    · split
      · next entry hentry =>
        refine ⟨entry.2, List.mem_singleton_self _, ?_⟩
        exact roleBasedSkillFallbacks_ne_blank (List.mem_of_find?_eq_some hentry)
      · exact ⟨_, List.mem_singleton_self _, hdefault⟩

/-- The skills of a built payload: there are some, and they differ up to case. -/
theorem skills_of_build {skills : List BackendSkillPayload}
    (h : (text.payloadText rest).buildSkillPayloads job = .ok skills) :
    1 ≤ skills.length ∧ skills.Pairwise fun a b => text.casefold a.name ≠ text.casefold b.name := by
  have hnamed : ∀ names : List String, (∃ name ∈ names, strip name ≠ "") →
      (text.payloadText rest).dedupeSkillPayloads
        (names.map fun name => ⟨name, none, some "normalized"⟩) ≠ [] := by
    rintro names ⟨name, hname, hblank⟩ hnil
    have hkeys := PayloadText.dedupeSkillPayloads_eq_nil_iff.mp hnil _
      (List.mem_map_of_mem hname)
    exact hblank (text.casefold_blank name hkeys)
  have hdistinct := @PayloadText.dedupeSkillPayloads_sound (text.payloadText rest)
  rcases PayloadText.buildSkillPayloads_cases h with
    ⟨staged, rfl, hne⟩ | ⟨names, hnames, hne, rfl⟩ | ⟨texts, rfl⟩
  · exact ⟨List.length_pos_iff.mpr hne, hdistinct staged⟩
  · obtain ⟨name, more, rfl⟩ := List.exists_cons_of_ne_nil hne
    have hmem : name ∈ text.sanitizeSkillValues (job.normalizedPayload.get "skills").asList := by
      change name ∈ (text.payloadText rest).sanitizeSkillValues _
      rw [← hnames]
      exact List.mem_cons_self
    have hsome := hnamed (name :: more)
      ⟨name, List.mem_cons_self, strip_ne_of_mem_sanitizeSkillValues hmem⟩
    exact ⟨List.length_pos_iff.mpr hsome, hdistinct _⟩
  · exact ⟨List.length_pos_iff.mpr (hnamed _ (deriveFallbackSkills_sound texts)), hdistinct _⟩

/-! ### Requirements -/

theorem payloadText_casefold (text : RelationText) (rest : PayloadText) :
    (text.payloadText rest).casefold = text.casefold := rfl

theorem payloadText_isNoisyRequirement (text : RelationText) (rest : PayloadText) :
    (text.payloadText rest).isNoisyRequirement = text.isNoisyRequirement := rfl

theorem payloadText_splitRequirementText (text : RelationText) (rest : PayloadText) :
    (text.payloadText rest).splitRequirementText = text.splitRequirementText := by
  rw [payloadText]

theorem roleSentence_ne_empty (title : String) : roleSentence title ≠ "" := by
  intro hempty
  have hchars := toList_roleSentence title
  rw [hempty] at hchars
  cases hchars

/-- A requirement is left aside when it is noise: what is blank is noise. -/
theorem skipsRequirement_eq (requirement : BackendRequirementPayload) :
    (text.payloadText rest).skipsRequirement requirement
      = text.isNoisyRequirement requirement.value := by
  rw [PayloadText.skipsRequirement, payloadText_casefold, payloadText_isNoisyRequirement]
  by_cases hblank : strip (text.casefold requirement.value) = ""
  · have hnoise : text.isNoisyRequirement requirement.value = true :=
      isNoisyRequirement_of_blank (text.casefold_blank _ hblank)
    rw [hnoise, Bool.or_true]
  · rw [decide_eq_false hblank, Bool.false_or]

/-- The requirements of staging rows stay when a row is kept. -/
theorem dedupe_staged_ne_nil_iff {staged : List (Option BackendRequirementPayload)}
    (h : job.requirementsStaging.mapM ((text.payloadText rest).requirementPayloadFromStaging job)
      = .ok staged) :
    (text.payloadText rest).dedupeRequirementPayloads (staged.filterMap id) ≠ [] ↔
      ∃ row ∈ job.requirementsStaging, (text.payloadText rest).Keeps row := by
  rw [ne_eq, PayloadText.dedupeRequirementPayloads_eq_nil_iff]
  push Not
  constructor
  · rintro ⟨requirement, hmem, -⟩
    obtain ⟨result, hresult, hsome⟩ := List.mem_filterMap.mp hmem
    obtain ⟨row, hrow, hbuilt⟩ := mem_of_mapM_ok h hresult
    rcases PayloadText.requirementPayloadFromStaging_cases hbuilt with ⟨-, hkeeps⟩ | ⟨rfl, -⟩
    · exact ⟨row, hrow, hkeeps⟩
    · cases hsome
  · rintro ⟨row, hrow, hkeeps⟩
    obtain ⟨result, hresult, hbuilt⟩ := exists_of_mapM_ok h hrow
    rcases PayloadText.requirementPayloadFromStaging_cases hbuilt with
      ⟨⟨requirement, rfl, hvalue⟩, -⟩ | ⟨-, hleft⟩
    · refine ⟨requirement, List.mem_filterMap.mpr ⟨_, hresult, rfl⟩, ?_⟩
      have hquiet := hkeeps.1
      rw [payloadText_isNoisyRequirement, ← hvalue] at hquiet
      rw [skipsRequirement_eq, hquiet]
      exact Bool.false_ne_true
    · exact absurd hkeeps hleft

/-- The items of a job's texts stay, if there are any. -/
theorem dedupe_fallback_ne_nil
    (h : (text.payloadText rest).deriveFallbackRequirements job ≠ []) :
    (text.payloadText rest).dedupeRequirementPayloads
      (((text.payloadText rest).deriveFallbackRequirements job).map fun item =>
        ⟨item.1, item.2, none, some "normalized"⟩) ≠ [] := by
  obtain ⟨item, more, hcons⟩ := List.exists_cons_of_ne_nil h
  have hmem : item ∈ (text.payloadText rest).deriveFallbackRequirements job := by
    rw [hcons]
    exact List.mem_cons_self
  obtain ⟨value, hvalue⟩ := PayloadText.of_mem_deriveFallbackRequirements hmem
  rw [payloadText_splitRequirementText] at hvalue
  have hquiet := (splitRequirementText_sound hvalue).1
  intro hnil
  have hskip := PayloadText.dedupeRequirementPayloads_eq_nil_iff.mp hnil _
    (List.mem_map_of_mem hmem)
  rw [skipsRequirement_eq] at hskip
  dsimp only at hskip
  rw [hquiet] at hskip
  cases hskip

/-- The requirements of a built payload are sound when the job states one, or else when its title
    names no noise. -/
theorem requirementsSound_iff {requirements : List BackendRequirementPayload}
    (h : (text.payloadText rest).buildRequirementPayloads job = .ok requirements) :
    (text.payloadText rest).RequirementsSound requirements ↔
      (text.payloadText rest).StatesRequirement job ∨
        text.isNoisyTitle ((text.payloadText rest).roleTitle job) = false := by
  obtain ⟨staged, hstaged, hcases⟩ := PayloadText.buildRequirementPayloads_cases h
  have hrows := dedupe_staged_ne_nil_iff hstaged
  rcases hcases with ⟨hkept, rfl⟩ | ⟨hnone, hcases⟩
  · exact iff_of_true (PayloadText.requirementsSound_dedupe hkept) (.inl (.inl (hrows.mp hkept)))
  · have hnorow : ¬ ∃ row ∈ job.requirementsStaging, (text.payloadText rest).Keeps row :=
      fun hrow => hrows.mpr hrow hnone
    have hitems : (text.payloadText rest).deriveFallbackRequirements job ≠ [] ↔ _ :=
      PayloadText.deriveFallbackRequirements_ne_nil_iff
    rcases hcases with ⟨hfallback, rfl⟩ | ⟨hempty, rfl⟩
    · exact iff_of_true (PayloadText.requirementsSound_dedupe (dedupe_fallback_ne_nil hfallback))
        (.inl (.inr (hitems.mp hfallback)))
    · -- only the sentence of the title is left, and it is taken as it is
      have hnoitem := not_or.mp fun hitem => hitems.mpr hitem hempty
      have hstates : ¬ (text.payloadText rest).StatesRequirement job := by
        rintro (hrow | hitem)
        · exact hnorow hrow
        · exact hitems.mpr hitem hempty
      rw [PayloadText.deriveGenericRequirement_of_no_item hnoitem.2, if_neg (roleSentence_ne_empty _),
        ← isNoisyRequirement_roleSentence, or_iff_right hstates]
      generalize roleSentence _ = sentence
      constructor
      · intro hsound
        have hquiet := hsound.quiet _ (List.mem_singleton_self _)
        rwa [payloadText_isNoisyRequirement] at hquiet
      · intro hquiet
        refine ⟨⟨le_rfl, by simp⟩, List.pairwise_singleton _ _, fun requirement hmem => ?_⟩
        rw [List.mem_singleton.mp hmem, payloadText_isNoisyRequirement]
        exact hquiet

/-- The relations of a built payload are sound when the job states a requirement, or else when its
    title names no noise. -/
theorem relationsSound_iff {rawJob : Option RawJob} {payload : BackendJobPayload}
    (h : (text.payloadText rest).buildBackendJobPayload rawJob job = .ok payload) :
    (text.payloadText rest).RelationsSound payload ↔
      (text.payloadText rest).StatesRequirement job ∨
        text.isNoisyTitle ((text.payloadText rest).roleTitle job) = false := by
  obtain ⟨hrequirements, hskills, hcount⟩ := PayloadText.of_buildBackendJobPayload h
  obtain ⟨hsome, hdistinct⟩ := skills_of_build hskills
  rw [← requirementsSound_iff hrequirements]
  constructor
  · exact PayloadText.RelationsSound.requirements
  · intro hsound
    exact ⟨hsound, ⟨hsome, hcount⟩, hdistinct⟩

/-! ### A title that names benefits -/

/-- The texts of ASCII values without tags. -/
def asciiRelationText : RelationText where
  alphabet := ⟨fun _ => false, fun _ _ => rfl⟩
  lower s := String.ofList (s.toList.map Char.toLower)
  casefold s := String.ofList (s.toList.map Char.toLower)
  treeText html := html
  casefold_blank s h := by
    rw [strip_eq_empty_iff, String.toList_ofList] at h
    refine (strip_eq_empty_iff s).mpr fun c hc => ?_
    rw [← (toLower_facts c).1]
    exact h _ (List.mem_map_of_mem hc)
  isAlnum_bullet := rfl

/-- A job that only has a title. -/
def benefitsJob : NormalizedJob where
  id := "n"
  rawJobId := none
  sourcePlatform := "dealls"
  externalId := "a"
  title := "Compensation & Benefits Specialist"
  companyName := "Acme"
  sourceUrl := "https://dealls.com/loker/a"
  applyUrl := none
  status := .active
  normalizedPayload := []
  lastSeenAt := 0
  postedAt := none

theorem built_benefitsJob : ∃ payload,
    (asciiRelationText.payloadText plainText).buildBackendJobPayload none benefitsJob = .ok payload ∧
    ∃ requirement ∈ payload.requirements,
      asciiRelationText.isNoisyRequirement requirement.value = true := by
  have hbuilt : (((asciiRelationText.payloadText plainText).buildBackendJobPayload none
      benefitsJob).toOption.any fun payload => payload.requirements.any fun requirement =>
        asciiRelationText.isNoisyRequirement requirement.value) = true := by
    decide +kernel
  cases heq : (asciiRelationText.payloadText plainText).buildBackendJobPayload none benefitsJob with
  | ok payload =>
    rw [heq] at hbuilt
    exact ⟨payload, rfl, List.any_eq_true.mp hbuilt⟩
  | error e =>
    rw [heq] at hbuilt
    cases hbuilt

theorem relationsSound_benefitsJob : ∃ payload,
    (asciiRelationText.payloadText plainText).buildBackendJobPayload none benefitsJob = .ok payload ∧
    ((asciiRelationText.payloadText plainText).RelationsSound payload ↔
      (asciiRelationText.payloadText plainText).StatesRequirement benefitsJob ∨
        asciiRelationText.isNoisyTitle
          ((asciiRelationText.payloadText plainText).roleTitle benefitsJob) = false) := by
  obtain ⟨payload, hbuilt, -⟩ := built_benefitsJob
  exact ⟨payload, hbuilt, relationsSound_iff hbuilt⟩

/-- The sentence made of the title is the requirement of the job, and it is noise. -/
theorem benefits_title_is_noisy : ∃ payload,
    (asciiRelationText.payloadText plainText).buildBackendJobPayload none benefitsJob = .ok payload ∧
    (∃ requirement ∈ payload.requirements,
      asciiRelationText.isNoisyRequirement requirement.value = true) ∧
    ¬ (asciiRelationText.payloadText plainText).RelationsSound payload := by
  obtain ⟨payload, hbuilt, requirement, hmem, hnoise⟩ := built_benefitsJob
  refine ⟨payload, hbuilt, ⟨requirement, hmem, hnoise⟩, fun hsound => ?_⟩
  have hquiet := hsound.requirements.quiet requirement hmem
  rw [payloadText_isNoisyRequirement, hnoise] at hquiet
  cases hquiet

end RelationText

end Bisakerja
