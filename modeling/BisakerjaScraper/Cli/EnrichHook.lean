import BisakerjaScraper.Enrichment.Repositories
import BisakerjaScraper.Pipeline.RunIds
import Mathlib.Algebra.Order.Ring.Rat
import Mathlib.Tactic.NormNum

/-! The enrich stage of the command line.

    Without an enrichment client each job is given staging rows from its own payload. The return
    behind that is indented too little: it is taken with a client as well, which is then never
    asked. -/

namespace Bisakerja
open Schemes

/-- The text helpers of the stage. What a requirement text is split into is not empty. -/
structure StagingText extends PayloadText where
  splitRequirementText_ne : ∀ value, ∀ item ∈ splitRequirementText value, item ≠ ""

section
variable {α κ : Type} [DecidableEq κ]

/-- `dedupe_by_key`, with the keys that were seen. -/
def dedupeByKey (key : α → κ) : List κ → List α → List α
  | _, [] => []
  | seen, item :: items =>
    if key item ∈ seen then dedupeByKey key seen items
    else item :: dedupeByKey key (seen ++ [key item]) items

theorem dedupeByKey_nodup (key : α → κ) (seen : List κ) (items : List α) :
    ((dedupeByKey key seen items).map key).Nodup ∧
      ∀ item ∈ dedupeByKey key seen items, key item ∉ seen := by
  induction items generalizing seen with
  | nil => exact ⟨List.nodup_nil, by simp [dedupeByKey]⟩
  | cons item items ih =>
    unfold dedupeByKey
    split
    · exact ih seen
    · next hnew =>
      obtain ⟨hnodup, hfresh⟩ := ih (seen ++ [key item])
      simp only [List.mem_append, List.mem_singleton, not_or] at hfresh
      refine ⟨List.nodup_cons.mpr ⟨?_, hnodup⟩, ?_⟩
      · intro hmem
        obtain ⟨other, hother, hsame⟩ := List.mem_map.mp hmem
        exact (hfresh other hother).2 hsame
      · intro other hother
        rcases List.mem_cons.mp hother with rfl | hother
        · exact hnew
        · exact (hfresh other hother).1

/-- The first item stays. -/
theorem dedupeByKey_eq_nil (key : α → κ) (items : List α) :
    dedupeByKey key [] items = [] ↔ items = [] := by
  cases items with
  | nil => simp [dedupeByKey]
  | cons item items => simp [dedupeByKey]

end

/-! ### Staging rows from the payload -/

/-- `enrichment_requirement_type_from_prisma`. -/
def enrichmentRequirementTypeFromPrisma : PrismaRequirementType → RequirementType
  | .skill => .skill
  | .experience => .experience
  | .education => .education
  | .responsibility => .responsibility
  | .other => .other

namespace StagingText

variable (text : StagingText)

/-- The skills `source_enrichment_output_from_job` takes from a payload. -/
def sourceSkills (payload : Dict) : List EnrichedSkill :=
  match payload.get "skills" with
  | .list xs => xs.filterMap fun
    | .str skill =>
      if strip skill ≠ "" then some { name := strip skill, confidence := ⟨3 / 5, by norm_num⟩ }
      else none
    | _ => none
  | _ => []

/-- The requirements `source_enrichment_output_from_job` takes from a payload. -/
def sourceRequirements (payload : Dict) : List EnrichedRequirement :=
  match payload.get "requirements" with
  | .str requirements =>
    if strip requirements ≠ "" then
      (text.splitRequirementText requirements).map fun value =>
        { type := enrichmentRequirementTypeFromPrisma (text.classifyRequirementType value)
          value := strip value
          confidence := ⟨1 / 2, by norm_num⟩ }
    else []
  | _ => []

/-- `source_enrichment_output_from_job`. -/
def sourceEnrichmentOutputFromJob (job : NormalizedJob) : EnrichmentOutput text.casefold :=
  let skills := sourceSkills job.normalizedPayload
  let requirements := text.sourceRequirements job.normalizedPayload
  { skills := dedupeByKey (fun skill => text.casefold skill.name) [] skills
    requirements := dedupeByKey
      (fun requirement => (requirement.type, text.casefold requirement.value)) [] requirements
    confidence :=
      if skills = [] ∧ requirements = [] then ⟨0, by norm_num⟩ else ⟨1 / 2, by norm_num⟩
    skills_nodup := (dedupeByKey_nodup _ _ _).1
    requirements_nodup := (dedupeByKey_nodup _ _ _).1 }

end StagingText

/-- The tables, and the jobs for which a staging row was stored or refreshed or an enrichment
    succeeded. -/
structure EnrichStageState where
  tables : StageTables
  written : List String := []

/-- `normalized_jobs_for_stage`. -/
def normalizedJobsForStage (runId : String) (db : JobTables) : List NormalizedJob :=
  match scrapeRunIdFromStageRunId runId with
  | none => db.normalizedJobs.rows
  | some scrapeRunId =>
    let rawJobIds := (db.rawJobs.rows.filter fun raw => raw.scrapeRunId = scrapeRunId).map RawJob.id
    if rawJobIds = [] then []
    else db.normalizedJobs.rows.filter fun job => job.rawJobId.any (rawJobIds.contains ·)

namespace StagingText

variable (text : StagingText)

/-- `upsert_output` of what the payload of a job gives. -/
def stageSource (s : EnrichStageState) (job : NormalizedJob) : EnrichStageState :=
  let output := text.sourceEnrichmentOutputFromJob job
  { tables := upsertOutput job.id output .source s.tables
    written := s.written ++ output.skills.map (fun _ => job.id) ++
      output.requirements.map (fun _ => job.id) }

/-- `enrich_hook`: the counts it returns, and what it leaves behind. -/
def enrichHook (hasClient : Bool) (runId : String) (tables : StageTables) :
    RunCounts × EnrichStageState :=
  let jobs := normalizedJobsForStage runId tables.jobs
  if jobs = [] then ({}, { tables })
  else
    ({ fetched := jobs.length
       parsed := jobs.length
       normalized := jobs.length
       persisted := jobs.length },
      if hasClient then { tables } else jobs.foldl text.stageSource { tables })

/-- The payload of a job gives at least one staging row. -/
def Stageable (job : NormalizedJob) : Prop :=
  sourceSkills job.normalizedPayload ≠ [] ∨ text.sourceRequirements job.normalizedPayload ≠ []

end StagingText

/-- Counts that tell what was written: as many are persisted as jobs had something written, and the
    others are skipped. -/
structure RealCounts (jobs : List NormalizedJob) (counts : RunCounts) (written : List String) :
    Prop where
  persisted : counts.persisted = jobs.countP fun job => job.id ∈ written
  skipped : counts.skipped = jobs.countP fun job => job.id ∉ written

namespace StagingText

variable {text : StagingText}

theorem normalizedJobsForStage_nodup (runId : String) (db : JobTables) :
    ((normalizedJobsForStage runId db).map NormalizedJob.id).Nodup := by
  unfold normalizedJobsForStage
  split
  · exact db.normalizedJobs.unique
  · dsimp only
    split
    · exact List.nodup_nil
    · exact (List.filter_sublist.map NormalizedJob.id).nodup db.normalizedJobs.unique

/-- What a job is written for is what its payload gives. -/
theorem mem_written_stageSource {s : EnrichStageState} {job : NormalizedJob} {id : String} :
    id ∈ (text.stageSource s job).written ↔
      id ∈ s.written ∨ (id = job.id ∧ text.Stageable job) := by
  unfold stageSource sourceEnrichmentOutputFromJob Stageable
  simp only [List.mem_append, List.map_const', List.mem_replicate, ne_eq, List.length_eq_zero_iff,
    dedupeByKey_eq_nil]
  tauto

theorem mem_written_foldl {jobs : List NormalizedJob} {s : EnrichStageState} {id : String} :
    id ∈ (jobs.foldl text.stageSource s).written ↔
      id ∈ s.written ∨ ∃ job ∈ jobs, job.id = id ∧ text.Stageable job := by
  induction jobs generalizing s with
  | nil => simp
  | cons job jobs ih =>
    rw [List.foldl_cons, ih, mem_written_stageSource, or_assoc]
    simp only [List.mem_cons, exists_eq_or_imp, eq_comm (a := id)]

/-- BUG: the counts are real exactly when there is nothing to do, or there is no client and the
    payload of every job gives a staging row. With a client nothing is done for any job, and all of
    them are counted. -/
theorem realCounts_iff (text : StagingText) (hasClient : Bool) (runId : String)
    (tables : StageTables) :
    RealCounts (normalizedJobsForStage runId tables.jobs) (text.enrichHook hasClient runId tables).1
        (text.enrichHook hasClient runId tables).2.written ↔
      normalizedJobsForStage runId tables.jobs = [] ∨
        (hasClient = false ∧
          ∀ job ∈ normalizedJobsForStage runId tables.jobs, text.Stageable job) := by
  have hnodup := normalizedJobsForStage_nodup runId tables.jobs
  unfold enrichHook
  generalize normalizedJobsForStage runId tables.jobs = jobs at hnodup
  by_cases hjobs : jobs = []
  · subst hjobs
    exact iff_of_true ⟨rfl, rfl⟩ (.inl rfl)
  · dsimp only
    rw [if_neg hjobs]
    cases hasClient with
    | true =>
      refine iff_of_false (fun h => hjobs ?_) (by simp [hjobs])
      have hpersisted := h.persisted
      simp only [if_true, List.not_mem_nil, decide_false, List.countP_false] at hpersisted
      exact List.eq_nil_of_length_eq_zero hpersisted
    | false =>
      have hwritten : ∀ job ∈ jobs, (job.id ∈ (jobs.foldl text.stageSource { tables }).written ↔
          text.Stageable job) := by
        intro job hjob
        rw [mem_written_foldl]
        constructor
        · rintro (hmem | ⟨other, hother, hid, hstage⟩)
          · cases hmem
          · rwa [List.inj_on_of_nodup_map hnodup hother hjob hid] at hstage
        · exact fun hstage => .inr ⟨job, hjob, rfl, hstage⟩
      rw [if_neg Bool.false_ne_true]
      constructor
      · intro h
        have hall := List.countP_eq_length.mp h.persisted.symm
        exact .inr ⟨rfl, fun job hjob => (hwritten job hjob).mp (of_decide_eq_true (hall job hjob))⟩
      · rintro (hempty | ⟨-, hall⟩)
        · exact absurd hempty hjobs
        · have hmem := fun job hjob => (hwritten job hjob).mpr (hall job hjob)
          refine ⟨(List.countP_eq_length.mpr fun job hjob => decide_eq_true (hmem job hjob)).symm,
            (List.countP_eq_zero.mpr fun job hjob => ?_).symm⟩
          simpa using hmem job hjob

/-- Texts that are one requirement each. -/
def oneItemText : StagingText :=
  { plainText with
    splitRequirementText := fun value => if value = "" then [] else [value]
    splitRequirementText_ne := by
      intro value item hitem
      split at hitem
      · cases hitem
      · next hvalue =>
        rw [List.mem_singleton.mp hitem]
        exact hvalue }

/-- The tables with one normalized job, whose payload has a skill. -/
def oneSkillTables : StageTables where
  jobs :=
    { rawJobs := Table.empty _
      normalizedJobs := ⟨[
        { id := "n", rawJobId := some "r", sourcePlatform := "glints", externalId := "abc"
          title := "Dev", companyName := "Ac", sourceUrl := "u", applyUrl := none, status := .active
          normalizedPayload := [("skills", .list [.str "Lean"])], lastSeenAt := 0
          postedAt := none }], List.nodup_singleton _⟩ }

/-- With a client the job is counted as persisted, and the tables are left as they were. -/
theorem counted_without_writing :
    (oneItemText.enrichHook true "mon" oneSkillTables).1.persisted = 1 ∧
      (oneItemText.enrichHook true "mon" oneSkillTables).2 = { tables := oneSkillTables } ∧
      ¬ RealCounts (normalizedJobsForStage "mon" oneSkillTables.jobs)
        (oneItemText.enrichHook true "mon" oneSkillTables).1
        (oneItemText.enrichHook true "mon" oneSkillTables).2.written := by
  have hid : scrapeRunIdFromStageRunId "mon" = none := by decide +kernel
  have hjobs : normalizedJobsForStage "mon" oneSkillTables.jobs
      = oneSkillTables.jobs.normalizedJobs.rows := by
    unfold normalizedJobsForStage
    rw [hid]
  have hhook : oneItemText.enrichHook true "mon" oneSkillTables
      = ({ fetched := 1, parsed := 1, normalized := 1, persisted := 1 },
          { tables := oneSkillTables }) := by
    unfold enrichHook
    rw [hjobs]
    rfl
  rw [hhook]
  refine ⟨rfl, rfl, fun h => ?_⟩
  have hpersisted := h.persisted
  rw [hjobs] at hpersisted
  cases hpersisted

end StagingText

end Bisakerja
