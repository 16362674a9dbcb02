import BisakerjaScraper.Jobs.Schemas
import BisakerjaScraper.Sync.Events

/-! Writing raw and normalized jobs.

    Both upserts look the row up by source platform and external id, rewrite it when it is there
    and insert it otherwise; they hand back the row's id and whether it is new. -/

namespace Bisakerja
open Schemes

/-- `RawJobInput`. -/
structure RawJobInput where
  scrapeRunId : String
  sourcePlatform : String
  externalId : String
  sourceUrl : Option String
  rawPayload : Dict
  metadataJson : Option Dict := none
  scrapedAt : Option Time := none

/-- The pair a raw job is stored under. -/
def RawJobInput.identity (input : RawJobInput) : String × String :=
  (input.sourcePlatform, input.externalId)

/-- The session the upserts write to: the job tables and the position of the clock. -/
structure JobSession where
  tables : JobTables
  ticks : ℕ := 0

/-- The raw row with a given source platform and external id. -/
def JobTables.findRawJob (db : JobTables) (identity : String × String) : Option RawJob :=
  db.rawJobs.rows.find? fun raw => raw.identity = identity

/-- The normalized row with a given source platform and external id. -/
def JobTables.findNormalizedJob (db : JobTables) (identity : String × String) :
    Option NormalizedJob :=
  db.normalizedJobs.rows.find? fun job => job.identity = identity

/-- The fields `upsert_raw_job` assigns. -/
def RawJob.rewrite (input : RawJobInput) (payloadHash : String) (scrapedAt : Time)
    (raw : RawJob) : RawJob :=
  { raw with
    scrapeRunId := input.scrapeRunId
    sourceUrl := input.sourceUrl
    rawPayload := input.rawPayload
    metadataJson := input.metadataJson
    payloadHash := some payloadHash
    scrapedAt := scrapedAt }

theorem RawJob.rewrite_id (input : RawJobInput) (payloadHash : String) (scrapedAt : Time)
    (raw : RawJob) : (raw.rewrite input payloadHash scrapedAt).id = raw.id := rfl

theorem RawJob.rewrite_identity (input : RawJobInput) (payloadHash : String) (scrapedAt : Time)
    (raw : RawJob) : (raw.rewrite input payloadHash scrapedAt).identity = raw.identity := rfl

/-- `upsert_raw_job`. -/
def upsertRawJob (host : Host) (hash : StableHash) (input : RawJobInput) (s : JobSession) :
    (String × Bool) × JobSession :=
  let payloadHash := hash.digest (.dict input.rawPayload)
  let scrapedAt := input.scrapedAt.getD (host.utcNow s.ticks)
  match s.tables.findRawJob input.identity with
  | none =>
    let raw : RawJob :=
      { id := host.newId s.ticks
        scrapeRunId := input.scrapeRunId
        sourcePlatform := input.sourcePlatform
        externalId := input.externalId
        sourceUrl := input.sourceUrl
        rawPayload := input.rawPayload
        metadataJson := input.metadataJson
        payloadHash := some payloadHash
        scrapedAt := scrapedAt }
    ((raw.id, true),
      { tables := { s.tables with rawJobs := s.tables.rawJobs.insert raw }, ticks := s.ticks + 1 })
  | some existing =>
    ((existing.id, false),
      { tables := { s.tables with
          rawJobs := s.tables.rawJobs.modify existing.id (RawJob.rewrite input payloadHash scrapedAt)
            (RawJob.rewrite_id input payloadHash scrapedAt) }
        ticks := s.ticks + 1 })

/-- The fields `upsert_normalized_job` assigns. -/
def NormalizedJob.rewrite (isoformat : Time → String) (job : CanonicalJobSchema)
    (rawJobId : Option String) (row : NormalizedJob) : NormalizedJob :=
  { row with
    rawJobId := rawJobId
    title := job.title
    companyName := job.company.name
    sourceUrl := job.source.sourceUrl
    applyUrl := job.source.externalApplyUrl
    status := job.status
    normalizedPayload := job.modelDump isoformat
    lastSeenAt := job.lastSeenAt
    postedAt := job.postedAt }

theorem NormalizedJob.rewrite_id (isoformat : Time → String) (job : CanonicalJobSchema)
    (rawJobId : Option String) (row : NormalizedJob) :
    (row.rewrite isoformat job rawJobId).id = row.id := rfl

theorem NormalizedJob.rewrite_identity (isoformat : Time → String) (job : CanonicalJobSchema)
    (rawJobId : Option String) (row : NormalizedJob) :
    (row.rewrite isoformat job rawJobId).identity = row.identity := rfl

/-- The row `upsert_normalized_job` inserts. -/
def newNormalizedJob (isoformat : Time → String) (id : String) (job : CanonicalJobSchema)
    (rawJobId : Option String) : NormalizedJob where
  id := id
  rawJobId := rawJobId
  sourcePlatform := job.source.platform.value
  externalId := job.source.externalJobId
  title := job.title
  companyName := job.company.name
  sourceUrl := job.source.sourceUrl
  applyUrl := job.source.externalApplyUrl
  status := job.status
  normalizedPayload := job.modelDump isoformat
  lastSeenAt := job.lastSeenAt
  postedAt := job.postedAt

/-- `upsert_normalized_job`. -/
def upsertNormalizedJob (host : Host) (isoformat : Time → String) (job : CanonicalJobSchema)
    (rawJobId : Option String) (s : JobSession) : (String × Bool) × JobSession :=
  match s.tables.findNormalizedJob job.identity with
  | none =>
    let row := newNormalizedJob isoformat (host.newId s.ticks) job rawJobId
    ((row.id, true),
      { tables := { s.tables with normalizedJobs := s.tables.normalizedJobs.insert row }
        ticks := s.ticks + 1 })
  | some existing =>
    ((existing.id, false),
      { s with tables := { s.tables with
          normalizedJobs := s.tables.normalizedJobs.modify existing.id
            (NormalizedJob.rewrite isoformat job rawJobId)
            (NormalizedJob.rewrite_id isoformat job rawJobId) } })

/-! ### What the upserts leave alone -/

theorem upsertRawJob_normalizedJobs (host : Host) (hash : StableHash) (input : RawJobInput)
    (s : JobSession) :
    (upsertRawJob host hash input s).2.tables.normalizedJobs = s.tables.normalizedJobs := by
  unfold upsertRawJob
  dsimp only
  split <;> rfl

theorem upsertNormalizedJob_rawJobs (host : Host) (isoformat : Time → String)
    (job : CanonicalJobSchema) (rawJobId : Option String) (s : JobSession) :
    (upsertNormalizedJob host isoformat job rawJobId s).2.tables.rawJobs = s.tables.rawJobs := by
  unfold upsertNormalizedJob
  dsimp only
  split <;> rfl

/-- The raw row an upsert finds afterwards holds what the input brought. -/
theorem rawJob_upsertRawJob (host : Host) (hash : StableHash) (s : JobSession)
    {input : RawJobInput} {raw : RawJob} (hfind : s.tables.findRawJob input.identity = some raw)
    {job : NormalizedJob} (hjob : job.rawJobId = some raw.id) :
    (upsertRawJob host hash input s).2.tables.rawJob job
      = some (raw.rewrite input (hash.digest (.dict input.rawPayload))
          (input.scrapedAt.getD (host.utcNow s.ticks))) := by
  have hmem : raw ∈ s.tables.rawJobs.rows := List.mem_of_find?_eq_some hfind
  unfold upsertRawJob JobTables.rawJob
  simp only [hfind, hjob, Option.bind_some]
  rw [Table.find?_modify_self, Table.find?_of_mem hmem]
  rfl

/-- The ids to come are those of no raw row. -/
def FreshIds (host : Host) (s : JobSession) : Prop :=
  ∀ n, s.ticks ≤ n → ∀ raw ∈ s.tables.rawJobs.rows, raw.id ≠ host.newId n

/-- The row an upsert inserts. -/
theorem upsertRawJob_of_none (host : Host) (hash : StableHash) {input : RawJobInput}
    {s : JobSession} (h : s.tables.findRawJob input.identity = none) :
    ∃ raw : RawJob, raw.id = host.newId s.ticks ∧ raw.identity = input.identity ∧
      raw.scrapeRunId = input.scrapeRunId ∧
      (upsertRawJob host hash input s).2
        = { tables := { s.tables with rawJobs := s.tables.rawJobs.insert raw }
            ticks := s.ticks + 1 } := by
  unfold upsertRawJob
  simp only [h]
  exact ⟨_, rfl, rfl, rfl, rfl⟩

/-- The rewriting an upsert does. -/
theorem upsertRawJob_of_some (host : Host) (hash : StableHash) {input : RawJobInput}
    {s : JobSession} {existing : RawJob} (h : s.tables.findRawJob input.identity = some existing) :
    ∃ (f : RawJob → RawJob) (hf : ∀ raw, (f raw).id = raw.id),
      (∀ raw, (f raw).identity = raw.identity) ∧
      (∀ raw, (f raw).scrapeRunId = input.scrapeRunId) ∧
      (upsertRawJob host hash input s).2
        = { tables := { s.tables with rawJobs := s.tables.rawJobs.modify existing.id f hf }
            ticks := s.ticks + 1 } := by
  unfold upsertRawJob
  simp only [h]
  exact ⟨_, RawJob.rewrite_id _ _ _, fun _ => rfl, fun _ => rfl, rfl⟩

theorem upsertRawJob_ticks (host : Host) (hash : StableHash) (input : RawJobInput)
    (s : JobSession) : s.ticks ≤ (upsertRawJob host hash input s).2.ticks := by
  unfold upsertRawJob
  dsimp only
  split <;> exact Nat.le_succ _

/-- A new row takes an id, and the ids after it are still to come. -/
theorem freshIds_upsertRawJob {host : Host} (hinj : Function.Injective host.newId)
    (hash : StableHash) (input : RawJobInput) {s : JobSession} (h : FreshIds host s) :
    FreshIds host (upsertRawJob host hash input s).2 := by
  cases hfind : s.tables.findRawJob input.identity with
  | none =>
    obtain ⟨row, hid, -, -, heq⟩ := upsertRawJob_of_none host hash hfind
    rw [heq]
    intro n hn raw hraw
    have hlt : s.ticks + 1 ≤ n := hn
    unfold Table.insert at hraw
    split at hraw
    · exact h n (by omega) raw hraw
    · rcases List.mem_append.mp hraw with hraw | hraw
      · exact h n (by omega) raw hraw
      · cases List.mem_singleton.mp hraw
        intro hsame
        have hticks := hinj (hid.symm.trans hsame)
        omega
  | some existing =>
    obtain ⟨f, hf, -, -, heq⟩ := upsertRawJob_of_some host hash hfind
    rw [heq]
    intro n hn raw hraw
    have hlt : s.ticks + 1 ≤ n := hn
    obtain ⟨raw₀, hraw₀, rfl⟩ := (Table.mem_modify _ _ _ hf).mp hraw
    have hid : (if raw₀.id = existing.id then f raw₀ else raw₀).id = raw₀.id := by
      split
      · exact hf raw₀
      · rfl
    rw [hid]
    exact h n (by omega) raw₀ hraw₀

/-- A raw job is stored under an identity by a run. -/
def JobTables.StoredBy (db : JobTables) (runId : String) (identity : String × String) : Prop :=
  ∃ raw, db.findRawJob identity = some raw ∧ raw.scrapeRunId = runId

/-- An upsert stores its job. -/
theorem storedBy_upsertRawJob_self {host : Host} (hash : StableHash) (input : RawJobInput)
    {s : JobSession} (h : FreshIds host s) :
    (upsertRawJob host hash input s).2.tables.StoredBy input.scrapeRunId input.identity := by
  unfold JobTables.StoredBy
  cases hfind : s.tables.findRawJob input.identity with
  | none =>
    obtain ⟨row, hid, hidentity, hrun, heq⟩ := upsertRawJob_of_none host hash hfind
    have hnew : s.tables.rawJobs.find? row.id = none := by
      rw [Table.find?_eq_none_iff, hid]
      intro hmem
      obtain ⟨raw, hraw, hsame⟩ := List.mem_map.mp hmem
      exact h s.ticks (Nat.le_refl _) raw hraw hsame
    rw [heq]
    unfold JobTables.findRawJob at hfind ⊢
    refine ⟨row, ?_, hrun⟩
    dsimp only
    rw [Table.rows_insert _ hnew, List.find?_append, hfind]
    simp [hidentity]
  | some existing =>
    obtain ⟨f, hf, hidentity, hrun, heq⟩ := upsertRawJob_of_some host hash hfind
    rw [heq]
    unfold JobTables.findRawJob at hfind ⊢
    refine ⟨f existing, ?_, hrun existing⟩
    dsimp only
    rw [Table.rows_find?_modify _ _ _ _ fun raw => by rw [hidentity], hfind, Option.map_some,
      if_pos rfl]

/-- A job the run has stored stays stored under the upserts of the run. -/
theorem storedBy_upsertRawJob (host : Host) (hash : StableHash) {input : RawJobInput}
    {s : JobSession} {identity : String × String}
    (h : s.tables.StoredBy input.scrapeRunId identity) :
    (upsertRawJob host hash input s).2.tables.StoredBy input.scrapeRunId identity := by
  obtain ⟨raw, hraw, hrun⟩ := h
  unfold JobTables.StoredBy
  cases hfind : s.tables.findRawJob input.identity with
  | none =>
    obtain ⟨row, -, -, -, heq⟩ := upsertRawJob_of_none host hash hfind
    rw [heq]
    exact ⟨raw, Table.rows_find?_insert hraw row, hrun⟩
  | some existing =>
    obtain ⟨f, hf, hidentity, hrun', heq⟩ := upsertRawJob_of_some host hash hfind
    rw [heq]
    unfold JobTables.findRawJob at hraw ⊢
    refine ⟨if raw.id = existing.id then f raw else raw, ?_, ?_⟩
    · dsimp only
      rw [Table.rows_find?_modify _ _ _ _ fun raw => by rw [hidentity], hraw, Option.map_some]
    · split
      · exact hrun' raw
      · exact hrun

/-- A normalized write leaves the row of every other identity alone. -/
theorem findNormalizedJob_upsertNormalizedJob_of_ne (host : Host) (isoformat : Time → String)
    {job : CanonicalJobSchema} (rawJobId : Option String) (s : JobSession)
    {identity : String × String} (h : job.identity ≠ identity) :
    (upsertNormalizedJob host isoformat job rawJobId s).2.tables.findNormalizedJob identity
      = s.tables.findNormalizedJob identity := by
  unfold upsertNormalizedJob
  split
  · unfold JobTables.findNormalizedJob Table.insert
    dsimp only
    split
    · rfl
    · have hnew : (newNormalizedJob isoformat (host.newId s.ticks) job rawJobId).identity
          ≠ identity := h
      rw [List.find?_append, List.find?_singleton, decide_eq_false hnew]
      simp
  · next existing hfind =>
    have hmem : existing ∈ s.tables.normalizedJobs.rows := List.mem_of_find?_eq_some hfind
    have hexisting : existing.identity = job.identity := by simpa using List.find?_some hfind
    unfold JobTables.findNormalizedJob
    dsimp only
    rw [Table.rows_find?_modify _ _ _ _ fun row => by rw [NormalizedJob.rewrite_identity]]
    cases hrow : s.tables.normalizedJobs.rows.find? fun row => row.identity = identity with
    | none => rfl
    | some row =>
      have hrowmem := List.mem_of_find?_eq_some hrow
      have hrowid : row.identity = identity := by simpa using List.find?_some hrow
      have hne : row.id ≠ existing.id := by
        intro hid
        have heq := List.inj_on_of_nodup_map s.tables.normalizedJobs.unique hrowmem hmem hid
        exact h (hexisting.symm.trans (heq ▸ hrowid))
      rw [Option.map_some, if_neg hne]

/-- The ids to come are those of no normalized row. -/
def FreshRowIds (host : Host) (rows : NormalizedJobs) (ticks : ℕ) : Prop :=
  ∀ n, ticks ≤ n → ∀ row ∈ rows.rows, row.id ≠ host.newId n

theorem FreshRowIds.mono {host : Host} {rows : NormalizedJobs} {ticks ticks' : ℕ}
    (h : FreshRowIds host rows ticks) (hle : ticks ≤ ticks') : FreshRowIds host rows ticks' :=
  fun n hn => h n (hle.trans hn)

/-- A normalized write is found afterwards: writing the same job again would change nothing. -/
theorem findNormalizedJob_upsertNormalizedJob_self {host : Host} (isoformat : Time → String)
    (job : CanonicalJobSchema) (rawJobId : Option String) {s : JobSession}
    (hfresh : FreshRowIds host s.tables.normalizedJobs s.ticks) :
    ∃ row, (upsertNormalizedJob host isoformat job rawJobId s).2.tables.findNormalizedJob
        job.identity = some row ∧ row.rewrite isoformat job rawJobId = row := by
  unfold upsertNormalizedJob
  cases hfind : s.tables.findNormalizedJob job.identity with
  | none =>
    have hnew : s.tables.normalizedJobs.find?
        (newNormalizedJob isoformat (host.newId s.ticks) job rawJobId).id = none := by
      rw [Table.find?_eq_none_iff]
      intro hmem
      obtain ⟨row, hrow, hid⟩ := List.mem_map.mp hmem
      exact hfresh s.ticks (Nat.le_refl _) row hrow hid
    refine ⟨newNormalizedJob isoformat (host.newId s.ticks) job rawJobId, ?_, rfl⟩
    unfold JobTables.findNormalizedJob at hfind ⊢
    dsimp only
    have hidentity : (newNormalizedJob isoformat (host.newId s.ticks) job rawJobId).identity
        = job.identity := rfl
    rw [Table.rows_insert _ hnew, List.find?_append, hfind]
    simp [hidentity]
  | some existing =>
    refine ⟨existing.rewrite isoformat job rawJobId, ?_, rfl⟩
    unfold JobTables.findNormalizedJob at hfind ⊢
    dsimp only
    rw [Table.rows_find?_modify _ _ _ _ fun row => by rw [NormalizedJob.rewrite_identity], hfind,
      Option.map_some, if_pos rfl]

/-- A new row takes an id, and the ids after it are still to come. -/
theorem freshRowIds_upsertNormalizedJob {host : Host} (hinj : Function.Injective host.newId)
    (isoformat : Time → String) (job : CanonicalJobSchema) (rawJobId : Option String)
    {s : JobSession} (hfresh : FreshRowIds host s.tables.normalizedJobs s.ticks) :
    FreshRowIds host (upsertNormalizedJob host isoformat job rawJobId s).2.tables.normalizedJobs
        (upsertNormalizedJob host isoformat job rawJobId s).2.ticks ∧
      s.ticks ≤ (upsertNormalizedJob host isoformat job rawJobId s).2.ticks := by
  unfold upsertNormalizedJob
  split
  · refine ⟨fun n hn row hrow => ?_, Nat.le_succ _⟩
    have hlt : s.ticks + 1 ≤ n := hn
    unfold Table.insert at hrow
    dsimp only at hrow
    split at hrow
    · exact hfresh n (by omega) row hrow
    · rcases List.mem_append.mp hrow with hrow | hrow
      · exact hfresh n (by omega) row hrow
      · cases List.mem_singleton.mp hrow
        intro hsame
        have hticks := hinj hsame
        omega
  · next existing _ =>
    refine ⟨fun n hn row hrow => ?_, Nat.le_refl _⟩
    obtain ⟨row₀, hrow₀, rfl⟩ := (Table.mem_modify _ _ _
      (NormalizedJob.rewrite_id isoformat job rawJobId)).mp hrow
    have hid : (if row₀.id = existing.id then row₀.rewrite isoformat job rawJobId else row₀).id = row₀.id := by
      split <;> rfl
    rw [hid]
    exact hfresh n hn row₀ hrow₀

end Bisakerja
