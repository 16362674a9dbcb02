import BisakerjaScraper.Persistence.Repositories
import BisakerjaScraper.Schemes.Table

/-! What the job tables refer to.

    Under one source platform and external id stands at most one raw row and one normalized row;
    every normalized row points at a raw row, and the staging rows of a job name the job. Both
    upserts keep this, whatever ids they are handed, and no row ever goes or changes its id. -/

namespace Bisakerja
open Schemes

/-- What an upsert may not touch of a raw row. -/
def RawJob.stamp (raw : RawJob) : String × String × String := (raw.id, raw.identity)

/-- What nothing may touch of a normalized row. -/
def NormalizedJob.stamp (job : NormalizedJob) : String × String × String := (job.id, job.identity)

/-- The row points at one of the raw rows, and its staging rows name it. -/
structure NormalizedJob.Anchored (rawJobs : RawJobs) (job : NormalizedJob) : Prop where
  rawJob : job.rawJobId ∈ rawJobs.stamps (some ∘ RawJob.id)
  skills : ∀ row ∈ job.skillsStaging, row.normalizedJobId = job.id
  requirements : ∀ row ∈ job.requirementsStaging, row.normalizedJobId = job.id

namespace JobTables

/-- The constraints of the job tables. -/
structure Intact (db : JobTables) : Prop where
  rawIdentities : (db.rawJobs.stamps RawJob.identity).Nodup
  jobIdentities : (db.normalizedJobs.stamps NormalizedJob.identity).Nodup
  anchored : db.normalizedJobs.All (NormalizedJob.Anchored db.rawJobs)

/-- No row has gone, none has a new id, source platform or external id. -/
structure Grows (db db' : JobTables) : Prop where
  rawJobs : db.rawJobs.Grows RawJob.stamp db'.rawJobs
  normalizedJobs : db.normalizedJobs.Grows NormalizedJob.stamp db'.normalizedJobs

variable {db db' db'' : JobTables}

theorem Grows.refl (db : JobTables) : db.Grows db := ⟨.refl _ _, .refl _ _⟩

theorem Grows.trans (h : db.Grows db') (h' : db'.Grows db'') : db.Grows db'' :=
  ⟨h.rawJobs.trans h'.rawJobs, h.normalizedJobs.trans h'.normalizedJobs⟩

theorem findNormalizedJob_eq_none_iff {identity : String × String} :
    db.findNormalizedJob identity = none ↔
      identity ∉ db.normalizedJobs.stamps NormalizedJob.identity := by
  unfold findNormalizedJob Table.stamps
  simp

theorem findRawJob_eq_none_iff {identity : String × String} :
    db.findRawJob identity = none ↔ identity ∉ db.rawJobs.stamps RawJob.identity := by
  unfold findRawJob Table.stamps
  simp

end JobTables

/-- A raw id that is there stays there. -/
theorem rawId_of_grows {rawJobs rawJobs' : RawJobs} (h : rawJobs.Grows RawJob.stamp rawJobs')
    {id : Option String} (hid : id ∈ rawJobs.stamps (some ∘ RawJob.id)) :
    id ∈ rawJobs'.stamps (some ∘ RawJob.id) :=
  (h.map fun stamp : String × String × String => some stamp.1).subset hid

theorem NormalizedJob.Anchored.mono {rawJobs rawJobs' : RawJobs} {job : NormalizedJob}
    (h : job.Anchored rawJobs) (hgrows : rawJobs.Grows RawJob.stamp rawJobs') :
    job.Anchored rawJobs' :=
  ⟨rawId_of_grows hgrows h.rawJob, h.skills, h.requirements⟩

/-! ### The upserts -/

variable {s : JobSession}

/-- The upsert of a raw job keeps the constraints, and the id it hands back is that of a raw row. -/
theorem intact_upsertRawJob (host : Host) (hash : StableHash) (input : RawJobInput)
    (h : s.tables.Intact) :
    (upsertRawJob host hash input s).2.tables.Intact ∧
      s.tables.Grows (upsertRawJob host hash input s).2.tables ∧
      some (upsertRawJob host hash input s).1.1
        ∈ (upsertRawJob host hash input s).2.tables.rawJobs.stamps (some ∘ RawJob.id) := by
  unfold upsertRawJob
  cases hfind : s.tables.findRawJob input.identity with
  | none =>
    dsimp only
    set raw : RawJob := _
    have hgrows : s.tables.rawJobs.Grows RawJob.stamp (s.tables.rawJobs.insert raw) :=
      Table.grows_insert _ _ _
    refine ⟨⟨?_, h.jobIdentities, h.anchored.mono fun job _ hjob => hjob.mono hgrows⟩,
      ⟨hgrows, .refl _ _⟩, ?_⟩
    · exact Table.nodup_insert h.rawIdentities (JobTables.findRawJob_eq_none_iff.mp hfind)
    · obtain ⟨row, hrow, hid⟩ := List.mem_map.mp (Table.key_mem_insert s.tables.rawJobs raw)
      exact List.mem_map.mpr ⟨row, hrow, congrArg some hid⟩
  | some existing =>
    dsimp only
    set f := RawJob.rewrite input (hash.digest (.dict input.rawPayload))
      (input.scrapedAt.getD (host.utcNow s.ticks))
    have hid : ∀ raw, (f raw).id = raw.id := fun _ => rfl
    have hgrows : s.tables.rawJobs.Grows RawJob.stamp (s.tables.rawJobs.modify existing.id f hid) :=
      Table.grows_modify _ _ _ _ fun _ => rfl
    refine ⟨⟨?_, h.jobIdentities, h.anchored.mono fun job _ hjob => hjob.mono hgrows⟩,
      ⟨hgrows, .refl _ _⟩, ?_⟩
    · exact Table.nodup_modify h.rawIdentities hid fun _ => rfl
    · have hmem : existing ∈ s.tables.rawJobs.rows := List.mem_of_find?_eq_some hfind
      exact rawId_of_grows hgrows (Table.stamp_mem hmem)

/-- The upsert of a job that points at a raw row keeps the constraints. -/
theorem intact_upsertNormalizedJob (host : Host) (isoformat : Time → String)
    (job : CanonicalJobSchema) {rawJobId : Option String} (h : s.tables.Intact)
    (hraw : rawJobId ∈ s.tables.rawJobs.stamps (some ∘ RawJob.id)) :
    (upsertNormalizedJob host isoformat job rawJobId s).2.tables.Intact ∧
      s.tables.Grows (upsertNormalizedJob host isoformat job rawJobId s).2.tables := by
  unfold upsertNormalizedJob
  cases hfind : s.tables.findNormalizedJob job.identity with
  | none =>
    dsimp only
    refine ⟨⟨h.rawIdentities, ?_, ?_⟩, ⟨.refl _ _, Table.grows_insert _ _ _⟩⟩
    · exact Table.nodup_insert h.jobIdentities (JobTables.findNormalizedJob_eq_none_iff.mp hfind)
    · exact Table.all_insert h.anchored
        ⟨hraw, fun _ hrow => absurd hrow List.not_mem_nil, fun _ hrow => absurd hrow List.not_mem_nil⟩
  | some existing =>
    dsimp only
    have hid := NormalizedJob.rewrite_id isoformat job rawJobId
    refine ⟨⟨h.rawIdentities, ?_, ?_⟩, ⟨.refl _ _, Table.grows_modify _ _ _ hid fun _ => rfl⟩⟩
    · exact Table.nodup_modify h.jobIdentities hid fun _ => rfl
    · exact Table.all_modify h.anchored hid fun row _ _ hrow =>
        ⟨hraw, hrow.skills, hrow.requirements⟩

end Bisakerja
