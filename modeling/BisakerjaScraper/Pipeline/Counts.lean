import Mathlib.Data.List.Dedup
import Mathlib.Data.List.Perm.Subperm
import BisakerjaScraper.Pipeline.Plan
import BisakerjaScraper.Pipeline.RunStatus
import BisakerjaScraper.Pipeline.SourceRun
import BisakerjaScraper.Schemes.Pages

/-! What the counts of a source say about the database.

    A job is counted when it is written, and a rollback takes the write back but not the count. So
    the count of a normalized source is right exactly when no rollback finds a write uncommitted,
    and that of a scraped source when nothing was written before it failed. -/

namespace Bisakerja
open Schemes

/-- The ids of the raw jobs of some writes. -/
def writtenIds (writes : List (RawJob × CanonicalJobSchema)) : List String :=
  writes.map fun write => write.1.id

namespace NormalizeStage

variable {stage : NormalizeStage} {call : ℕ}

/-- A raw job is stored as it was mapped or asked about, not both. -/
theorem plannedItem_of_plannedMapped {raw : RawJob} {write : RawJob × CanonicalJobSchema}
    (h : stage.plannedMapped raw = some write) : stage.plannedItem raw = none := by
  unfold plannedMapped at h
  split at h
  · next hmapped hprompt =>
    unfold plannedItem
    rw [hmapped, hprompt]
  · cases h

/-- The raw jobs that are stored as mapped and those that are asked about are different ones. -/
theorem subperm_planned (rawBatch : List RawJob) :
    (writtenIds (rawBatch.filterMap stage.plannedMapped) ++
      (rawBatch.filterMap stage.plannedItem).map fun entry => entry.1.id).Subperm
        (rawBatch.map RawJob.id) := by
  unfold writtenIds
  induction rawBatch with
  | nil => exact .refl _
  | cons raw rest ih =>
    cases hmapped : stage.plannedMapped raw with
    | some write =>
      rw [List.filterMap_cons_some hmapped,
        List.filterMap_cons_none (plannedItem_of_plannedMapped hmapped), List.map_cons,
        List.map_cons, plannedMapped_fst hmapped, List.cons_append]
      exact List.subperm_cons raw.id |>.mpr ih
    | none =>
      cases hitem : stage.plannedItem raw with
      | none =>
        rw [List.filterMap_cons_none hmapped, List.filterMap_cons_none hitem, List.map_cons]
        exact ih.cons_right raw.id
      | some entry =>
        rw [List.filterMap_cons_none hmapped, List.filterMap_cons_some hitem, List.map_cons,
          List.map_cons, plannedItem_fst hitem]
        exact (List.perm_middle.subperm).trans (List.subperm_cons raw.id |>.mpr ih)

theorem sublist_plannedSingles (items : PromptItems) (call : ℕ) :
    (writtenIds (stage.plannedSingles items call)).Sublist (items.map fun entry => entry.1.id) := by
  unfold writtenIds
  induction items generalizing call with
  | nil => exact .refl _
  | cons entry rest ih =>
    rw [plannedSingles, List.map_append, List.map_cons]
    cases (stage.singleAnswer entry.1 call).toOption with
    | none => exact (ih (call + 1)).cons _
    | some job => exact (ih (call + 1)).cons_cons _

/-- The validated entries name the items, in order. -/
theorem itemIds_of_batchAnswer {items : PromptItems} {results : List AINormalizationBatchItemResult}
    (h : stage.batchAnswer items call = .ok results) :
    results.map (fun result => result.itemId.1) = items.map fun entry => entry.2.itemId := by
  unfold batchAnswer at h
  split at h
  · cases h
  · obtain ⟨output, -, hvalidated⟩ := ok_bind_iff.mp h
    obtain ⟨answer, -, hids, hcompleted, -⟩ :=
      NormalizationText.validateAiNormalizationBatchOutput_ok (ok_mapError_iff.mp hvalidated)
    have hsame : results.map (fun result => result.itemId.1)
        = answer.1.map (fun result => result.itemId.1) := by
      rw [← List.forall₂_eq_eq_eq, List.forall₂_map_left_iff, List.forall₂_map_right_iff]
      exact hcompleted.flip.imp fun _ _ h => congrArg Subtype.val h.itemId
    rw [hsame, hids]
    simp [batchPrompt]

theorem sublist_resultWrites {items : PromptItems}
    (hitems : ∀ entry ∈ items, entry.2.itemId = entry.1.id)
    (results : List AINormalizationBatchItemResult) :
    (writtenIds (results.filterMap (resultWrite items))).Sublist
      (results.map fun result => result.itemId.1) := by
  unfold writtenIds
  induction results with
  | nil => exact .refl _
  | cons result rest ih =>
    cases hwrite : resultWrite items result with
    | none =>
      rw [List.filterMap_cons_none hwrite]
      exact ih.cons _
    | some write =>
      rw [List.filterMap_cons_some hwrite]
      have hid : write.1.id = result.itemId.1 := by
        unfold resultWrite at hwrite
        obtain ⟨entry, hfind, hjob⟩ := Option.bind_eq_some_iff.mp hwrite
        obtain ⟨job, -, rfl⟩ := Option.map_eq_some_iff.mp hjob
        rw [← hitems entry (List.mem_of_find?_eq_some hfind)]
        simpa using List.find?_some hfind
      rw [List.map_cons, List.map_cons, hid]
      exact ih.cons_cons _

theorem subperm_plannedAnswers {items : PromptItems}
    (hitems : ∀ entry ∈ items, entry.2.itemId = entry.1.id) (call : ℕ) :
    (writtenIds (stage.plannedAnswers items call)).Sublist (items.map fun entry => entry.1.id) := by
  unfold plannedAnswers
  split
  · cases hanswer : stage.batchAnswer items call with
    | error exc => exact List.nil_sublist _
    | ok results =>
      have hsublist := sublist_resultWrites hitems results
      rw [itemIds_of_batchAnswer hanswer, List.map_congr_left hitems] at hsublist
      exact hsublist
  · exact sublist_plannedSingles items call

theorem subperm_plannedBatch (rawBatch : List RawJob) (call : ℕ) :
    (writtenIds (stage.plannedBatch rawBatch call)).Subperm (rawBatch.map RawJob.id) := by
  refine List.Subperm.trans ?_ (@subperm_planned stage rawBatch)
  unfold plannedBatch writtenIds
  rw [List.map_append]
  refine List.Subperm.append (.refl _) (List.Sublist.subperm ?_)
  split
  · exact List.nil_sublist _
  · refine subperm_plannedAnswers (fun entry hentry => ?_) call
    obtain ⟨raw, -, hplanned⟩ := List.mem_filterMap.mp hentry
    rw [plannedItem_fst hplanned]
    exact itemId_of_plannedItem hplanned

theorem subperm_plannedBatches (batches : List (List RawJob)) (call : ℕ) :
    (writtenIds (stage.plannedBatches batches call)).Subperm (batches.flatten.map RawJob.id) := by
  induction batches generalizing call with
  | nil => exact .refl _
  | cons rawBatch rest ih =>
    unfold writtenIds at ih ⊢
    rw [plannedBatches, List.map_append, List.flatten_cons, List.map_append]
    exact (subperm_plannedBatch rawBatch call).append (ih _)

/-- The chunks of a list make up the list. -/
theorem flatten_chunked {α : Type} {size : ℕ} (hsize : 0 < size) (items : List α) :
    (chunked size items).flatten = items :=
  flatten_all_pages hsize items

/-- Each raw job is planned at most once. -/
theorem subperm_plannedJobs (rawJobs : List RawJob) (call : ℕ) :
    (writtenIds (stage.plannedJobs rawJobs call)).Subperm (rawJobs.map RawJob.id) := by
  have h := @subperm_plannedBatches stage (chunked stage.config.aiNormalizationBatchSize rawJobs)
    call
  rwa [flatten_chunked stage.config.batchSize_pos] at h

end NormalizeStage

/-! ### A normalized source -/

/-- A source that has counted the jobs it has written, each of another of these raw jobs. -/
structure Tally (base : ℕ) (rawJobs : List RawJob) (s : StageSession) : Prop where
  persisted : s.result.counts.persisted = base + s.stored.length
  ids : (writtenIds s.stored).Subperm (rawJobs.map RawJob.id)

/-- The session between the write of a mapped job and its count. -/
structure MappedUncounted (base : ℕ) (done : List RawJob) (raw : RawJob) (s : StageSession) :
    Prop where
  persisted : s.result.counts.persisted + 1 = base + s.stored.length
  ids : (writtenIds s.stored).Subperm ((done ++ [raw]).map RawJob.id)

theorem Tally.kept {q : Bool} (base : ℕ) (rawJobs : List RawJob) : KeptByQuiet q (Tally base rawJobs) := by
  intro s s' hquiet hs
  refine ⟨?_, ?_⟩
  · rw [hquiet.persisted, NormalizeStage.stored_of_quiet hquiet]
    exact hs.persisted
  · rw [NormalizeStage.stored_of_quiet hquiet]
    exact hs.ids

theorem MappedUncounted.kept {q : Bool} (base : ℕ) (done : List RawJob) (raw : RawJob) :
    KeptByQuiet q (MappedUncounted base done raw) := by
  intro s s' hquiet hs
  refine ⟨?_, ?_⟩
  · rw [hquiet.persisted, NormalizeStage.stored_of_quiet hquiet]
    exact hs.persisted
  · rw [NormalizeStage.stored_of_quiet hquiet]
    exact hs.ids

theorem Tally.more {base : ℕ} {done : List RawJob} {s : StageSession} (h : Tally base done s)
    (raw : RawJob) : Tally base (done ++ [raw]) s := by
  refine ⟨h.persisted, h.ids.trans ?_⟩
  rw [List.map_append]
  exact (List.sublist_append_left _ _).subperm

namespace PipelineOrchestrator

variable {o : PipelineOrchestrator} {runId : String} {s s' : StageSession}

/-- A mapped job that is stored is counted, and one that fails is neither. -/
theorem tally_normalizeMapped (base : ℕ) (done : List RawJob) (raw : RawJob)
    {E : PyException → StageSession → Prop} :
    Triple (Tally base done) (o.normalizeMapped raw) (fun _ => Tally base (done ++ [raw])) E := by
  have hupsert : ∀ mapped, Triple (Tally base done) (upsertNormalizedJobWithRetry o.env raw mapped)
      (fun _ => MappedUncounted base done raw) (fun _ => Tally base done) := fun mapped =>
    (Tally.kept base done).dbOperationWithRetry fun s hs => by
      have hstored := stored_upsert o.env raw mapped s
      refine ⟨?_, ?_⟩
      · rw [hstored, List.length_append, List.length_singleton]
        exact congrArg (· + 1) hs.persisted
      · rw [hstored]
        unfold writtenIds
        rw [List.map_append, List.map_append]
        exact hs.ids.append (.refl _)
  have hstore : Triple (Tally base done) (o.storeMapped raw)
      (fun _ => Tally base (done ++ [raw])) (fun _ => Tally base done) :=
    (Triple.ofExcept (o.source.mapRawJob raw)).bind fun mapped => .of_fact fun _ =>
      (hupsert mapped).bind fun _ =>
        ((MappedUncounted.kept base done raw).resolve o.toNormalizeStage raw).bind fun _ =>
          .change fun s hs => ⟨hs.persisted, hs.ids⟩
  refine hstore.attempt.bind fun result => ?_
  cases result with
  | ok _ => exact .pure fun _ hs => hs
  | error exc =>
    exact ((Tally.kept base done).recordNormalizeFailure o.toNormalizeStage raw exc).conseq
      (fun _ => id) (fun _ _ hs => hs.more raw) fun _ _ => id

theorem tally_normalizeEligible (eligible : List RawJob)
    (hstored : s.stored = []) (hrun : o.normalizeEligible eligible s = (.ok ⟨⟩, s')) :
    Tally s.result.counts.persisted eligible s' := by
  unfold normalizeEligible at hrun
  split at hrun
  · have hstage : Triple (NormalizeStage.At s.result.counts.persisted s.calls [])
        (o.normalizeSourceWithAiBatch eligible) _ _ :=
      NormalizeStage.at_normalizeSourceWithAiBatch eligible
    have hend := hstage s ⟨rfl, hstored, by simp⟩
    rw [hrun] at hend
    obtain ⟨call', hat⟩ := hend
    have hpersisted := hat.persisted
    rw [← hat.stored] at hpersisted
    refine ⟨by omega, ?_⟩
    rw [hat.stored]
    exact NormalizeStage.subperm_plannedJobs eligible s.calls
  · have hloop := Triple.forEach (f := o.normalizeMapped)
      (I := fun done => Tally s.result.counts.persisted done) (E := fun _ _ => False) eligible
      fun done raw _ _ => tally_normalizeMapped _ done raw
    have hend := hloop s ⟨by rw [hstored]; rfl, by rw [hstored]; exact .refl _⟩
    rw [hrun] at hend
    exact hend

theorem tally_normalizeSource (hs : o.Fresh s) (h : o.normalizeSource runId s = (.ok ⟨⟩, s')) :
    Tally 0 (o.scope runId s.tables) s' := by
  obtain ⟨eligible, s₁, s₂, hgated, hrun, rfl⟩ := normalizeSource_ok h
  have hnone : s.stored = [] := by
    unfold StageSession.stored
    rw [hs.history]
    rfl
  have htally := tally_normalizeEligible eligible (hgated.decided.stored.trans hnone) hrun
  rw [hgated.persisted, hs.persisted] at htally
  have hstored : (close s₂).stored = s₂.stored := by
    change (txWrites (s₂.history ++ [.committed])).filterMap StageWrite.stored? = _
    rw [txWrites_append]
    exact congrArg _ (List.append_nil _)
  refine ⟨?_, ?_⟩
  · rw [hstored]
    exact htally.persisted
  · rw [hstored]
    exact htally.ids.trans (hgated.sublist.map _).subperm

end PipelineOrchestrator

/-- The raw jobs of a list whose write is in the committed state. -/
def StageSession.committedRawJobs (s : StageSession) (rawJobs : List RawJob) : List RawJob :=
  rawJobs.filter fun raw => raw.id ∈ writtenIds s.durable

/-- The history of a session as far as jobs are concerned. -/
def StageSession.jobHistory (s : StageSession) : List (TxEvent (RawJob × CanonicalJobSchema)) :=
  txSelect StageWrite.stored? s.history

/-- No rollback finds a job that is written and not committed. -/
def StageSession.LosesNoJob (s : StageSession) : Prop := TxView.LosesNothing {} s.jobHistory

theorem StageSession.replay_jobHistory (s : StageSession) :
    TxView.replay {} s.jobHistory
      = ⟨s.durable, s.view.pending.filterMap StageWrite.stored?⟩ :=
  TxView.replay_select (v := {}) StageWrite.stored? s.history

/-- With nothing left uncommitted, as many writes are durable as were made exactly when none was
    lost. -/
theorem StageSession.length_durable_iff {s : StageSession} (hpending : s.view.pending = []) :
    s.durable.length = s.stored.length ↔ s.LosesNoJob := by
  have hall := TxView.length_all_replay_iff (v := {}) s.jobHistory
  rw [s.replay_jobHistory, hpending, jobHistory, txWrites_select] at hall
  unfold LosesNoJob jobHistory
  rw [← hall]
  simp [TxView.all, stored]

theorem StageSession.sublist_durable (s : StageSession) : s.durable.Sublist s.stored := by
  have h := TxView.replay_sublist (v := ({} : TxView (RawJob × CanonicalJobSchema))) s.jobHistory
  rw [s.replay_jobHistory, jobHistory, txWrites_select] at h
  exact (List.sublist_append_left _ _).trans h

/-- The committed raw jobs are as many as the durable writes, when each raw job is written once. -/
theorem length_committedRawJobs {base : ℕ} {rawJobs : List RawJob} {s : StageSession}
    (hids : (rawJobs.map RawJob.id).Nodup) (htally : Tally base rawJobs s) :
    (s.committedRawJobs rawJobs).length = s.durable.length := by
  have hsub : (writtenIds s.durable).Subperm (rawJobs.map RawJob.id) :=
    (s.sublist_durable.map _).subperm.trans htally.ids
  have hperm : ((s.committedRawJobs rawJobs).map RawJob.id).Perm (writtenIds s.durable) := by
    obtain ⟨_, hperm, hsublist⟩ := hsub
    have hnodup : (writtenIds s.durable).Nodup := hperm.nodup_iff.mp (hids.sublist hsublist)
    unfold StageSession.committedRawJobs
    refine (List.perm_ext_iff_of_nodup (hids.sublist (List.filter_sublist.map _)) hnodup).mpr
      fun id => ?_
    constructor
    · intro hmem
      obtain ⟨raw, hraw, rfl⟩ := List.mem_map.mp hmem
      simpa using (List.mem_filter.mp hraw).2
    · intro hmem
      obtain ⟨raw, hraw, rfl⟩ := List.mem_map.mp (hsublist.subset (hperm.mem_iff.mpr hmem))
      exact List.mem_map.mpr ⟨raw, List.mem_filter.mpr ⟨hraw, by simpa using hmem⟩, rfl⟩
  have hlength := hperm.length_eq
  unfold writtenIds at hlength
  rwa [List.length_map, List.length_map] at hlength

/-- The count of a normalized source is the number of raw jobs whose write is committed exactly when
    no rollback has found a job written and not committed. -/
theorem PipelineOrchestrator.persisted_eq_committed_iff {o : PipelineOrchestrator} {runId : String}
    {s s' : StageSession} (hs : o.Fresh s) (h : o.normalizeSource runId s = (.ok ⟨⟩, s')) :
    s'.result.counts.persisted = (s'.committedRawJobs (o.scope runId s.tables)).length ↔
      s'.LosesNoJob := by
  have htally := tally_normalizeSource hs h
  have hpending : s'.view.pending = [] := by
    obtain ⟨_, _, s₂, -, -, rfl⟩ := normalizeSource_ok h
    exact pending_close s₂
  have hids : ((o.scope runId s.tables).map RawJob.id).Nodup :=
    NormalizeStage.nodup_normalizeScope _ _ _
  rw [length_committedRawJobs hids htally, ← StageSession.length_durable_iff hpending, htally.persisted, Nat.zero_add]
  exact eq_comm

/-! ### A scraped source -/

/-- The identities of the raw rows a source has committed. -/
def ScrapeSession.committedRows (s : ScrapeSession) : List (String × String) :=
  (TxView.replay {} s.history).durable.dedup

/-- The rows of some jobs written, none committed, and each counted. -/
structure Wrote (written : List LiveRawJob) (s : ScrapeSession) : Prop where
  history : s.history = written.map fun job => .wrote job.identity
  persisted : s.result.counts.persisted = written.length

namespace ScrapeSource

variable {source : ScrapeSource} {env : ScrapeEnv}

theorem replay_wrote (written : List LiveRawJob) :
    TxView.replay {} (written.map fun job => TxEvent.wrote job.identity)
      = ⟨[], written.map LiveRawJob.identity⟩ := by
  induction written using List.reverseRecOn with
  | nil => rfl
  | append_singleton written job ih =>
    rw [List.map_append, TxView.replay_append, ih, List.map_append]
    rfl

/-- Why a source stops storing: the row after the written ones, or the commit after all of them. -/
def StopsAfter (source : ScrapeSource) (written rest : List LiveRawJob) (exc : PyException) : Prop :=
  (∀ job ∈ written, source.writeError job.externalId = none) ∧
    match rest with
    | [] => source.commitError = some exc
    | job :: _ => source.writeError job.externalId = some exc

theorem wrote_storeJob {written : List LiveRawJob} (job : LiveRawJob) :
    Triple (fun s => Wrote written s ∧ ∀ job ∈ written, source.writeError job.externalId = none)
      (source.storeJob env job)
      (fun _ s => Wrote (written ++ [job]) s ∧
        ∀ other ∈ written ++ [job], source.writeError other.externalId = none)
      (fun exc s => (Wrote written s ∧ ∀ job ∈ written, source.writeError job.externalId = none) ∧
        source.writeError job.externalId = some exc) := by
  refine (triple_raiseIfSome _).bind fun _ => .change ?_
  rintro s ⟨⟨hs, haccepted⟩, hnone⟩
  refine ⟨⟨?_, ?_⟩, fun other hother => ?_⟩
  · change s.history ++ [_] = _
    rw [hs.history, List.map_append]
    rfl
  · change s.result.counts.persisted + 1 = _
    rw [hs.persisted, List.length_append, List.length_singleton]
  · rcases List.mem_append.mp hother with hother | hother
    · exact haccepted other hother
    · rw [List.mem_singleton.mp hother, hnone]

/-- Storing commits every row, or stops after some of them. -/
theorem wrote_storeAll (ordered : List LiveRawJob) (fetched : PaginatedFetchResult) :
    Triple (Wrote []) (source.storeAll env ordered fetched)
      (fun _ s => source.storeError ordered = none ∧ ∃ s', Wrote ordered s' ∧
        s.history = s'.history ++ [.committed] ∧
          s.result.counts.persisted = s'.result.counts.persisted)
      (fun exc s => ∃ written rest, ordered = written ++ rest ∧ Wrote written s ∧
        source.StopsAfter written rest exc) := by
  have hloop := Triple.forEach (f := source.storeJob env)
    (I := fun written s =>
      Wrote written s ∧ ∀ job ∈ written, source.writeError job.externalId = none)
    (E := fun exc s => ∃ written rest, ordered = written ++ rest ∧ Wrote written s ∧
      source.StopsAfter written rest exc) ordered (by
        rintro written job rest rfl
        refine (wrote_storeJob job).weaken_error ?_
        rintro exc s ⟨⟨hs, haccepted⟩, hexc⟩
        exact ⟨written, job :: rest, rfl, hs, haccepted, hexc⟩)
  refine Triple.bind (.change fun s hs => ?_) fun _ => hloop.bind fun _ =>
    ((triple_raiseIfSome _).weaken_error ?_).bind fun _ => .change ?_
  · refine ⟨⟨hs.history, ?_⟩, nofun⟩
    obtain ⟨-, hcounts⟩ := errors_fetchedResult ordered fetched s.result
    change (fetchedResult ordered fetched s.result).counts.persisted = _
    rw [hcounts]
    exact hs.persisted
  · rintro exc s ⟨⟨hs, haccepted⟩, hexc⟩
    exact ⟨ordered, [], (List.append_nil _).symm, hs, haccepted, hexc⟩
  · rintro s ⟨⟨hs, haccepted⟩, hcommit⟩
    refine ⟨?_, s, hs, rfl, rfl⟩
    unfold storeError
    rw [List.findSome?_eq_none_iff.mpr haccepted, hcommit]
    rfl

/-- A source that is committed fetched no identity twice, and one that fails on a row or on the
    commit has written no row before. -/
def CountsItsRows (source : ScrapeSource) (env : ScrapeEnv)
    (outcome : Except PyException PaginatedFetchResult) : Prop :=
  match outcome with
  | .error _ => True
  | .ok fetched =>
    match source.live.fetchRawJobs env.dates fetched with
    | .error _ => True
    | .ok jobs =>
      let ordered := orderFetchedRawJobs source.live.recencyMode jobs
      match source.storeError ordered with
      | none => (ordered.map LiveRawJob.identity).Nodup
      | some _ => ∀ job ∈ ordered.head?, source.writeError job.externalId ≠ none

theorem storeError_of_stopsAfter {written rest : List LiveRawJob} {exc : PyException}
    (h : source.StopsAfter written rest exc) : source.storeError (written ++ rest) = some exc := by
  obtain ⟨haccepted, hstop⟩ := h
  unfold storeError
  rw [List.findSome?_append, List.findSome?_eq_none_iff.mpr haccepted, Option.none_or]
  cases rest with
  | nil => exact hstop
  | cons job rest =>
    rw [List.findSome?_cons, show source.writeError job.externalId = some exc from hstop]
    rfl

/-- What a source has counted before it fails is right when that is nothing. -/
theorem head_of_stopsAfter {written rest : List LiveRawJob} {exc : PyException}
    (h : source.StopsAfter written rest exc) :
    (∀ job ∈ (written ++ rest).head?, source.writeError job.externalId ≠ none) ↔ written = [] := by
  obtain ⟨haccepted, hstop⟩ := h
  cases written with
  | nil =>
    refine iff_of_true (fun job hjob => ?_) rfl
    cases rest with
    | nil => cases hjob
    | cons first rest =>
      cases hjob
      rw [show source.writeError job.externalId = some exc from hstop]
      exact Option.some_ne_none exc
  | cons first written =>
    refine iff_of_false (fun hall => hall first rfl (haccepted first List.mem_cons_self)) ?_
    exact List.cons_ne_nil _ _

/-- The `try` block: every row is committed and counted once, or some were counted in vain. -/
theorem wrote_scrapeBody (outcome : Except PyException PaginatedFetchResult) :
    Triple (Wrote []) (source.scrapeBody env outcome)
      (fun _ s => s.result.counts.persisted = s.committedRows.length ↔
        source.CountsItsRows env outcome)
      (fun _ s => ∃ written, Wrote written s ∧
        (source.CountsItsRows env outcome ↔ written = [])) := by
  unfold CountsItsRows
  cases outcome with
  | error exc => exact fun s hs => ⟨[], hs, iff_of_true trivial rfl⟩
  | ok fetched =>
    cases hjobs : source.live.fetchRawJobs env.dates fetched with
    | error exc =>
      rw [scrapeBody_of_error hjobs]
      refine .raise fun s hs => ⟨[], hs, ?_⟩
      simp only [hjobs]
    | ok jobs =>
      rw [scrapeBody_of_ok hjobs]
      simp only [hjobs]
      refine (wrote_storeAll _ fetched).conseq (fun _ => id) ?_ ?_
      · rintro - s ⟨hnone, s', hwrote, hhistory, hpersisted⟩
        rw [hnone, hpersisted, hwrote.persisted]
        unfold ScrapeSession.committedRows
        rw [hhistory, hwrote.history, TxView.replay_append, replay_wrote]
        change _ = (List.map LiveRawJob.identity _).dedup.length ↔ _
        rw [← List.dedup_eq_self]
        refine ⟨fun hlength => ?_, fun hself => ?_⟩
        · refine (List.dedup_sublist _).eq_of_length ?_
          rw [← hlength, List.length_map]
        · rw [hself, List.length_map]
      · rintro exc s ⟨written, rest, hsplit, hwrote, hstop⟩
        refine ⟨written, hwrote, ?_⟩
        rw [hsplit, storeError_of_stopsAfter hstop]
        exact head_of_stopsAfter hstop

/-- The count of a scraped source is the number of raw rows it has committed exactly when it
    completed without meeting an identity twice, or failed before it wrote a row. -/
theorem persisted_eq_committed_iff {outcome : Except PyException PaginatedFetchResult}
    {start s' : ScrapeSession} (hhistory : start.history = [])
    (hpersisted : start.result.counts.persisted = 0)
    (h : source.scrapeSource env outcome start = (.ok ⟨⟩, s')) :
    s'.result.counts.persisted = s'.committedRows.length ↔ source.CountsItsRows env outcome := by
  have hrun : Triple (Wrote []) (source.scrapeSource env outcome)
      (fun _ s => s.result.counts.persisted = s.committedRows.length ↔
        source.CountsItsRows env outcome) (fun _ _ => True) := by
    refine (wrote_scrapeBody outcome).handle fun exc => ?_
    refine Triple.bind (Q := fun _ s => s.result.counts.persisted = s.committedRows.length ↔
      source.CountsItsRows env outcome) (.change ?_) fun _ =>
        (triple_raiseIfSome _).conseq (fun _ => id) (fun _ _ => And.left) fun _ _ _ => trivial
    rintro s ⟨written, hwrote, hiff⟩
    have hrows : (source.recordFailure exc s).committedRows = [] := by
      unfold ScrapeSession.committedRows
      change (TxView.replay {} (s.history ++ [.rolledBack])).durable.dedup = []
      rw [hwrote.history, TxView.replay_append, replay_wrote]
      rfl
    rw [hiff, hrows]
    change s.result.counts.persisted = 0 ↔ _
    rw [hwrote.persisted, List.length_eq_zero_iff]
  have hend := hrun start ⟨hhistory, hpersisted⟩
  rw [h] at hend
  exact hend

end ScrapeSource

/-- BUG: the counters are not part of the transaction. A normalized source reports the raw jobs
    whose write is committed exactly when no rollback finds a job written and not committed, and a
    scraped source the rows it committed exactly when it met no identity twice or failed before its
    first row. -/
theorem reported_counts_iff (o : PipelineOrchestrator) (runId : String) (s : StageSession)
    (source : ScrapeSource) (env : ScrapeEnv) (outcome : Except PyException PaginatedFetchResult)
    (start : ScrapeSession) :
    (∀ s', o.Fresh s → o.normalizeSource runId s = (.ok ⟨⟩, s') →
      (s'.result.counts.persisted = (s'.committedRawJobs (o.scope runId s.tables)).length ↔
        s'.LosesNoJob)) ∧
    ∀ s', start.history = [] → start.result.counts.persisted = 0 →
      source.scrapeSource env outcome start = (.ok ⟨⟩, s') →
        (s'.result.counts.persisted = s'.committedRows.length ↔
          source.CountsItsRows env outcome) :=
  ⟨fun _ => PipelineOrchestrator.persisted_eq_committed_iff,
    fun _ => ScrapeSource.persisted_eq_committed_iff⟩

/-! ### Two raw jobs and one error of the database -/

/-- A raw job without a payload, which is stored as it is mapped. -/
def mappedRaw (id externalId : String) : RawJob := { deallsRaw id externalId with rawPayload := [] }

def twoMapped : StageTables where
  jobs :=
    { rawJobs := ⟨[mappedRaw "r1" "1", mappedRaw "r2" "2"], by decide⟩
      normalizedJobs := Table.empty _ }

/-- An orchestrator without a gate, whose database fails on some operations. -/
def gateless (fails : ℕ → Bool) : PipelineOrchestrator :=
  let stage := answeringStage ⟨"1", one_ne_empty⟩
  { stage with
    env := { stage.env with host := tallyHost, operationalError := fails }
    eligibilityResolver := none
    syncEvents := Table.empty _
    backend := ⟨Table.empty _, []⟩
    backendIdentityLookup := .notConfigured }

def twoMappedSession : StageSession := .begin twoMapped "dealls" 0 0

/-- A source of two jobs, for whose second row the database raises. -/
def secondRowFails : ScrapeSource :=
  { (lonelyRun onePage).sources 0 with
    writeError := fun externalId => if externalId = "2" then some operationalError else none }

/-- The pages of those two jobs. -/
def twoJobPages : PaginatedFetchResult where
  rawJobs := [{ sourcePlatform := "glints", externalId := "1", sourceUrl := "u", rawPayload := [] },
    { sourcePlatform := "glints", externalId := "2", sourceUrl := "u", rawPayload := [] }]
  pagesAttempted := 1
  pagesSucceeded := 1
  pagesFailed := 0
  stopReason := "target_reached"
  dedupedCount := 0

def twoJobStart : ScrapeSession := (lonelyRun onePage).session 0 (lonelyRun onePage).start

/-- The upsert of the second raw job fails once and takes the first job back: two are counted, one
    is there. The second row of a scrape fails: one is counted, none is there. -/
theorem counts_survive_rollback :
    (((gateless (· == 4)).normalizeSource "x" twoMappedSession).1.isOk = true ∧
      ((gateless (· == 4)).normalizeSource "x" twoMappedSession).2.result.counts.persisted = 2 ∧
      (((gateless (· == 4)).normalizeSource "x" twoMappedSession).2.committedRawJobs
        ((gateless (· == 4)).scope "x" twoMapped)).length = 1) ∧
    (secondRowFails.scrapeSource (lonelyRun onePage).env (.ok twoJobPages) twoJobStart).1.isOk
        = true ∧
      (secondRowFails.scrapeSource (lonelyRun onePage).env (.ok twoJobPages)
        twoJobStart).2.result.counts.persisted = 1 ∧
      (secondRowFails.scrapeSource (lonelyRun onePage).env (.ok twoJobPages)
        twoJobStart).2.committedRows = [] := by
  refine ⟨⟨?_, ?_, ?_⟩, ?_, ?_, ?_⟩ <;> decide +kernel

theorem reported_counts_iff_twoMapped :
    (((gateless (· == 4)).normalizeSource "x" twoMappedSession).2.result.counts.persisted
        = (((gateless (· == 4)).normalizeSource "x" twoMappedSession).2.committedRawJobs
            ((gateless (· == 4)).scope "x" twoMapped)).length ↔
      ((gateless (· == 4)).normalizeSource "x" twoMappedSession).2.LosesNoJob) ∧
    ((secondRowFails.scrapeSource (lonelyRun onePage).env (.ok twoJobPages)
        twoJobStart).2.result.counts.persisted
        = (secondRowFails.scrapeSource (lonelyRun onePage).env (.ok twoJobPages)
            twoJobStart).2.committedRows.length ↔
      secondRowFails.CountsItsRows (lonelyRun onePage).env (.ok twoJobPages)) := by
  obtain ⟨hnormalize, hscrape⟩ := reported_counts_iff (gateless (· == 4)) "x" twoMappedSession
    secondRowFails (lonelyRun onePage).env (.ok twoJobPages) twoJobStart
  refine ⟨hnormalize _ ⟨rfl, rfl, rfl, nofun⟩ ?_, hscrape _ rfl rfl ?_⟩ <;>
    exact Stateful.eq_of_isOk (by decide +kernel)

end Bisakerja
