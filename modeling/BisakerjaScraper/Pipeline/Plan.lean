import Mathlib.Algebra.GroupWithZero.Nat
import BisakerjaScraper.Pipeline.Identity

/-! Which jobs a stage writes.

    The mapper and the answers of the AI settle which jobs a stage stores and in which order; the
    database settles only whether a write lasts. A stage that ends without raising has written the
    planned jobs, however often its operations were tried. -/

namespace Bisakerja
open Schemes

namespace NormalizeStage

variable (stage : NormalizeStage)

/-! ### The plan -/

/-- The job of a raw job that is stored as it was mapped. -/
def plannedMapped (raw : RawJob) : Option (RawJob × CanonicalJobSchema) :=
  match stage.source.mapRawJob raw, stage.promptOf raw with
  | .ok mapped, .ok none => some (raw, mapped)
  | _, _ => none

/-- The item of a raw job that is sent to the AI. -/
def plannedItem (raw : RawJob) : Option (RawJob × AINormalizationBatchPromptItem) :=
  match stage.source.mapRawJob raw, stage.promptOf raw with
  | .ok _, .ok (some prompt) => some (raw,
      { itemId := raw.id
        sourcePlatform := prompt.sourcePlatform
        endpointType := prompt.endpointType
        rawPayloadSubset := prompt.rawPayloadSubset })
  | _, _ => none

/-- The validated answer to a batch. -/
def batchAnswer (items : PromptItems) (call : ℕ) :
    Except PyException (List AINormalizationBatchItemResult) :=
  if 50 < (batchPrompt stage items).items.length then .error (.plain "ValidationError" "items")
  else do
    let output ← stage.client.answerJobs call (batchPrompt stage items)
    (stage.client.text.validateAiNormalizationBatchOutput output
      (batchPrompt stage items)).mapError invalidResponseError

/-- The job an entry of the answer gives its raw job. -/
def resultWrite (items : PromptItems) (result : AINormalizationBatchItemResult) :
    Option (RawJob × CanonicalJobSchema) :=
  (items.find? fun entry => entry.2.itemId = result.itemId.1).bind fun entry =>
    result.normalizedJob.map fun job => (entry.1, job)

/-- The validated answer to a single request. -/
def singleAnswer (raw : RawJob) (call : ℕ) : Except PyException CanonicalJobSchema :=
  match stage.promptOf raw with
  | .ok (some prompt) => do
    let output ← stage.client.answerJob call prompt
    (stage.client.text.validateAiNormalizationOutput output prompt).mapError invalidResponseError
  | _ => .error (.plain "ValueError" "no prompt")

/-- The jobs of single requests, the first of them at a given call. -/
def plannedSingles : PromptItems → ℕ → List (RawJob × CanonicalJobSchema)
  | [], _ => []
  | entry :: rest, call =>
    ((stage.singleAnswer entry.1 call).toOption.map fun job => (entry.1, job)).toList ++
      plannedSingles rest (call + 1)

/-- The jobs of the items of a batch. -/
def plannedAnswers (items : PromptItems) (call : ℕ) : List (RawJob × CanonicalJobSchema) :=
  if stage.client.hasNormalizeJobs then
    match stage.batchAnswer items call with
    | .ok results => results.filterMap (resultWrite items)
    | .error _ => []
  else stage.plannedSingles items call

/-- The requests the items of a batch take. -/
def plannedCalls (items : PromptItems) : ℕ :=
  if items.isEmpty then 0
  else if stage.client.hasNormalizeJobs then
    if 50 < (batchPrompt stage items).items.length then 0 else 1
  else items.length

/-- The jobs of a batch: those stored as they were mapped, then those of the answers. -/
def plannedBatch (rawBatch : List RawJob) (call : ℕ) : List (RawJob × CanonicalJobSchema) :=
  rawBatch.filterMap stage.plannedMapped ++
    (if (rawBatch.filterMap stage.plannedItem).isEmpty then []
     else stage.plannedAnswers (rawBatch.filterMap stage.plannedItem) call)

/-- The jobs of a list of batches, the first of them at a given call. -/
def plannedBatches : List (List RawJob) → ℕ → List (RawJob × CanonicalJobSchema)
  | [], _ => []
  | rawBatch :: rest, call =>
    stage.plannedBatch rawBatch call ++
      plannedBatches rest (call + stage.plannedCalls (rawBatch.filterMap stage.plannedItem))

/-- The requests a list of batches takes. -/
def batchesCalls (batches : List (List RawJob)) : ℕ :=
  (batches.map fun rawBatch => stage.plannedCalls (rawBatch.filterMap stage.plannedItem)).sum

/-! ### The stage keeps to the plan -/

/-- So many requests made, these jobs written, and as many more counted as persisted. -/
structure At (base : ℤ) (call : ℕ) (written : List (RawJob × CanonicalJobSchema))
    (s : StageSession) : Prop where
  calls : s.calls = call
  stored : s.stored = written
  persisted : (s.result.counts.persisted : ℤ) = base + written.length

/-- The session between the write of a job and its count. -/
structure Uncounted (base : ℤ) (call : ℕ) (written : List (RawJob × CanonicalJobSchema))
    (raw : RawJob) (job : CanonicalJobSchema) (s : StageSession) : Prop where
  calls : s.calls = call
  stored : s.stored = written ++ [(raw, job)]
  persisted : (s.result.counts.persisted : ℤ) = base + written.length

variable {stage} {base : ℤ} {call : ℕ} {written : List (RawJob × CanonicalJobSchema)} {raw : RawJob}
  {job : CanonicalJobSchema}

theorem stored_of_quiet {q : Bool} {s s' : StageSession} (h : Quiet q s s') : s'.stored = s.stored := by
  unfold StageSession.stored
  rw [h.writes]

theorem At.kept {q : Bool} : KeptByQuiet q (At base call written) := fun _ _ hquiet hs =>
  ⟨hquiet.calls.trans hs.calls, (stored_of_quiet hquiet).trans hs.stored,
    (congrArg Nat.cast hquiet.persisted).trans hs.persisted⟩

theorem Uncounted.kept {q : Bool} : KeptByQuiet q (Uncounted base call written raw job) := fun _ _ hquiet hs =>
  ⟨hquiet.calls.trans hs.calls, (stored_of_quiet hquiet).trans hs.stored,
    (congrArg Nat.cast hquiet.persisted).trans hs.persisted⟩

theorem Uncounted.count {s : StageSession} (h : Uncounted base call written raw job s) :
    At base call (written ++ [(raw, job)]) s.countNormalized := by
  refine ⟨h.calls, h.stored, ?_⟩
  have hpersisted := h.persisted
  change ((s.result.counts.persisted + 1 : ℕ) : ℤ) = _
  rw [List.length_append, List.length_singleton]
  omega

theorem at_upsert (raw : RawJob) (job : CanonicalJobSchema) :
    Triple (At base call written) (upsertNormalizedJobWithRetry stage.env raw job)
      (fun _ => Uncounted base call written raw job) (fun _ => At base call written) :=
  At.kept.dbOperationWithRetry fun s hs =>
    ⟨hs.calls, (stored_upsert stage.env raw job s).trans (by rw [hs.stored]), hs.persisted⟩

theorem at_storeNormalized (item : AINormalizationBatchPromptItem) :
    Triple (At base call written) (stage.storeNormalized raw item job)
      (fun _ => At base call (written ++ [(raw, job)])) (fun _ _ => True) :=
  ((at_upsert raw job).weaken_error fun _ _ _ => trivial).bind fun normalizedJobId =>
    Uncounted.kept.afterUpsert stage raw item normalizedJobId (fun _ => Uncounted.count)
      fun _ _ _ => trivial

theorem at_promptItem (raw : RawJob) :
    Triple (At base call written) (stage.promptItem raw)
      (fun item s => At base call (written ++ (stage.plannedMapped raw).toList) s ∧
        item = stage.plannedItem raw) (fun _ _ => True) := by
  unfold promptItem plannedMapped plannedItem
  cases hmapped : stage.source.mapRawJob raw with
  | error exc =>
    dsimp only
    refine (At.kept.recordNormalizeFailure stage raw exc).bind fun _ => .pure fun s hs => ?_
    simpa using hs
  | ok mapped =>
    dsimp only
    have hknown : Triple (At base call written) (Stateful.ofExcept (stage.promptOf raw))
        (fun prompt s => At base call written s ∧ stage.promptOf raw = .ok prompt) fun _ _ => True :=
      (Triple.ofExcept _).weaken_error fun _ _ _ => trivial
    refine hknown.bind fun prompt => .of_fact fun hprompt => ?_
    rw [hprompt]
    cases prompt with
    | none =>
      dsimp only
      have hupsert : Triple (At base call written) (upsertNormalizedJobWithRetry stage.env raw mapped)
          (fun _ => Uncounted base call written raw mapped) fun _ _ => True :=
        (at_upsert raw mapped).weaken_error fun _ _ _ => trivial
      have hcount : Triple (Uncounted base call written raw mapped) countNormalized
          (fun _ => At base call (written ++ [(raw, mapped)])) fun _ _ => True :=
        .change fun _ => Uncounted.count
      exact hupsert.bind fun _ => (Uncounted.kept.resolve stage raw).bind fun _ =>
        hcount.bind fun _ => .pure fun s hs => ⟨hs, rfl⟩
    | some prompt =>
      refine .pure fun s hs => ⟨?_, rfl⟩
      simpa using hs

theorem at_promptItems (rawBatch : List RawJob) :
    Triple (At base call written) (stage.promptItems rawBatch)
      (fun items s => At base call (written ++ rawBatch.filterMap stage.plannedMapped) s ∧
        items = rawBatch.filterMap stage.plannedItem) (fun _ _ => True) := by
  induction rawBatch generalizing written with
  | nil => exact .pure fun s hs => ⟨by simpa using hs, rfl⟩
  | cons raw rest ih =>
    refine (at_promptItem raw).bind fun item => .of_fact ?_
    rintro rfl
    refine ih.bind fun items => .of_fact ?_
    rintro rfl
    refine .pure fun s hs => ⟨?_, ?_⟩
    · cases hplanned : stage.plannedMapped raw <;>
        simpa [hplanned, List.filterMap_cons] using hs
    · cases hplanned : stage.plannedItem raw <;> simp [hplanned]

/-! ### Requests -/

/-- A condition that follows the position of the requests. -/
structure FollowsCalls (P : ℕ → StageSession → Prop) : Prop where
  calls : ∀ {call s}, P call s → s.calls = call
  next : ∀ {call s}, P call s → P (call + 1) { s with calls := s.calls + 1 }
  log : ∀ {call s} events, P call s → P call { s with journal := s.journal ++ events }

namespace FollowsCalls

variable {P : ℕ → StageSession → Prop} (hP : FollowsCalls P)
include hP

/-- A request moves on to the next call. -/
theorem nextCall {E : PyException → StageSession → Prop} :
    Triple (P call) Bisakerja.nextCall (fun position s => P (call + 1) s ∧ position = call) E :=
  .update fun _ hs => ⟨hP.next hs, hP.calls hs⟩

theorem logEvents (events : List NormalizeEvent) {E : PyException → StageSession → Prop} :
    Triple (P call) (Bisakerja.logEvents events) (fun _ => P call) E :=
  .change fun _ hs => hP.log events hs

theorem normalizeJobs (items : PromptItems) :
    Triple (P call) (stage.client.normalizeJobs (batchPrompt stage items))
      (fun results s => P (call + if 50 < (batchPrompt stage items).items.length then 0 else 1) s ∧
        stage.batchAnswer items call = .ok results)
      (fun exc s => P (call + if 50 < (batchPrompt stage items).items.length then 0 else 1) s ∧
        stage.batchAnswer items call = .error exc) := by
  unfold AiClient.normalizeJobs batchAnswer
  refine .ite (fun hlarge => ?_) fun hsmall => ?_
  · rw [if_pos hlarge, if_pos hlarge]
    exact .raise fun s hs => ⟨hs, rfl⟩
  · rw [if_neg hsmall, if_neg hsmall]
    refine hP.nextCall.bind fun position => .of_fact ?_
    rintro rfl
    refine .bind ((Triple.ofExcept_outcome _).weaken_error ?_) fun output => .of_fact fun houtput => ?_
    · rintro exc s ⟨hs, hanswer⟩
      exact ⟨hs, by rw [hanswer]; rfl⟩
    rw [houtput]
    refine .bind ((Triple.ofExcept_outcome _).weaken_error ?_) fun results =>
      .of_fact fun hresults => ?_
    · rintro exc s ⟨hs, hvalidated⟩
      exact ⟨hs, hvalidated⟩
    exact (hP.logEvents _).bind fun _ => .pure fun s hs => ⟨hs, hresults⟩

/-- The answer to a raw job that is sent on its own. -/
theorem mapStoredRawJob {item : AINormalizationBatchPromptItem}
    (hitem : stage.plannedItem raw = some (raw, item)) :
    Triple (P call) (stage.mapStoredRawJob raw)
      (fun job s => P (call + 1) s ∧ stage.singleAnswer raw call = .ok job)
      (fun _ s => P (call + 1) s ∧ (stage.singleAnswer raw call).toOption = none) := by
  unfold plannedItem at hitem
  split at hitem
  case h_2 => cases hitem
  next mapped prompt hmapped hprompt =>
    unfold NormalizeStage.mapStoredRawJob applyAiNormalization singleAnswer
    unfold promptOf at hprompt ⊢
    rw [hmapped, hprompt]
    dsimp only
    change Triple _ (.handle (stage.client.normalizeJob prompt) _) _ _
    refine .handle (E := fun exc s => P (call + 1) s ∧ (do
      let output ← stage.client.answerJob call prompt
      (stage.client.text.validateAiNormalizationOutput output prompt).mapError
        invalidResponseError : Except PyException CanonicalJobSchema) = .error exc) ?_ ?_
    · refine hP.nextCall.bind fun position => .of_fact ?_
      rintro rfl
      refine .bind ((Triple.ofExcept_outcome _).weaken_error ?_) fun output =>
        .of_fact fun houtput => ?_
      · rintro exc s ⟨hs, hanswer⟩
        exact ⟨hs, by rw [hanswer]; rfl⟩
      rw [houtput]
      refine .bind ((Triple.ofExcept_outcome _).weaken_error ?_) fun job => .of_fact fun hjob => ?_
      · rintro exc s ⟨hs, hvalidated⟩
        exact ⟨hs, hvalidated⟩
      exact (hP.logEvents _).bind fun _ => .pure fun s hs => ⟨hs, hjob⟩
    · rintro exc
      refine .raise ?_
      rintro s ⟨hs, hanswer⟩
      exact ⟨hs, congrArg Except.toOption hanswer⟩

end FollowsCalls

theorem At.followsCalls : FollowsCalls fun call => At base call written :=
  ⟨fun hs => hs.calls, fun hs => ⟨congrArg (· + 1) hs.calls, hs.stored, hs.persisted⟩,
    fun _ hs => ⟨hs.calls, hs.stored, hs.persisted⟩⟩

theorem at_storeBatchItem (items : PromptItems) (result : AINormalizationBatchItemResult) :
    Triple (At base call written) (stage.storeBatchItem items result)
      (fun _ => At base call (written ++ (resultWrite items result).toList)) (fun _ _ => True) := by
  unfold storeBatchItem resultWrite
  cases items.find? fun entry => entry.2.itemId = result.itemId.1 with
  | none => exact .raise fun _ _ => trivial
  | some entry =>
    dsimp only [Option.bind_some]
    cases result.normalizedJob with
    | some job => exact at_storeNormalized entry.2
    | none =>
      simp only [Option.map_none, Option.toList_none, List.append_nil]
      exact (At.kept.recordNormalizeFailure stage entry.1 _).bind fun _ =>
        (At.kept.recordNormalizationAiLog stage entry.1 entry.2 _ _ _ _).weaken_error
          fun _ _ _ => trivial

theorem at_storeBatch (items : PromptItems) (results : List AINormalizationBatchItemResult) :
    Triple (At base call written) (.forEach results (stage.storeBatchItem items))
      (fun _ => At base call (written ++ results.filterMap (resultWrite items))) (fun _ _ => True) := by
  have hloop := Triple.forEach (σ := StageSession)
    (I := fun done => At base call (written ++ done.filterMap (resultWrite items)))
    (f := stage.storeBatchItem items) (E := fun _ _ => True) results ?_
  · exact hloop.conseq (fun s hs => by simpa using hs) (fun _ _ => id) fun _ _ => id
  · intro done result rest _
    refine (at_storeBatchItem items result).conseq (fun _ => id) (fun _ s hs => ?_) fun _ _ => id
    rw [List.filterMap_append, ← List.append_assoc]
    cases hwrite : resultWrite items result <;> simpa [hwrite] using hs

theorem at_recordBatchFailure (items : PromptItems) (exc : PyException) :
    Triple (At base call written) (stage.recordBatchFailure items exc) (fun _ => At base call written)
      (fun _ _ => True) :=
  .forEach_inv items fun entry _ => (At.kept.recordNormalizeFailure stage entry.1 _).bind fun _ =>
    (At.kept.recordNormalizationAiLog stage entry.1 entry.2 _ _ _ _).weaken_error
      fun _ _ _ => trivial

theorem at_normalizeSingle {entry : RawJob × AINormalizationBatchPromptItem}
    (hitem : stage.plannedItem entry.1 = some entry) :
    Triple (At base call written) (stage.normalizeSingle entry)
      (fun _ => At base (call + 1) (written ++
        ((stage.singleAnswer entry.1 call).toOption.map fun job => (entry.1, job)).toList))
      (fun _ _ => True) := by
  unfold normalizeSingle
  refine (At.kept.commitNormalizeProgress.weaken_error fun _ _ _ => trivial).bind
    fun _ => ?_
  refine (Triple.attempt (At.followsCalls.mapStoredRawJob hitem)).bind fun answer => ?_
  cases answer with
  | ok job =>
    refine .of_fact fun hanswer => ?_
    rw [hanswer]
    exact at_storeNormalized entry.2
  | error exc =>
    refine .of_fact fun hanswer => ?_
    rw [hanswer, Option.map_none, Option.toList_none, List.append_nil]
    exact (At.kept.recordNormalizeFailure stage entry.1 exc).bind fun _ =>
      (At.kept.recordNormalizationAiLog stage entry.1 entry.2 _ _ _ _).weaken_error
        fun _ _ _ => trivial

theorem at_normalizeSingles {items : PromptItems}
    (hitems : ∀ entry ∈ items, stage.plannedItem entry.1 = some entry) :
    Triple (At base call written) (.forEach items stage.normalizeSingle)
      (fun _ => At base (call + items.length) (written ++ stage.plannedSingles items call))
      (fun _ _ => True) := by
  induction items generalizing call written with
  | nil => exact .pure fun s hs => by simpa [plannedSingles] using hs
  | cons entry rest ih =>
    refine (at_normalizeSingle (hitems entry List.mem_cons_self)).bind fun _ => ?_
    refine (ih fun other hother => hitems other (List.mem_cons_of_mem _ hother)).conseq
      (fun _ => id) (fun _ s hs => ?_) fun _ _ => id
    rw [List.append_assoc, Nat.add_assoc, Nat.add_comm 1] at hs
    exact hs

theorem plannedMapped_fst {raw : RawJob} {write : RawJob × CanonicalJobSchema}
    (h : stage.plannedMapped raw = some write) : write.1 = raw := by
  unfold plannedMapped at h
  split at h
  · cases h
    rfl
  · cases h

/-- An item is planned for its own raw job. -/
theorem plannedItem_fst {entry : RawJob × AINormalizationBatchPromptItem}
    (h : stage.plannedItem raw = some entry) : entry.1 = raw := by
  unfold plannedItem at h
  split at h
  · cases h
    rfl
  · cases h

/-- The id of an item is that of its raw job. -/
theorem itemId_of_plannedItem {raw : RawJob} {entry : RawJob × AINormalizationBatchPromptItem}
    (h : stage.plannedItem raw = some entry) : entry.2.itemId = raw.id := by
  unfold plannedItem at h
  split at h
  · cases h
    rfl
  · cases h

theorem at_normalizeItems {items : PromptItems}
    (hitems : ∀ entry ∈ items, stage.plannedItem entry.1 = some entry) :
    Triple (At base call written) (stage.normalizeItems items)
      (fun _ => At base (call + stage.plannedCalls items)
        (written ++ if items.isEmpty then [] else stage.plannedAnswers items call))
      (fun _ _ => True) := by
  unfold normalizeItems plannedCalls plannedAnswers
  refine .ite (fun hempty => ?_) fun hne => ?_
  · rw [if_pos hempty, if_pos hempty]
    exact .pure fun s hs => by simpa using hs
  · rw [if_neg hne, if_neg hne]
    refine .ite (fun hmethod => ?_) fun hmethod => ?_
    · rw [if_pos hmethod, if_pos hmethod]
      refine (At.kept.commitNormalizeProgress.weaken_error fun _ _ _ => trivial).bind
        fun _ => ?_
      refine (Triple.attempt (At.followsCalls.normalizeJobs items)).bind fun answer => ?_
      cases answer with
      | ok results =>
        refine .of_fact fun hanswer => ?_
        rw [hanswer]
        exact at_storeBatch items results
      | error exc =>
        refine .of_fact fun hanswer => ?_
        rw [hanswer, List.append_nil]
        exact at_recordBatchFailure items exc
    · rw [if_neg hmethod, if_neg hmethod]
      exact at_normalizeSingles hitems

theorem at_normalizeBatch (rawBatch : List RawJob) :
    Triple (At base call written) (stage.normalizeBatch rawBatch)
      (fun _ => At base (call + stage.plannedCalls (rawBatch.filterMap stage.plannedItem))
        (written ++ stage.plannedBatch rawBatch call)) (fun _ _ => True) := by
  refine (at_promptItems rawBatch).bind fun items => .of_fact ?_
  rintro rfl
  unfold plannedBatch
  rw [← List.append_assoc]
  refine at_normalizeItems fun entry hentry => ?_
  obtain ⟨raw, -, hplanned⟩ := List.mem_filterMap.mp hentry
  rwa [plannedItem_fst hplanned]

theorem at_normalizeBatches (batches : List (List RawJob)) :
    Triple (At base call written)
      (.forEach batches fun rawBatch => do
        commitNormalizeProgress stage.env
        stage.normalizeBatch rawBatch
        commitNormalizeProgress stage.env)
      (fun _ => At base (call + stage.batchesCalls batches)
        (written ++ stage.plannedBatches batches call)) (fun _ _ => True) := by
  have hcommit : ∀ call written, Triple (At base call written) (commitNormalizeProgress stage.env)
      (fun _ => At base call written) (fun _ _ => True) := fun _ _ =>
    At.kept.commitNormalizeProgress.weaken_error fun _ _ _ => trivial
  induction batches generalizing call written with
  | nil => exact .pure fun s hs => by simpa [plannedBatches, batchesCalls] using hs
  | cons rawBatch rest ih =>
    refine Triple.bind ((hcommit _ _).bind fun _ => (at_normalizeBatch rawBatch).bind fun _ =>
      hcommit _ _) fun _ => ?_
    refine ih.conseq (fun _ => id) (fun _ s hs => ?_) fun _ _ => id
    rw [List.append_assoc, Nat.add_assoc] at hs
    exact hs

/-- A session at its own calls and writes. -/
theorem At.self (s : StageSession) :
    At (s.result.counts.persisted - s.stored.length) s.calls s.stored s :=
  ⟨rfl, rfl, by omega⟩

theorem stored_normalizeBatch {rawBatch : List RawJob} {s s' : StageSession}
    (h : stage.normalizeBatch rawBatch s = (.ok ⟨⟩, s')) :
    s'.stored = s.stored ++ stage.plannedBatch rawBatch s.calls := by
  have hbatch : Triple (At (s.result.counts.persisted - s.stored.length) s.calls s.stored)
      (stage.normalizeBatch rawBatch) _ _ := at_normalizeBatch rawBatch
  have hplan := hbatch s (At.self s)
  rw [h] at hplan
  exact hplan.stored

/-- The jobs the stage writes when it starts at a given call. -/
def plannedJobs (stage : NormalizeStage) (rawJobs : List RawJob) (call : ℕ) :
    List (RawJob × CanonicalJobSchema) :=
  stage.plannedBatches (chunked stage.config.aiNormalizationBatchSize rawJobs) call

theorem fst_mem_plannedSingles {items : PromptItems} {call : ℕ}
    {write : RawJob × CanonicalJobSchema} (h : write ∈ stage.plannedSingles items call) :
    ∃ entry ∈ items, entry.1 = write.1 := by
  induction items generalizing call with
  | nil => exact absurd h List.not_mem_nil
  | cons entry rest ih =>
    rcases List.mem_append.mp h with h | h
    · obtain ⟨job, -, rfl⟩ := Option.map_eq_some_iff.mp (Option.mem_toList.mp h)
      exact ⟨entry, List.mem_cons_self, rfl⟩
    · obtain ⟨other, hother, heq⟩ := ih h
      exact ⟨other, List.mem_cons_of_mem _ hother, heq⟩

theorem fst_mem_plannedAnswers {items : PromptItems} {call : ℕ}
    {write : RawJob × CanonicalJobSchema} (h : write ∈ stage.plannedAnswers items call) :
    ∃ entry ∈ items, entry.1 = write.1 := by
  unfold plannedAnswers at h
  split at h
  · split at h
    · obtain ⟨result, -, hwrite⟩ := List.mem_filterMap.mp h
      obtain ⟨entry, hfind, hjob⟩ := Option.bind_eq_some_iff.mp hwrite
      obtain ⟨job, -, rfl⟩ := Option.map_eq_some_iff.mp hjob
      exact ⟨entry, List.mem_of_find?_eq_some hfind, rfl⟩
    · exact absurd h List.not_mem_nil
  · exact fst_mem_plannedSingles h

theorem fst_mem_plannedBatch {rawBatch : List RawJob} {call : ℕ}
    {write : RawJob × CanonicalJobSchema} (h : write ∈ stage.plannedBatch rawBatch call) :
    write.1 ∈ rawBatch := by
  rcases List.mem_append.mp h with h | h
  · obtain ⟨raw, hraw, hmapped⟩ := List.mem_filterMap.mp h
    rwa [plannedMapped_fst hmapped]
  · split at h
    · exact absurd h List.not_mem_nil
    · obtain ⟨entry, hentry, heq⟩ := fst_mem_plannedAnswers h
      obtain ⟨raw, hraw, hitem⟩ := List.mem_filterMap.mp hentry
      rwa [← heq, plannedItem_fst hitem]

/-- Every planned job belongs to a raw job of the stage. -/
theorem fst_mem_plannedJobs {rawJobs : List RawJob} {call : ℕ}
    {write : RawJob × CanonicalJobSchema} (h : write ∈ stage.plannedJobs rawJobs call) :
    write.1 ∈ rawJobs := by
  unfold plannedJobs at h
  have hbatch : ∀ (batches : List (List RawJob)) (call : ℕ),
      write ∈ stage.plannedBatches batches call → ∃ rawBatch ∈ batches, write.1 ∈ rawBatch := by
    intro batches
    induction batches with
    | nil => exact fun _ h => absurd h List.not_mem_nil
    | cons rawBatch rest ih =>
      intro call h
      rcases List.mem_append.mp h with h | h
      · exact ⟨rawBatch, List.mem_cons_self, fst_mem_plannedBatch h⟩
      · obtain ⟨other, hother, hmem⟩ := ih _ h
        exact ⟨other, List.mem_cons_of_mem _ hother, hmem⟩
  obtain ⟨rawBatch, hrawBatch, hmem⟩ := hbatch _ _ h
  exact (sublist_of_mem_chunked hrawBatch).subset hmem

/-- A stage that ends without raising has written the planned jobs, and counted them. -/
theorem at_normalizeSourceWithAiBatch (rawJobs : List RawJob) :
    Triple (At base call written) (stage.normalizeSourceWithAiBatch rawJobs)
      (fun _ s => ∃ call', At base call' (written ++ stage.plannedJobs rawJobs call) s)
      (fun _ _ => True) :=
  (at_normalizeBatches _).conseq (fun _ => id) (fun _ _ hs => ⟨_, hs⟩) fun _ _ => id

end NormalizeStage

end Bisakerja
