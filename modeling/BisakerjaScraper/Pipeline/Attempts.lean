import BisakerjaScraper.Pipeline.Counts
import BisakerjaScraper.Schemes.Tickets

/-! The attempts of a normalize stage.

    Every raw job a stage is given is attempted once: it is stored, or it fails. The mapper and the
    answers of the AI settle which, and the counters, the errors and the quarantine follow the
    attempts one by one. A database that fails may take back what is in the quarantine and let a
    mapped job fail, and it may end the stage; the counters still agree then. -/

namespace Bisakerja
open Schemes

/-- An attempt on a raw job. -/
def attemptOn (raw : RawJob) (succeeded : Bool) : Trial (Option String) := ⟨some raw.id, succeeded⟩

/-- The quarantine as tickets: a row is one of its raw job. -/
def StageTables.book (tables : StageTables) : List (Ticket (Option String)) :=
  tables.quarantine.map fun row => ⟨row.rawJobId, row.isOpen⟩

namespace NormalizeStage

variable (stage : NormalizeStage)

/-! ### The plan of the attempts -/

/-- The attempt on a raw job that the AI is not asked about. -/
def settledAttempt (raw : RawJob) : Option (Trial (Option String)) :=
  if (stage.plannedItem raw).isSome then none
  else some (attemptOn raw (stage.plannedMapped raw).isSome)

/-- The attempts of single requests, the first of them at a given call. -/
def singleAttempts : PromptItems → ℕ → List (Trial (Option String))
  | [], _ => []
  | entry :: rest, call =>
    attemptOn entry.1 (stage.singleAnswer entry.1 call).isOk :: singleAttempts rest (call + 1)

/-- The attempt an entry of a batch answer stands for. -/
def resultAttempt (items : PromptItems) (result : AINormalizationBatchItemResult) :
    Option (Trial (Option String)) :=
  (items.find? fun entry => entry.2.itemId = result.itemId.1).map fun entry =>
    attemptOn entry.1 result.normalizedJob.isSome

/-- The attempts on the items of a batch. -/
def answerAttempts (items : PromptItems) (call : ℕ) : List (Trial (Option String)) :=
  if stage.client.hasNormalizeJobs then
    match stage.batchAnswer items call with
    | .ok results => results.filterMap (resultAttempt items)
    | .error _ => items.map fun entry => attemptOn entry.1 false
  else stage.singleAttempts items call

/-- The attempts of a batch. -/
def batchAttempts (rawBatch : List RawJob) (call : ℕ) : List (Trial (Option String)) :=
  rawBatch.filterMap stage.settledAttempt ++
    (if (rawBatch.filterMap stage.plannedItem).isEmpty then []
     else stage.answerAttempts (rawBatch.filterMap stage.plannedItem) call)

/-- The attempts of a list of batches, the first of them at a given call. -/
def batchesAttempts : List (List RawJob) → ℕ → List (Trial (Option String))
  | [], _ => []
  | rawBatch :: rest, call =>
    stage.batchAttempts rawBatch call ++
      batchesAttempts rest (call + stage.plannedCalls (rawBatch.filterMap stage.plannedItem))

/-- The database does not fail. -/
def NeverFails : Prop := ∀ tick, stage.env.operationalError tick = false

/-! ### One attempt for each raw job -/

variable {stage} {call : ℕ} {raw : RawJob}

theorem length_singleAttempts (items : PromptItems) (call : ℕ) :
    (stage.singleAttempts items call).length = items.length := by
  induction items generalizing call with
  | nil => rfl
  | cons entry rest ih => simp [singleAttempts, ih]

/-- Every entry of an accepted batch answer belongs to an item. -/
theorem find?_of_batchAnswer {items : PromptItems} {results : List AINormalizationBatchItemResult}
    (h : stage.batchAnswer items call = .ok results) {result : AINormalizationBatchItemResult}
    (hresult : result ∈ results) :
    ∃ entry, items.find? (fun entry => entry.2.itemId = result.itemId.1) = some entry := by
  have hid : result.itemId.1 ∈ items.map fun entry => entry.2.itemId := by
    rw [← itemIds_of_batchAnswer h]
    exact List.mem_map_of_mem hresult
  obtain ⟨entry, hentry, heq⟩ := List.mem_map.mp hid
  refine Option.isSome_iff_exists.mp (List.find?_isSome.mpr ⟨entry, hentry, ?_⟩)
  simpa using heq

theorem length_answerAttempts (items : PromptItems) (call : ℕ) :
    (stage.answerAttempts items call).length = items.length := by
  unfold answerAttempts
  split
  · cases hanswer : stage.batchAnswer items call with
    | error exc => simp
    | ok results =>
      have hall : ∀ result ∈ results, (resultAttempt items result).isSome = true := by
        intro result hresult
        obtain ⟨entry, hfind⟩ := find?_of_batchAnswer hanswer hresult
        simp [resultAttempt, hfind]
      have hids := congrArg List.length (itemIds_of_batchAnswer hanswer)
      rw [List.length_map, List.length_map] at hids
      dsimp only
      rw [← hids]
      clear hanswer hids
      induction results with
      | nil => rfl
      | cons result results ih =>
        obtain ⟨attempt, hattempt⟩ := Option.isSome_iff_exists.mp (hall result List.mem_cons_self)
        rw [List.filterMap_cons_some hattempt, List.length_cons, List.length_cons,
          ih fun other hother => hall other (List.mem_cons_of_mem _ hother)]
  · exact length_singleAttempts items call

theorem length_batchAttempts (rawBatch : List RawJob) (call : ℕ) :
    (stage.batchAttempts rawBatch call).length = rawBatch.length := by
  have hsplit : (rawBatch.filterMap stage.settledAttempt).length
      + (rawBatch.filterMap stage.plannedItem).length = rawBatch.length := by
    induction rawBatch with
    | nil => rfl
    | cons raw rest ih =>
      cases hitem : stage.plannedItem raw with
      | none =>
        rw [List.filterMap_cons_some (b := attemptOn raw (stage.plannedMapped raw).isSome)
            (by simp [settledAttempt, hitem]), List.filterMap_cons_none hitem, List.length_cons,
          List.length_cons]
        omega
      | some entry =>
        rw [List.filterMap_cons_none (by simp [settledAttempt, hitem]),
          List.filterMap_cons_some hitem, List.length_cons, List.length_cons]
        omega
  unfold batchAttempts
  rw [List.length_append]
  split
  · next hempty =>
    rw [List.isEmpty_iff.mp hempty] at hsplit
    simpa using hsplit
  · rw [length_answerAttempts, hsplit]

theorem length_batchesAttempts (batches : List (List RawJob)) (call : ℕ) :
    (stage.batchesAttempts batches call).length = batches.flatten.length := by
  induction batches generalizing call with
  | nil => rfl
  | cons rawBatch rest ih =>
    rw [batchesAttempts, List.length_append, length_batchAttempts, ih, List.flatten_cons,
      List.length_append]

/-! ### What an attempt that succeeded is

    The attempts that succeed are those whose job the stage writes. -/

/-- The raw jobs of the attempts that succeeded. -/
def succeededKeys (attempts : List (Trial (Option String))) : List (Option String) :=
  (attempts.filter Trial.succeeded).map Trial.key

theorem succeededKeys_append (attempts more : List (Trial (Option String))) :
    succeededKeys (attempts ++ more) = succeededKeys attempts ++ succeededKeys more := by
  unfold succeededKeys
  rw [List.filter_append, List.map_append]

theorem succeededKeys_settledAttempts (rawBatch : List RawJob) :
    succeededKeys (rawBatch.filterMap stage.settledAttempt)
      = (writtenIds (rawBatch.filterMap stage.plannedMapped)).map some := by
  unfold writtenIds
  induction rawBatch with
  | nil => rfl
  | cons raw rest ih =>
    cases hmapped : stage.plannedMapped raw with
    | some write =>
      have hattempt : stage.settledAttempt raw = some (attemptOn raw true) := by
        simp [settledAttempt, plannedItem_of_plannedMapped hmapped, hmapped]
      rw [List.filterMap_cons_some hattempt, List.filterMap_cons_some hmapped, List.map_cons,
        List.map_cons, ← ih, plannedMapped_fst hmapped]
      rfl
    | none =>
      rw [List.filterMap_cons_none hmapped, ← ih]
      cases hitem : stage.plannedItem raw with
      | none =>
        rw [List.filterMap_cons_some (b := attemptOn raw false)
          (by simp [settledAttempt, hitem, hmapped])]
        rfl
      | some entry => rw [List.filterMap_cons_none (by simp [settledAttempt, hitem])]

theorem succeededKeys_singleAttempts (items : PromptItems) (call : ℕ) :
    succeededKeys (stage.singleAttempts items call)
      = (writtenIds (stage.plannedSingles items call)).map some := by
  unfold writtenIds
  induction items generalizing call with
  | nil => rfl
  | cons entry rest ih =>
    rw [singleAttempts, plannedSingles, List.map_append, List.map_append, ← ih]
    cases stage.singleAnswer entry.1 call <;> rfl

theorem succeededKeys_resultAttempts (items : PromptItems)
    (results : List AINormalizationBatchItemResult) :
    succeededKeys (results.filterMap (resultAttempt items))
      = (writtenIds (results.filterMap (resultWrite items))).map some := by
  unfold writtenIds
  induction results with
  | nil => rfl
  | cons result rest ih =>
    rw [List.filterMap_cons, List.filterMap_cons]
    unfold resultAttempt resultWrite at ih ⊢
    cases items.find? fun entry => entry.2.itemId = result.itemId.1 with
    | none => exact ih
    | some entry =>
      cases result.normalizedJob with
      | none => exact ih
      | some job => exact congrArg (some entry.1.id :: ·) ih

theorem succeededKeys_batchAttempts (rawBatch : List RawJob) (call : ℕ) :
    succeededKeys (stage.batchAttempts rawBatch call)
      = (writtenIds (stage.plannedBatch rawBatch call)).map some := by
  have hanswers : ∀ items, succeededKeys (stage.answerAttempts items call)
      = (writtenIds (stage.plannedAnswers items call)).map some := by
    intro items
    unfold answerAttempts plannedAnswers
    split
    · cases stage.batchAnswer items call with
      | error exc =>
        have hnone :
            (items.map fun entry => attemptOn entry.1 false).filter Trial.succeeded = [] := by
          rw [List.filter_map]
          exact List.map_eq_nil_iff.mpr (List.filter_eq_nil_iff.mpr fun _ _ => nofun)
        unfold succeededKeys
        dsimp only
        rw [hnone]
        rfl
      | ok results => exact succeededKeys_resultAttempts items results
    · exact succeededKeys_singleAttempts items call
  unfold batchAttempts plannedBatch
  rw [succeededKeys_append, succeededKeys_settledAttempts]
  unfold writtenIds at hanswers ⊢
  rw [List.map_append, List.map_append]
  split
  · rfl
  · rw [hanswers]

/-- The attempts of a stage that succeed are its planned writes, in order. -/
theorem succeededKeys_batchesAttempts (batches : List (List RawJob)) (call : ℕ) :
    succeededKeys (stage.batchesAttempts batches call)
      = (writtenIds (stage.plannedBatches batches call)).map some := by
  induction batches generalizing call with
  | nil => rfl
  | cons rawBatch rest ih =>
    rw [batchesAttempts, succeededKeys_append, succeededKeys_batchAttempts, ih]
    unfold writtenIds
    rw [plannedBatches, List.map_append, List.map_append]

/-! ### The books of a stage -/

end NormalizeStage

/-- What a source reports after so many attempts, from where it started. -/
structure Tallied (start result : SourcePipelineResult) (attempted : ℕ) : Prop where
  fetched : result.counts.fetched = start.counts.fetched
  attempts : result.counts.normalized + result.errors.length
    = start.counts.normalized + start.errors.length + attempted
  persisted : result.counts.persisted + start.counts.normalized
    = start.counts.persisted + result.counts.normalized
  skipped : result.counts.skipped + start.errors.length
    = start.counts.skipped + result.errors.length

namespace NormalizeStage

/-- A session that has counted so many attempts and entered these in the quarantine. -/
structure Ledger (stage : NormalizeStage) (start : StageSession) (call counted : ℕ)
    (attempts : List (Trial (Option String))) (s : StageSession) : Prop where
  calls : s.calls = call
  tallied : Tallied start.result s.result counted
  book : stage.hasQuarantine = true → stage.NeverFails →
    s.tables.book = bookTrials start.tables.book attempts

/-- A session whose attempts are counted and entered. -/
abbrev Books (stage : NormalizeStage) (start : StageSession)
    (attempts : List (Trial (Option String))) (call : ℕ) : StageSession → Prop :=
  stage.Ledger start call attempts.length attempts

variable {stage : NormalizeStage} {start : StageSession} {call call' counted : ℕ} {raw : RawJob}
  {attempts : List (Trial (Option String))}

/-- A session begins with its books in order. -/
theorem books_self (s : StageSession) : stage.Books s [] s.calls s :=
  ⟨rfl, ⟨rfl, rfl, rfl, rfl⟩, fun _ _ => rfl⟩

theorem Books.followsCalls : FollowsCalls fun call => stage.Books start attempts call :=
  ⟨fun hs => hs.calls, fun hs => ⟨congrArg (· + 1) hs.calls, hs.tallied, hs.book⟩,
    fun _ hs => ⟨hs.calls, hs.tallied, hs.book⟩⟩

/-- A database operation that leaves calls, result and quarantine alone. -/
theorem ledger_operation {α : Type} {operation : StageSession → α × StageSession}
    (hcalls : ∀ s, (operation s).2.calls = s.calls)
    (hresult : ∀ s, (operation s).2.result = s.result)
    (hquarantine : ∀ s, (operation s).2.tables.quarantine = s.tables.quarantine) :
    Triple (stage.Ledger start call counted attempts) (dbOperationWithRetry stage.env operation)
      (fun _ => stage.Ledger start call counted attempts)
      (fun _ s => stage.Ledger start call counted attempts s ∧ ¬ stage.NeverFails) := by
  have hattempt : Triple (stage.Ledger start call counted attempts) (dbAttempt stage.env operation)
      (fun _ => stage.Ledger start call counted attempts)
      (fun _ s => stage.Ledger start call counted attempts s ∧ ¬ stage.NeverFails) := by
    refine triple_dbAttempt (fun s hs => ?_) fun s hs hfails => ?_
    · refine ⟨(hcalls _).trans hs.calls, ?_, fun hq hnever => ?_⟩
      · rw [hresult]
        exact hs.tallied
      · unfold StageTables.book
        rw [hquarantine]
        exact hs.book hq hnever
    · have hnot : ¬ stage.NeverFails := fun hnever => by
        rw [hnever] at hfails
        cases hfails
      exact ⟨⟨hs.calls, hs.tallied, fun _ hnever => absurd hnever hnot⟩, hnot⟩
  exact hattempt.handle fun _ => .of_fact fun _ => hattempt

theorem ledger_commit :
    Triple (stage.Ledger start call counted attempts) (commitNormalizeProgress stage.env)
      (fun _ => stage.Ledger start call counted attempts)
      (fun _ s => stage.Ledger start call counted attempts s ∧ ¬ stage.NeverFails) :=
  ledger_operation (fun _ => rfl) (fun _ => rfl) fun _ => rfl

theorem ledger_upsert (raw : RawJob) (job : CanonicalJobSchema) :
    Triple (stage.Ledger start call counted attempts)
      (upsertNormalizedJobWithRetry stage.env raw job)
      (fun _ => stage.Ledger start call counted attempts)
      (fun _ s => stage.Ledger start call counted attempts s ∧ ¬ stage.NeverFails) :=
  ledger_operation (fun _ => rfl) (fun _ => rfl) fun _ => rfl

theorem ledger_aiLog (raw : RawJob) (item : AINormalizationBatchPromptItem)
    (status : AIRequestStatus) (normalizedJobId : Option String) (summary : Dict)
    (error : Option PyException) :
    Triple (stage.Ledger start call counted attempts)
      (stage.recordNormalizationAiLog raw item status normalizedJobId summary error)
      (fun _ => stage.Ledger start call counted attempts)
      (fun _ s => stage.Ledger start call counted attempts s ∧ ¬ stage.NeverFails) :=
  ledger_operation (fun _ => rfl) (fun _ => rfl) fun _ => rfl

/-- A stored job closes the rows of its raw job. -/
theorem ledger_resolve (raw : RawJob) {E : PyException → StageSession → Prop} :
    Triple (stage.Ledger start call counted attempts) (stage.whenQuarantine (resolveForRawJob raw))
      (fun _ => stage.Ledger start call counted (attempts ++ [attemptOn raw true])) E := by
  refine .ite (fun hq => .change fun s hs => ⟨hs.calls, hs.tallied, fun _ hnever => ?_⟩)
    fun hq => .pure fun s hs => ⟨hs.calls, hs.tallied, fun h => absurd h hq⟩
  rw [bookTrials_concat, ← hs.book hq hnever]
  unfold StageTables.book
  change List.map _ (List.map _ _) = List.map _ (List.map _ _)
  rw [List.map_map, List.map_map]
  refine List.map_congr_left fun row _ => ?_
  cases hopen : row.isOpen <;> by_cases hid : row.rawJobId = some raw.id <;>
    simp [Ticket.close, attemptOn, hopen, hid]

/-- A stored job is counted. -/
theorem ledger_count {E : PyException → StageSession → Prop} :
    Triple (stage.Ledger start call counted attempts) countNormalized
      (fun _ => stage.Ledger start call (counted + 1) attempts) E := by
  refine .change fun s hs => ⟨hs.calls, ?_, hs.book⟩
  obtain ⟨hfetched, hattempts, hpersisted, hskipped⟩ := hs.tallied
  refine ⟨hfetched, ?_, ?_, hskipped⟩
  · change s.result.counts.normalized + 1 + s.result.errors.length = _
    omega
  · change s.result.counts.persisted + 1 + _ = _ + (s.result.counts.normalized + 1)
    omega

/-- A failure is counted and opens a row. -/
theorem books_recordNormalizeFailure (raw : RawJob) (exc : PyException)
    {E : PyException → StageSession → Prop} :
    Triple (stage.Books start attempts call) (stage.recordNormalizeFailure raw exc)
      (fun _ => stage.Books start (attempts ++ [attemptOn raw false]) call) E := by
  have hcount : Triple (stage.Books start attempts call)
      (changeResult fun result => { result with
        errors := result.errors ++ [errorSummary stage.sourcePlatform exc]
        counts := { result.counts with skipped := result.counts.skipped + 1 } })
      (fun _ => stage.Ledger start call (attempts.length + 1) attempts) E := by
    refine .change fun s hs => ⟨hs.calls, ?_, hs.book⟩
    obtain ⟨hfetched, hattempts, hpersisted, hskipped⟩ := hs.tallied
    refine ⟨hfetched, ?_, hpersisted, ?_⟩
    · simp only [List.length_append, List.length_singleton]
      omega
    · simp only [List.length_append, List.length_singleton]
      omega
  refine hcount.bind fun _ => ?_
  refine .ite (fun hq => .change fun s hs => ⟨hs.calls, ?_, fun _ hnever => ?_⟩)
    fun hq => .pure fun s hs => ⟨hs.calls, ?_, fun h => absurd h hq⟩
  · simpa using hs.tallied
  · rw [bookTrials_concat, ← hs.book hq hnever]
    simp [StageTables.book, bookTrial, attemptOn]
  · simpa using hs.tallied

/-- What follows the write of a job: the quarantine and the count. -/
theorem books_stored (raw : RawJob) {E : PyException → StageSession → Prop} :
    Triple (stage.Books start attempts call)
      (do stage.whenQuarantine (resolveForRawJob raw); countNormalized)
      (fun _ => stage.Books start (attempts ++ [attemptOn raw true]) call) E := by
  refine (ledger_resolve raw).bind fun _ => ledger_count.conseq (fun _ => id) (fun _ s hs => ?_)
    fun _ _ => id
  simpa [Books] using hs

/-! ### The stage keeps the books -/

/-- A stage is ended by a failing database alone. -/
abbrev DatabaseFailed (stage : NormalizeStage) (_ : PyException) (_ : StageSession) : Prop :=
  ¬ stage.NeverFails

theorem books_storeNormalized (item : AINormalizationBatchPromptItem) (job : CanonicalJobSchema) :
    Triple (stage.Books start attempts call) (stage.storeNormalized raw item job)
      (fun _ => stage.Books start (attempts ++ [attemptOn raw true]) call) stage.DatabaseFailed :=
  ((ledger_upsert raw job).weaken_error fun _ _ => And.right).bind fun _ =>
    ((ledger_aiLog raw item _ _ _ _).weaken_error fun _ _ => And.right).bind fun _ =>
      books_stored raw

/-- The platform of a source is one the prompts know. -/
theorem promptOf_eq_ok (raw : RawJob) : ∃ prompt, stage.promptOf raw = .ok prompt := by
  unfold promptOf promptInputFromRawJob
  split
  · exact ⟨_, rfl⟩
  · rw [sourcePlatform, sourcePlatformEnum_value]
    exact ⟨_, rfl⟩

theorem books_promptItem (raw : RawJob) :
    Triple (stage.Books start attempts call) (stage.promptItem raw)
      (fun item s => stage.Books start (attempts ++ (stage.settledAttempt raw).toList) call s ∧
        item = stage.plannedItem raw) stage.DatabaseFailed := by
  obtain ⟨prompt, hprompt⟩ : ∃ prompt, stage.promptOf raw = .ok prompt := promptOf_eq_ok raw
  unfold promptItem settledAttempt plannedMapped plannedItem
  cases hmapped : stage.source.mapRawJob raw with
  | error exc =>
    exact (books_recordNormalizeFailure raw exc).bind fun _ => .pure fun s hs => ⟨hs, rfl⟩
  | ok mapped =>
    dsimp only
    change Triple _ (Stateful.ofExcept (stage.promptOf raw) >>= _) _ _
    rw [hprompt]
    refine Triple.bind (Q := fun found s => stage.Books start attempts call s ∧ found = prompt)
      (fun s hs => ⟨hs, rfl⟩) fun found => .of_fact ?_
    rintro rfl
    cases found with
    | none =>
      refine ((ledger_upsert raw mapped).weaken_error fun _ _ => And.right).bind fun _ => ?_
      refine (ledger_resolve raw).bind fun _ => ledger_count.bind fun _ =>
        .pure fun s hs => ⟨?_, rfl⟩
      simpa [Books] using hs
    | some prompt =>
      refine .pure fun s hs => ⟨?_, rfl⟩
      simpa using hs

theorem books_promptItems (rawBatch : List RawJob) :
    Triple (stage.Books start attempts call) (stage.promptItems rawBatch)
      (fun items s =>
        stage.Books start (attempts ++ rawBatch.filterMap stage.settledAttempt) call s ∧
        items = rawBatch.filterMap stage.plannedItem) stage.DatabaseFailed := by
  induction rawBatch generalizing attempts with
  | nil => exact .pure fun s hs => ⟨by simpa using hs, rfl⟩
  | cons raw rest ih =>
    refine (books_promptItem raw).bind fun item => .of_fact ?_
    rintro rfl
    refine ih.bind fun items => .of_fact ?_
    rintro rfl
    refine .pure fun s hs => ⟨?_, ?_⟩
    · rw [List.append_assoc] at hs
      cases hattempt : stage.settledAttempt raw <;> simpa [hattempt, List.filterMap_cons] using hs
    · cases hplanned : stage.plannedItem raw <;> simp [hplanned]

/-- A raw job that failed, with its log. -/
theorem books_failed (raw : RawJob) (exc : PyException) (item : AINormalizationBatchPromptItem)
    (summary : Dict) (error : Option PyException) :
    Triple (stage.Books start attempts call) (do
        stage.recordNormalizeFailure raw exc
        stage.recordNormalizationAiLog raw item .failed none summary error)
      (fun _ => stage.Books start (attempts ++ [attemptOn raw false]) call) stage.DatabaseFailed :=
  (books_recordNormalizeFailure raw exc).bind fun _ =>
    (ledger_aiLog raw item _ _ _ _).weaken_error fun _ _ => And.right

theorem books_recordBatchFailure (items : PromptItems) (exc : PyException) :
    Triple (stage.Books start attempts call) (stage.recordBatchFailure items exc)
      (fun _ => stage.Books start (attempts ++ items.map fun entry => attemptOn entry.1 false) call)
      stage.DatabaseFailed := by
  have hloop := Triple.forEach (σ := StageSession) (E := stage.DatabaseFailed)
    (I := fun done => stage.Books start
      (attempts ++ done.map fun entry : RawJob × AINormalizationBatchPromptItem =>
        attemptOn entry.1 false) call)
    items fun done entry _ _ => (books_failed entry.1
      (normalizeErrorFromAiException exc entry.1.externalId) entry.2
      (normalizationResponseSummary stage.sourcePlatform none items.length 0 items.length)
      (some exc)).conseq (fun _ => id) (fun _ s hs => by simpa using hs) fun _ _ => id
  exact hloop.conseq (fun s hs => by simpa using hs) (fun _ _ => id) fun _ _ => id

theorem books_storeBatchItem {items : PromptItems} {result : AINormalizationBatchItemResult}
    {entry : RawJob × AINormalizationBatchPromptItem}
    (hfind : (items.find? fun entry => entry.2.itemId = result.itemId.1) = some entry) :
    Triple (stage.Books start attempts call) (stage.storeBatchItem items result)
      (fun _ => stage.Books start (attempts ++ (resultAttempt items result).toList) call)
      stage.DatabaseFailed := by
  unfold storeBatchItem resultAttempt
  rw [hfind]
  cases result.normalizedJob with
  | some job => exact books_storeNormalized entry.2 job
  | none => exact books_failed entry.1 _ entry.2 _ _

theorem books_storeBatch {items : PromptItems} {results : List AINormalizationBatchItemResult}
    (hanswer : stage.batchAnswer items call' = .ok results) :
    Triple (stage.Books start attempts call) (.forEach results (stage.storeBatchItem items))
      (fun _ => stage.Books start (attempts ++ results.filterMap (resultAttempt items)) call)
      stage.DatabaseFailed := by
  have hloop := Triple.forEach (σ := StageSession) (E := stage.DatabaseFailed)
    (I := fun done => stage.Books start (attempts ++ done.filterMap (resultAttempt items)) call)
    (f := stage.storeBatchItem items) results ?_
  · exact hloop.conseq (fun s hs => by simpa using hs) (fun _ _ => id) fun _ _ => id
  · intro done result rest hsplit
    have hresult : result ∈ results := by simp [hsplit]
    obtain ⟨entry, hfind⟩ := find?_of_batchAnswer hanswer hresult
    refine (books_storeBatchItem hfind).conseq (fun _ => id) (fun _ s hs => ?_) fun _ _ => id
    rw [List.filterMap_append, ← List.append_assoc]
    cases hattempt : resultAttempt items result <;> simpa [hattempt] using hs

theorem books_normalizeSingle {entry : RawJob × AINormalizationBatchPromptItem}
    (hitem : stage.plannedItem entry.1 = some entry) :
    Triple (stage.Books start attempts call) (stage.normalizeSingle entry)
      (fun _ => stage.Books start
        (attempts ++ [attemptOn entry.1 (stage.singleAnswer entry.1 call).isOk]) (call + 1))
      stage.DatabaseFailed := by
  refine (ledger_commit.weaken_error fun _ _ => And.right).bind fun _ => ?_
  refine (Triple.attempt (Books.followsCalls.mapStoredRawJob hitem)).bind fun answer => ?_
  cases answer with
  | ok job =>
    refine .of_fact fun hanswer => ?_
    rw [hanswer]
    exact books_storeNormalized entry.2 job
  | error exc =>
    refine .of_fact fun hanswer => ?_
    have hnot : (stage.singleAnswer entry.1 call).isOk = false := by
      cases hsingle : stage.singleAnswer entry.1 call with
      | error exc => rfl
      | ok job =>
        rw [hsingle] at hanswer
        cases hanswer
    rw [hnot]
    exact books_failed entry.1 exc entry.2 _ _

theorem books_normalizeSingles {items : PromptItems}
    (hitems : ∀ entry ∈ items, stage.plannedItem entry.1 = some entry) :
    Triple (stage.Books start attempts call) (.forEach items stage.normalizeSingle)
      (fun _ => stage.Books start (attempts ++ stage.singleAttempts items call)
        (call + items.length)) stage.DatabaseFailed := by
  induction items generalizing call attempts with
  | nil => exact .pure fun s hs => by simpa [singleAttempts] using hs
  | cons entry rest ih =>
    refine (books_normalizeSingle (hitems entry List.mem_cons_self)).bind fun _ => ?_
    refine (ih fun other hother => hitems other (List.mem_cons_of_mem _ hother)).conseq
      (fun _ => id) (fun _ s hs => ?_) fun _ _ => id
    rw [List.append_assoc, Nat.add_assoc, Nat.add_comm 1] at hs
    exact hs

theorem books_normalizeItems {items : PromptItems}
    (hitems : ∀ entry ∈ items, stage.plannedItem entry.1 = some entry) :
    Triple (stage.Books start attempts call) (stage.normalizeItems items)
      (fun _ => stage.Books start
        (attempts ++ if items.isEmpty then [] else stage.answerAttempts items call)
        (call + stage.plannedCalls items)) stage.DatabaseFailed := by
  unfold normalizeItems plannedCalls answerAttempts
  refine .ite (fun hempty => ?_) fun hne => ?_
  · rw [if_pos hempty, if_pos hempty]
    exact .pure fun s hs => by simpa using hs
  · rw [if_neg hne, if_neg hne]
    refine .ite (fun hmethod => ?_) fun hmethod => ?_
    · rw [if_pos hmethod, if_pos hmethod]
      refine (ledger_commit.weaken_error fun _ _ => And.right).bind fun _ => ?_
      refine (Triple.attempt (Books.followsCalls.normalizeJobs items)).bind fun answer => ?_
      cases answer with
      | ok results =>
        refine .of_fact fun hanswer => ?_
        rw [hanswer]
        exact books_storeBatch hanswer
      | error exc =>
        refine .of_fact fun hanswer => ?_
        rw [hanswer]
        exact books_recordBatchFailure items exc
    · rw [if_neg hmethod, if_neg hmethod]
      exact books_normalizeSingles hitems

theorem books_normalizeBatch (rawBatch : List RawJob) :
    Triple (stage.Books start attempts call) (stage.normalizeBatch rawBatch)
      (fun _ => stage.Books start (attempts ++ stage.batchAttempts rawBatch call)
        (call + stage.plannedCalls (rawBatch.filterMap stage.plannedItem)))
      stage.DatabaseFailed := by
  refine (books_promptItems rawBatch).bind fun items => .of_fact ?_
  rintro rfl
  unfold batchAttempts
  rw [← List.append_assoc]
  refine books_normalizeItems fun entry hentry => ?_
  obtain ⟨raw, -, hplanned⟩ := List.mem_filterMap.mp hentry
  rwa [plannedItem_fst hplanned]

theorem books_normalizeBatches (batches : List (List RawJob)) :
    Triple (stage.Books start attempts call)
      (.forEach batches fun rawBatch => do
        commitNormalizeProgress stage.env
        stage.normalizeBatch rawBatch
        commitNormalizeProgress stage.env)
      (fun _ s => ∃ call',
        stage.Books start (attempts ++ stage.batchesAttempts batches call) call' s)
      stage.DatabaseFailed := by
  induction batches generalizing call attempts with
  | nil => exact .pure fun s hs => ⟨call, by simpa [batchesAttempts] using hs⟩
  | cons rawBatch rest ih =>
    refine Triple.bind ((ledger_commit.weaken_error fun _ _ => And.right).bind fun _ =>
      (books_normalizeBatch rawBatch).bind fun _ =>
        ledger_commit.weaken_error fun _ _ => And.right) fun _ => ?_
    refine ih.conseq (fun _ => id) (fun _ s hs => ?_) fun _ _ => id
    obtain ⟨call', hs⟩ := hs
    rw [List.append_assoc] at hs
    exact ⟨call', hs⟩

end NormalizeStage

end Bisakerja
