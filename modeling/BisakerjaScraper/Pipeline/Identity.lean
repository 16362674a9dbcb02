import BisakerjaScraper.Pipeline.Steps

/-! Under which identity an AI answer is stored.

    Only the answer says which row the upsert hits, and nothing compares what it says with the raw
    job it answers. So a row is written under the raw job's identity exactly when the answer
    repeats it. -/

namespace Bisakerja
open Schemes

/-- The identity a prompt names: its source platform and the external id of its payload. -/
def AINormalizationPromptInput.identity (prompt : AINormalizationPromptInput) : String × String :=
  (prompt.sourcePlatform.value,
    match prompt.rawPayloadSubset.get "externalId" with
    | .str externalId => externalId
    | _ => "")

/-- Every accepted answer repeats the identity its prompt names. -/
def EchoesIdentity (J : List NormalizeEvent) : Prop :=
  ∀ prompt output, .accepted prompt output ∈ J → output.identity = prompt.identity

/-- The raw job and the job of a write, when it is one. -/
def NormalizeEvent.wrote? : NormalizeEvent → Option (RawJob × CanonicalJobSchema)
  | .wrote raw job => some (raw, job)
  | .accepted _ _ => none

/-- Every row written while a raw job is processed has the raw job's identity. -/
def KeepsIdentity (J : List NormalizeEvent) : Prop :=
  ∀ raw job, .wrote raw job ∈ J → job.identity = raw.identity

theorem sourcePlatformEnum_value (platform : SourcePlatform) (externalId : Option String) :
    sourcePlatformEnum platform.value externalId = .ok platform := by
  cases platform <;> rfl

namespace NormalizeStage

variable (stage : NormalizeStage) (rawJobs : List RawJob) (s₀ : StageSession)

/-- The prompt made of a raw job. -/
def promptOf (raw : RawJob) : Except PyException (Option AINormalizationPromptInput) :=
  promptInputFromRawJob stage.env.isoformat raw stage.sourcePlatform stage.config.aiOutputLanguage

/-- Where a written job comes from: the mapper, where there is no prompt, or an accepted answer to
    the raw job's prompt, completed by the validation. -/
inductive Origin (J : List NormalizeEvent) (raw : RawJob) (job : CanonicalJobSchema) : Prop
  | mapped (h : stage.source.mapRawJob raw = .ok job) (hprompt : stage.promptOf raw = .ok none)
  | answered (prompt : AINormalizationPromptInput) (output : CanonicalJobSchema)
      (hprompt : stage.promptOf raw = .ok (some prompt)) (haccepted : .accepted prompt output ∈ J)
      (hjob : stage.client.text.completeJob prompt output = .ok job)

/-- The accepted answer has been written. -/
def Settled (J : List NormalizeEvent) (prompt : AINormalizationPromptInput)
    (output : CanonicalJobSchema) : Prop :=
  ∃ raw job, .wrote raw job ∈ J ∧ stage.promptOf raw = .ok (some prompt) ∧
    job.identity = output.identity

/-- Every accepted answer has been written. -/
def Complete (J : List NormalizeEvent) : Prop :=
  ∀ prompt output, .accepted prompt output ∈ J → stage.Settled J prompt output

/-- What holds along a stage that began in `s₀` and has since had the events `J`. -/
structure Trace (s : StageSession) (J : List NormalizeEvent) : Prop where
  journal : s.journal = s₀.journal ++ J
  stored : s.stored = s₀.stored ++ J.filterMap NormalizeEvent.wrote?
  origin : ∀ raw job, .wrote raw job ∈ J → raw ∈ rawJobs ∧ stage.Origin J raw job
  frame : ∀ identity, (∀ raw job, .wrote raw job ∈ J → job.identity ≠ identity) →
    s.tables.jobs.findNormalizedJob identity = s₀.tables.jobs.findNormalizedJob identity ∧
      s.committed.jobs.findNormalizedJob identity = s₀.tables.jobs.findNormalizedJob identity

/-- The trace of the stage meets `K`. -/
def Holds (K : List NormalizeEvent → Prop) (s : StageSession) : Prop :=
  ∃ J, stage.Trace rawJobs s₀ s J ∧ K J

/-- The stage has a trace. -/
abbrev Sound (s : StageSession) : Prop := stage.Holds rawJobs s₀ (fun _ => True) s

variable {stage rawJobs s₀} {K K' : List NormalizeEvent → Prop} {J : List NormalizeEvent}
  {raw : RawJob} {job : CanonicalJobSchema}

theorem Origin.append (h : stage.Origin J raw job) (J' : List NormalizeEvent) :
    stage.Origin (J ++ J') raw job := by
  cases h with
  | mapped h hprompt => exact .mapped h hprompt
  | answered prompt output hprompt haccepted hjob =>
    exact .answered prompt output hprompt (List.mem_append_left J' haccepted) hjob

theorem Settled.append {prompt : AINormalizationPromptInput} {output : CanonicalJobSchema}
    (h : stage.Settled J prompt output) (J' : List NormalizeEvent) :
    stage.Settled (J ++ J') prompt output := by
  obtain ⟨raw, job, hwrote, hrest⟩ := h
  exact ⟨raw, job, List.mem_append_left J' hwrote, hrest⟩

theorem Holds.weaken {s : StageSession} (h : stage.Holds rawJobs s₀ K s)
    (hK : ∀ J, K J → K' J) : stage.Holds rawJobs s₀ K' s := by
  obtain ⟨J, htrace, hJ⟩ := h
  exact ⟨J, htrace, hK J hJ⟩

theorem Holds.sound {s : StageSession} (h : stage.Holds rawJobs s₀ K s) :
    stage.Sound rawJobs s₀ s := h.weaken fun _ _ => trivial

theorem Holds.kept {q : Bool} : KeptByQuiet q (stage.Holds rawJobs s₀ K) := by
  rintro s s' hquiet ⟨J, htrace, hJ⟩
  refine ⟨J, ⟨hquiet.journal.trans htrace.journal, hquiet.stored.trans htrace.stored, htrace.origin,
    fun identity hnone => ?_⟩, hJ⟩
  obtain ⟨htables, hcommitted⟩ := htrace.frame identity hnone
  constructor
  · rcases hquiet.tables with h | h <;> rw [h]
    · exact htables
    · exact hcommitted
  · rcases hquiet.committed with h | h <;> rw [h]
    · exact hcommitted
    · exact htables

theorem Holds.counted {s : StageSession} (h : stage.Holds rawJobs s₀ K s) :
    stage.Holds rawJobs s₀ K s.countNormalized := by
  obtain ⟨J, htrace, hJ⟩ := h
  exact ⟨J, ⟨htrace.journal, htrace.stored, htrace.origin, htrace.frame⟩, hJ⟩

/-! ### The steps of the stage -/

/-- The write: the only step that adds a row to the journal. -/
theorem triple_upsert (hraw : raw ∈ rawJobs) (horigin : ∀ J, K J → stage.Origin J raw job)
    (hK : ∀ J, K J → K' (J ++ [.wrote raw job])) :
    Triple (stage.Holds rawJobs s₀ K) (upsertNormalizedJobWithRetry stage.env raw job)
      (fun _ => stage.Holds rawJobs s₀ K') (fun _ => stage.Holds rawJobs s₀ K) := by
  refine Holds.kept.dbOperationWithRetry fun s hs => ?_
  obtain ⟨J, htrace, hJ⟩ := hs
  refine ⟨J ++ [.wrote raw job], ⟨?_, ?_, ?_, ?_⟩, hK J hJ⟩
  · change s.journal ++ [_] = _
    rw [htrace.journal, List.append_assoc]
  · rw [stored_upsert, htrace.stored, List.filterMap_append, List.append_assoc]
    rfl
  · intro raw' job' hwrote
    rcases List.mem_append.mp hwrote with hold | hnew
    · obtain ⟨hmem, hfrom⟩ := htrace.origin raw' job' hold
      exact ⟨hmem, hfrom.append _⟩
    · obtain ⟨rfl, rfl⟩ := NormalizeEvent.wrote.inj (List.mem_singleton.mp hnew)
      exact ⟨hraw, (horigin J hJ).append _⟩
  · intro identity hnone
    obtain ⟨htables, hcommitted⟩ := htrace.frame identity fun raw' job' hold =>
      hnone raw' job' (List.mem_append_left _ hold)
    have hne := hnone raw job (List.mem_append_right _ List.mem_cons_self)
    refine ⟨?_, hcommitted⟩
    rw [← htables]
    exact findNormalizedJob_upsertNormalizedJob_of_ne _ _ _ _ hne

theorem triple_storeNormalized (item : AINormalizationBatchPromptItem) (hraw : raw ∈ rawJobs)
    (horigin : ∀ J, K J → stage.Origin J raw job) (hK : ∀ J, K J → K' (J ++ [.wrote raw job])) :
    Triple (stage.Holds rawJobs s₀ K) (stage.storeNormalized raw item job)
      (fun _ => stage.Holds rawJobs s₀ K') (fun _ => stage.Sound rawJobs s₀) := by
  have hupsert : Triple (stage.Holds rawJobs s₀ K) _ _ (fun _ => stage.Sound rawJobs s₀) :=
    (triple_upsert hraw horigin hK).weaken_error fun _ _ => Holds.sound
  exact hupsert.bind fun normalizedJobId =>
    Holds.kept.afterUpsert stage raw item normalizedJobId (fun _ => Holds.counted)
      fun _ _ => Holds.sound

/-! ### Single requests -/

/-- The prompt names the identity of the raw job, when that is of the source's platform. -/
theorem identity_of_promptOf {prompt : AINormalizationPromptInput}
    (hplatform : raw.sourcePlatform = stage.sourcePlatform)
    (h : stage.promptOf raw = .ok (some prompt)) : prompt.identity = raw.identity := by
  unfold promptOf promptInputFromRawJob at h
  split at h
  · cases h
  · rw [sourcePlatform, sourcePlatformEnum_value] at h
    cases h
    exact Prod.ext hplatform.symm rfl

/-- The item made of a prompt stands for that prompt in a batch. -/
theorem promptFor_of_promptOf {prompt : AINormalizationPromptInput} {itemId : String}
    {items : List AINormalizationBatchPromptItem} (h : stage.promptOf raw = .ok (some prompt)) :
    AINormalizationBatchPromptInput.promptFor
      { items := items, outputLanguage := stage.config.aiOutputLanguage }
      { itemId := itemId, sourcePlatform := prompt.sourcePlatform
        endpointType := prompt.endpointType, rawPayloadSubset := prompt.rawPayloadSubset }
      = prompt := by
  unfold promptOf promptInputFromRawJob at h
  split at h
  · cases h
  · rw [sourcePlatform, sourcePlatformEnum_value] at h
    cases h
    rfl

/-- A mapped job has the identity of the raw job. -/
theorem identity_of_mapRawJob (hplatform : raw.sourcePlatform = stage.sourcePlatform)
    (h : stage.source.mapRawJob raw = .ok job) : job.identity = raw.identity := by
  unfold NormalizeSource.mapRawJob at h
  obtain ⟨described, -, h⟩ := ok_bind_iff.mp h
  split at h
  · cases h
    exact Prod.ext hplatform.symm rfl
  · cases h

/-- A job is on hand for `raw`: once written, every accepted answer has been. -/
structure OnHand (stage : NormalizeStage) (raw : RawJob) (job : CanonicalJobSchema)
    (J : List NormalizeEvent) : Prop where
  origin : stage.Origin J raw job
  complete : stage.Complete (J ++ [.wrote raw job])

theorem Complete.append_wrote (h : stage.Complete J) (raw : RawJob) (job : CanonicalJobSchema) :
    stage.Complete (J ++ [.wrote raw job]) := by
  intro prompt output haccepted
  rcases List.mem_append.mp haccepted with hold | hnew
  · exact (h prompt output hold).append _
  · cases List.mem_singleton.mp hnew

theorem triple_storeOnHand (item : AINormalizationBatchPromptItem) (hraw : raw ∈ rawJobs) :
    Triple (stage.Holds rawJobs s₀ (OnHand stage raw job)) (stage.storeNormalized raw item job)
      (fun _ => stage.Holds rawJobs s₀ stage.Complete) (fun _ => stage.Sound rawJobs s₀) :=
  triple_storeNormalized item hraw (fun _ => OnHand.origin) fun _ => OnHand.complete

/-- The next position changes nothing a trace speaks of. -/
theorem triple_nextCall {E : PyException → StageSession → Prop} :
    Triple (stage.Holds rawJobs s₀ K) nextCall (fun _ => stage.Holds rawJobs s₀ K) E := by
  refine .update fun s hs => ?_
  obtain ⟨J, htrace, hJ⟩ := hs
  exact ⟨J, ⟨htrace.journal, htrace.stored, htrace.origin, htrace.frame⟩, hJ⟩

/-- Accepted answers join the trace. -/
theorem triple_logAccepted {events : List NormalizeEvent} {E : PyException → StageSession → Prop}
    (hevents : ∀ raw job, .wrote raw job ∉ events) (hK : ∀ J, K J → K' (J ++ events)) :
    Triple (stage.Holds rawJobs s₀ K) (logEvents events) (fun _ => stage.Holds rawJobs s₀ K') E := by
  refine .change fun s hs => ?_
  obtain ⟨J, htrace, hJ⟩ := hs
  refine ⟨J ++ events, ⟨?_, ?_, fun raw job hwrote => ?_, fun identity hnone => ?_⟩, hK J hJ⟩
  · change s.journal ++ events = _
    rw [htrace.journal, List.append_assoc]
  · have hnone : events.filterMap NormalizeEvent.wrote? = [] := by
      refine List.filterMap_eq_nil_iff.mpr fun event hevent => ?_
      cases event with
      | accepted prompt output => rfl
      | wrote raw job => exact absurd hevent (hevents raw job)
    rw [List.filterMap_append, hnone, List.append_nil]
    exact htrace.stored
  · have hold := (List.mem_append.mp hwrote).resolve_right (hevents raw job)
    obtain ⟨hmem, hfrom⟩ := htrace.origin raw job hold
    exact ⟨hmem, hfrom.append _⟩
  · exact htrace.frame identity fun raw job hold => hnone raw job (List.mem_append_left _ hold)

theorem triple_normalizeJob {prompt : AINormalizationPromptInput}
    (hprompt : stage.promptOf raw = .ok (some prompt)) :
    Triple (stage.Holds rawJobs s₀ stage.Complete) (stage.client.normalizeJob prompt)
      (fun job => stage.Holds rawJobs s₀ (OnHand stage raw job))
      (fun _ => stage.Holds rawJobs s₀ stage.Complete) := by
  refine triple_nextCall.bind fun call => ?_
  refine (Triple.ofExcept (stage.client.answerJob call prompt)).bind fun output => ?_
  refine .of_fact fun _ => ?_
  refine (Triple.ofExcept _).bind fun job => ?_
  refine .of_fact fun hvalidated => ?_
  obtain ⟨answer, rfl, hjob⟩ :=
    NormalizationText.validateAiNormalizationOutput_ok (ok_mapError_iff.mp hvalidated)
  refine (triple_logAccepted (by simp) fun J hJ => ?_).bind fun _ => .pure fun _ => id
  refine ⟨.answered prompt answer hprompt (by simp) hjob, ?_⟩
  intro prompt' output' haccepted
  simp only [Option.toList_some, List.map_cons, List.map_nil, List.append_assoc, List.mem_append,
    List.mem_singleton] at haccepted
  rcases haccepted with hold | hnew | hwrote
  · exact ((hJ prompt' output' hold).append _).append _
  · obtain ⟨rfl, rfl⟩ := NormalizeEvent.accepted.inj hnew
    exact ⟨raw, job, by simp, hprompt, NormalizationText.completeJob_identity hjob⟩
  · cases hwrote

theorem triple_mapStoredRawJob (raw : RawJob) :
    Triple (stage.Holds rawJobs s₀ stage.Complete) (stage.mapStoredRawJob raw)
      (fun job => stage.Holds rawJobs s₀ (OnHand stage raw job))
      (fun _ => stage.Holds rawJobs s₀ stage.Complete) := by
  refine (Triple.ofExcept (stage.source.mapRawJob raw)).bind fun mapped => ?_
  refine .of_fact fun hmapped => ?_
  refine (Triple.ofExcept (stage.promptOf raw)).bind fun prompt => ?_
  refine .of_fact fun hprompt => ?_
  cases prompt with
  | none =>
    exact .pure fun _ hs => hs.weaken fun J hJ =>
      ⟨.mapped hmapped hprompt, hJ.append_wrote raw mapped⟩
  | some prompt =>
    exact (triple_normalizeJob hprompt).handle fun exc => .raise fun _ => id

theorem triple_normalizeSingle {entry : RawJob × AINormalizationBatchPromptItem}
    (hraw : entry.1 ∈ rawJobs) :
    Triple (stage.Holds rawJobs s₀ stage.Complete) (stage.normalizeSingle entry)
      (fun _ => stage.Holds rawJobs s₀ stage.Complete) (fun _ => stage.Sound rawJobs s₀) := by
  refine (Holds.kept.commitNormalizeProgress.weaken_error fun _ _ => Holds.sound).bind fun _ => ?_
  refine (triple_mapStoredRawJob entry.1).attempt.bind fun result => ?_
  cases result with
  | ok job => exact triple_storeOnHand entry.2 hraw
  | error exc =>
    exact (Holds.kept.recordNormalizeFailure stage _ _).bind fun _ =>
      (Holds.kept.recordNormalizationAiLog stage _ _ _ _ _ _).weaken_error fun _ _ => Holds.sound

/-! ### Batches -/

/-- An entry of `raw_by_item_id` with the prompt it stands for. -/
structure GoodEntry (stage : NormalizeStage) (rawJobs : List RawJob)
    (entry : RawJob × AINormalizationBatchPromptItem) : Prop where
  raw_mem : entry.1 ∈ rawJobs
  itemId : entry.2.itemId = entry.1.id
  prompt : ∀ items, stage.promptOf entry.1 = .ok (some
    (AINormalizationBatchPromptInput.promptFor
      { items := items, outputLanguage := stage.config.aiOutputLanguage } entry.2))

/-- What `_normalize_batch` has collected: good entries of distinct raw jobs. -/
structure GoodItems (stage : NormalizeStage) (rawJobs rawBatch : List RawJob) (items : PromptItems) :
    Prop where
  good : ∀ entry ∈ items, GoodEntry stage rawJobs entry
  sublist : (items.map Prod.fst).Sublist rawBatch

theorem triple_promptItem (hraw : raw ∈ rawJobs) :
    Triple (stage.Holds rawJobs s₀ stage.Complete) (stage.promptItem raw)
      (fun item s => stage.Holds rawJobs s₀ stage.Complete s ∧
        GoodItems stage rawJobs [raw] item.toList) (fun _ => stage.Sound rawJobs s₀) := by
  unfold promptItem
  split
  · exact (Holds.kept.recordNormalizeFailure stage _ _).bind fun _ =>
      .pure fun s hs => ⟨hs, by simp, by simp⟩
  · next mapped hmapped =>
    refine ((Triple.ofExcept (stage.promptOf raw)).weaken_error fun _ _ => Holds.sound).bind fun prompt => ?_
    refine .of_fact fun hprompt => ?_
    cases prompt with
    | none =>
      have hupsert : Triple (stage.Holds rawJobs s₀ stage.Complete)
          (upsertNormalizedJobWithRetry stage.env raw mapped)
          (fun _ => stage.Holds rawJobs s₀ stage.Complete) (fun _ => stage.Sound rawJobs s₀) :=
        (triple_upsert hraw (fun _ _ => .mapped hmapped hprompt) fun J hJ =>
          Complete.append_wrote hJ raw mapped).weaken_error fun _ _ => Holds.sound
      have hcount : Triple (stage.Holds rawJobs s₀ stage.Complete) countNormalized
          (fun _ => stage.Holds rawJobs s₀ stage.Complete) (fun _ => stage.Sound rawJobs s₀) :=
        .change fun _ => Holds.counted
      exact hupsert.bind fun _ => (Holds.kept.resolve stage _).bind fun _ => hcount.bind fun _ =>
        .pure fun s hs => ⟨hs, by simp, by simp⟩
    | some prompt =>
      refine .pure fun s hs => ⟨hs, fun entry hentry => ?_, by simp⟩
      rw [Option.toList_some, List.mem_singleton] at hentry
      subst hentry
      refine ⟨hraw, rfl, fun items => ?_⟩
      rw [hprompt, promptFor_of_promptOf hprompt]

theorem triple_promptItems (rawBatch : List RawJob) (hbatch : ∀ raw ∈ rawBatch, raw ∈ rawJobs) :
    Triple (stage.Holds rawJobs s₀ stage.Complete) (stage.promptItems rawBatch)
      (fun items s => stage.Holds rawJobs s₀ stage.Complete s ∧
        GoodItems stage rawJobs rawBatch items) (fun _ => stage.Sound rawJobs s₀) := by
  induction rawBatch with
  | nil => exact .pure fun s hs => ⟨hs, by simp, by simp⟩
  | cons raw rest ih =>
    refine (triple_promptItem (hbatch raw List.mem_cons_self)).bind fun item => ?_
    refine .of_fact fun hitem => ?_
    refine (ih fun raw' hraw' => hbatch raw' (List.mem_cons_of_mem raw hraw')).bind fun items => ?_
    refine .of_fact fun hitems => .pure fun s hs => ⟨hs, fun entry hentry => ?_, ?_⟩
    · exact (List.mem_append.mp hentry).elim (hitem.good entry) (hitems.good entry)
    · rw [List.map_append]
      exact hitem.sublist.append hitems.sublist

/-- The accepted jobs of a batch are among its completed entries. -/
theorem completed_of_zip {items : List AINormalizationBatchPromptItem}
    {results validated : List AINormalizationBatchItemResult}
    (hids : results.map (fun result => result.itemId.1) = items.map (·.itemId))
    (hcompleted : List.Forall₂ NormalizationText.Completes results validated) :
    ∀ entry ∈ items.zip results, ∀ output, entry.2.normalizedJob = some output →
      ∃ completed ∈ validated, completed.itemId.1 = entry.1.itemId ∧
        ∃ job, completed.normalizedJob = some job ∧ job.identity = output.identity := by
  induction hcompleted generalizing items with
  | nil => simp
  | @cons result completed results validated hfirst _ ih =>
    cases items with
    | nil => cases hids
    | cons item items =>
      rw [List.map_cons, List.map_cons, List.cons.injEq] at hids
      obtain ⟨hid, hids⟩ := hids
      intro entry hentry output houtput
      rw [List.zip_cons_cons, List.mem_cons] at hentry
      rcases hentry with rfl | hentry
      · have hsome := hfirst.identity
        rw [houtput, Option.map_some, Option.map_eq_some_iff] at hsome
        exact ⟨completed, List.mem_cons_self, by rw [hfirst.itemId, hid], hsome⟩
      · obtain ⟨completed', hmem, hrest⟩ := ih hids entry hentry output houtput
        exact ⟨completed', List.mem_cons_of_mem _ hmem, hrest⟩

/-- The items of a batch and the entries of its answer go together. -/
theorem itemId_of_mem_zip {items : List AINormalizationBatchPromptItem}
    {results : List AINormalizationBatchItemResult}
    (hids : results.map (fun result => result.itemId.1) = items.map (·.itemId)) :
    ∀ entry ∈ items.zip results, entry.2.itemId.1 = entry.1.itemId := by
  induction items generalizing results with
  | nil => simp
  | cons item items ih =>
    cases results with
    | nil => simp
    | cons result results =>
      rw [List.map_cons, List.map_cons, List.cons.injEq] at hids
      rw [List.zip_cons_cons]
      exact List.forall_mem_cons.mpr ⟨hids.1, ih hids.2⟩

/-- The batch prompt of the items. -/
def batchPrompt (stage : NormalizeStage) (items : PromptItems) : AINormalizationBatchPromptInput :=
  { items := items.map Prod.snd, outputLanguage := stage.config.aiOutputLanguage }

/-- The validated entry answers the prompt of an item with a job of this identity. -/
def Answers (stage : NormalizeStage) (items : PromptItems)
    (result : AINormalizationBatchItemResult) (prompt : AINormalizationPromptInput)
    (identity : String × String) : Prop :=
  ∃ entry ∈ items, entry.2.itemId = result.itemId.1 ∧
    prompt = (batchPrompt stage items).promptFor entry.2 ∧
    ∃ job, result.normalizedJob = some job ∧ job.identity = identity

/-- While the entries `rest` of a batch answer are to be stored: every accepted answer has been
    written or is answered by one of them, and each of their jobs has been accepted. -/
structure Pending (stage : NormalizeStage) (items : PromptItems)
    (rest : List AINormalizationBatchItemResult) (J : List NormalizeEvent) : Prop where
  complete : ∀ prompt output, .accepted prompt output ∈ J →
    stage.Settled J prompt output ∨ ∃ result ∈ rest, Answers stage items result prompt output.identity
  accepted : ∀ result ∈ rest, ∀ job, result.normalizedJob = some job →
    ∃ entry ∈ items, entry.2.itemId = result.itemId.1 ∧ ∃ output,
      .accepted ((batchPrompt stage items).promptFor entry.2) output ∈ J ∧
        stage.client.text.completeJob ((batchPrompt stage items).promptFor entry.2) output = .ok job

theorem mem_acceptedEvents {input : AINormalizationBatchPromptInput}
    {results : List AINormalizationBatchItemResult} {prompt : AINormalizationPromptInput}
    {output : CanonicalJobSchema} :
    .accepted prompt output ∈ acceptedEvents input results ↔
      ∃ entry ∈ input.items.zip results, entry.2.normalizedJob = some output ∧
        input.promptFor entry.1 = prompt := by
  simp [acceptedEvents, List.mem_filterMap, Option.map_eq_some_iff, and_comm]

theorem triple_normalizeJobs (items : PromptItems) :
    Triple (stage.Holds rawJobs s₀ stage.Complete)
      (stage.client.normalizeJobs (batchPrompt stage items))
      (fun results => stage.Holds rawJobs s₀ (Pending stage items results))
      (fun _ => stage.Holds rawJobs s₀ stage.Complete) := by
  unfold AiClient.normalizeJobs
  refine .ite (fun _ => .raise fun _ => id) fun _ => ?_
  refine triple_nextCall.bind fun call => ?_
  refine (Triple.ofExcept _).bind fun output => .of_fact fun _ => ?_
  refine (Triple.ofExcept _).bind fun validated => .of_fact fun hvalidated => ?_
  obtain ⟨answer, rfl, hids, hcompleted, hitems⟩ :=
    NormalizationText.validateAiNormalizationBatchOutput_ok (ok_mapError_iff.mp hvalidated)
  refine (triple_logAccepted (by simp [acceptedEvents]) fun J hJ => ?_).bind fun _ =>
    .pure fun _ => id
  constructor
  · intro prompt output haccepted
    rcases List.mem_append.mp haccepted with hold | hnew
    · exact .inl ((hJ prompt output hold).append _)
    · obtain ⟨entry, hzip, houtput, rfl⟩ := mem_acceptedEvents.mp hnew
      obtain ⟨item, hitem, heq⟩ := List.mem_map.mp (List.of_mem_zip hzip).1
      obtain ⟨result, hresult, hid, hjob⟩ :=
        completed_of_zip hids hcompleted entry hzip output houtput
      exact .inr ⟨result, hresult, item, hitem, by rw [heq, hid], by rw [heq], hjob⟩
  · intro result hresult job hjob
    obtain ⟨entry, hzip, hid, output, houtput, hcomplete⟩ :=
      NormalizationText.completeItems_job _ _ _ hitems result hresult job hjob
    obtain ⟨item, hitem, heq⟩ := List.mem_map.mp (List.of_mem_zip hzip).1
    refine ⟨item, hitem, by rw [heq, hid, itemId_of_mem_zip hids entry hzip], output,
      List.mem_append_right _ ?_, by rwa [heq]⟩
    exact mem_acceptedEvents.mpr ⟨entry, hzip, houtput, by rw [heq]⟩

/-- Storing one entry of a batch answer. -/
theorem triple_storeBatchItem {items : PromptItems}
    (hgood : ∀ entry ∈ items, GoodEntry stage rawJobs entry)
    (hnodup : (items.map fun entry => entry.2.itemId).Nodup)
    (result : AINormalizationBatchItemResult) (rest : List AINormalizationBatchItemResult) :
    Triple (stage.Holds rawJobs s₀ (Pending stage items (result :: rest)))
      (stage.storeBatchItem items result)
      (fun _ => stage.Holds rawJobs s₀ (Pending stage items rest))
      (fun _ => stage.Sound rawJobs s₀) := by
  unfold storeBatchItem
  split
  · exact .raise fun _ => Holds.sound
  · next raw item hfind =>
    have hmem := List.mem_of_find?_eq_some hfind
    have hid : item.itemId = result.itemId.1 := by simpa using List.find?_some hfind
    have hunique : ∀ entry ∈ items, entry.2.itemId = result.itemId.1 → entry = (raw, item) :=
      fun entry hentry heq => List.inj_on_of_nodup_map hnodup hentry hmem (heq.trans hid.symm)
    obtain ⟨hraw, -, hprompt⟩ := hgood _ hmem
    split
    · next job hjob =>
      refine triple_storeNormalized item hraw (fun J hJ => ?_) fun J hJ => ⟨?_, ?_⟩
      · obtain ⟨entry, hentry, heq, output, haccepted, hcomplete⟩ :=
          hJ.accepted result List.mem_cons_self job hjob
        rw [hunique entry hentry heq] at haccepted hcomplete
        exact .answered _ output (hprompt _) haccepted hcomplete
      · intro prompt output haccepted
        have hold : .accepted prompt output ∈ J := by simpa using haccepted
        rcases hJ.complete prompt output hold with hsettled | ⟨result', hresult', hanswers⟩
        · exact .inl (hsettled.append _)
        · rcases List.mem_cons.mp hresult' with rfl | hresult'
          · obtain ⟨entry, hentry, heq, rfl, job', hjob', hidentity⟩ := hanswers
            rw [hunique entry hentry heq]
            rw [hjob] at hjob'
            cases hjob'
            exact .inl ⟨raw, job, by simp, hprompt _, hidentity⟩
          · exact .inr ⟨result', hresult', hanswers⟩
      · intro result' hresult' job' hjob'
        obtain ⟨entry, hentry, heq, output, haccepted, hcomplete⟩ :=
          hJ.accepted result' (List.mem_cons_of_mem _ hresult') job' hjob'
        exact ⟨entry, hentry, heq, output, List.mem_append_left _ haccepted, hcomplete⟩
    · next hjob =>
      have hweaken : ∀ J, Pending stage items (result :: rest) J → Pending stage items rest J := by
        intro J hJ
        refine ⟨fun prompt output haccepted => ?_, fun result' hresult' =>
          hJ.accepted result' (List.mem_cons_of_mem _ hresult')⟩
        rcases hJ.complete prompt output haccepted with hsettled | ⟨result', hresult', hanswers⟩
        · exact .inl hsettled
        · rcases List.mem_cons.mp hresult' with rfl | hresult'
          · obtain ⟨-, -, -, -, job', hjob', -⟩ := hanswers
            rw [hjob] at hjob'
            cases hjob'
          · exact .inr ⟨result', hresult', hanswers⟩
      refine (Holds.kept.recordNormalizeFailure stage _ _).bind fun _ => ?_
      exact (Holds.kept.recordNormalizationAiLog stage _ _ _ _ _ _).conseq (fun _ => id)
        (fun _ _ hs => hs.weaken hweaken) fun _ _ => Holds.sound

theorem triple_normalizeItems {items : PromptItems}
    (hgood : ∀ entry ∈ items, GoodEntry stage rawJobs entry)
    (hnodup : (items.map fun entry => entry.2.itemId).Nodup) :
    Triple (stage.Holds rawJobs s₀ stage.Complete) (stage.normalizeItems items)
      (fun _ => stage.Holds rawJobs s₀ stage.Complete) (fun _ => stage.Sound rawJobs s₀) := by
  unfold normalizeItems
  refine .ite (fun _ => .pure fun _ => id) fun _ => .ite (fun _ => ?_) fun _ => ?_
  · refine (Holds.kept.commitNormalizeProgress.weaken_error fun _ _ => Holds.sound).bind fun _ => ?_
    refine (triple_normalizeJobs items).attempt.bind fun answer => ?_
    cases answer with
    | error exc =>
      exact .forEach_inv items fun entry _ => (Holds.kept.recordNormalizeFailure stage _ _).bind fun _ =>
        (Holds.kept.recordNormalizationAiLog stage _ _ _ _ _ _).weaken_error fun _ _ => Holds.sound
    | ok results =>
      have hloop := Triple.forEach (f := stage.storeBatchItem items)
        (I := fun done => stage.Holds rawJobs s₀ (Pending stage items (results.drop done.length)))
        (E := fun _ => stage.Sound rawJobs s₀) results fun done result rest hsplit => by
          have hdrop : results.drop done.length = result :: rest := by simp [hsplit]
          have hdrop' : results.drop (done ++ [result]).length = rest := by simp [hsplit]
          rw [hdrop, hdrop']
          exact triple_storeBatchItem hgood hnodup result rest
      refine hloop.conseq (fun _ => id) (fun _ s hs => hs.weaken fun J hJ prompt output hmem => ?_)
        fun _ _ => id
      rw [List.drop_length] at hJ
      exact (hJ.complete prompt output hmem).resolve_right (by simp)
  · exact .forEach_inv items fun entry hentry => triple_normalizeSingle (hgood entry hentry).raw_mem

theorem triple_normalizeBatch {rawBatch : List RawJob} (hbatch : rawBatch.Sublist rawJobs)
    (hnodup : (rawJobs.map RawJob.id).Nodup) :
    Triple (stage.Holds rawJobs s₀ stage.Complete) (stage.normalizeBatch rawBatch)
      (fun _ => stage.Holds rawJobs s₀ stage.Complete) (fun _ => stage.Sound rawJobs s₀) := by
  refine (triple_promptItems rawBatch fun raw hraw => hbatch.subset hraw).bind fun items => ?_
  refine .of_fact fun hitems => triple_normalizeItems hitems.good ?_
  have hids : items.map (fun entry => entry.2.itemId) = (items.map Prod.fst).map RawJob.id := by
    rw [List.map_map]
    exact List.map_congr_left fun entry hentry => (hitems.good entry hentry).itemId
  rw [hids]
  exact hnodup.sublist ((hitems.sublist.trans hbatch).map _)

theorem sublist_of_mem_chunked {α : Type} {size : ℕ} {items chunk : List α}
    (h : chunk ∈ chunked size items) : chunk.Sublist items := by
  obtain ⟨index, -, rfl⟩ := List.mem_map.mp h
  exact (List.take_sublist _ _).trans (List.drop_sublist _ _)

/-- The whole stage: it has a trace, and one that is complete when it ends without raising. -/
theorem triple_normalizeSourceWithAiBatch (hnodup : (rawJobs.map RawJob.id).Nodup) :
    Triple (stage.Holds rawJobs s₀ stage.Complete) (stage.normalizeSourceWithAiBatch rawJobs)
      (fun _ => stage.Holds rawJobs s₀ stage.Complete) (fun _ => stage.Sound rawJobs s₀) := by
  refine .forEach_inv _ fun rawBatch hbatch => ?_
  have hcommit : Triple (stage.Holds rawJobs s₀ stage.Complete) (commitNormalizeProgress stage.env)
      (fun _ => stage.Holds rawJobs s₀ stage.Complete) (fun _ => stage.Sound rawJobs s₀) :=
    Holds.kept.commitNormalizeProgress.weaken_error fun _ _ => Holds.sound
  exact hcommit.bind fun _ =>
    (triple_normalizeBatch (sublist_of_mem_chunked hbatch) hnodup).bind fun _ => hcommit

theorem mem_normalizeScope {db : JobTables} {platform : String} {scrapeRunId : Option String}
    (h : raw ∈ normalizeScope db platform scrapeRunId) : raw.sourcePlatform = platform := by
  unfold normalizeScope at h
  rw [List.mem_insertionSort, List.mem_filter] at h
  simp only [Bool.and_eq_true, decide_eq_true_eq] at h
  exact h.2.1

theorem nodup_normalizeScope (db : JobTables) (platform : String) (scrapeRunId : Option String) :
    ((normalizeScope db platform scrapeRunId).map RawJob.id).Nodup := by
  unfold normalizeScope
  rw [((List.perm_insertionSort _ _).map RawJob.id).nodup_iff]
  exact db.rawJobs.unique.sublist (List.filter_sublist.map _)

/-- BUG: nothing compares the identity in an accepted answer with the raw job it answers. If every
    accepted answer repeats the identity its prompt names, every row is written under the identity
    of the raw job processed, and no row of another identity changes; and a stage that ends
    without raising writes under the raw jobs' identities only if the answers did repeat them. -/
theorem rows_keep_identity_iff (scrapeRunId : Option String)
    (hscope : rawJobs.Sublist (normalizeScope s₀.tables.jobs stage.sourcePlatform scrapeRunId))
    (hcommitted : s₀.committed.jobs.normalizedJobs = s₀.tables.jobs.normalizedJobs) :
    ∃ J, (stage.normalizeSourceWithAiBatch rawJobs s₀).2.journal = s₀.journal ++ J ∧
      (∀ raw job, .wrote raw job ∈ J → raw ∈ rawJobs) ∧
      (EchoesIdentity J → KeepsIdentity J) ∧
      ((stage.normalizeSourceWithAiBatch rawJobs s₀).1 = .ok ⟨⟩ →
        KeepsIdentity J → EchoesIdentity J) ∧
      (EchoesIdentity J → ∀ identity,
        (∀ raw job, .wrote raw job ∈ J → raw.identity ≠ identity) →
          (stage.normalizeSourceWithAiBatch rawJobs s₀).2.tables.jobs.findNormalizedJob identity
            = s₀.tables.jobs.findNormalizedJob identity) := by
  have hplatform : ∀ raw ∈ rawJobs, raw.sourcePlatform = stage.sourcePlatform := fun raw hraw =>
    mem_normalizeScope (hscope.subset hraw)
  have hstart : stage.Holds rawJobs s₀ stage.Complete s₀ := by
    refine ⟨[], ⟨by simp, by simp, by simp, fun identity _ => ⟨rfl, ?_⟩⟩, by simp [Complete]⟩
    unfold JobTables.findNormalizedJob
    rw [hcommitted]
  have hrun := triple_normalizeSourceWithAiBatch
    ((nodup_normalizeScope _ _ _).sublist (hscope.map _)) s₀ hstart
  obtain ⟨J, htrace, hcomplete⟩ : ∃ J, stage.Trace rawJobs s₀
      (stage.normalizeSourceWithAiBatch rawJobs s₀).2 J ∧
      ((stage.normalizeSourceWithAiBatch rawJobs s₀).1 = .ok ⟨⟩ → stage.Complete J) := by
    revert hrun
    rcases stage.normalizeSourceWithAiBatch rawJobs s₀ with ⟨_ | _, s⟩
    · rintro ⟨J, htrace, -⟩
      exact ⟨J, htrace, fun h => by cases h⟩
    · rintro ⟨J, htrace, hJ⟩
      exact ⟨J, htrace, fun _ => hJ⟩
  have hkeeps : EchoesIdentity J → KeepsIdentity J := by
    intro hechoes raw job hwrote
    obtain ⟨hmem, horigin⟩ := htrace.origin raw job hwrote
    cases horigin with
    | mapped h => exact identity_of_mapRawJob (hplatform raw hmem) h
    | answered prompt output hprompt haccepted hjob =>
      rw [NormalizationText.completeJob_identity hjob, hechoes prompt output haccepted]
      exact identity_of_promptOf (hplatform raw hmem) hprompt
  refine ⟨J, htrace.journal, fun raw job hwrote => (htrace.origin raw job hwrote).1, hkeeps, ?_, ?_⟩
  · intro hok hkept prompt output haccepted
    obtain ⟨raw, job, hwrote, hprompt, hidentity⟩ := hcomplete hok prompt output haccepted
    have hmem := (htrace.origin raw job hwrote).1
    rw [← hidentity, hkept raw job hwrote, identity_of_promptOf (hplatform raw hmem) hprompt]
  · intro hechoes identity hnone
    refine (htrace.frame identity fun raw job hwrote => ?_).1
    rw [hkeeps hechoes raw job hwrote]
    exact hnone raw job hwrote

end NormalizeStage

/-- Text helpers that do what the real ones do on plain English text with nothing to complete. -/
def plainNormalizationText : NormalizationText :=
  { plainText with
    normalizeText := fun s => .ok (if strip s = "" then none else some s)
    benefitNoise := fun _ => false
    techTokens := fun _ => []
    parseDatetime := fun _ => .ok none
    normalizeSalary := fun salary => .ok (some salary)
    experienceLevelOf := fun _ _ _ => .ok .entryLevel
    textToDisplayHtml := fun s => some s
    indonesianSummary := fun title _ _ _ => title }

/-- A schema-valid job with a given external id and title. -/
def answerFor (externalId : NonEmptyStr) (title : NonEmptyStr) : CanonicalJobSchema where
  source :=
    { platform := .dealls, externalJobId := externalId, sourceUrl := ⟨"d.id", url_ne_empty⟩
      scrapedAt := 0 }
  title := title
  company := { name := ⟨"Ac", ac_ne_empty⟩ }
  employmentTypes_nodup := List.nodup_nil
  description := some "Go"
  skills_nodup := List.nodup_nil
  lastSeenAt := 0

/-- A raw job of Dealls. -/
def deallsRaw (id externalId : String) : RawJob where
  id := id
  scrapeRunId := "d-scrape"
  sourcePlatform := "dealls"
  externalId := externalId
  sourceUrl := none
  rawPayload := [("id", .str externalId)]
  metadataJson := none
  payloadHash := none
  scrapedAt := 0

/-- A stage whose AI answers every batch with one job of a given external id. -/
def answeringStage (externalId : NonEmptyStr) : NormalizeStage where
  env :=
    { host := ⟨fun t => t, fun _ => "n", fun _ => 0⟩
      hash := plainHash
      isoformat := fun _ => "1970-01-01"
      operationalError := fun _ => false
      sanitizeSummary := id
      safeMessage := id
      baseUrlAlias := none }
  config := { batchSize_pos := defaultBatchSize_pos }
  client :=
    { text := plainNormalizationText
      model := fun _ => "m"
      hasNormalizeJobs := true
      answerJob := fun _ _ => .ok (some (answerFor externalId ⟨"New", new_ne_empty⟩))
      answerJobs := fun _ _ => .ok (some
        ⟨[{ itemId := ⟨"r1", row_ne_empty⟩
            normalizedJob := some (answerFor externalId ⟨"New", new_ne_empty⟩)
            jobOrError := rfl }], by simp⟩) }
  source :=
    { platform := .dealls
      describe := fun raw => .ok (answerFor ⟨"x", by decide⟩ ⟨"Mapped", by decide⟩) }
  hasQuarantine := false

/-- One raw job, `1`, and a row stored earlier for another job, `9`. -/
def oneRawJob : StageSession :=
  let tables : StageTables :=
    { jobs :=
        { rawJobs := ⟨[deallsRaw "r1" "1"], by decide⟩
          normalizedJobs := ⟨[newNormalizedJob (fun _ => "1970-01-01") "old"
            (answerFor ⟨"9", nine_ne_empty⟩ ⟨"Old", old_ne_empty⟩) none], by decide⟩ } }
  { tables := tables, committed := tables, result := { sourcePlatform := "dealls", status := .started } }

/-- The answer to raw job `1` names `9`: it is accepted, the row of `9` is overwritten, and `1`
    counts as persisted without a row. -/
theorem answer_overwrites_other_job :
    let stage := answeringStage ⟨"9", nine_ne_empty⟩
    let after := (stage.normalizeSourceWithAiBatch [deallsRaw "r1" "1"] oneRawJob).2
    (oneRawJob.tables.jobs.findNormalizedJob ("dealls", "9")).map NormalizedJob.title = some "Old" ∧
      (after.tables.jobs.findNormalizedJob ("dealls", "9")).map NormalizedJob.title = some "New" ∧
      (after.tables.jobs.findNormalizedJob ("dealls", "1")).map NormalizedJob.title = none ∧
      after.result.counts.persisted = 1 ∧
      (after.journal.filterMap fun event => match event with
        | .wrote raw job => some (raw.identity, job.identity)
        | _ => none) = [(("dealls", "1"), ("dealls", "9"))] := by
  decide +kernel

theorem rows_keep_identity_iff_oneRawJob :
    let stage := answeringStage ⟨"1", one_ne_empty⟩
    let rawJobs := normalizeScope oneRawJob.tables.jobs "dealls" none
    ∃ J, (stage.normalizeSourceWithAiBatch rawJobs oneRawJob).2.journal = [] ++ J ∧
      (∀ raw job, .wrote raw job ∈ J → raw ∈ rawJobs) ∧
      (EchoesIdentity J → KeepsIdentity J) ∧
      ((stage.normalizeSourceWithAiBatch rawJobs oneRawJob).1 = .ok ⟨⟩ →
        KeepsIdentity J → EchoesIdentity J) ∧
      (EchoesIdentity J → ∀ identity,
        (∀ raw job, .wrote raw job ∈ J → raw.identity ≠ identity) →
          (stage.normalizeSourceWithAiBatch rawJobs
              oneRawJob).2.tables.jobs.findNormalizedJob identity
            = oneRawJob.tables.jobs.findNormalizedJob identity) :=
  NormalizeStage.rows_keep_identity_iff none (List.Sublist.refl _) rfl

end Bisakerja
