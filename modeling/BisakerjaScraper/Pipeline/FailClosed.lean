import BisakerjaScraper.Pipeline.Durable
import BisakerjaScraper.Pipeline.Identity
import BisakerjaScraper.Pipeline.Passes
import BisakerjaScraper.Pipeline.RunSource

/-! Which AI answers the rows come from.

    With an AI client every job that is written was accepted for the raw job it is written with.
    A raw job without a payload has no prompt, but no mapper gets through without one either. The
    row of a raw job without an answer can still change: an answer to another raw job may name its
    identity. -/

namespace Bisakerja
open Schemes

/-- The prompt asks about a job: it names its identity and carries its payload. -/
structure AINormalizationPromptInput.Asks (prompt : AINormalizationPromptInput)
    (identity : String × String) (payload : Dict) : Prop where
  identity : prompt.identity = identity
  payload : prompt.rawPayloadSubset.get "payload" = .dict payload

/-- An answer was accepted for a job, and the validation made of it what is stored. -/
def AcceptedFor (text : NormalizationText) (J : List NormalizeEvent) (identity : String × String)
    (payload : Dict) (job : CanonicalJobSchema) : Prop :=
  ∃ prompt output, prompt.Asks identity payload ∧ .accepted prompt output ∈ J ∧
    text.completeJob prompt output = .ok job

/-- Some answer was accepted to a prompt that names an identity. -/
def Answered (J : List NormalizeEvent) (identity : String × String) : Prop :=
  ∃ prompt output, .accepted prompt output ∈ J ∧ prompt.identity = identity

/-- Only answers to prompts that name an identity name it themselves. -/
def OwnAnswersOnly (J : List NormalizeEvent) (identity : String × String) : Prop :=
  ∀ prompt output, .accepted prompt output ∈ J → output.identity = identity →
    prompt.identity = identity

/-- The row was written as a job of a raw job. -/
structure NormalizedJob.WrittenAs (isoformat : Time → String) (raw : RawJob)
    (job : CanonicalJobSchema) (row : NormalizedJob) : Prop where
  identity : row.identity = job.identity
  holds : row.HoldsWrite isoformat (raw, job)

/-- What a run leaves of the rows of its start: every other row was written as an accepted answer to
    its raw job, and under an identity that no prompt with an accepted answer names, and no other
    answer either, nothing changes. -/
structure FailsClosed (isoformat : Time → String) (text : NormalizationText)
    (J : List NormalizeEvent) (start jobs : JobTables) : Prop where
  onlyAccepted : ∀ row ∈ jobs.normalizedJobs.rows, row ∈ start.normalizedJobs.rows ∨
    ∃ raw job, AcceptedFor text J raw.identity raw.rawPayload job ∧ row.WrittenAs isoformat raw job
  unanswered : ∀ identity, ¬ Answered J identity → OwnAnswersOnly J identity →
    jobs.findNormalizedJob identity = start.findNormalizedJob identity

theorem AcceptedFor.append {text : NormalizationText} {J : List NormalizeEvent}
    {identity : String × String} {payload : Dict} {job : CanonicalJobSchema}
    (h : AcceptedFor text J identity payload job) (J' : List NormalizeEvent) :
    AcceptedFor text (J ++ J') identity payload job := by
  obtain ⟨prompt, output, hasks, haccepted, hjob⟩ := h
  exact ⟨prompt, output, hasks, List.mem_append_left J' haccepted, hjob⟩

/-! ### The rows and the writes -/

/-- A normalized write adds or rewrites one row, that of the job. -/
theorem mem_upsertNormalizedJob {host : Host} {isoformat : Time → String} {raw : RawJob}
    {job : CanonicalJobSchema} {s : JobSession} {row : NormalizedJob}
    (h : row ∈ (upsertNormalizedJob host isoformat job (some raw.id)
      s).2.tables.normalizedJobs.rows) :
    row ∈ s.tables.normalizedJobs.rows ∨ row.WrittenAs isoformat raw job := by
  unfold upsertNormalizedJob at h
  cases hfind : s.tables.findNormalizedJob job.identity with
  | none =>
    rw [hfind] at h
    dsimp only at h
    unfold Table.insert at h
    split at h
    · exact .inl h
    · rcases List.mem_append.mp h with hold | hnew
      · exact .inl hold
      · rw [List.mem_singleton.mp hnew]
        exact .inr ⟨rfl, rfl⟩
  | some existing =>
    rw [hfind] at h
    obtain ⟨old, hold, heq⟩ := (Table.mem_modify _ _ _
      (NormalizedJob.rewrite_id isoformat job (some raw.id))).mp h
    split at heq
    · next hid =>
      have hexisting : existing ∈ s.tables.normalizedJobs.rows := List.mem_of_find?_eq_some hfind
      have hsame : old = existing :=
        List.inj_on_of_nodup_map s.tables.normalizedJobs.unique hold hexisting hid
      rw [← heq, hsame]
      have hidentity : existing.identity = job.identity := by simpa using List.find?_some hfind
      exact .inr ⟨hidentity, rfl⟩
    · rw [← heq]
      exact .inl hold

/-- Some tables hold the rows of the start and those that some writes left, and under the identities
    the writes do not name they show what the start shows. -/
structure RowsFrom (isoformat : Time → String) (start : JobTables)
    (writes : List (RawJob × CanonicalJobSchema)) (jobs : JobTables) : Prop where
  rows : ∀ row ∈ jobs.normalizedJobs.rows, row ∈ start.normalizedJobs.rows ∨
    ∃ write ∈ writes, row.WrittenAs isoformat write.1 write.2
  frame : ∀ identity, (∀ write ∈ writes, write.2.identity ≠ identity) →
    jobs.findNormalizedJob identity = start.findNormalizedJob identity

namespace RowsFrom

variable {isoformat : Time → String} {start jobs jobs' : JobTables}
  {writes : List (RawJob × CanonicalJobSchema)}

/-- Only the normalized rows count. -/
theorem congr (h : RowsFrom isoformat start writes jobs)
    (hjobs : jobs'.normalizedJobs = jobs.normalizedJobs) : RowsFrom isoformat start writes jobs' := by
  refine ⟨?_, fun identity hnone => ?_⟩
  · rw [hjobs]
    exact h.rows
  · rw [← h.frame identity hnone]
    unfold JobTables.findNormalizedJob
    rw [hjobs]

theorem append (h : RowsFrom isoformat start writes jobs)
    (more : List (RawJob × CanonicalJobSchema)) : RowsFrom isoformat start (writes ++ more) jobs := by
  refine ⟨fun row hrow => ?_, fun identity hnone => h.frame identity fun write hwrite =>
    hnone write (List.mem_append_left _ hwrite)⟩
  rcases h.rows row hrow with hold | ⟨write, hwrite, hwritten⟩
  · exact .inl hold
  · exact .inr ⟨write, List.mem_append_left _ hwrite, hwritten⟩

theorem upsert (h : RowsFrom isoformat start writes jobs) (host : Host) (raw : RawJob)
    (job : CanonicalJobSchema) (ticks : ℕ) :
    RowsFrom isoformat start (writes ++ [(raw, job)])
      (upsertNormalizedJob host isoformat job (some raw.id) { tables := jobs, ticks }).2.tables := by
  constructor
  · intro row hrow
    rcases mem_upsertNormalizedJob hrow with hold | hnew
    · exact (h.append _).rows row hold
    · exact .inr ⟨(raw, job), by simp, hnew⟩
  · intro identity hnone
    have hne : job.identity ≠ identity := hnone (raw, job) (by simp)
    rw [findNormalizedJob_upsertNormalizedJob_of_ne _ _ _ _ hne]
    exact (h.append _).frame identity hnone

/-- Where every write is an accepted answer, the rows fail closed. -/
theorem failsClosed_of_accepted {text : NormalizationText} {J : List NormalizeEvent}
    (h : RowsFrom isoformat start writes jobs) (haccepted : ∀ write ∈ writes,
      AcceptedFor text J write.1.identity write.1.rawPayload write.2) :
    FailsClosed isoformat text J start jobs := by
  refine ⟨fun row hrow => ?_, fun identity hnone hown => h.frame identity fun write hwrite heq => ?_⟩
  · rcases h.rows row hrow with hold | ⟨write, hwrite, hwritten⟩
    · exact .inl hold
    · exact .inr ⟨write.1, write.2, haccepted write hwrite, hwritten⟩
  · obtain ⟨prompt, output, -, hevent, hjob⟩ := haccepted write hwrite
    rw [NormalizationText.completeJob_identity hjob] at heq
    exact hnone ⟨prompt, output, hevent, hown prompt output hevent heq⟩

end RowsFrom

/-- Decisions store no job. -/
theorem stored_of_decided {s s' : StageSession} {rows : List NormalizationEligibilityDecision}
    (h : s'.history = s.history ++ [.wrote (.decided rows)]) : s'.stored = s.stored := by
  unfold StageSession.stored
  rw [h, txWrites_append, List.filterMap_append]
  exact List.append_nil _

/-- What is shown and what is committed come from the writes of the session. -/
structure RowsTraced (h : StageHost) (start : JobTables) (s : StageSession) : Prop where
  shown : RowsFrom h.isoformat start s.stored s.tables.jobs
  committed : RowsFrom h.isoformat start s.stored s.committed.jobs

/-- Every write of the session is an accepted answer to its raw job. -/
def AcceptedWrites (text : NormalizationText) (s : StageSession) : Prop :=
  ∀ write ∈ s.stored, AcceptedFor text s.journal write.1.identity write.1.rawPayload write.2

namespace RowsTraced

variable {h : StageHost} {q : Bool} {start : JobTables}

theorem quiet {s s' : StageSession} (hquiet : Quiet q s s') (hs : RowsTraced h start s) :
    RowsTraced h start s' := by
  constructor
  · rw [hquiet.stored]
    rcases hquiet.tables with htables | htables <;> rw [htables]
    · exact hs.shown
    · exact hs.committed
  · rw [hquiet.stored]
    rcases hquiet.committed with hcommitted | hcommitted <;> rw [hcommitted]
    · exact hs.committed
    · exact hs.shown

theorem kept (h : StageHost) (q : Bool) (start : JobTables) :
    KeptByStep h q (RowsTraced h start) := by
  intro s s' hstep hs
  cases hstep with
  | quiet hquiet => exact hs.quiet hquiet
  | noted htables hcommitted hhistory _ =>
    have hstored : s'.stored = s.stored := by
      unfold StageSession.stored
      rw [hhistory]
    constructor
    · rw [hstored, htables]
      exact hs.shown
    · rw [hstored, hcommitted]
      exact hs.committed
  | stored raw job =>
    constructor
    · rw [stored_upsert]
      exact hs.shown.upsert h.host raw job s.ticks
    · rw [stored_upsert]
      exact hs.committed.append _

theorem keptByDecided (h : StageHost) (start : JobTables) : KeptByDecided (RowsTraced h start) := by
  intro s rows decisions _ hs
  constructor
  · rw [stored_of_decided (s := s) rfl]
    exact hs.shown
  · rw [stored_of_decided (s := s) rfl]
    exact hs.committed

end RowsTraced

/-! ### The normalize stage -/

namespace NormalizeStage

variable {stage : NormalizeStage} {rawJobs : List RawJob} {s₀ s : StageSession}
  {J : List NormalizeEvent} {raw : RawJob} {job : CanonicalJobSchema}

/-- The prompt of a raw job asks about it. -/
theorem asks_of_promptOf {prompt : AINormalizationPromptInput}
    (hplatform : raw.sourcePlatform = stage.sourcePlatform)
    (h : stage.promptOf raw = .ok (some prompt)) : prompt.Asks raw.identity raw.rawPayload := by
  refine ⟨identity_of_promptOf hplatform h, ?_⟩
  unfold promptOf promptInputFromRawJob at h
  split at h
  · cases h
  · rw [sourcePlatform, sourcePlatformEnum_value] at h
    cases h
    rfl

/-- Only a raw job without a payload has no prompt. -/
theorem rawPayload_of_promptOf (h : stage.promptOf raw = .ok none) : raw.rawPayload = [] := by
  unfold promptOf promptInputFromRawJob at h
  split at h
  · next hempty => exact hempty
  · obtain ⟨_, -, hsome⟩ := ok_map_iff.mp h
    cases hsome

variable {mapper : MapperText} {platform : SourcePlatform}

/-- With a live source everything that is written is an accepted answer. -/
theorem Origin.acceptedFor (hsource : stage.source = mapper.livePipelineSource platform)
    (hplatform : raw.sourcePlatform = stage.sourcePlatform) (h : stage.Origin J raw job) :
    AcceptedFor stage.client.text J raw.identity raw.rawPayload job := by
  cases h with
  | mapped hmapped hprompt =>
    rw [hsource] at hmapped
    exact absurd hmapped (MapperText.mapRawJob_ne_ok_of_empty (rawPayload_of_promptOf hprompt))
  | answered prompt output hprompt haccepted hjob =>
    exact ⟨prompt, output, asks_of_promptOf hplatform hprompt, haccepted, hjob⟩

/-- A stage adds accepted answers to the writes. -/
theorem Trace.acceptedWrites (hsource : stage.source = mapper.livePipelineSource platform)
    (hplatform : ∀ raw ∈ rawJobs, raw.sourcePlatform = stage.sourcePlatform)
    (h : stage.Trace rawJobs s₀ s J) (hs : AcceptedWrites stage.client.text s₀) :
    AcceptedWrites stage.client.text s := by
  intro write hwrite
  rw [h.stored, List.mem_append] at hwrite
  rw [h.journal]
  rcases hwrite with hold | hnew
  · exact (hs write hold).append J
  · obtain ⟨event, hevent, hwrote⟩ := List.mem_filterMap.mp hnew
    cases event with
    | accepted prompt output => cases hwrote
    | wrote raw job =>
      cases hwrote
      obtain ⟨hmem, horigin⟩ := h.origin raw job hevent
      obtain ⟨prompt, output, hasks, haccepted, hjob⟩ :=
        horigin.acceptedFor hsource (hplatform raw hmem)
      exact ⟨prompt, output, hasks, List.mem_append_right _ haccepted, hjob⟩

end NormalizeStage

namespace PipelineOrchestrator

variable {o : PipelineOrchestrator} {mapper : MapperText} {platform : SourcePlatform}

/-- Raw jobs of the source, each once. -/
structure Scoped (o : PipelineOrchestrator) (rawJobs : List RawJob) : Prop where
  platform : ∀ raw ∈ rawJobs, raw.sourcePlatform = o.sourcePlatform
  nodup : (rawJobs.map RawJob.id).Nodup

theorem Scoped.sublist {rawJobs rawJobs' : List RawJob} (h : o.Scoped rawJobs)
    (hsub : rawJobs'.Sublist rawJobs) : o.Scoped rawJobs' :=
  ⟨fun raw hraw => h.platform raw (hsub.subset hraw), h.nodup.sublist (hsub.map _)⟩

theorem scoped_scope (runId : String) (tables : StageTables) : o.Scoped (o.scope runId tables) :=
  ⟨fun _ hraw => NormalizeStage.mem_normalizeScope hraw, NormalizeStage.nodup_normalizeScope _ _ _⟩

/-- The session between two sources: every write was accepted, and nothing is pending. -/
structure AtRest (text : NormalizationText) (s : StageSession) : Prop where
  accepted : AcceptedWrites text s
  committed : s.committed.jobs = s.tables.jobs

theorem atRest_dbOperation {α : Type} {h : StageHost} {text : NormalizationText}
    {Q : α → StageSession → Prop} {operation : StageSession → α × StageSession}
    (hop : ∀ s, AtRest text s → Q (operation s).1 (operation s).2) :
    Triple (AtRest text) (dbOperation h operation) Q (fun _ => AcceptedWrites text) :=
  triple_dbOperation (fun _ hs => hop _ ⟨hs.accepted, hs.committed⟩) fun _ hs _ => hs.accepted

theorem triple_gate (runId : String) {rawJobs : List RawJob} (hscoped : o.Scoped rawJobs) :
    Triple (AtRest o.client.text) (o.gate runId rawJobs)
      (fun eligible s => AtRest o.client.text s ∧ o.Scoped eligible)
      (fun _ => AcceptedWrites o.client.text) := by
  unfold gate
  cases o.eligibilityResolver with
  | none =>
    exact .ite (fun _ => .raise fun _ => AtRest.accepted) fun _ => .pure fun s hs => ⟨hs, hscoped⟩
  | some text =>
    refine ((Triple.ofExcept _).weaken_error fun _ _ => AtRest.accepted).bind fun existing => ?_
    refine .of_fact fun _ => ?_
    refine Triple.bind (Q := fun _ => AtRest o.client.text) ?_ fun decisions =>
      Triple.bind (Q := fun _ => AtRest o.client.text) (.change fun s hs => ⟨hs.accepted, hs.committed⟩)
        fun _ => .pure fun s hs => ⟨hs, hscoped.sublist (sublist_eligibleRawJobs _ _)⟩
    refine atRest_dbOperation fun s hs => ⟨?_, hs.committed⟩
    unfold AcceptedWrites
    rw [stored_of_decided (s := s) rfl]
    exact hs.accepted

/-- Behind the gate. -/
theorem triple_normalizeEligible (hai : o.hasAiClient = true)
    (hsource : o.source = mapper.livePipelineSource platform) {eligible : List RawJob}
    (hscoped : o.Scoped eligible) :
    Triple (AtRest o.client.text) (o.normalizeEligible eligible)
      (fun _ => AcceptedWrites o.client.text) (fun _ => AcceptedWrites o.client.text) := by
  unfold normalizeEligible
  rw [if_pos hai]
  intro s hs
  have hstart : o.Holds eligible s o.Complete s := by
    refine ⟨[], ⟨by simp, by simp, by simp, fun identity _ => ⟨rfl, ?_⟩⟩,
      by simp [NormalizeStage.Complete]⟩
    rw [hs.committed]
  have hrun := NormalizeStage.triple_normalizeSourceWithAiBatch hscoped.nodup s hstart
  revert hrun
  rcases o.normalizeSourceWithAiBatch eligible s with ⟨exc | _, s'⟩
  · rintro ⟨J, htrace, -⟩
    exact htrace.acceptedWrites hsource hscoped.platform hs.accepted
  · rintro ⟨J, htrace, -⟩
    exact htrace.acceptedWrites hsource hscoped.platform hs.accepted

/-- The normalize stage of a live source. -/
theorem triple_normalizeSource (hai : o.hasAiClient = true)
    (hsource : o.source = mapper.livePipelineSource platform) (runId : String) :
    Triple (AtRest o.client.text) (o.normalizeSource runId) (fun _ => AtRest o.client.text)
      (fun _ => AcceptedWrites o.client.text) := by
  refine Triple.bind (Q := fun rawJobs s => AtRest o.client.text s ∧ o.Scoped rawJobs) ?_
    fun rawJobs => .of_fact fun hscoped => ?_
  · exact atRest_dbOperation fun s hs => ⟨hs, scoped_scope runId _⟩
  refine Triple.bind (Q := fun _ => AtRest o.client.text)
    (.change fun s hs => ⟨hs.accepted, hs.committed⟩) fun _ => ?_
  refine (triple_gate runId hscoped).bind fun eligible => .of_fact fun heligible => ?_
  refine (triple_normalizeEligible hai hsource heligible).bind fun _ => ?_
  refine Triple.bind (Q := fun _ => AtRest o.client.text) ?_ fun _ =>
    .change fun s hs => ⟨hs.accepted, hs.committed⟩
  refine triple_dbOperation (fun s hs => ⟨?_, rfl⟩) fun s hs _ => hs
  have hcommit := quiet_commit (q := false) { s with ticks := s.ticks + 1 }
  unfold AcceptedWrites
  rw [hcommit.stored, hcommit.journal]
  exact hs

/-- A normalize run over live sources. -/
theorem triple_normalizeSources (hai : o.hasAiClient = true) (mapper : MapperText) (runId : String)
    (platforms : List SourcePlatform) :
    Triple (AtRest o.client.text)
      (o.normalizeSources runId (platforms.map mapper.livePipelineSource))
      (fun _ => AtRest o.client.text) (fun _ => AcceptedWrites o.client.text) := by
  induction platforms with
  | nil => exact .pure fun _ => id
  | cons platform rest ih =>
    refine Triple.bind (Q := fun _ => AtRest o.client.text)
      (.change fun s hs => ⟨hs.accepted, hs.committed⟩) fun _ => ?_
    refine (triple_normalizeSource (o := o.withSource (mapper.livePipelineSource platform)) hai rfl
      runId).bind fun _ => ?_
    refine Triple.bind (Q := fun _ => AtRest o.client.text) (.update fun _ => id) fun _ => ?_
    exact ih.bind fun _ => .pure fun _ => id

end PipelineOrchestrator

/-! ### A source in one go -/

namespace SourceRun

variable {run : SourceRun} {K : List NormalizeEvent → Prop}

/-- Every write was accepted, and a fact of the journal holds. -/
def Accepting (run : SourceRun) (K : List NormalizeEvent → Prop) (s : StageSession) : Prop :=
  AcceptedWrites run.orchestrator.client.text s ∧ K s.journal

/-- A fact that more events do not change. -/
def Lasting (K : List NormalizeEvent → Prop) : Prop := ∀ J J', K J → K (J ++ J')

/-- A job that was mapped and normalized is an accepted answer. -/
def AcceptedLive (run : SourceRun) (J : List NormalizeEvent) (raw : LiveRawJob)
    (job : CanonicalJobSchema) : Prop :=
  AcceptedFor run.orchestrator.client.text J raw.identity raw.rawPayload job

theorem Accepting.log (hK : Lasting K) {s : StageSession} (hs : run.Accepting K s)
    (events : List NormalizeEvent) :
    run.Accepting K { s with journal := s.journal ++ events } :=
  ⟨fun write hwrite => (hs.1 write hwrite).append events, hK _ _ hs.2⟩

theorem triple_normalizeJob (hK : Lasting K) (prompt : AINormalizationPromptInput) :
    Triple (run.Accepting K) (run.orchestrator.client.normalizeJob prompt)
      (fun job s => run.Accepting K s ∧ ∃ output, .accepted prompt output ∈ s.journal ∧
        run.orchestrator.client.text.completeJob prompt output = .ok job)
      (fun _ => run.Accepting K) := by
  refine Triple.bind (Q := fun _ => run.Accepting K) (.update fun _ => id) fun call => ?_
  refine (Triple.ofExcept _).bind fun output => .of_fact fun _ => ?_
  refine (Triple.ofExcept _).bind fun job => .of_fact fun hvalidated => ?_
  obtain ⟨answer, rfl, hjob⟩ :=
    NormalizationText.validateAiNormalizationOutput_ok (ok_mapError_iff.mp hvalidated)
  refine Triple.bind (Q := fun _ s => run.Accepting K s ∧ .accepted prompt answer ∈ s.journal)
    (.change fun s hs => ⟨hs.log hK _, by simp⟩) fun _ => .pure fun s hs => ?_
  exact ⟨hs.1, answer, hs.2, hjob⟩

theorem asks_of_promptInputFromLiveJob {raw : LiveRawJob} {prompt : AINormalizationPromptInput}
    (hplatform : raw.sourcePlatform = run.live.platform.value) {language : OutputLanguage}
    (h : promptInputFromLiveJob raw run.live.platform.value language = .ok (some prompt)) :
    prompt.Asks raw.identity raw.rawPayload := by
  unfold promptInputFromLiveJob at h
  split at h
  · cases h
  · rw [sourcePlatformEnum_value] at h
    cases h
    exact ⟨Prod.ext hplatform.symm rfl, rfl⟩

theorem rawPayload_of_promptInputFromLiveJob {raw : LiveRawJob} {platform : String}
    {language : OutputLanguage} (h : promptInputFromLiveJob raw platform language = .ok none) :
    raw.rawPayload = [] := by
  unfold promptInputFromLiveJob at h
  split at h
  · next hempty => exact hempty
  · obtain ⟨_, -, hsome⟩ := ok_map_iff.mp h
    cases hsome

theorem triple_mapOne (hai : run.orchestrator.hasAiClient = true) (hK : Lasting K)
    {raw : LiveRawJob} (hplatform : raw.sourcePlatform = run.live.platform.value) :
    Triple (run.Accepting K) (run.mapOne raw)
      (fun job s => run.Accepting K s ∧ run.AcceptedLive s.journal raw job)
      (fun _ => run.Accepting K) := by
  unfold mapOne
  refine Triple.bind (Q := fun _ => run.Accepting K) (.update fun _ => id) fun scrapedAt => ?_
  refine (Triple.ofExcept _).bind fun mapped => .of_fact fun hmapped => ?_
  refine .ite (fun _ => ?_) fun hne => absurd hai hne
  refine (Triple.ofExcept _).bind fun prompt => .of_fact fun hprompt => ?_
  cases prompt with
  | none =>
    have hempty : raw.sourceJob.rawPayload = [] := rawPayload_of_promptInputFromLiveJob hprompt
    exact absurd hmapped (MapperText.mapJob_ne_ok_of_empty hempty)
  | some prompt =>
    refine ((triple_normalizeJob hK prompt).conseq (fun _ => id) (fun job s hs => ?_)
      fun _ _ => id).handle fun exc => .raise fun _ => id
    obtain ⟨haccepting, output, haccepted, hjob⟩ := hs
    exact ⟨haccepting, prompt, output, asks_of_promptInputFromLiveJob hplatform hprompt, haccepted,
      hjob⟩

/-- Each mapping that came out well is an accepted answer to its job. -/
theorem triple_mapAll (hai : run.orchestrator.hasAiClient = true) (raws : List LiveRawJob) :
    ∀ {K : List NormalizeEvent → Prop}, Lasting K →
      (∀ raw ∈ raws, raw.sourcePlatform = run.live.platform.value) →
      Triple (run.Accepting K) (run.mapAll raws)
        (fun results s => run.Accepting K s ∧ List.Forall₂
          (fun raw result => ∀ job, result = .ok job → run.AcceptedLive s.journal raw job)
          raws results)
        (fun _ => run.Accepting K) := by
  induction raws with
  | nil => exact fun _ _ => .pure fun s hs => ⟨hs, .nil⟩
  | cons raw rest ih =>
    intro K hK hplatform
    refine (triple_mapOne hai hK (hplatform raw List.mem_cons_self)).attempt.bind fun result => ?_
    -- what was accepted for the first job stays accepted while the others are mapped
    have hlasting : Lasting fun J => K J ∧ ∀ job, result = .ok job → run.AcceptedLive J raw job :=
      fun J J' hJ => ⟨hK J J' hJ.1, fun job hjob => (hJ.2 job hjob).append J'⟩
    refine Triple.bind (Q := fun results s => run.Accepting K s ∧
      (∀ job, result = .ok job → run.AcceptedLive s.journal raw job) ∧ List.Forall₂
        (fun raw result => ∀ job, result = .ok job → run.AcceptedLive s.journal raw job)
        rest results) ?_ fun results => .pure fun s hs => ⟨hs.1, .cons hs.2.1 hs.2.2⟩
    refine (ih hlasting fun raw' hraw' => hplatform raw' (List.mem_cons_of_mem _ hraw')).conseq
      (fun s hs => ?_) (fun results s hs => ⟨⟨hs.1.1, hs.1.2.1⟩, hs.1.2.2, hs.2⟩)
      fun _ s hs => ⟨hs.1, hs.2.1⟩
    cases result with
    | ok job => exact ⟨hs.1.1, hs.1.2, fun job' heq => by cases heq; exact hs.2⟩
    | error exc => exact ⟨hs.1, hs.2, fun job' heq => by cases heq⟩

/-- The write of a job that was accepted. -/
theorem Accepting.written (hK : Lasting K) {raw : LiveRawJob} {job : CanonicalJobSchema}
    (hjob : ∀ J, K J → run.AcceptedLive J raw job) {s : StageSession} (hs : run.Accepting K s) :
    run.Accepting K (run.written raw job s) := by
  refine ⟨fun write hwrite => ?_, hK _ _ hs.2⟩
  unfold SourceRun.written at hwrite
  rw [stored_upsert, List.mem_append] at hwrite
  rcases hwrite with hold | hnew
  · exact (hs.1 write hold).append _
  · rw [List.mem_singleton.mp hnew]
    exact (hjob _ hs.2).append _

theorem Accepting.quiet {s s' : StageSession} (hquiet : Quiet false s s') (hs : run.Accepting K s) :
    run.Accepting K s' := by
  unfold Accepting AcceptedWrites
  rw [hquiet.stored, hquiet.journal]
  exact hs

theorem Accepting.changeResult (f : SourcePipelineResult → SourcePipelineResult) :
    Keeps (run.Accepting K) (Bisakerja.changeResult f) := .change fun _ hs => hs

theorem keeps_writeJob (hK : Lasting K) {raw : LiveRawJob} {job : CanonicalJobSchema}
    (hjob : ∀ J, K J → run.AcceptedLive J raw job) :
    Keeps (run.Accepting K) (run.writeJob raw job) := by
  intro s hs
  unfold writeJob
  dsimp only
  have htick := hs.quiet (quiet_tick (Nat.le_succ s.ticks))
  by_cases hfails : run.orchestrator.env.operationalError s.ticks = true
  · rw [if_pos hfails]
    exact hs.quiet (quiet_rollback (Nat.le_succ _))
  · rw [if_neg hfails]
    by_cases hopen : run.inTransaction s.ticks = true
    · rw [if_pos hopen]
      exact htick.written hK hjob
    · rw [if_neg hopen]
      exact (htick.written hK hjob).quiet (quiet_commit _)

/-- The jobs of some entries have all been accepted. -/
def AllAccepted (run : SourceRun) (entries : List (LiveRawJob × CanonicalJobSchema))
    (J : List NormalizeEvent) : Prop := ∀ entry ∈ entries, run.AcceptedLive J entry.1 entry.2

theorem keeps_writeAll (entries : List (LiveRawJob × CanonicalJobSchema)) :
    Keeps (run.Accepting (run.AllAccepted entries)) (run.writeAll entries) := by
  have hlasting : Lasting (run.AllAccepted entries) := fun J J' hJ entry hentry =>
    (hJ entry hentry).append J'
  exact .forEach entries fun entry hentry =>
    (keeps_writeJob hlasting fun J hJ => hJ entry hentry).bind fun _ => Accepting.changeResult _

/-- The jobs of a source come from its fetcher. -/
theorem sourcePlatform_fetchOrdered {fetched : PaginatedFetchResult} {ordered : List LiveRawJob}
    (h : run.fetchOrdered = .ok (fetched, ordered)) :
    ∀ raw ∈ ordered, raw.sourcePlatform = run.live.platform.value := by
  obtain ⟨result, hresult, h⟩ := ok_bind_iff.mp h
  obtain ⟨jobs, hjobs, h⟩ := ok_bind_iff.mp h
  cases h
  intro raw hraw
  have hmem : raw ∈ jobs := by
    unfold orderFetchedRawJobs sortedBySourceTimestamp at hraw
    split at hraw
    · exact hraw
    · exact List.mem_insertionSort laterFirst |>.mp hraw
  obtain ⟨source, hsource, hlive⟩ := mem_of_mapM_ok hjobs hmem
  obtain ⟨_, -, rfl⟩ := ok_map_iff.mp hlive
  refine run.ofSource fetched hresult source ?_
  unfold sliceTo at hsource
  split at hsource <;> exact List.mem_of_mem_take hsource

/-- Results that are all good have the jobs they came out with. -/
theorem forall_zip_of_mapM {Accepted : LiveRawJob → CanonicalJobSchema → Prop}
    {raws : List LiveRawJob} {results : List (Except PyException CanonicalJobSchema)}
    (hresults : List.Forall₂ (fun raw result => ∀ job, result = .ok job → Accepted raw job)
      raws results) :
    ∀ {jobs : List CanonicalJobSchema}, results.mapM id = .ok jobs →
      ∀ entry ∈ raws.zip jobs, Accepted entry.1 entry.2 := by
  induction hresults with
  | nil => simp
  | @cons raw result raws results hfirst _ ih =>
    intro jobs hjobs
    rw [List.mapM_cons] at hjobs
    obtain ⟨job, hjob, hjobs⟩ := ok_bind_iff.mp hjobs
    obtain ⟨rest, hrest, hjobs⟩ := ok_bind_iff.mp hjobs
    cases hjobs
    rw [List.zip_cons_cons]
    exact List.forall_mem_cons.mpr ⟨hfirst job hjob, ih hrest⟩

/-- A source in one go writes accepted answers. -/
theorem keeps_runSource (hai : run.orchestrator.hasAiClient = true) :
    Keeps (AcceptedWrites run.orchestrator.client.text) run.runSource := by
  have htrue : Lasting fun _ => True := fun _ _ => id
  have hbody : Keeps (run.Accepting fun _ => True) run.body := by
    unfold body
    refine (Triple.ofExcept _).bind fun fetched => .of_fact fun hfetched => ?_
    refine (Accepting.changeResult _).bind fun _ => ?_
    refine (triple_mapAll hai fetched.2 htrue (sourcePlatform_fetchOrdered hfetched)).bind
      fun results => ?_
    refine Triple.bind (Q := fun mapped => run.Accepting (run.AllAccepted (fetched.2.zip mapped)))
      ?_ fun mapped => ?_
    · refine (Triple.ofExcept _).conseq (fun _ => id) (fun mapped s hs => ?_) fun _ _ hs => hs.1
      exact ⟨hs.1.1.1, forall_zip_of_mapM hs.1.2 hs.2⟩
    · refine Triple.conseq (Q := fun _ => run.Accepting (run.AllAccepted (fetched.2.zip mapped)))
        (E := fun _ => run.Accepting (run.AllAccepted (fetched.2.zip mapped))) ?_ (fun _ => id)
        (fun _ _ hs => ⟨hs.1, trivial⟩) fun _ _ hs => ⟨hs.1, trivial⟩
      exact (Accepting.changeResult _).bind fun _ => (keeps_writeAll _).bind fun _ =>
        (Keeps.ofExcept run.syncHook).bind fun _ => Accepting.changeResult _
  have hrun : Keeps (run.Accepting fun _ => True) run.runSource := by
    refine hbody.attempt.bind fun result => ?_
    cases result with
    | ok _ => exact .pure _
    | error exc => exact (Accepting.changeResult _).bind fun _ => .ite (.pure _) (.raise _)
  exact hrun.conseq (fun _ hs => ⟨hs, trivial⟩) (fun _ _ => And.left) fun _ _ => And.left

/-- The raw row of a job leaves the normalized rows alone, and then one job is written. -/
theorem rowsTraced_written {start : JobTables} (raw : LiveRawJob) (job : CanonicalJobSchema)
    {s : StageSession} (hs : RowsTraced run.orchestrator.env start s) :
    RowsTraced run.orchestrator.env start (run.written raw job s) :=
  RowsTraced.kept _ false start _ _ (.stored _ job)
    ⟨hs.shown.congr (upsertRawJob_normalizedJobs _ _ _ _), hs.committed⟩

theorem keeps_rowsTraced (start : JobTables) :
    Keeps (RowsTraced run.orchestrator.env start) run.runSource := by
  have hI := (RowsTraced.kept run.orchestrator.env run.orchestrator.hasQuarantine start).keptByAction
  have htick : ∀ s, RowsTraced run.orchestrator.env start s →
      RowsTraced run.orchestrator.env start { s with ticks := s.ticks + 1 } := fun s hs =>
    hs.quiet (quiet_tick (q := false) (Nat.le_succ _))
  have hmapOne : ∀ raw, Keeps (RowsTraced run.orchestrator.env start) (run.mapOne raw) := by
    intro raw
    unfold mapOne
    refine (Keeps.update fun s hs => htick s hs).bind fun _ => (Keeps.ofExcept _).bind fun mapped =>
      .ite ?_ (.pure _)
    refine (Keeps.ofExcept _).bind fun prompt => ?_
    cases prompt with
    | none => exact .pure _
    | some prompt => exact (hI.normalizeJob prompt).handle fun _ => .raise _
  have hmapAll : ∀ raws, Keeps (RowsTraced run.orchestrator.env start) (run.mapAll raws) := by
    intro raws
    induction raws with
    | nil => exact .pure _
    | cons raw rest ih => exact (hmapOne raw).attempt.bind fun _ => ih.bind fun _ => .pure _
  have hwriteJob : ∀ raw job, Keeps (RowsTraced run.orchestrator.env start) (run.writeJob raw job) := by
    intro raw job s hs
    unfold writeJob
    dsimp only
    have hwritten := rowsTraced_written raw job (htick s hs)
    by_cases hfails : run.orchestrator.env.operationalError s.ticks = true
    · rw [if_pos hfails]
      exact hs.quiet (quiet_rollback (q := false) (Nat.le_succ _))
    · rw [if_neg hfails]
      by_cases hopen : run.inTransaction s.ticks = true
      · rw [if_pos hopen]
        exact hwritten
      · rw [if_neg hopen]
        exact hwritten.quiet (quiet_commit (q := false) _)
  have hbody : Keeps (RowsTraced run.orchestrator.env start) run.body :=
    (Keeps.ofExcept _).bind fun fetched => (hI.changeResult _).bind fun _ =>
      (hmapAll _).bind fun results => (Keeps.ofExcept _).bind fun mapped =>
        (hI.changeResult _).bind fun _ =>
          (Keeps.forEach _ fun entry _ => (hwriteJob entry.1 entry.2).bind fun _ =>
            hI.changeResult _).bind fun _ =>
            (Keeps.ofExcept _).bind fun _ => hI.changeResult _
  refine hbody.attempt.bind fun result => ?_
  cases result with
  | ok _ => exact .pure _
  | error exc => exact (hI.changeResult _).bind fun _ => .ite (.pure _) (.raise _)

end SourceRun

/-! ### Both paths -/

/-- At the start of a run nothing is written yet. -/
theorem RowsTraced.begin (h : StageHost) (tables : StageTables) (platform : String)
    (calls ticks : ℕ) : RowsTraced h tables.jobs (.begin tables platform calls ticks) :=
  ⟨⟨fun _ hrow => .inl hrow, fun _ _ => rfl⟩, ⟨fun _ hrow => .inl hrow, fun _ _ => rfl⟩⟩

theorem acceptedWrites_begin (text : NormalizationText) (tables : StageTables) (platform : String)
    (calls ticks : ℕ) : AcceptedWrites text (.begin tables platform calls ticks) :=
  fun _ hwrite => by cases hwrite

theorem RowsTraced.failsClosed_of_accepted {h : StageHost} {text : NormalizationText}
    {start : JobTables} {s : StageSession} (hs : RowsTraced h start s) (haccepted : AcceptedWrites text s) :
    FailsClosed h.isoformat text s.journal start s.tables.jobs ∧
      FailsClosed h.isoformat text s.journal start s.committed.jobs :=
  ⟨hs.shown.failsClosed_of_accepted haccepted, hs.committed.failsClosed_of_accepted haccepted⟩

/-- BUG: nothing compares the identity in an accepted answer with the raw job it answers, so the
    answer to one raw job can overwrite the row of another that has none. With an AI client, a
    normalize run over live sources and a source in one go write only accepted answers, each with
    the raw job it answers; and the row of an identity that is not answered stays as it was, unless
    the answer to another raw job names it. -/
theorem PipelineOrchestrator.failsClosed (o : PipelineOrchestrator) (hai : o.hasAiClient = true) :
    (∀ (mapper : MapperText) (runId : String) (platforms : List SourcePlatform)
        (tables : StageTables) (platform : String) (calls ticks : ℕ),
      let after := (o.normalizeSources runId (platforms.map mapper.livePipelineSource)
        (.begin tables platform calls ticks)).2
      FailsClosed o.env.isoformat o.client.text after.journal tables.jobs after.tables.jobs ∧
        FailsClosed o.env.isoformat o.client.text after.journal tables.jobs after.committed.jobs) ∧
    (∀ run : SourceRun, run.orchestrator = o →
        ∀ (tables : StageTables) (platform : String) (calls ticks : ℕ),
      let after := (run.runSource (.begin tables platform calls ticks)).2
      FailsClosed o.env.isoformat o.client.text after.journal tables.jobs after.tables.jobs ∧
        FailsClosed o.env.isoformat o.client.text after.journal tables.jobs
          after.committed.jobs) := by
  constructor
  · intro mapper runId platforms tables platform calls ticks
    have hstart := acceptedWrites_begin o.client.text tables platform calls ticks
    have hrows := (keeps_normalizeSources (RowsTraced.kept o.env o.hasQuarantine tables.jobs).keptByAction
      (RowsTraced.keptByDecided _ _) runId (platforms.map mapper.livePipelineSource)).of_run
        (RowsTraced.begin o.env tables platform calls ticks)
    refine hrows.failsClosed_of_accepted ?_
    have hrun := triple_normalizeSources hai mapper runId platforms
      (.begin tables platform calls ticks) ⟨hstart, rfl⟩
    revert hrun
    rcases o.normalizeSources runId (platforms.map mapper.livePipelineSource)
      (.begin tables platform calls ticks) with ⟨_ | _, s⟩
    · exact id
    · exact AtRest.accepted
  · rintro run rfl tables platform calls ticks
    have hrows := (run.keeps_rowsTraced tables.jobs).of_run
      (RowsTraced.begin run.orchestrator.env tables platform calls ticks)
    exact hrows.failsClosed_of_accepted ((run.keeps_runSource hai).of_run
      (acceptedWrites_begin _ tables platform calls ticks))

/-! ### An answer that names another raw job -/

/-- A raw job of Dealls with a role. -/
def roleRaw (id externalId : String) : RawJob :=
  { deallsRaw id externalId with
    sourceUrl := some "https://dealls.com/jobs/x"
    rawPayload := [("id", .str externalId), ("role", .str "Engineer")] }

/-- A batch client that answers raw job `1` with a job named `9`, and refuses raw job `9`. -/
def crossedOrchestrator : PipelineOrchestrator :=
  let stage := answeringStage ⟨"9", nine_ne_empty⟩
  { stage with
    client :=
      { stage.client with
        answerJobs := fun _ _ => .ok (some
          ⟨[{ itemId := ⟨"r1", row_ne_empty⟩
              normalizedJob := some (answerFor ⟨"9", nine_ne_empty⟩ ⟨"New", new_ne_empty⟩)
              jobOrError := rfl },
            { itemId := ⟨"r9", by decide⟩
              errorCode := some "REFUSED"
              errorMessage := some "refused"
              jobOrError := Option.isSome_none }], by simp⟩) }
    source := MapperText.asciiMapperText.livePipelineSource .dealls
    eligibilityResolver := none
    syncEvents := Table.empty _
    backend := ⟨Table.empty _, []⟩
    backendIdentityLookup := .notConfigured }

/-- The raw jobs `1` and `9`, and the row of `9` from before. -/
def twoRoles : StageTables where
  jobs :=
    { rawJobs := ⟨[roleRaw "r1" "1", roleRaw "r9" "9"], by decide⟩
      normalizedJobs := oneRawJob.tables.jobs.normalizedJobs }

/-- The session after the normalize run. -/
def afterCrossed : StageSession :=
  (crossedOrchestrator.normalizeSources "x" ([SourcePlatform.dealls].map MapperText.asciiMapperText.livePipelineSource)
    (.begin twoRoles "dealls" 0 0)).2

/-- Raw job `9` is refused, and yet its row is overwritten, with the answer to raw job `1`. -/
theorem refused_job_overwritten :
    ¬ Answered afterCrossed.journal ("dealls", "9") ∧
      (twoRoles.jobs.findNormalizedJob ("dealls", "9")).map NormalizedJob.title = some "Old" ∧
      (afterCrossed.tables.jobs.findNormalizedJob ("dealls", "9")).map NormalizedJob.title
        = some "New" := by
  have hprompts : (afterCrossed.journal.all fun event => match event with
      | .accepted prompt _ => prompt.identity ≠ ("dealls", "9")
      | .wrote _ _ => true) = true := by decide +kernel
  refine ⟨?_, by decide +kernel, by decide +kernel⟩
  rintro ⟨prompt, output, hevent, hidentity⟩
  simpa [hidentity] using List.all_eq_true.mp hprompts _ hevent

theorem failsClosed_twoRoles :
    FailsClosed crossedOrchestrator.env.isoformat crossedOrchestrator.client.text
        afterCrossed.journal twoRoles.jobs afterCrossed.tables.jobs ∧
      FailsClosed crossedOrchestrator.env.isoformat crossedOrchestrator.client.text
        afterCrossed.journal twoRoles.jobs afterCrossed.committed.jobs := by
  unfold afterCrossed
  exact (PipelineOrchestrator.failsClosed crossedOrchestrator rfl).1 MapperText.asciiMapperText "x"
    [.dealls] twoRoles "dealls" 0 0

end Bisakerja
