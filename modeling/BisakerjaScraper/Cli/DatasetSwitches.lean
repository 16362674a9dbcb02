import BisakerjaScraper.Cli.DatasetHashes

/-! The signal switches of an export.

    With the user signals switched off nothing of the user tables shows in an export. With the AI
    signals switched off the request logs still do: the export of a job shows the number, the
    outcomes and the last of the logs that name it. -/

namespace Bisakerja
open Schemes

/-- Two contents that differ in the AI tables only. -/
structure SameOutsideAi (db db' : DatasetContent) : Prop where
  jobs : db.jobs = db'.jobs
  requirements : db.requirements = db'.requirements
  skills : db.skills = db'.skills
  bookmarks : db.signals.bookmarks = db'.signals.bookmarks
  applicationRecords : db.signals.applicationRecords = db'.signals.applicationRecords

/-- Two contents that differ in the tables of bookmarks and applications only. -/
structure SameOutsideUser (db db' : DatasetContent) : Prop where
  jobs : db.jobs = db'.jobs
  requirements : db.requirements = db'.requirements
  skills : db.skills = db'.skills
  fitScoreResults : db.signals.fitScoreResults = db'.signals.fitScoreResults
  skillGapResults : db.signals.skillGapResults = db'.signals.skillGapResults
  cvAnalysisResults : db.signals.cvAnalysisResults = db'.signals.cvAnalysisResults
  aiRequestLogs : db.signals.aiRequestLogs = db'.signals.aiRequestLogs

namespace DatasetText

variable (text : DatasetText)

/-- The logs that name a job. -/
def logsOf (db : DatasetContent) (jobId : String) : List AiRequestLog :=
  db.signals.aiRequestLogs.filter fun log => text.extractJobIdFromAiLog log = some jobId

/-- What is read of the last log of a job. -/
def readOf (log : AiRequestLog) : String × String × String × String :=
  (text.normalizeEnum log.kind, text.normalizeEnum log.status, text.safeText log.modelName,
    text.isoUtc log.createdAt)

/-- Two lists of logs that an export tells nothing apart of. -/
structure SameRequests (rows rows' : List AiRequestLog) : Prop where
  total : rows.length = rows'.length
  succeeded : text.countStatus "SUCCEEDED" rows = text.countStatus "SUCCEEDED" rows'
  failed : text.countStatus "FAILED" rows = text.countStatus "FAILED" rows'
  latest : rows.getLast?.map text.readOf = rows'.getLast?.map text.readOf
  errorCode : text.errorCodeTop rows = text.errorCodeTop rows'

variable {text}

theorem aiRequestSignal_nil : text.aiRequestSignal [] = {} := rfl

/-- The signals of two lists of logs. -/
theorem aiRequestSignal_eq_iff {rows rows' : List AiRequestLog} :
    text.aiRequestSignal rows = text.aiRequestSignal rows' ↔ text.SameRequests rows rows' := by
  unfold aiRequestSignal
  cases hlast : rows.getLast? with
  | none =>
    have hrows := List.getLast?_eq_none_iff.mp hlast
    cases hlast' : rows'.getLast? with
    | none =>
      have hrows' := List.getLast?_eq_none_iff.mp hlast'
      rw [hrows, hrows']
      exact ⟨fun _ => ⟨rfl, rfl, rfl, rfl, rfl⟩, fun _ => rfl⟩
    | some latest' =>
      have hne : rows'.length ≠ 0 := by
        rintro hlen
        rw [List.length_eq_zero_iff.mp hlen] at hlast'
        cases hlast'
      rw [hrows]
      constructor
      · intro h
        exact absurd (congrArg AiRequestSignal.countTotal h).symm hne
      · intro h
        exact absurd h.total.symm hne
  | some latest =>
    have hne : rows.length ≠ 0 := by
      rintro hlen
      rw [List.length_eq_zero_iff.mp hlen] at hlast
      cases hlast
    cases hlast' : rows'.getLast? with
    | none =>
      rw [List.getLast?_eq_none_iff.mp hlast']
      constructor
      · intro h
        exact absurd (congrArg AiRequestSignal.countTotal h) hne
      · intro h
        exact absurd h.total hne
    | some latest' =>
      simp only [AiRequestSignal.mk.injEq]
      constructor
      · rintro ⟨htotal, hsucceeded, hfailed, hkind, hstatus, hmodel, htime, hcode⟩
        refine ⟨htotal, hsucceeded, hfailed, ?_, hcode⟩
        rw [hlast, hlast', Option.map_some, Option.map_some, readOf, readOf, hkind, hstatus, hmodel,
          htime]
      · intro h
        have hlatest := h.latest
        rw [hlast, hlast', Option.map_some, Option.map_some, Option.some.injEq, readOf, readOf,
          Prod.mk.injEq, Prod.mk.injEq, Prod.mk.injEq] at hlatest
        obtain ⟨hkind, hstatus, hmodel, htime⟩ := hlatest
        exact ⟨h.total, h.succeeded, h.failed, hkind, hstatus, hmodel, htime, h.errorCode⟩

/-! ### The loop over the logs -/

/-- The logs of a listed job among those of listed jobs. -/
theorem rowsOf_listedLogs (db : DatasetContent) {jobIds : List String} {jobId : String}
    (h : jobId ∈ jobIds) :
    (rowsOf Prod.fst jobId (text.listedLogs db.signals jobIds)).map Prod.snd
      = text.logsOf db jobId := by
  unfold listedLogs logsOf rowsOf
  induction db.signals.aiRequestLogs with
  | nil => rfl
  | cons log logs ih =>
    by_cases hlog : text.extractJobIdFromAiLog log = some jobId
    · simp [hlog, h, ih]
    · rw [List.filter_cons_of_neg (by simpa using hlog), ← ih, List.filterMap_cons]
      cases hextract : text.extractJobIdFromAiLog log with
      | none => simp
      | some other =>
        have hother : other ≠ jobId := fun heq => hlog (by rw [hextract, heq])
        by_cases hlisted : other ∈ jobIds
        · simp [hlisted, hother]
        · simp [hlisted]

/-- The loop gives a listed job the signals of its logs. -/
theorem writeAiRequests_apply (db : DatasetContent) {jobIds : List String} {jobId : String}
    {base : String → SignalRow} (h : jobId ∈ jobIds) (hbase : (base jobId).aiRequest = {}) :
    text.writeAiRequests db.signals jobIds base jobId
      = { base jobId with aiRequest := text.aiRequestSignal (text.logsOf db jobId) } := by
  have hrows : _ = text.logsOf db jobId := rowsOf_listedLogs db h
  refine (writeRows_groups (fun rows signal =>
    { signal with aiRequest := text.aiRequestSignal (rows.map Prod.snd) }) _ base jobId).trans ?_
  rw [hrows]
  split
  · next hnone =>
    rw [hnone, List.map_nil] at hrows
    rw [← hrows, aiRequestSignal_nil, ← hbase]
  · rfl

/-! ### What a switch leaves out -/

variable (text) in
/-- The signals before the queries on the AI features. -/
def userBase (db : DatasetContent) (jobIds : List String) (includeUserSignals : Bool) :
    String → SignalRow :=
  if includeUserSignals then text.writeUserSignals db.signals jobIds fun jobId => { jobId }
  else fun jobId => { jobId }

variable {db db' : DatasetContent} {jobIds : List String}

/-- The user signals touch neither the job id nor the signals of the request logs. -/
theorem userBase_keeps {τ : Type} (f : SignalRow → τ)
    (hbookmark : ∀ (signal : SignalRow) bookmark, f { signal with bookmark } = f signal)
    (happlication : ∀ (signal : SignalRow) application, f { signal with application } = f signal)
    (includeUserSignals : Bool) (jobId : String) :
    f (text.userBase db jobIds includeUserSignals jobId) = f { jobId } := by
  cases includeUserSignals with
  | false => rfl
  | true =>
    rw [userBase, if_pos rfl, writeUserSignals, writeRows_keeps f fun _ _ => happlication _ _,
      writeRows_keeps f fun _ _ => happlication _ _, writeRows_keeps f fun _ _ => hbookmark _ _]

variable (text) in
/-- The signals of a job with the AI signals switched off. -/
def quietSignal (db : DatasetContent) (jobIds : List String) (includeUserSignals : Bool)
    (jobId : String) : SignalRow :=
  { text.userBase db jobIds includeUserSignals jobId with
    aiRequest := text.aiRequestSignal (text.logsOf db jobId) }

theorem jobId_quietSignal (includeUserSignals : Bool) (jobId : String) :
    (text.quietSignal db jobIds includeUserSignals jobId).jobId = jobId :=
  userBase_keeps SignalRow.jobId (fun _ _ => rfl) (fun _ _ => rfl) includeUserSignals jobId

/-- With the AI signals switched off the logs are read nevertheless. -/
theorem fetchSignals_ai_off (includeUserSignals : Bool) :
    text.fetchSignals db.signals jobIds false includeUserSignals
      = jobIds.map (text.quietSignal db jobIds includeUserSignals) := by
  refine List.map_congr_left fun jobId hmem => ?_
  exact writeAiRequests_apply db hmem
    (userBase_keeps SignalRow.aiRequest (fun _ _ => rfl) (fun _ _ => rfl) includeUserSignals jobId)

theorem quietSignal_eq_iff (h : SameOutsideAi db db') {includeUserSignals : Bool} {jobId : String} :
    text.quietSignal db jobIds includeUserSignals jobId
        = text.quietSignal db' jobIds includeUserSignals jobId ↔
      text.SameRequests (text.logsOf db jobId) (text.logsOf db' jobId) := by
  have hbase : text.userBase db jobIds includeUserSignals
      = text.userBase db' jobIds includeUserSignals := by
    rw [userBase, userBase, writeUserSignals, writeUserSignals, h.bookmarks, h.applicationRecords]
  rw [← aiRequestSignal_eq_iff, quietSignal, quietSignal, hbase]
  constructor
  · exact fun heq => congrArg SignalRow.aiRequest heq
  · intro heq
    rw [heq]

/-- With the AI signals switched off, the signals show what the logs of the jobs are. -/
theorem fetchSignals_ai_off_iff (h : SameOutsideAi db db') {includeUserSignals : Bool} :
    text.fetchSignals db.signals jobIds false includeUserSignals
        = text.fetchSignals db'.signals jobIds false includeUserSignals ↔
      ∀ jobId ∈ jobIds, text.SameRequests (text.logsOf db jobId) (text.logsOf db' jobId) := by
  rw [fetchSignals_ai_off, fetchSignals_ai_off, List.map_inj_left]
  exact forall₂_congr fun jobId _ => quietSignal_eq_iff h

/-- With the user signals switched off, nothing of the users is read. -/
theorem fetchSignals_user_off (h : SameOutsideUser db db') (includeAiSignals : Bool) :
    text.fetchSignals db.signals jobIds includeAiSignals false
      = text.fetchSignals db'.signals jobIds includeAiSignals false := by
  unfold fetchSignals writeAiSignals writeAiRequests listedLogs
  rw [h.fitScoreResults, h.skillGapResults, h.cvAnalysisResults, h.aiRequestLogs]
  rfl

/-- The columns of the request logs. -/
def aiRequestColumns : List String :=
  ["ai_request_count_total", "ai_request_count_succeeded", "ai_request_count_failed",
    "ai_request_latest_kind", "ai_request_latest_status", "ai_request_latest_model_name",
    "ai_request_latest_created_at", "ai_request_error_code_top"]

theorem aiRequestColumns_listed : ∀ column ∈ aiRequestColumns,
    column ∈ jobListingsColumns ∧ isSignalColumn column = true := by
  decide +kernel

theorem cells_aiRequestColumns (signal : SignalRow) :
    aiRequestColumns.map (text.cellOf signal.toRow)
      = [.int signal.aiRequest.countTotal, .int signal.aiRequest.countSucceeded,
        .int signal.aiRequest.countFailed, .text signal.aiRequest.latestKind,
        .text signal.aiRequest.latestStatus, .text signal.aiRequest.latestModelName,
        .text signal.aiRequest.latestCreatedAt, .text signal.aiRequest.errorCodeTop] := by
  simp [aiRequestColumns, cellOf, Columns.getD, SignalRow.toRow, List.lookup_cons,
    normalizeCsvValue, RowValue.int, RowValue.text]

/-- Rows with the same columns of signals show the same request logs. -/
theorem aiRequest_eq_of_cells {signal signal' : SignalRow}
    (h : ∀ column ∈ jobListingsColumns, isSignalColumn column = true →
      text.cellOf signal.toRow column = text.cellOf signal'.toRow column) :
    signal.aiRequest = signal'.aiRequest := by
  have hcells : aiRequestColumns.map (text.cellOf signal.toRow)
      = aiRequestColumns.map (text.cellOf signal'.toRow) :=
    List.map_congr_left fun column hmem =>
      h column (aiRequestColumns_listed column hmem).1 (aiRequestColumns_listed column hmem).2
  rw [cells_aiRequestColumns, cells_aiRequestColumns] at hcells
  rcases hsignal : signal.aiRequest
  rcases hsignal' : signal'.aiRequest
  rw [hsignal, hsignal'] at hcells
  simpa [Int.natCast_inj] using hcells

end DatasetText

namespace DatasetExport

variable (run : DatasetExport) {db db' : DatasetContent} {options : DatasetExportOptions}

/-- The job ids of an export. -/
def exportedIds (db : DatasetContent) (options : DatasetExportOptions) : List String :=
  (fetchJobs db options).map run.jobIdOf

/-- The switches of an export keep what they switch off out of it: two contents that differ in the
    AI tables only, or in the user tables only, give the same signals, whatever the job ids, and
    the same rows. -/
structure Noninterfering (db db' : DatasetContent) (options : DatasetExportOptions)
    (jobIds : List String) (times : ExportTimes) : Prop where
  aiSignals : options.includeAiSignals = false → SameOutsideAi db db' →
    run.text.fetchSignals db.signals jobIds false options.includeUserSignals
      = run.text.fetchSignals db'.signals jobIds false options.includeUserSignals
  aiRows : options.includeAiSignals = false → SameOutsideAi db db' →
    run.collectExportPayload db options times = run.collectExportPayload db' options times
  userSignals : options.includeUserSignals = false → SameOutsideUser db db' →
    run.text.fetchSignals db.signals jobIds options.includeAiSignals false
      = run.text.fetchSignals db'.signals jobIds options.includeAiSignals false
  userRows : options.includeUserSignals = false → SameOutsideUser db db' →
    run.collectExportPayload db options times = run.collectExportPayload db' options times

variable {run}

/-- An export depends on the signals through `fetch_signals` alone. -/
theorem jobInputs_congr (hjobs : db.jobs = db'.jobs) (hreqs : db.requirements = db'.requirements)
    (hskills : db.skills = db'.skills)
    (hsignals : run.text.fetchSignals db.signals (run.exportedIds db options)
        options.includeAiSignals options.includeUserSignals
      = run.text.fetchSignals db'.signals (run.exportedIds db options) options.includeAiSignals
        options.includeUserSignals) :
    run.jobInputs db options = run.jobInputs db' options := by
  have hfetch : fetchJobs db options = fetchJobs db' options := by
    rw [fetchJobs, fetchJobs, hjobs]
  dsimp only [jobInputs]
  dsimp only [exportedIds] at hsignals
  rw [hsignals, hfetch, hreqs, hskills]

theorem collect_congr (h : run.jobInputs db options = run.jobInputs db' options)
    (times : ExportTimes) :
    run.collectExportPayload db options times = run.collectExportPayload db' options times := by
  rw [collectExportPayload, collectExportPayload, h]

/-- The signals of an exported job. -/
theorem signalOf_map {f : String → SignalRow} (hf : ∀ jobId, (f jobId).jobId = jobId)
    {jobIds : List String} {jobId : String} (h : jobId ∈ jobIds) :
    signalOf (jobIds.map f) jobId = f jobId := by
  cases hfind : (jobIds.map f).find? fun signal => signal.jobId = jobId with
  | none =>
    have hnot := List.find?_eq_none.mp hfind (f jobId) (List.mem_map_of_mem h)
    simp [hf] at hnot
  | some signal =>
    obtain ⟨other, -, rfl⟩ := List.mem_map.mp (List.mem_of_find?_eq_some hfind)
    have hother : other = jobId := by simpa [hf] using List.find?_some hfind
    rw [signalOf, hfind, hother, Option.getD_some]

variable (run) in
/-- A job of an export with the AI signals switched off. -/
def quietInput (db : DatasetContent) (options : DatasetExportOptions) (base : DbRow) : JobInput :=
  { base
    requirements := run.rowsOfJob (run.exportedIds db options) (run.jobIdOf base) db.requirements
    skills := run.rowsOfJob (run.exportedIds db options) (run.jobIdOf base) db.skills
    signal := run.text.quietSignal db (run.exportedIds db options) options.includeUserSignals
      (run.jobIdOf base) }

theorem jobInputs_ai_off (hoff : options.includeAiSignals = false) :
    run.jobInputs db options = (fetchJobs db options).map (run.quietInput db options) := by
  refine List.map_congr_left fun base hmem => ?_
  have hid : run.jobIdOf base ∈ run.exportedIds db options := List.mem_map_of_mem hmem
  rw [hoff, DatasetText.fetchSignals_ai_off]
  exact congrArg (fun signal => ({ base, signal, .. } : JobInput))
    (signalOf_map (DatasetText.jobId_quietSignal _) hid)

/-- Rows that show the same show the same request logs. -/
theorem aiRequest_eq_of_alignRow {times : ExportTimes} {job job' : JobInput}
    (h : run.text.alignRow (run.jobRow times job) jobListingsColumns
      = run.text.alignRow (run.jobRow times job') jobListingsColumns) :
    job.signal.aiRequest = job'.signal.aiRequest := by
  have hcells := List.map_inj_left.mp h
  have hsignals : ∀ column ∈ jobListingsColumns, isSignalColumn column = true →
      run.text.cellOf job.signal.toRow column = run.text.cellOf job'.signal.toRow column := by
    intro column hmem hsignal
    have hne : column ≠ "dataset_row_hash" := by
      rintro rfl
      exact absurd hsignal (by decide +kernel)
    have hcell := (Prod.mk.inj (hcells column hmem)).2
    rwa [cellOf_jobRow hne, cellOf_jobRow hne, DatasetText.cellOf_signal hmem hsignal,
      DatasetText.cellOf_signal hmem hsignal] at hcell
  exact DatasetText.aiRequest_eq_of_cells hsignals

/-- With the AI signals switched off, the rows show what the logs of the exported jobs are. -/
theorem collect_ai_off_iff (hoff : options.includeAiSignals = false) (h : SameOutsideAi db db')
    (times : ExportTimes) :
    run.collectExportPayload db options times = run.collectExportPayload db' options times ↔
      ∀ jobId ∈ run.exportedIds db options,
        run.text.SameRequests (run.text.logsOf db jobId) (run.text.logsOf db' jobId) := by
  constructor
  · intro hrows
    have hfetch : fetchJobs db' options = fetchJobs db options := by
      rw [fetchJobs, fetchJobs, h.jobs]
    have hjobRows := congrArg ExportPayload.jobRows hrows
    simp only [collectExportPayload, DatasetText.alignRows, jobInputs_ai_off hoff, hfetch,
      List.map_map] at hjobRows
    refine List.forall_mem_map.mpr fun base hmem => ?_
    have hrequest := aiRequest_eq_of_alignRow (List.map_inj_left.mp hjobRows base hmem)
    exact DatasetText.aiRequestSignal_eq_iff.mp hrequest
  · intro hlogs
    refine collect_congr (jobInputs_congr h.jobs h.requirements h.skills ?_) times
    rw [hoff]
    exact (DatasetText.fetchSignals_ai_off_iff h).mpr hlogs

theorem collect_user_off (hoff : options.includeUserSignals = false) (h : SameOutsideUser db db')
    (times : ExportTimes) :
    run.collectExportPayload db options times = run.collectExportPayload db' options times := by
  refine collect_congr (jobInputs_congr h.jobs h.requirements h.skills ?_) times
  rw [hoff]
  exact DatasetText.fetchSignals_user_off h options.includeAiSignals

/-- CORRECT (exactly when the logs agree): an export keeps what its switches switch off out of the
    signals and the rows if and only if, where the AI signals are switched off and the contents
    differ in the AI tables only, the logs that name a listed or an exported job agree in number,
    in outcomes, in what is read of the last one, and in the most frequent error code. -/
theorem noninterfering_iff (run : DatasetExport) (db db' : DatasetContent)
    (options : DatasetExportOptions) (jobIds : List String) (times : ExportTimes) :
    run.Noninterfering db db' options jobIds times ↔
      (options.includeAiSignals = false → SameOutsideAi db db' →
        ∀ jobId ∈ jobIds ++ run.exportedIds db options,
          run.text.SameRequests (run.text.logsOf db jobId) (run.text.logsOf db' jobId)) := by
  constructor
  · intro h hoff hsame jobId hmem
    rcases List.mem_append.mp hmem with hlisted | hexported
    · exact (DatasetText.fetchSignals_ai_off_iff hsame).mp (h.aiSignals hoff hsame) jobId hlisted
    · exact (collect_ai_off_iff hoff hsame times).mp (h.aiRows hoff hsame) jobId hexported
  · intro h
    refine ⟨fun hoff hsame => ?_, fun hoff hsame => ?_, fun _ hsame => ?_, fun hoff hsame => ?_⟩
    · refine (DatasetText.fetchSignals_ai_off_iff hsame).mpr fun jobId hlisted => ?_
      exact h hoff hsame jobId (List.mem_append_left _ hlisted)
    · refine (collect_ai_off_iff hoff hsame times).mpr fun jobId hexported => ?_
      exact h hoff hsame jobId (List.mem_append_right _ hexported)
    · exact DatasetText.fetchSignals_user_off hsame options.includeAiSignals
    · exact collect_user_off hoff hsame times

/-! ### A log under a switch -/

/-- A log that names job `j`. -/
def failedLog : AiRequestLog where
  kind := .text "FIT_SCORE"
  status := .text "FAILED"
  modelName := .none
  errorCode := .text "TIMEOUT"
  createdAt := .none
  inputSummary := .dict [("jobId", .str "j")]
  outputSummary := .null

/-- The content with that log. -/
def loggedJob : DatasetContent :=
  { oneActiveJob with signals := ⟨[], [], [], [], [], [failedLog]⟩ }

/-- The options of an export without AI signals. -/
def withoutAi : DatasetExportOptions := { includeAiSignals := false }

/-- The log shows in the signals and in the rows of the job, although the AI signals are switched
    off. -/
theorem log_shows_without_ai :
    SameOutsideAi oneActiveJob loggedJob ∧
      plainDatasetText.fetchSignals oneActiveJob.signals ["j"] false true
        ≠ plainDatasetText.fetchSignals loggedJob.signals ["j"] false true ∧
      plainExport.collectExportPayload oneActiveJob withoutAi (atInstant 0)
        ≠ plainExport.collectExportPayload loggedJob withoutAi (atInstant 0) ∧
      ¬ plainExport.Noninterfering oneActiveJob loggedJob withoutAi ["j"] (atInstant 0) := by
  have hsame : SameOutsideAi oneActiveJob loggedJob := ⟨rfl, rfl, rfl, rfl, rfl⟩
  have hlogs : ¬ plainDatasetText.SameRequests (plainDatasetText.logsOf oneActiveJob "j")
      (plainDatasetText.logsOf loggedJob "j") := fun h => absurd h.total (by decide +kernel)
  have hsignals : plainDatasetText.fetchSignals oneActiveJob.signals ["j"] false true
      ≠ plainDatasetText.fetchSignals loggedJob.signals ["j"] false true := fun heq =>
    hlogs ((DatasetText.fetchSignals_ai_off_iff hsame).mp heq "j" List.mem_cons_self)
  have hrows : plainExport.collectExportPayload oneActiveJob withoutAi (atInstant 0)
      ≠ plainExport.collectExportPayload loggedJob withoutAi (atInstant 0) := fun heq =>
    hlogs ((collect_ai_off_iff rfl hsame (atInstant 0)).mp heq "j" (by decide +kernel))
  exact ⟨hsame, hsignals, hrows, fun h => hsignals (h.aiSignals rfl hsame)⟩

end DatasetExport

end Bisakerja
