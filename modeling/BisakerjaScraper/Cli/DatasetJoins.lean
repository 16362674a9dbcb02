import BisakerjaScraper.Cli.DatasetHashes

/-! The tables of an export fit together.

    Requirements and skills repeat columns of their job, and the row of the job counts them. The
    signals of a job stand in a table of their own and in the row of the job. A reader who joins the
    tables on `job_id` finds the same values on both sides, and as many rows as the job counts. -/

namespace Bisakerja
open Schemes

/-- A cell of an exported row. -/
def cellIn (row : Columns Cell) (column : String) : Cell := Columns.getD row column (.text "")

/-- The text of a cell. -/
def textIn (row : Columns Cell) (column : String) : String :=
  match cellIn row column with
  | .text s => s
  | _ => ""

/-- The columns a table repeats, each with the column of the job. -/
def repeatedColumns : List (String × String) :=
  [("job_id", "job_id"), ("source_platform_slug", "source_platform_slug"),
    ("company_name", "company_name"), ("job_title", "title"), ("job_status", "status")]

/-- The columns of the signals, which stand in both tables. -/
def sharedSignalColumns : List (String × String) :=
  (jobUserSignalsColumns.filter isSignalColumn).map fun column => (column, column)

/-- The columns that count requirements, each with the column and the value it counts. -/
def requirementCounts : List (String × String × String) :=
  [("requirements_count_skill", "requirement_type", "SKILL"),
    ("requirements_count_experience", "requirement_type", "EXPERIENCE"),
    ("requirements_count_education", "requirement_type", "EDUCATION"),
    ("requirements_count_responsibility", "requirement_type", "RESPONSIBILITY"),
    ("requirements_count_other", "requirement_type", "OTHER"),
    ("requirements_priority_high_count", "requirement_priority", "HIGH"),
    ("requirements_priority_medium_count", "requirement_priority", "MEDIUM"),
    ("requirements_priority_low_count", "requirement_priority", "LOW")]

/-- The row repeats columns of a listing. -/
def Repeats (columns : List (String × String)) (row listing : Columns Cell) : Prop :=
  ∀ entry ∈ columns, cellIn row entry.1 = cellIn listing entry.2

/-- The rows of a table that belong to a listing. -/
def rowsOfListing (listing : Columns Cell) (rows : List (Columns Cell)) : List (Columns Cell) :=
  rowsOf (textIn · "job_id") (textIn listing "job_id") rows

/-- The tables fit together. -/
structure ExportPayload.Joined (payload : ExportPayload) : Prop where
  requirements : ∀ row ∈ payload.requirementsRows, ∃ listing ∈ payload.jobRows,
    Repeats (("job_last_seen_at", "last_seen_at") :: repeatedColumns) row listing
  skills : ∀ row ∈ payload.skillsRows, ∃ listing ∈ payload.jobRows,
    Repeats (("job_last_seen_at", "last_seen_at") :: repeatedColumns) row listing
  signals : List.Forall₂ (Repeats (repeatedColumns ++ sharedSignalColumns)) payload.signalsRows
    payload.jobRows
  requirementsTotal : ∀ listing ∈ payload.jobRows, cellIn listing "requirements_count_total"
    = .int (rowsOfListing listing payload.requirementsRows).length
  requirementsCounted : ∀ listing ∈ payload.jobRows, ∀ entry ∈ requirementCounts,
    cellIn listing entry.1 = .int ((rowsOfListing listing payload.requirementsRows).countP
      fun row => textIn row entry.2.1 = entry.2.2)
  skillsTotal : ∀ listing ∈ payload.jobRows, cellIn listing "skills_count_total"
    = .int (rowsOfListing listing payload.skillsRows).length

namespace DatasetText

variable {text : DatasetText} {base : DbRow} {signal : SignalRow} {column : String}

/-! ### The cells of a job -/

/-- An aligned row shows the cell of its row. -/
theorem cellIn_alignRow (row : ExportRow) {columns : List String} (h : column ∈ columns) :
    cellIn (text.alignRow row columns) column = text.cellOf row column := by
  rw [cellIn, Columns.getD, alignRow, Columns.lookup_map, if_pos h]
  rfl

section

variable {requirements skills : List DbRow} {staleAfterHours : ℤ} {now exportedAt : Timestamp}

/-- A column that nothing overwrites shows the value of the job. -/
theorem cellOf_base (hsignal : isSignalColumn column = false) (hmem : column ∈ jobListingsColumns)
    (hagg : column ∉ aggregateNames) :
    text.cellOf (text.jobColumns base (text.buildAggregates base requirements skills signal
      staleAfterHours now) signal exportedAt) column
      = text.cellOf (text.baseColumns base exportedAt) column := by
  have hnone : List.lookup column (text.buildAggregates base requirements skills signal
      staleAfterHours now).columns = none := by
    have hnames : (text.buildAggregates base requirements skills signal
        staleAfterHours now).columns.map Prod.fst = aggregateNames := buildAggregates_names
    rw [List.lookup_eq_none_iff]
    intro entry hentry
    rw [bne_iff_ne]
    rintro rfl
    exact hagg (hnames ▸ List.mem_map_of_mem hentry)
  rw [cellOf, Columns.getD, lookup_jobColumns hsignal, lookup_aggregateColumns hmem, hnone]
  rfl

/-- A column of an aggregate shows it. -/
theorem cellOf_aggregate {value : RowValue} (hsignal : isSignalColumn column = false)
    (hmem : column ∈ jobListingsColumns)
    (hvalue : List.lookup column (text.buildAggregates base requirements skills signal
      staleAfterHours now).columns = some value) :
    text.cellOf (text.jobColumns base (text.buildAggregates base requirements skills signal
      staleAfterHours now) signal exportedAt) column = text.normalizeCsvValue value := by
  rw [cellOf, Columns.getD, lookup_jobColumns hsignal, lookup_aggregateColumns hmem, hvalue]
  rfl

/-- The counts of requirements by type and by priority. -/
theorem lookup_requirementCount {entry : String × String × String} (h : entry ∈ requirementCounts) :
    List.lookup entry.1 (text.buildAggregates base requirements skills signal staleAfterHours
      now).columns
      = some (.int ((requirements.map fun row => text.enumOf row entry.2.1).count entry.2.2)) := by
  revert entry
  simp [requirementCounts, buildAggregates, List.lookup_cons]

/-- The counts of all requirements and skills. -/
theorem lookup_totals : List.lookup "requirements_count_total" (text.buildAggregates base
      requirements skills signal staleAfterHours now).columns = some (.int requirements.length) ∧
    List.lookup "skills_count_total" (text.buildAggregates base requirements skills signal
      staleAfterHours now).columns = some (.int skills.length) := by
  simp [buildAggregates, List.lookup_cons]

end

/-! ### The cells of the other tables -/

theorem repeats_requirement {requirements : List DbRow} {row : ExportRow} (exportedAt : Timestamp)
    (h : row ∈ text.buildRequirementRows base requirements) :
    ∀ entry ∈ ("job_last_seen_at", "last_seen_at") :: repeatedColumns,
      text.cellOf row entry.1 = text.cellOf (text.baseColumns base exportedAt) entry.2 := by
  obtain ⟨item, -, rfl⟩ := List.mem_map.mp h
  simp [repeatedColumns, cellOf, Columns.getD, baseColumns, copyText, copyEnum, copyInt, copyTime,
    List.lookup_cons]

theorem repeats_skill {skills : List DbRow} {row : ExportRow} (exportedAt : Timestamp)
    (h : row ∈ text.buildSkillRows base skills) :
    ∀ entry ∈ ("job_last_seen_at", "last_seen_at") :: repeatedColumns,
      text.cellOf row entry.1 = text.cellOf (text.baseColumns base exportedAt) entry.2 := by
  obtain ⟨item, -, rfl⟩ := List.mem_map.mp h
  simp [repeatedColumns, cellOf, Columns.getD, baseColumns, copyText, copyEnum, copyInt, copyTime,
    List.lookup_cons]

theorem repeats_signal (exportedAt : Timestamp) : ∀ entry ∈ repeatedColumns,
    text.cellOf (text.buildSignalRow base signal) entry.1
      = text.cellOf (text.baseColumns base exportedAt) entry.2 := by
  simp [repeatedColumns, cellOf, Columns.getD, baseColumns, copyText, copyEnum, copyInt, copyTime,
    List.lookup_cons, buildSignalRow]

/-- The types and the priorities of the rows of requirements. -/
theorem map_textIn_requirements {requirements : List DbRow}
    (h : column ∈ ["requirement_type", "requirement_priority"]) :
    (text.alignRows (text.buildRequirementRows base requirements) jobRequirementsColumns).map
        (textIn · column)
      = requirements.map fun row => text.enumOf row column := by
  rw [alignRows, buildRequirementRows, List.map_map, List.map_map]
  refine List.map_congr_left fun item _ => ?_
  have hmem : column ∈ jobRequirementsColumns := by
    revert column
    decide
  simp only [List.mem_cons, List.not_mem_nil, or_false] at h
  rw [Function.comp_apply, Function.comp_apply, textIn, cellIn_alignRow _ hmem]
  rcases h with rfl | rfl <;>
    simp [cellOf, Columns.getD, copyText, copyEnum, copyTime, List.lookup_cons, normalizeCsvValue,
      RowValue.text]

/-- A column of the signals that is no column of the job shows the signal. -/
theorem cellOf_buildSignalRow (hmem : column ∈ jobUserSignalsColumns)
    (hown : column ∉ repeatedColumns.map Prod.fst) :
    text.cellOf (text.buildSignalRow base signal) column = text.cellOf signal.toRow column := by
  have hrow : List.lookup column [text.copyText base "job_id",
      text.copyText base "source_platform_slug", ("job_title", .text (text.textOf base "title")),
      text.copyText base "company_name", ("job_status", .text (text.enumOf base "status"))] = none := by
    rw [List.lookup_eq_none_iff]
    simp only [repeatedColumns, List.map_cons, List.map_nil, List.mem_cons, not_or] at hown
    simp [copyText, hown]
  have hkept : column ∈ jobUserSignalsColumns.filter fun c => c ∉
      ["job_id", "source_platform_slug", "job_title", "company_name", "job_status"] := by
    simp only [repeatedColumns, List.map_cons, List.map_nil, List.mem_cons, not_or] at hown
    simp [hmem, hown]
  have hfound : List.lookup column (text.buildSignalRow base signal)
      = some (.cell (text.cellOf signal.toRow column)) := by
    rw [buildSignalRow, List.lookup_append, hrow, Option.none_or, Columns.lookup_map]
    exact if_pos hkept
  rw [cellOf, Columns.getD, hfound]
  rfl

end DatasetText

namespace DatasetExport

variable {run : DatasetExport} {db : DatasetContent} {options : DatasetExportOptions}
  {times : ExportTimes} {job : JobInput}

/-! ### The row of a job -/

/-- The row of a job in the table of jobs. -/
def listingOf (run : DatasetExport) (times : ExportTimes) (job : JobInput) : Columns Cell :=
  run.text.alignRow (run.jobRow times job) jobListingsColumns

/-- The rows of the requirements of a job. -/
def requirementsOf (run : DatasetExport) (job : JobInput) : List (Columns Cell) :=
  run.text.alignRows (run.text.buildRequirementRows job.base job.requirements) jobRequirementsColumns

/-- The rows of the skills of a job. -/
def skillsOf (run : DatasetExport) (job : JobInput) : List (Columns Cell) :=
  run.text.alignRows (run.text.buildSkillRows job.base job.skills) jobSkillsColumns

theorem cellIn_listingOf {column : String} (hmem : column ∈ jobListingsColumns)
    (hhash : column ≠ "dataset_row_hash") :
    cellIn (run.listingOf times job) column
      = run.text.cellOf (run.columnsOf times job) column := by
  rw [listingOf, DatasetText.cellIn_alignRow _ hmem, cellOf_jobRow hhash]

theorem repeatedColumns_listed : ∀ entry ∈ ("job_last_seen_at", "last_seen_at") :: repeatedColumns,
    (isSignalColumn entry.2 = false ∧ entry.2 ∈ jobListingsColumns ∧ entry.2 ∉ aggregateNames ∧
      entry.2 ≠ "dataset_row_hash") ∧ entry.1 ∈ jobRequirementsColumns ∧ entry.1 ∈ jobSkillsColumns := by
  decide +kernel

/-- The columns that are repeated show values of the job itself. -/
theorem cellIn_repeated {entry : String × String}
    (h : entry ∈ ("job_last_seen_at", "last_seen_at") :: repeatedColumns) :
    cellIn (run.listingOf times job) entry.2
      = run.text.cellOf (run.text.baseColumns job.base times.exportedAt) entry.2 := by
  obtain ⟨⟨hsignal, hmem, hagg, hhash⟩, -⟩ := repeatedColumns_listed entry h
  rw [cellIn_listingOf hmem hhash]
  exact DatasetText.cellOf_base hsignal hmem hagg

theorem repeats_requirementsOf {row : Columns Cell} (h : row ∈ run.requirementsOf job) :
    Repeats (("job_last_seen_at", "last_seen_at") :: repeatedColumns) row
      (run.listingOf times job) := by
  obtain ⟨source, hsource, rfl⟩ := List.mem_map.mp h
  intro entry hentry
  rw [DatasetText.cellIn_alignRow _ (repeatedColumns_listed entry hentry).2.1,
    cellIn_repeated hentry]
  exact DatasetText.repeats_requirement times.exportedAt hsource entry hentry

theorem repeats_skillsOf {row : Columns Cell} (h : row ∈ run.skillsOf job) :
    Repeats (("job_last_seen_at", "last_seen_at") :: repeatedColumns) row
      (run.listingOf times job) := by
  obtain ⟨source, hsource, rfl⟩ := List.mem_map.mp h
  intro entry hentry
  rw [DatasetText.cellIn_alignRow _ (repeatedColumns_listed entry hentry).2.2,
    cellIn_repeated hentry]
  exact DatasetText.repeats_skill times.exportedAt hsource entry hentry

theorem not_signal : ∀ column ∈ "dataset_row_hash" :: repeatedColumns.map Prod.fst,
    isSignalColumn column = false := by
  decide +kernel

/-- The columns of the signals stand side by side in the row of the job. -/
theorem drop_jobUserSignalsColumns :
    jobUserSignalsColumns.drop 5 = (jobListingsColumns.drop 77).take 34 := rfl

theorem mem_sharedSignalColumns {entry : String × String} (h : entry ∈ sharedSignalColumns) :
    entry.1 = entry.2 ∧ entry.2 ∈ jobUserSignalsColumns ∧ isSignalColumn entry.2 = true ∧
      entry.2 ∈ jobListingsColumns ∧ entry.2 ∉ "dataset_row_hash" :: repeatedColumns.map Prod.fst := by
  obtain ⟨column, hmem, rfl⟩ := List.mem_map.mp h
  obtain ⟨huser, hsignal⟩ := List.mem_filter.mp hmem
  have hother : column ∉ "dataset_row_hash" :: repeatedColumns.map Prod.fst := fun hown =>
    Bool.false_ne_true ((not_signal column hown).symm.trans hsignal)
  refine ⟨rfl, huser, hsignal, ?_, hother⟩
  rw [← List.take_append_drop 5 jobUserSignalsColumns, drop_jobUserSignalsColumns,
    List.mem_append] at huser
  rcases huser with hown | hlisted
  · have hfront : jobUserSignalsColumns.take 5
        ⊆ "dataset_row_hash" :: repeatedColumns.map Prod.fst := by decide
    exact absurd (hfront hown) hother
  · exact List.mem_of_mem_drop (List.mem_of_mem_take hlisted)

theorem repeatedColumns_inSignals : ∀ entry ∈ repeatedColumns, entry.1 ∈ jobUserSignalsColumns := by
  decide +kernel

/-- The row of the signals of a job. -/
theorem repeats_buildSignalRow : Repeats (repeatedColumns ++ sharedSignalColumns)
    (run.text.alignRow (run.text.buildSignalRow job.base job.signal) jobUserSignalsColumns)
    (run.listingOf times job) := by
  intro entry hentry
  rcases List.mem_append.mp hentry with hrepeated | hshared
  · rw [DatasetText.cellIn_alignRow _ (repeatedColumns_inSignals entry hrepeated),
      cellIn_repeated (List.mem_cons_of_mem _ hrepeated)]
    exact DatasetText.repeats_signal times.exportedAt entry hrepeated
  · obtain ⟨hsame, huser, hsignal, hmem, hother⟩ := mem_sharedSignalColumns hshared
    obtain ⟨hhash, hown⟩ := not_or.mp fun h => hother (List.mem_cons.mpr h)
    rw [hsame, DatasetText.cellIn_alignRow _ huser, cellIn_listingOf hmem hhash, columnsOf,
      DatasetText.cellOf_signal hmem hsignal, DatasetText.cellOf_buildSignalRow huser hown]

/-! ### The counts -/

theorem textIn_jobId {row : Columns Cell}
    (h : Repeats (("job_last_seen_at", "last_seen_at") :: repeatedColumns) row
      (run.listingOf times job)) :
    textIn row "job_id" = textIn (run.listingOf times job) "job_id" := by
  have hcell : cellIn row "job_id" = cellIn (run.listingOf times job) "job_id" :=
    h ("job_id", "job_id") (by decide)
  rw [textIn, textIn, hcell]

theorem textIn_listingOf : textIn (run.listingOf times job) "job_id"
    = run.text.textOf job.base "job_id" := by
  have hcell : cellIn (run.listingOf times job) "job_id"
      = run.text.cellOf (run.text.baseColumns job.base times.exportedAt) "job_id" :=
    @cellIn_repeated run times job ("job_id", "job_id") (by decide)
  rw [textIn, hcell]
  simp [DatasetText.cellOf, Columns.getD, DatasetText.baseColumns, DatasetText.copyText,
    DatasetText.normalizeCsvValue, RowValue.text]

theorem requirementCounts_listed : ∀ entry ∈ requirementCounts,
    (isSignalColumn entry.1 = false ∧ entry.1 ∈ jobListingsColumns ∧ entry.1 ≠ "dataset_row_hash") ∧
      entry.2.1 ∈ ["requirement_type", "requirement_priority"] := by
  decide +kernel

/-- A column that counts requirements counts the rows of the requirements. -/
theorem countP_requirementsOf {entry : String × String × String} (h : entry ∈ requirementCounts) :
    cellIn (run.listingOf times job) entry.1
      = .int ((run.requirementsOf job).countP fun row => textIn row entry.2.1 = entry.2.2) := by
  obtain ⟨⟨hsignal, hmem, hhash⟩, hkey⟩ := requirementCounts_listed entry h
  have hcount : (run.requirementsOf job).countP (fun row => textIn row entry.2.1 = entry.2.2)
      = ((run.requirementsOf job).map (textIn · entry.2.1)).count entry.2.2 := by
    rw [List.count_eq_countP, List.countP_map]
    exact List.countP_congr fun row _ => by simp
  rw [hcount, requirementsOf, DatasetText.map_textIn_requirements hkey, cellIn_listingOf hmem hhash,
    columnsOf, aggregatesOf,
    DatasetText.cellOf_aggregate hsignal hmem (DatasetText.lookup_requirementCount h)]
  rfl

/-- The totals count the rows. -/
theorem cellIn_totals : cellIn (run.listingOf times job) "requirements_count_total"
      = .int (run.requirementsOf job).length ∧
    cellIn (run.listingOf times job) "skills_count_total" = .int (run.skillsOf job).length := by
  have hlisted : ∀ column ∈ ["requirements_count_total", "skills_count_total"],
      isSignalColumn column = false ∧ column ∈ jobListingsColumns ∧ column ≠ "dataset_row_hash" := by
    decide +kernel
  obtain ⟨hsignal, hmem, hhash⟩ := hlisted "requirements_count_total" List.mem_cons_self
  obtain ⟨hsignal', hmem', hhash'⟩ := hlisted "skills_count_total"
    (List.mem_cons_of_mem _ List.mem_cons_self)
  constructor
  · rw [cellIn_listingOf hmem hhash, columnsOf, aggregatesOf,
      DatasetText.cellOf_aggregate hsignal hmem DatasetText.lookup_totals.1]
    simp [requirementsOf, DatasetText.alignRows, DatasetText.buildRequirementRows,
      DatasetText.normalizeCsvValue, RowValue.int]
  · rw [cellIn_listingOf hmem' hhash', columnsOf, aggregatesOf,
      DatasetText.cellOf_aggregate hsignal' hmem' DatasetText.lookup_totals.2]
    simp [skillsOf, DatasetText.alignRows, DatasetText.buildSkillRows,
      DatasetText.normalizeCsvValue, RowValue.int]

/-! ### The tables -/

theorem collect_jobRows : (run.collectExportPayload db options times).jobRows
    = (run.jobInputs db options).map (run.listingOf times) := by
  simp [collectExportPayload, DatasetText.alignRows, listingOf]

theorem collect_requirementsRows : (run.collectExportPayload db options times).requirementsRows
    = (run.jobInputs db options).flatMap run.requirementsOf := by
  simp only [collectExportPayload, DatasetText.alignRows, List.map_flatMap]
  rfl

theorem collect_skillsRows : (run.collectExportPayload db options times).skillsRows
    = (run.jobInputs db options).flatMap run.skillsOf := by
  simp only [collectExportPayload, DatasetText.alignRows, List.map_flatMap]
  rfl

theorem collect_signalsRows : (run.collectExportPayload db options times).signalsRows
    = (run.jobInputs db options).map fun job =>
        run.text.alignRow (run.text.buildSignalRow job.base job.signal) jobUserSignalsColumns := by
  simp [collectExportPayload, DatasetText.alignRows]

/-- A sublist of the jobs of the database. -/
theorem nodup_jobInputs (hids : (db.jobs.map (run.text.textOf · "job_id")).Nodup) :
    ((run.jobInputs db options).map fun job => run.text.textOf job.base "job_id").Nodup := by
  have hfetched : (fetchJobs db options).Sublist db.jobs := by
    unfold fetchJobs
    split
    · exact (List.take_sublist _ _).trans List.filter_sublist
    · exact List.filter_sublist
  have hmap : (run.jobInputs db options).map (fun job => run.text.textOf job.base "job_id")
      = (fetchJobs db options).map (run.text.textOf · "job_id") := by
    simp [jobInputs]
  rw [hmap]
  exact (hfetched.map _).nodup hids

/-- Rows that each job brings, and that repeat it, are the rows of its listing. -/
theorem rowsOfListing_flatMap {rows : JobInput → List (Columns Cell)}
    (hrows : ∀ job, ∀ row ∈ rows job,
      Repeats (("job_last_seen_at", "last_seen_at") :: repeatedColumns) row (run.listingOf times job))
    {jobs : List JobInput} (hids : (jobs.map fun job => run.text.textOf job.base "job_id").Nodup)
    (hjob : job ∈ jobs) :
    rowsOfListing (run.listingOf times job) (jobs.flatMap rows) = rows job := by
  have hkeys : ∀ x, ∀ row ∈ rows x, textIn row "job_id" = run.text.textOf x.base "job_id" :=
    fun x row hrow => (textIn_jobId (hrows x row hrow)).trans textIn_listingOf
  rw [rowsOfListing, textIn_listingOf]
  exact rowsOf_flatMap hkeys hids hjob

/-- The tables of every export fit together, if no two jobs of the database share their id. -/
theorem joined_collectExportPayload (run : DatasetExport) {db : DatasetContent}
    (hids : (db.jobs.map (run.text.textOf · "job_id")).Nodup) (options : DatasetExportOptions)
    (times : ExportTimes) : (run.collectExportPayload db options times).Joined := by
  have hinputs : ((run.jobInputs db options).map fun job =>
      run.text.textOf job.base "job_id").Nodup := nodup_jobInputs hids
  have hrequirements : ∀ job, ∀ row ∈ run.requirementsOf job, Repeats _ row (run.listingOf times job) :=
    fun _ _ => repeats_requirementsOf
  have hskills : ∀ job, ∀ row ∈ run.skillsOf job, Repeats _ row (run.listingOf times job) :=
    fun _ _ => repeats_skillsOf
  constructor
  case requirements =>
    rw [collect_requirementsRows, collect_jobRows]
    intro row hrow
    obtain ⟨job, hjob, hrow⟩ := List.mem_flatMap.mp hrow
    exact ⟨_, List.mem_map_of_mem hjob, hrequirements job row hrow⟩
  case skills =>
    rw [collect_skillsRows, collect_jobRows]
    intro row hrow
    obtain ⟨job, hjob, hrow⟩ := List.mem_flatMap.mp hrow
    exact ⟨_, List.mem_map_of_mem hjob, hskills job row hrow⟩
  case signals =>
    rw [collect_signalsRows, collect_jobRows, List.forall₂_map_left_iff, List.forall₂_map_right_iff]
    exact List.forall₂_same.mpr fun job _ => repeats_buildSignalRow
  case requirementsTotal =>
    rw [collect_requirementsRows, collect_jobRows, List.forall_mem_map]
    intro job hjob
    rw [rowsOfListing_flatMap hrequirements hinputs hjob]
    exact cellIn_totals.1
  case requirementsCounted =>
    rw [collect_requirementsRows, collect_jobRows, List.forall_mem_map]
    intro job hjob entry hentry
    rw [rowsOfListing_flatMap hrequirements hinputs hjob]
    exact countP_requirementsOf hentry
  case skillsTotal =>
    rw [collect_skillsRows, collect_jobRows, List.forall_mem_map]
    intro job hjob
    rw [rowsOfListing_flatMap hskills hinputs hjob]
    exact cellIn_totals.2

/-- One active job that asks for a skill. -/
def oneJobAsking : DatasetContent :=
  { oneActiveJob with
    requirements := [[("job_id", .text "j"), ("requirement_type", .text "SKILL")]] }

theorem joined_oneJobAsking : (plainExport.collectExportPayload oneJobAsking {} (atInstant 0)).Joined :=
  joined_collectExportPayload plainExport (by decide) {} (atInstant 0)

end DatasetExport

end Bisakerja
