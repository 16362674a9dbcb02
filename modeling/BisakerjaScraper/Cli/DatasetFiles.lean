import BisakerjaScraper.Cli.DatasetRows
import BisakerjaScraper.Cli.Runner
import BisakerjaScraper.Schemes.Csv

/-! The files of a dataset export.

    Each table of the export is written to a file of its own, with its column names as first record.
    A single file, when it is asked for, comes last: where a job is too large for it the command fails
    with the other files written. What is in the files is read back as it was, whatever the texts of
    the jobs hold. -/

namespace Bisakerja
open Schemes

/-- `FORMAT_CHOICES`. -/
inductive DatasetFormat where
  | multiCsv | singleCsv
  deriving DecidableEq

/-- `DatasetExportOptions`, as far as files depend on it. -/
structure DatasetFileOptions where
  includeModelDataset : Bool := true
  outputFormat : DatasetFormat := .multiCsv
  singleFileMaxFlatChars : ℤ := 20000

/-- A file of the export. -/
structure DatasetFile where
  name : String
  columns : List String
  rows : List (Columns Cell)

/-- The dialect `excel`. -/
def excel : CsvDialect where
  delimiter := ','
  quote := '"'
  delimiter_ne_quote := by decide
  delimiter_bare := by decide
  quote_bare := by decide

/-- `DEFAULT_SINGLE_FILE_NAME`. -/
def defaultSingleFileName : String := "job_listings_single_dataset.csv"

/-- The columns of `dataset_dictionary.csv`. -/
def dictionaryColumns : List String :=
  ["file_name", "column_name", "column_type", "source_table", "definition"]

/-! ### The dictionary -/

/-- The type `infer_type_map` takes from a value. -/
def RowValue.seenType : RowValue → Option String
  | .bool _ => some "boolean"
  | .cell (.int _) => some "integer"
  | .cell (.float _) => some "number"
  | _ => Option.none

/-- `infer_type_map(…).get(column, "text")`: the first value that has a type decides. -/
def inferType (sampleRows : List (Columns Cell)) (column : String) : String :=
  (sampleRows.findSome? fun row =>
    (RowValue.cell (Columns.getD row column (.text ""))).seenType).getD "text"

/-- The tables that `infer_source_table` tells by the front of a column. -/
def sourceTables : List (String × String) :=
  [("requirement_", "job_requirements"), ("requirements_", "job_requirements"),
    ("skill_", "job_skills,skills"), ("skills_", "job_skills,skills"), ("bookmark_", "bookmarks"),
    ("application_", "application_records"), ("fit_score_", "fit_score_results"),
    ("skill_gap_", "skill_gap_results"), ("cv_analysis_", "cv_analysis_results"),
    ("ai_request_", "ai_request_logs"), ("source_platform_", "source_platforms"),
    ("company_", "companies")]

/-- `infer_source_table`. -/
def inferSourceTable (column : String) : String :=
  ((sourceTables.find? fun entry => entry.1.toList.isPrefixOf column.toList).map Prod.snd).getD
    "job_listings"

/-- `infer_definition`. -/
def inferDefinition (column : String) : String :=
  "Dataset field for " ++ column.map (fun c => if c = '_' then ' ' else c) ++ "."

namespace DatasetExport

variable (run : DatasetExport) (options : DatasetFileOptions) (payload : ExportPayload)

/-- The files of the tables. -/
def tableFiles : List DatasetFile :=
  [⟨"job_listings_dataset.csv", jobListingsColumns, payload.jobRows⟩,
    ⟨"job_requirements_dataset.csv", jobRequirementsColumns, payload.requirementsRows⟩,
    ⟨"job_skills_dataset.csv", jobSkillsColumns, payload.skillsRows⟩,
    ⟨"job_user_signals_dataset.csv", jobUserSignalsColumns, payload.signalsRows⟩]

/-- `job_ai_model_training_dataset.csv`. -/
def modelFile : DatasetFile :=
  ⟨"job_ai_model_training_dataset.csv", run.model.columns, payload.modelRows⟩

/-- `build_dictionary_rows`. -/
def buildDictionaryRows : List (Columns Cell) :=
  (tableFiles payload ++ [run.modelFile payload]).flatMap fun file =>
    file.columns.map fun column =>
      [("file_name", .text file.name), ("column_name", .text column),
        ("column_type", .text (inferType file.rows column)),
        ("source_table", .text (inferSourceTable column)),
        ("definition", .text (inferDefinition column))]

/-! ### Writing -/

/-- A value as `csv.writer` writes it. -/
def csvText : Cell → String
  | .text s => s
  | .int n => toString n
  | .float x => run.text.floats.repr x

/-- The records of a file: the column names, and the cells of each row. -/
def recordsOf (file : DatasetFile) : List CsvRecord :=
  file.columns.map String.toList :: file.rows.map fun row => file.columns.map fun column =>
    (run.csvText (run.text.normalizeCsvValue (.cell (Columns.getD row column (.text ""))))).toList

/-- `write_csv`. -/
def writeCsv (file : DatasetFile) : List Char := excel.write (run.recordsOf file)

/-- `safe_text(row.get(column))` of a row that is exported. -/
def cellText (row : Columns Cell) (column : String) : String :=
  strip (((List.lookup column row).map run.csvText).getD "")

/-- The length of the texts of a job that the single file flattens. -/
def flattenedLen (row : Columns Cell) : ℤ :=
  (run.cellText row "requirements_concat").length + (run.cellText row "skills_top_10_names").length

/-- The row of a job in the single file. -/
def singleFileRow (row : Columns Cell) : Columns Cell :=
  Columns.update row [("skills_concat", .text (run.cellText row "skills_top_10_names"))]

/-- The error for a job that is too large for the single file. -/
def exceedsSafeLimit (row : Columns Cell) : PyException :=
  cliInputError ("single-file flatten columns exceed safe limit for job_id=" ++
    ((List.lookup "job_id" row).map run.csvText).getD "None")

/-- `build_single_file_rows`. -/
def buildSingleFileRows (maxFlatChars : ℤ) :
    List (Columns Cell) → Except PyException (List (Columns Cell))
  | [] => .ok []
  | row :: rest =>
    if maxFlatChars < run.flattenedLen row then .error (run.exceedsSafeLimit row)
    else (buildSingleFileRows maxFlatChars rest).map (run.singleFileRow row :: ·)

/-- The files written before the single one. -/
def multiFiles : List DatasetFile :=
  tableFiles payload ++ (if options.includeModelDataset then [run.modelFile payload] else []) ++
    [⟨"dataset_dictionary.csv", dictionaryColumns, run.buildDictionaryRows payload⟩]

/-- A file as it is written: its name and its text. -/
def written (file : DatasetFile) : String × List Char := (file.name, run.writeCsv file)

/-- `write_dataset_files`: the files in the output directory, and the names that are returned. -/
def writeDatasetFiles : List (String × List Char) × Except PyException (List String) :=
  let files := run.multiFiles options payload
  match options.outputFormat with
  | .multiCsv => (files.map run.written, .ok (files.map DatasetFile.name))
  | .singleCsv =>
    match run.buildSingleFileRows options.singleFileMaxFlatChars payload.jobRows with
    | .error exc => (files.map run.written, .error exc)
    | .ok singleRows =>
      let single := ⟨defaultSingleFileName, jobListingsColumns ++ ["skills_concat"], singleRows⟩
      ((files ++ [single]).map run.written, .ok ((files ++ [single]).map DatasetFile.name))

/-! ### Reading -/

/-- The first job that is too large for the single file, when it is asked for. -/
def tooLarge : Option (Columns Cell) :=
  match options.outputFormat with
  | .multiCsv => none
  | .singleCsv => payload.jobRows.find? fun row =>
      options.singleFileMaxFlatChars < run.flattenedLen row

/-- The single file. -/
def singleFile : DatasetFile :=
  ⟨defaultSingleFileName, jobListingsColumns ++ ["skills_concat"],
    payload.jobRows.map run.singleFileRow⟩

/-- The files that end up in the output directory. -/
def allFiles : List DatasetFile :=
  run.multiFiles options payload ++
    if options.outputFormat = .singleCsv ∧ run.tooLarge options payload = none then
      [run.singleFile payload]
    else []

/-- What `csv.reader` makes of a file with its limit on fields. -/
def readFile (limit : ℕ) (file : String × List Char) : String × Option (List CsvRecord) :=
  (file.1, excel.read limit file.2)

/-- The name of a file and its records, unless one of them is beyond the limit. -/
def readable (limit : ℕ) (file : DatasetFile) : String × Option (List CsvRecord) :=
  (file.name,
    if CsvDialect.Fits limit (run.recordsOf file) then some (run.recordsOf file) else none)

theorem readFile_written (limit : ℕ) (file : DatasetFile) :
    readFile limit (run.written file) = run.readable limit file := by
  unfold readFile written readable writeCsv
  rw [excel.read_write]

theorem buildSingleFileRows_eq (maxFlatChars : ℤ) (rows : List (Columns Cell)) :
    run.buildSingleFileRows maxFlatChars rows
      = match rows.find? fun row => maxFlatChars < run.flattenedLen row with
        | none => .ok (rows.map run.singleFileRow)
        | some row => .error (run.exceedsSafeLimit row) := by
  induction rows with
  | nil => rfl
  | cons row rest ih =>
    unfold buildSingleFileRows
    by_cases h : maxFlatChars < run.flattenedLen row
    · rw [if_pos h, List.find?_cons_of_pos (by simpa using h)]
    · rw [if_neg h, List.find?_cons_of_neg (by simpa using h), ih]
      cases rest.find? fun row => maxFlatChars < run.flattenedLen row <;> rfl

theorem writeDatasetFiles_eq : run.writeDatasetFiles options payload
    = ((run.allFiles options payload).map run.written,
        match run.tooLarge options payload with
        | none => .ok ((run.allFiles options payload).map DatasetFile.name)
        | some row => .error (run.exceedsSafeLimit row)) := by
  unfold writeDatasetFiles allFiles tooLarge
  cases hformat : options.outputFormat with
  | multiCsv => simp
  | singleCsv =>
    simp only [buildSingleFileRows_eq, true_and]
    cases payload.jobRows.find? fun row => options.singleFileMaxFlatChars < run.flattenedLen row with
    | none => simp [singleFile]
    | some row => simp

/-- The files are read back, each with its column names and the cells of its rows, exactly where no
    field is beyond the limit of the reader. All are named, unless a job is too large for the single
    file, and then the others are there. -/
theorem files_read_back (limit : ℕ) :
    (run.writeDatasetFiles options payload).1.map (readFile limit)
        = (run.allFiles options payload).map (run.readable limit) ∧
      (run.writeDatasetFiles options payload).2
        = match run.tooLarge options payload with
          | none => .ok ((run.allFiles options payload).map DatasetFile.name)
          | some row => .error (run.exceedsSafeLimit row) := by
  rw [writeDatasetFiles_eq]
  refine ⟨?_, rfl⟩
  rw [List.map_map]
  exact List.map_congr_left fun file _ => run.readFile_written limit file

end DatasetExport

end Bisakerja
