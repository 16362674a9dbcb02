import Mathlib.Data.List.Basic

/-! Separated values: a writer that quotes what it has to, and the reader.

    A field is quoted when it holds the delimiter, the quote or the end of a line, and a quote within
    is doubled. A record of one empty field is quoted too, or it would look like an empty record. The
    reader goes through the characters one by one, with a limit on the size of a field.

        recordStart ──c──▶ inField ──delimiter──▶ fieldStart
             │ quote                                 │ quote
             ▼                                       ▼
         inQuoted ◀──quote──▶ quoteInQuoted ──\r──▶ afterCr ──\n──▶ recordStart

    What is written is read back. -/

namespace Schemes

/-- The character ends a line. -/
def IsNewline (c : Char) : Prop := c = '\r' ∨ c = '\n'

instance (c : Char) : Decidable (IsNewline c) := by unfold IsNewline; infer_instance

/-- A dialect with doubled quotes. -/
structure CsvDialect where
  delimiter : Char
  quote : Char
  delimiter_ne_quote : delimiter ≠ quote
  delimiter_bare : ¬ IsNewline delimiter
  quote_bare : ¬ IsNewline quote

/-- The texts of a record. -/
abbrev CsvRecord := List (List Char)

namespace CsvDialect

variable (d : CsvDialect) (limit : ℕ)

/-! ### The writer -/

/-- The character makes quotes necessary. -/
def Special (c : Char) : Prop := c = d.delimiter ∨ c = d.quote ∨ IsNewline c

instance (c : Char) : Decidable (d.Special c) := by unfold Special; infer_instance

/-- The field is written with quotes. -/
def Quoted (field : List Char) : Prop := ∃ c ∈ field, d.Special c

instance (field : List Char) : Decidable (d.Quoted field) := List.decidableBEx _ _

/-- A character between quotes. -/
def doubled (c : Char) : List Char := if c = d.quote then [c, c] else [c]

/-- A field. -/
def writeField (field : List Char) : List Char :=
  if d.Quoted field then d.quote :: (field.flatMap d.doubled ++ [d.quote]) else field

/-- The fields of a record: each but the first stands behind a delimiter. -/
def writeFields : CsvRecord → List Char
  | [] => []
  | field :: rest => d.writeField field ++ rest.flatMap fun f => d.delimiter :: d.writeField f

/-- A record and the end of its line. -/
def writeRecord (record : CsvRecord) : List Char :=
  (if record = [[]] then [d.quote, d.quote] else d.writeFields record) ++ ['\r', '\n']

/-- All records. -/
def write (records : List CsvRecord) : List Char := records.flatMap d.writeRecord

/-! ### The reader -/

/-- Where the reader is. -/
inductive Mode where
  | recordStart | afterCr | fieldStart | inField | inQuoted | quoteInQuoted
  deriving DecidableEq

/-- A reader: the field it is in, the fields of the record before it, the records before that. -/
structure Reader where
  mode : Mode := .recordStart
  field : List Char := []
  record : CsvRecord := []
  records : List CsvRecord := []

namespace Reader

/-- Another character of the field, unless the field has reached the limit. -/
def add (r : Reader) (c : Char) (mode : Mode) : Option Reader :=
  if r.field.length < limit then some { r with mode, field := r.field ++ [c] } else none

/-- The field is over. -/
def saveField (r : Reader) (mode : Mode) : Reader :=
  { r with mode, field := [], record := r.record ++ [r.field] }

/-- The record is over. -/
def endRecord (r : Reader) (c : Char) : Reader :=
  { r with
    mode := if c = '\r' then .afterCr else .recordStart
    record := []
    records := r.records ++ [r.record] }

end Reader

/-- The first character of a field. -/
def startField (r : Reader) (c : Char) : Option Reader :=
  if c = d.quote then some { r with mode := .inQuoted }
  else if c = d.delimiter then some (r.saveField .fieldStart)
  else r.add limit c .inField

/-- A character. -/
def step (r : Reader) (c : Char) : Option Reader :=
  match r.mode with
  | .recordStart => if IsNewline c then some (r.endRecord c) else d.startField limit r c
  | .afterCr =>
    if c = '\n' then some { r with mode := .recordStart }
    else if c = '\r' then some (r.endRecord c)
    else d.startField limit r c
  | .fieldStart =>
    if IsNewline c then some ((r.saveField .fieldStart).endRecord c) else d.startField limit r c
  | .inField =>
    if IsNewline c then some ((r.saveField .fieldStart).endRecord c)
    else if c = d.delimiter then some (r.saveField .fieldStart)
    else r.add limit c .inField
  | .inQuoted =>
    if c = d.quote then some { r with mode := .quoteInQuoted } else r.add limit c .inQuoted
  | .quoteInQuoted =>
    if c = d.quote then r.add limit c .inQuoted
    else if c = d.delimiter then some (r.saveField .fieldStart)
    else if IsNewline c then some ((r.saveField .fieldStart).endRecord c)
    else r.add limit c .inField

/-- Some characters. -/
def run (r : Reader) (text : List Char) : Option Reader := text.foldlM (d.step limit) r

/-- The records at the end of the text. -/
def Reader.finish (r : Reader) : List CsvRecord :=
  match r.mode with
  | .recordStart | .afterCr => r.records
  | _ => r.records ++ [r.record ++ [r.field]]

/-- The records of a text, or `none` for a field beyond the limit. -/
def read (text : List Char) : Option (List CsvRecord) := (d.run limit {} text).map Reader.finish

/-- All fields are within the limit. -/
def Fits (records : List CsvRecord) : Prop :=
  ∀ record ∈ records, ∀ field ∈ record, field.length ≤ limit

instance (records : List CsvRecord) : Decidable (Fits limit records) := by
  unfold Fits; infer_instance

/-! ### Reading a field -/

variable {d limit} {r : Reader}

@[simp] theorem run_nil : d.run limit r [] = some r := rfl

theorem run_cons (c : Char) (text : List Char) :
    d.run limit r (c :: text) = (d.step limit r c).bind fun r => d.run limit r text := rfl

theorem run_append (text text' : List Char) :
    d.run limit r (text ++ text') = (d.run limit r text).bind fun r => d.run limit r text' :=
  List.foldlM_append

/-- Characters that are added to the field one by one, each written as some characters. -/
theorem run_added {mode : Mode} {code : Char → List Char} {text : List Char}
    (hstep : ∀ c ∈ text, ∀ r : Reader, r.mode = mode → d.run limit r (code c) = r.add limit c mode)
    (hmode : r.mode = mode) (hfield : r.field.length ≤ limit) :
    d.run limit r (text.flatMap code)
      = if r.field.length + text.length ≤ limit then some { r with field := r.field ++ text }
        else none := by
  induction text generalizing r with
  | nil => simp [hfield]
  | cons c text ih =>
    have hrest := fun c hc => hstep c (List.mem_cons_of_mem _ hc)
    rw [List.flatMap_cons, run_append, hstep c List.mem_cons_self r hmode, Reader.add]
    by_cases hroom : r.field.length < limit
    · have hsize : (r.field ++ [c]).length ≤ limit := by
        rw [List.length_append]
        exact hroom
      rw [if_pos hroom, Option.bind_some, ih hrest rfl hsize]
      simp [hmode, Nat.add_comm, Nat.add_left_comm]
    · rw [if_neg hroom, Option.bind_none, if_neg (by simp; omega)]

/-- Characters of an unquoted field. -/
theorem run_plain {text : List Char} (hplain : ¬ d.Quoted text) (hmode : r.mode = .inField)
    (hfield : r.field.length ≤ limit) :
    d.run limit r text
      = if r.field.length + text.length ≤ limit then some { r with field := r.field ++ text }
        else none := by
  have hstep : ∀ c ∈ text, ∀ r : Reader, r.mode = .inField →
      d.run limit r [c] = r.add limit c .inField := fun c hc r hr => by
    have hbare : ¬ d.Special c := fun h => hplain ⟨c, hc, h⟩
    unfold Special at hbare
    push Not at hbare
    simp [run_cons, step, hr, hbare]
  have hadded := run_added hstep hmode hfield
  rwa [List.flatMap_singleton'] at hadded

/-- Characters of a quoted field. -/
theorem run_doubled (text : List Char) (hmode : r.mode = .inQuoted)
    (hfield : r.field.length ≤ limit) :
    d.run limit r (text.flatMap d.doubled)
      = if r.field.length + text.length ≤ limit then some { r with field := r.field ++ text }
        else none := by
  refine run_added (fun c _ r hr => ?_) hmode hfield
  unfold doubled
  split
  · next hquote => simp [run_cons, step, hr, hquote, Reader.add]
  · next hne => simp [run_cons, step, hr, hne]

/-- The reader stands before a field. -/
structure Reader.Ready (r : Reader) : Prop where
  mode : r.mode = .recordStart ∨ r.mode = .fieldStart
  field : r.field = []

/-- Where a written field leaves the reader. -/
def afterField (d : CsvDialect) (mode : Mode) (field : List Char) : Mode :=
  if d.Quoted field then .quoteInQuoted else if field = [] then mode else .inField

theorem step_quote (h : r.Ready) : d.step limit r d.quote = some { r with mode := .inQuoted } := by
  have hbare := d.quote_bare
  rcases h.mode with hmode | hmode <;> simp [step, startField, hmode, hbare]

theorem step_plain (h : r.Ready) {c : Char} (hc : ¬ d.Special c) :
    d.step limit r c = r.add limit c .inField := by
  unfold Special at hc
  push Not at hc
  obtain ⟨hdelimiter, hquote, hnewline⟩ := hc
  rcases h.mode with hmode | hmode <;> simp [step, startField, hmode, hdelimiter, hquote, hnewline]

/-- A written field is read, if it is within the limit. -/
theorem run_writeField (h : r.Ready) (field : List Char) :
    d.run limit r (d.writeField field)
      = if field.length ≤ limit then some { r with mode := d.afterField r.mode field, field }
        else none := by
  have hnil : r.field = [] := h.field
  unfold writeField afterField
  split
  · have hsize : r.field.length ≤ limit := by simp [hnil]
    have hbody := @run_doubled d limit { r with mode := .inQuoted } field rfl hsize
    rw [run_cons, step_quote h, Option.bind_some, run_append, hbody]
    by_cases hfits : field.length ≤ limit
    · simp [hnil, hfits, run_cons, step]
    · simp [hnil, hfits]
  · next hplain =>
    cases field with
    | nil =>
      have hsame : r = { r with field := [] } := by rw [← hnil]
      simpa using hsame
    | cons c rest =>
      have hc : ¬ d.Special c := fun hspecial => hplain ⟨c, List.mem_cons_self, hspecial⟩
      have hrest : ¬ d.Quoted rest := fun ⟨c, hmem, hspecial⟩ =>
        hplain ⟨c, List.mem_cons_of_mem _ hmem, hspecial⟩
      rw [run_cons, step_plain h hc, Reader.add]
      by_cases hroom : r.field.length < limit
      · have hsize : (r.field ++ [c]).length ≤ limit := by
          rw [List.length_append]
          exact hroom
        rw [if_pos hroom, Option.bind_some, run_plain hrest rfl hsize]
        simp [hnil, Nat.add_comm]
      · rw [if_neg hroom, Option.bind_none, if_neg (by simp [hnil] at hroom ⊢; omega)]

/-! ### Reading a record -/

/-- A delimiter behind a field. -/
theorem step_delimiter (h : r.mode ≠ .afterCr ∧ r.mode ≠ .inQuoted) :
    d.step limit r d.delimiter = some (r.saveField .fieldStart) := by
  have hbare := d.delimiter_bare
  have hne := d.delimiter_ne_quote
  cases hmode : r.mode <;> simp_all [step, startField]

/-- The end of a line behind a field. -/
theorem run_newline (h : r.mode = .fieldStart ∨ r.mode = .inField ∨ r.mode = .quoteInQuoted) :
    d.run limit r ['\r', '\n']
      = some { records := r.records ++ [r.record ++ [r.field]] } := by
  have hcr : '\r' ≠ d.quote := fun heq => d.quote_bare (.inl heq.symm)
  have hdelimiter : '\r' ≠ d.delimiter := fun heq => d.delimiter_bare (.inl heq.symm)
  have hnewline : IsNewline '\r' := .inl rfl
  rcases h with hmode | hmode | hmode <;>
    simp [run_cons, step, hmode, hcr, hdelimiter, hnewline, Reader.saveField, Reader.endRecord]

/-- The fields of a record and the end of its line. -/
theorem run_writeFields {field : List Char} {rest : CsvRecord} (h : r.Ready)
    (hmode : r.mode = .recordStart → field :: rest ≠ [[]]) :
    d.run limit r (d.writeFields (field :: rest) ++ ['\r', '\n'])
      = if ∀ f ∈ field :: rest, f.length ≤ limit then
          some { records := r.records ++ [r.record ++ field :: rest] }
        else none := by
  induction rest generalizing r field with
  | nil =>
    rw [writeFields, List.flatMap_nil, List.append_nil, run_append, run_writeField h]
    by_cases hfits : field.length ≤ limit
    · have hend : d.afterField r.mode field = .fieldStart ∨ d.afterField r.mode field = .inField ∨
          d.afterField r.mode field = .quoteInQuoted := by
        unfold afterField
        split
        · exact .inr (.inr rfl)
        · split
          · next hnil =>
            rcases h.mode with hstart | hstart
            · exact absurd (by rw [hnil]) (hmode hstart)
            · exact .inl hstart
          · exact .inr (.inl rfl)
      rw [if_pos hfits, Option.bind_some, run_newline hend]
      simp [hfits]
    · simp [hfits]
  | cons next rest ih =>
    have hcut : d.writeFields (field :: next :: rest)
        = d.writeField field ++ d.delimiter :: d.writeFields (next :: rest) := rfl
    rw [hcut, List.append_assoc, List.cons_append, run_append, run_writeField h]
    by_cases hfits : field.length ≤ limit
    · have hend : d.afterField r.mode field ≠ .afterCr ∧ d.afterField r.mode field ≠ .inQuoted := by
        unfold afterField
        rcases h.mode with hstart | hstart <;> rw [hstart] <;> split_ifs <;> simp
      rw [if_pos hfits, Option.bind_some, run_cons, step_delimiter hend, Option.bind_some,
        ih ⟨.inr rfl, rfl⟩ (fun hstart => by cases hstart)]
      simp [hfits, Reader.saveField]
    · simp [hfits]

/-- A record and the end of its line. -/
theorem run_writeRecord (done : List CsvRecord) (record : CsvRecord) :
    d.run limit { records := done } (d.writeRecord record)
      = if ∀ f ∈ record, f.length ≤ limit then some { records := done ++ [record] } else none := by
  unfold writeRecord
  have hready : Reader.Ready { records := done } := ⟨.inl rfl, rfl⟩
  split
  · next hempty =>
    have hquoted : d.run limit { mode := .inQuoted, records := done } [d.quote]
        = some { mode := .quoteInQuoted, records := done } := by simp [run_cons, step]
    rw [List.cons_append, run_cons, step_quote hready, Option.bind_some, run_append, hquoted,
      Option.bind_some, run_newline (.inr (.inr rfl))]
    simp [hempty]
  · next hne =>
    cases record with
    | nil => simp [writeFields, run_cons, step, IsNewline, Reader.endRecord]
    | cons field rest =>
      rw [run_writeFields hready fun _ => hne]
      simp

/-- What is written is read back, exactly when every field is within the limit. -/
theorem read_write (records : List CsvRecord) :
    d.read limit (d.write records) = if Fits limit records then some records else none := by
  have hrun : ∀ done : List CsvRecord, d.run limit { records := done } (d.write records)
      = if Fits limit records then some { records := done ++ records } else none := by
    induction records with
    | nil => intro done; simp [write, Fits]
    | cons record rest ih =>
      intro done
      rw [write, List.flatMap_cons, run_append, run_writeRecord]
      by_cases hfits : ∀ f ∈ record, f.length ≤ limit
      · rw [if_pos hfits, Option.bind_some]
        refine (ih _).trans ?_
        have hiff : Fits limit (record :: rest) ↔ Fits limit rest := by
          unfold Fits
          rw [List.forall_mem_cons]
          exact and_iff_right hfits
        simp [hiff]
      · rw [if_neg hfits, Option.bind_none, if_neg]
        exact fun h => hfits (h record List.mem_cons_self)
  rw [read, hrun []]
  split <;> rfl

end CsvDialect

end Schemes
