import BisakerjaScraper.Backend.Payloads
import BisakerjaScraper.Cli.HtmlGates
import BisakerjaScraper.Python.Dumps
import BisakerjaScraper.Python.Numbers
import Mathlib.Data.List.Sort

/-! The values of a dataset export.

    A row of a query is a dict of values as the database driver hands them over; a cell of the
    export is a text or a number. What Python does with letters, floats and dates is a parameter. -/

namespace Bisakerja
open Schemes

/-- A datetime of a row, in microseconds since the epoch. -/
abbrev Timestamp := ℤ

/-- A value of a row of a query. -/
inductive DbValue where
  | json (value : Json)
  | time (t : Timestamp)

namespace DbValue

/-- A text. -/
def text (s : String) : DbValue := .json (.str s)

/-- An integer. -/
def int (n : ℤ) : DbValue := .json (.int n)

/-- A Boolean. -/
def bool (b : Bool) : DbValue := .json (.bool b)

/-- `None`. -/
def none : DbValue := .json .null

/-- The truth of a value. -/
def truthy : DbValue → Bool
  | .json value => value.truthy
  | .time _ => true

end DbValue

/-- A value of a row that is exported. -/
inductive RowValue where
  | cell (value : Cell)
  | bool (b : Bool)
  | none
  | time (t : Timestamp)

namespace RowValue

/-- A text. -/
def text (s : String) : RowValue := .cell (.text s)

/-- An integer. -/
def int (n : ℤ) : RowValue := .cell (.int n)

/-- A float. -/
def float (x : PyFloat) : RowValue := .cell (.float x)

/-- `value or ""` for an optional value. -/
def orEmpty {α : Type} (value : α → RowValue) : Option α → RowValue
  | some x => value x
  | Option.none => .text ""

end RowValue

/-- A dict under column names. -/
abbrev Columns (α : Type) := List (String × α)

namespace Columns

variable {α : Type}

/-- `row.get(column, default)`. -/
def getD (row : Columns α) (column : String) (default : α) : α :=
  (List.lookup column row).getD default

/-- `row.update(other)`, up to the order of the columns. -/
def update (row other : Columns α) : Columns α := other ++ row

/-- An update is looked at first. -/
theorem lookup_update (row other : Columns α) (column : String) :
    List.lookup column (update row other)
      = (List.lookup column other).or (List.lookup column row) :=
  List.lookup_append

/-- The value that is made for a column stands under it. -/
theorem lookup_map (f : String → α) (columns : List String) (column : String) :
    List.lookup column (columns.map fun column => (column, f column))
      = if column ∈ columns then some (f column) else none := by
  induction columns with
  | nil => rfl
  | cons c columns ih =>
    rw [List.map_cons, List.lookup_cons, ih]
    by_cases h : column = c
    · simp [h]
    · simp [h, beq_eq_false_iff_ne.mpr h]

/-- A row of which columns are kept and values rewritten. -/
theorem lookup_filter_map {β : Type} (f : α → β) (p : String → Bool) (row : Columns α)
    (column : String) :
    List.lookup column ((row.filter fun entry => p entry.1).map fun entry => (entry.1, f entry.2))
      = if p column then (List.lookup column row).map f else none := by
  induction row with
  | nil => simp
  | cons entry row ih =>
    rcases entry with ⟨c, value⟩
    by_cases h : column = c
    · subst h
      by_cases hp : p column = true
      · simp [hp]
      · simp [hp, ih]
    · have hne : (column == c) = false := beq_eq_false_iff_ne.mpr h
      by_cases hp : p c = true
      · simp [hp, List.lookup_cons, hne, ih]
      · simp [hp, List.lookup_cons, hne, ih]

end Columns

/-- A row of a query. -/
abbrev DbRow := Columns DbValue

/-- `row.get(column)`. -/
def DbRow.get (row : DbRow) (column : String) : DbValue := Columns.getD row column .none

/-- A row of an export. -/
abbrev ExportRow := Columns RowValue

/-- What Python does with letters, floats, dates and JSON texts. -/
structure DatasetText where
  alphabet : Alphabet
  upper : String → String
  lower : String → String
  /-- `str(value)` of a value that is no text and no integer. -/
  strOther : DbValue → String
  floatOf : String → Option PyFloat
  /-- `round(numerator / denominator, 3)`. -/
  ratio : ℕ → ℕ → PyFloat
  /-- The average, the least and the greatest of some floats, rounded to four digits. -/
  average : List PyFloat → PyFloat
  least : List PyFloat → PyFloat
  greatest : List PyFloat → PyFloat
  floats : FloatRepr
  /-- `int(total / 2)`. -/
  half : ℤ → ℤ
  fromisoformat : String → Option Timestamp
  /-- `value.astimezone(UTC).isoformat().replace("+00:00", "Z")`. -/
  isoformat : Timestamp → String
  loads : String → Option Json

namespace DatasetText

variable (text : DatasetText)

/-- `str(value)`. -/
def str : DbValue → String
  | .json (.str s) => s
  | .json (.int n) => toString n
  | value => text.strOther value

/-- `safe_text`. -/
def safeText : DbValue → String
  | .json .null => ""
  | value => strip (text.str value)

/-- `normalize_enum`. -/
def normalizeEnum (value : DbValue) : String :=
  let s := text.safeText value
  if s = "" then "" else text.upper s

/-- `parse_dt`. -/
def parseDt : DbValue → Option Timestamp
  | .time t => some t
  | .json (.str s) =>
    text.fromisoformat (if endsWith s "Z" then dropLast s 1 ++ "+00:00" else s)
  | _ => none

/-- `iso_utc`. -/
def isoUtc (value : DbValue) : String :=
  match text.parseDt value with
  | some t => text.isoformat t
  | none => ""

/-- `to_optional_float`. -/
def toOptionalFloat : DbValue → Option PyFloat
  | .json (.str "") => none
  | .json (.str s) => text.floatOf s
  | .json (.int n) => some (.finite n)
  | .json (.bool b) => some (.finite (if b then 1 else 0))
  | .json (.float x) => some x
  | _ => none

/-- `normalize_csv_value`. -/
def normalizeCsvValue : RowValue → Cell
  | .none => .text ""
  | .bool b => .text (if b then "1" else "0")
  | .time t => .text (text.isoUtc (.time t))
  | .cell value => value

end DatasetText

/-- `to_optional_int`; an infinite float is taken for none. -/
def toOptionalInt : DbValue → Option ℤ
  | .json (.str s) => intOfText s
  | .json (.int n) => some n
  | .json (.bool b) => some (if b then 1 else 0)
  | .json (.float (.finite q)) => some (q.num.tdiv q.den)
  | _ => none

/-- `bool_to_int`. -/
def boolToInt (value : DbValue) : ℤ := if value.truthy then 1 else 0

/-! ### Texts -/

/-- The length of a match of `HTML_TAG_STRIPPER` at the front of a text. -/
def strippedTagAt : List Char → Option ℕ
  | '<' :: rest =>
    match rest.dropWhile (· ≠ '>') with
    | [] => none
    | _ :: _ =>
      let inside := (rest.takeWhile (· ≠ '>')).length
      if inside = 0 then none else some (inside + 2)
  | _ => none

/-- `HTML_TAG_STRIPPER.sub(" ", text)`, some characters of a match being left. -/
def replaceTags : ℕ → List Char → List Char
  | _, [] => []
  | skip + 1, _ :: rest => replaceTags skip rest
  | 0, c :: rest =>
    match strippedTagAt (c :: rest) with
    | some length => ' ' :: replaceTags (length - 1) rest
    | none => c :: replaceTags 0 rest

/-- `strip_html`. -/
def stripHtml (value : String) : String :=
  joinText " " ((words isSpace (replaceTags 0 value.toList)).map String.ofList)

/-- The length of a match of `[\n\r]+|[.!?]\s+` at the front of a text. -/
def paragraphBreakAt : List Char → Option ℕ
  | c :: rest =>
    if c = '\n' ∨ c = '\r' then some ((rest.takeWhile fun d => d = '\n' ∨ d = '\r').length + 1)
    else if c = '.' ∨ c = '!' ∨ c = '?' then
      let spaces := (rest.takeWhile isSpace).length
      if spaces = 0 then none else some (spaces + 1)
    else none
  | [] => none

/-- The segments between the paragraph breaks, with the one begun. -/
def segments : ℕ → List Char → List Char → List (List Char)
  | _, begun, [] => [begun.reverse]
  | skip + 1, begun, _ :: rest => segments skip begun rest
  | 0, begun, c :: rest =>
    match paragraphBreakAt (c :: rest) with
    | some length => begun.reverse :: segments (length - 1) [] rest
    | none => segments 0 (c :: begun) rest

/-- `count_paragraphs`. -/
def countParagraphs (value : String) : ℕ :=
  let plain := stripHtml value
  if plain = "" then 0
  else (segments 0 [] plain.toList).countP fun segment => strip (String.ofList segment) ≠ ""

/-- `REQUIREMENT_SUMMARY_PREFIX_PATTERN.search(value)`. -/
def hasPrefixLegacy (value : String) : Bool :=
  let front := lstrip value.toList
  let behind := ((literal "<p>".toList front).map lstrip).getD front
  ["kualifikasi utama", "kualifikasi", "persyaratan"].any fun word =>
    closedBy ':' (literal word.toList behind)

/-- `infer_language`. -/
def DatasetText.inferLanguage (text : DatasetText) (description requirementSummary : String) :
    String :=
  let value := text.lower (stripHtml description ++ " " ++ stripHtml requirementSummary)
  if strip value = "" then "UNKNOWN"
  else
    let hits := fun tokens : List String =>
      tokens.any fun token => isInfix (" " ++ token ++ " ") (" " ++ value ++ " ")
    match hits ["dan", "yang", "untuk", "pengalaman", "kualifikasi", "dengan", "minimal"],
      hits ["and", "with", "experience", "requirements", "ability", "team"] with
    | true, true => "MIXED"
    | true, false => "ID"
    | false, true => "EN"
    | false, false => "UNKNOWN"

/-! ### Counting -/

/-- `Counter(values).most_common(n)`: the most frequent ones, the earlier first among equals. -/
def mostCommon (n : ℕ) (values : List String) : List String :=
  (values.reverse.dedup.reverse.insertionSort fun a b =>
    values.count b ≤ values.count a).take n

example : mostCommon 2 ["b", "a", "c", "a"] = ["a", "b"] := by decide

end Bisakerja
