import BisakerjaScraper.Jobs.AiNormalization
import BisakerjaScraper.Python.Numbers
import BisakerjaScraper.Shared.DisplayHtml
import BisakerjaScraper.Sources.MapperUtils

/-! The helpers an answer is completed with.

    A level is read from keywords, and without any from the numbers of years the text names. The
    normalizer has its own reading of a text: symbols are noise to it, and HTML is read for the text
    in it. -/

namespace Bisakerja
open Schemes

/-! ### Reading a text -/

/-- `_VISUAL_NOISE_PATTERN`. -/
def isVisualNoise (c : Char) : Bool :=
  (0x2600 ≤ c.toNat && c.toNat ≤ 0x27BF) || (0x1F300 ≤ c.toNat && c.toNat ≤ 0x1FAFF)

/-- `_INVISIBLE_NOISE_PATTERN`. -/
def isInvisibleNoise (c : Char) : Bool :=
  (0x200B ≤ c.toNat && c.toNat ≤ 0x200F) || c.toNat ∈ [0x2060, 0xFE0E, 0xFE0F]

/-- `_remove_visual_noise`: symbols and decorative bullets become spaces. -/
def removeVisualNoise (value : String) : String :=
  String.ofList ((value.toList.filter fun c => !isInvisibleNoise c).map fun c =>
    if isVisualNoise c || c ∈ ['•', '▪', '◦'] then ' ' else c)

/-- `_normalize_text`: `html_to_text` finds no text in HTML without any, and nothing is no text for
    `re.sub`. -/
def MapperText.readText (text : MapperText) (value : String) : Except PyException (Option String) :=
  if strip value = "" then .ok none
  else if hasHtmlTag value.toList then do
    match ← text.htmlToText (.str (removeVisualNoise value)) with
    | some found => pure (cleanText (removeVisualNoise found))
    | none => throw (.plain "TypeError" "expected string or bytes-like object, got 'NoneType'")
  else .ok (cleanText (removeVisualNoise value))

/-! ### Years of experience -/

/-- `[-to]` under `re.IGNORECASE`. -/
def isRangeMark (c : Char) : Bool := c ∈ ['-', 't', 'o', 'T', 'O']

/-- `_YEARS_RANGE_PATTERN` at the front: its numbers and their length. The unit behind them is
    optional and holds no digit. -/
def yearsRange (text : List Char) : Option ((List Char × List Char) × ℕ) :=
  let (low, rest) := PyDecimal.splitDigits text
  let gap := rest.takeWhile isSpace
  let rest := rest.dropWhile isSpace
  let marks := rest.takeWhile isRangeMark
  let rest := rest.dropWhile isRangeMark
  let gap' := rest.takeWhile isSpace
  let (high, _) := PyDecimal.splitDigits (rest.dropWhile isSpace)
  if low = [] ∨ marks = [] ∨ high = [] then none
  else some ((low, high), low.length + gap.length + marks.length + gap'.length + high.length)

/-- `_YEARS_PLUS_PATTERN` at the front: its number and its length. -/
def yearsPlus (text : List Char) : Option (List Char × ℕ) :=
  let (low, rest) := PyDecimal.splitDigits text
  if low = [] then none
  else
    match lstrip rest with
    | '+' :: rest =>
      if (literal "tahun".toList (lstrip rest)).isSome ∨
          (literal "year".toList (lstrip rest)).isSome then some (low, low.length)
      else none
    | _ => none

/-- `int` of the digits of a match. -/
def readYears (digits : List Char) : Except PyException ℕ :=
  if digits.length ≤ 4300 then .ok (digitsValue digits)
  else .error (.plain "ValueError" "Exceeds the limit (4300 digits) for integer string conversion")

/-- `year_min` and `year_max`. -/
structure YearsFound where
  yearMin : Option ℕ := none
  yearMax : Option ℕ := none

/-- A match moves the smallest number down and the largest up. -/
def YearsFound.add (found : YearsFound) (years : ℕ × ℕ) : YearsFound where
  yearMin := if found.yearMin.all (years.1 < ·) then some years.1 else found.yearMin
  yearMax := if found.yearMax.all (· < years.2) then some years.2 else found.yearMax

/-- The two numbers of a range. -/
def readRange (range : List Char × List Char) : Except PyException (ℕ × ℕ) := do
  let low ← readYears range.1
  let high ← readYears range.2
  pure (low, high)

/-- The number of a match of `_YEARS_PLUS_PATTERN`, twice. -/
def readPlus (digits : List Char) : Except PyException (ℕ × ℕ) := do
  let low ← readYears digits
  pure (low, low)

/-- `_years_evidence`. -/
def yearsEvidence (text : List Char) : Except PyException YearsFound := do
  let ranges ← (scan yearsRange text).mapM readRange
  let pluses ← (scan yearsPlus text).mapM readPlus
  pure ((ranges ++ pluses).foldl YearsFound.add {})

/-- The level `infer_experience_level` reads off the years. -/
def YearsFound.level (found : YearsFound) : ExperienceLevel :=
  if found.yearMin.any (3 ≤ ·) && found.yearMax.any (· ≤ 5) then .midLevel
  else if found.yearMax.any (5 ≤ ·) then .senior
  else if found.yearMin.any (5 ≤ ·) then .senior
  else if found.yearMax.any (3 ≤ ·) then .midLevel
  else if found.yearMin.any (3 ≤ ·) then .midLevel
  else if found.yearMax.any (1 ≤ ·) then .junior
  else if found.yearMin.any (1 ≤ ·) then .junior
  else .entryLevel

/-- The text `infer_experience_level` looks at. -/
def levelText (title : String) (description requirements : Option String) : String :=
  lowerText (joinText " " ([some title, description, requirements].filterMap (·.bind cleanText)))

/-- The level a keyword names. -/
def keywordLevel (found : String) : Option ExperienceLevel :=
  if ["lead", "head", "principal", "manager", "owner role"].any (isInfix · found) then some .lead
  else if isInfix "senior" found then some .senior
  else if ["mid level", "mid-level", "intermediate"].any (isInfix · found) then some .midLevel
  else if isInfix "junior" found then some .junior
  else if ["fresh graduate", "fresh grad", "intern", "internship", "no experience"].any
      (isInfix · found) then some .entryLevel
  else none

/-- `infer_experience_level` of a job without a level. -/
def experienceLevelOf (title : String) (description requirements : Option String) :
    Except PyException ExperienceLevel :=
  let found := levelText title description requirements
  match keywordLevel found with
  | some level => .ok level
  | none => (yearsEvidence found.toList).map YearsFound.level

/-! ### The normalization -/

/-- `build_source_limited_summary` in Indonesian. -/
def indonesianSummary (title : String) (company location : Option String)
    (sourcePlatform : String) : String :=
  let title := (cleanText title).getD "Posisi tidak diketahui"
  let company := (company.bind cleanText).getD "perusahaan tidak diketahui"
  let location := (location.bind cleanText).getD "lokasi tidak tersedia"
  let source := (cleanText sourcePlatform).getD "sumber"
  title ++ " di " ++ company ++ " (" ++ location ++ "). Ringkasan ini dari data " ++ source ++
    " level listing; detail penuh tidak tersedia."

/-- The arguments `_apply_defaults` gives `normalize_salary`. -/
def SalarySchema.arguments (salary : SalarySchema) : SalaryArguments where
  minAmount := dumpOption (fun n : ℕ => .int n) salary.minAmount
  maxAmount := dumpOption (fun n : ℕ => .int n) salary.maxAmount
  currency := dumpOption (fun s => .str s.1) salary.currency
  period := (salary.period.map PeriodArgument.member).getD (.value .null)
  label := .ofOption salary.display
  defaultCurrency := some "IDR"

/-- What the normalization is left to be given: the Unicode tables, the HTML parsers, two patterns,
    and what the payload builder uses besides. -/
structure NormalizerText extends MapperText where
  payload : PayloadText
  parser : HtmlParser
  benefitNoise : String → Bool
  techTokens : String → List String

/-- The normalization with its helpers as the source has them. -/
def NormalizerText.normalization (text : NormalizerText) : NormalizationText :=
  { text.payload with
    casefold := text.casefold
    cleanText := cleanText
    ensureDisplayHtml := fun value => value.bind text.parser.ensureDisplayHtml
    normalizeText := text.readText
    benefitNoise := text.benefitNoise
    techTokens := text.techTokens
    parseDatetime := text.parseDatetime
    normalizeSalary := fun salary =>
      (normalizeSalary text.toUnicodeText salary.arguments).map NormalizedSalary.salary
    experienceLevelOf := experienceLevelOf
    textToDisplayHtml := textToDisplayHtml
    indonesianSummary := indonesianSummary }

theorem NormalizerText.normalization_experienceLevelOf (text : NormalizerText) :
    text.normalization.experienceLevelOf = experienceLevelOf := by
  unfold normalization
  with_reducible rfl

theorem NormalizerText.normalization_cleanText (text : NormalizerText) :
    text.normalization.cleanText = cleanText := by
  unfold normalization
  with_reducible rfl

theorem NormalizerText.normalization_normalizeText (text : NormalizerText) :
    text.normalization.normalizeText = text.readText := by
  unfold normalization
  with_reducible rfl

theorem NormalizerText.normalization_textToDisplayHtml (text : NormalizerText) :
    text.normalization.textToDisplayHtml = textToDisplayHtml := by
  unfold normalization
  with_reducible rfl

theorem NormalizerText.normalization_indonesianSummary (text : NormalizerText) :
    text.normalization.indonesianSummary = indonesianSummary := by
  unfold normalization
  with_reducible rfl

theorem NormalizerText.normalization_ensureDisplayHtml (text : NormalizerText)
    (value : Option String) :
    text.normalization.ensureDisplayHtml value = value.bind text.parser.ensureDisplayHtml := by
  unfold normalization
  with_reducible rfl

end Bisakerja
