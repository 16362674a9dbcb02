import BisakerjaScraper.Core.Errors
import BisakerjaScraper.Jobs.Schemas
import BisakerjaScraper.Python.Decimal
import BisakerjaScraper.Schemes.Scan
import BisakerjaScraper.Shared.Text

/-! Salaries.

    A salary is read from structured amounts, from a label, or from both; what the structure does
    not say is taken from the label. In a label, amounts are found by one pattern and read by rules
    that guess which separators group digits. -/

namespace Bisakerja
open Schemes

/-- The operations on texts that rest on the Unicode tables. -/
structure UnicodeText where
  upper : String → String
  isAlpha : String → Bool

/-- A character in lower case, as far as an ASCII letter comes out. -/
def lowerChar (c : Char) : List Char :=
  if c = '\u212a' then ['k'] else if c = '\u0130' then ['i', '\u0307'] else [c.toLower]

/-- `text.lower()`, for looking up ASCII texts in it. -/
def lowerText (text : String) : String := String.ofList (text.toList.flatMap lowerChar)

/-- A `period` argument: a member of `SalaryPeriod` or any other value. -/
inductive PeriodArgument where
  | member (period : SalaryPeriod)
  | value (v : Json)

/-- `NormalizedSalary`. -/
structure NormalizedSalary where
  salary : Option SalarySchema
  originalLabel : Option String

/-- `_ParsedLabel`. -/
structure ParsedLabel where
  minAmount : Option ℤ := none
  maxAmount : Option ℤ := none
  currency : Option String := none
  period : Option SalaryPeriod := none

/-! ### The number pattern -/

/-- A match of `_NUMBER_PATTERN`. -/
structure NumberMatch where
  number : String
  unit : Option String

/-- `[.,]`. -/
def isSeparator (c : Char) : Bool := c = '.' || c = ','

/-- `(?:[.,]\d{3})*` at the front, and what follows it. -/
def splitGroups : List Char → List Char × List Char
  | separator :: a :: b :: c :: rest =>
    if isSeparator separator && [a, b, c].all isDecimalDigit then
      (separator :: a :: b :: c :: (splitGroups rest).1, (splitGroups rest).2)
    else ([], separator :: a :: b :: c :: rest)
  | text => ([], text)

/-- `(?:[.,]\d+)?` at the front, and what follows it. -/
def splitTail : List Char → List Char × List Char
  | separator :: c :: rest =>
    if isSeparator separator && isDecimalDigit c then
      (separator :: (PyDecimal.splitDigits (c :: rest)).1, (PyDecimal.splitDigits (c :: rest)).2)
    else ([], separator :: c :: rest)
  | text => ([], text)

/-- A letter of a pattern matches a character, ignoring case. -/
def sameLetter (letter c : Char) : Bool :=
  c.toLower = letter || (letter = 'k' && c = '\u212a') ||
    (letter = 'i' && (c = '\u0130' || c = '\u0131'))

/-- The alternatives of the group `unit`, in order. -/
def numberUnits : List String := ["jt", "juta", "m", "million", "rb", "ribu", "k"]

/-- `(?P<unit>...)?` at the front: the first alternative that matches. -/
def matchUnit (text : List Char) : Option (List Char) :=
  numberUnits.findSome? fun unit =>
    let taken := text.take unit.toList.length
    if taken.length = unit.toList.length && (unit.toList.zip taken).all fun pair =>
        sameLetter pair.1 pair.2 then some taken
    else none

/-- `_NUMBER_PATTERN` at the front: the match and its length. -/
def matchNumber (text : List Char) : Option (NumberMatch × ℕ) :=
  let (digits, rest) := PyDecimal.splitDigits text
  if digits.isEmpty then none
  else
    let (groups, rest) := splitGroups rest
    let (tail, rest) := splitTail rest
    let spaces := rest.takeWhile isSpace
    let unit := matchUnit (rest.dropWhile isSpace)
    some (⟨String.ofList (digits ++ groups ++ tail), unit.map String.ofList⟩,
      digits.length + groups.length + tail.length + spaces.length + (unit.getD []).length)

/-- `_NUMBER_PATTERN.finditer(label)`. -/
def findNumbers (label : String) : List NumberMatch := scan matchNumber label.toList

/-! ### Reading a label -/

/-- `text.split(".")`. -/
def splitPoints (text : List Char) : List (List Char) := text.splitOn '.'

/-- `_parse_decimal_number`. -/
def parseDecimalNumber (value : String) : Option PyDecimal :=
  let normalized := (strip value).toList
  if normalized.isEmpty then none
  else
    let normalized :=
      if normalized.contains ',' && normalized.contains '.' then
        (normalized.filter (· ≠ '.')).map fun c => if c = ',' then '.' else c
      else if normalized.contains ',' then normalized.map fun c => if c = ',' then '.' else c
      else if 1 < normalized.count '.' then normalized.filter (· ≠ '.')
      else
        match splitPoints normalized with
        | [whole, fraction] => if fraction.length = 3 then whole ++ fraction else normalized
        | _ => normalized
    PyDecimal.ofText (String.ofList normalized)

/-- `_label_multiplier`. -/
def labelMultiplier (label : String) : ℕ :=
  let lowered := lowerText label
  if ["jt", "juta", "million"].any (isInfix · lowered) then 1000000
  else if ["rb", "ribu"].any (isInfix · lowered) then 1000
  else 1

/-- `_unit_multiplier`. -/
def unitMultiplier (unit : Option String) : Option ℕ :=
  match unit with
  | none => none
  | some unit =>
    let normalized := lowerText unit
    if normalized ∈ ["jt", "juta", "m", "million"] then some 1000000
    else if normalized ∈ ["rb", "ribu", "k"] then some 1000
    else none

/-- The exception of `int(value)` on an infinite number or a NaN. -/
def intError : PyDecimal → PyException
  | .infinite _ => .plain "OverflowError" "cannot convert Infinity to integer"
  | _ => .plain "ValueError" "cannot convert NaN to integer"

/-- `int(value)`. -/
def pyInt (number : PyDecimal) : Except PyException ℤ :=
  match number.toInt with
  | some n => .ok n
  | none => .error (intError number)

/-- One turn of the loop of `_parse_amounts`. -/
def amountOf (label : String) (found : NumberMatch) : Except PyException (Option ℤ) :=
  match parseDecimalNumber found.number with
  | none => .ok none
  | some number =>
    (pyInt (number.mul ((unitMultiplier found.unit).getD (labelMultiplier label)))).map some

/-- `_parse_amounts`. -/
def parseAmounts (label : String) : Except PyException (List ℤ) := do
  let amounts ← ((findNumbers label).take 2).mapM (amountOf label)
  pure (amounts.filterMap id)

/-- `_currency_from_label`. -/
def currencyFromLabel (label : String) : Option String :=
  let lowered := lowerText label
  if isInfix "rp" lowered || isInfix "idr" lowered || isInfix "rupiah" lowered then some "IDR"
  else if isInfix "usd" lowered || isInfix "$" label then some "USD"
  else if isInfix "sgd" lowered then some "SGD"
  else none

/-- `_period_from_label`. -/
def periodFromLabel (label : String) : Option SalaryPeriod :=
  let lowered := lowerText label
  if ["/bulan", "per bulan", "monthly", "month"].any (isInfix · lowered) then some .monthly
  else if ["/tahun", "per tahun", "yearly", "year"].any (isInfix · lowered) then some .yearly
  else if ["/hari", "per hari", "daily", "day"].any (isInfix · lowered) then some .daily
  else if ["/jam", "per jam", "hourly", "hour"].any (isInfix · lowered) then some .hourly
  else none

/-- `_parse_salary_label`. -/
def parseSalaryLabel (label : Option String) : Except PyException ParsedLabel :=
  match label with
  | none => .ok {}
  | some label => do
    let amounts ← parseAmounts label
    pure { minAmount := amounts[0]?
           maxAmount := amounts[1]?
           currency := currencyFromLabel label
           period := periodFromLabel label }

/-! ### Structured values -/

/-- `_optional_text`. -/
def optionalCleanText : Json → Option String
  | .str value => cleanText value
  | _ => none

/-- `_optional_int`. -/
def optionalAmount : Json → Except PyException (Option ℤ)
  | .int n => .ok (some n)
  | .float (.finite q) => .ok (if q.den = 1 then some q.num else none)
  | .str value =>
    match parseDecimalNumber value with
    | some number => (pyInt number).map some
    | none => .ok none
  | _ => .ok none

/-- `_normalize_currency`. -/
def normalizeCurrency (text : UnicodeText) (value : Json) : Option String :=
  match optionalCleanText value with
  | none => none
  | some value =>
    let normalized := text.upper value
    if normalized ∈ ["RP", "RUPIAH"] then some "IDR"
    else if normalized ∈ ["$", "US$", "USD"] then some "USD"
    else if normalized.length = 3 && text.isAlpha normalized then some normalized
    else none

/-- `_normalize_period`. -/
def normalizePeriod : PeriodArgument → Option SalaryPeriod
  | .member period => some period
  | .value v =>
    match optionalCleanText v with
    | none => none
    | some value =>
      let normalized := replaceChar (replaceChar (lowerText value) '_' ' ') '-' ' '
      if normalized ∈ ["month", "monthly", "bulan", "per bulan", "mo"] then some .monthly
      else if normalized ∈ ["year", "yearly", "tahun", "per tahun", "yr"] then some .yearly
      else if normalized ∈ ["day", "daily", "hari", "per hari"] then some .daily
      else if normalized ∈ ["hour", "hourly", "jam", "per jam"] then some .hourly
      else some .unknown

/-! ### The salary -/

/-- The `ValidationError` of `SalarySchema`. -/
def salaryError (field : String) : PyException :=
  .plain "ValidationError" ("1 validation error for SalarySchema\n" ++ field)

/-- An amount that is not negative. -/
def checkAmount (field : String) : Option ℤ → Except PyException (Option ℕ)
  | none => .ok none
  | some n => if 0 ≤ n then .ok (some n.toNat) else .error (salaryError field)

/-- A currency of three characters; it arrives in upper case. -/
def checkCurrency : Option String → Except PyException (Option { s : String // s.length = 3 })
  | none => .ok none
  | some s => if h : s.length = 3 then .ok (some ⟨s, h⟩) else .error (salaryError "currency")

/-- `SalarySchema(...)`. -/
def buildSalary (minAmount maxAmount : Option ℤ) (currency : Option String)
    (period : Option SalaryPeriod) (display : Option String) : Except PyException SalarySchema := do
  let minAmount ← checkAmount "min_amount" minAmount
  let maxAmount ← checkAmount "max_amount" maxAmount
  let currency ← checkCurrency currency
  if h : ∀ low ∈ minAmount, ∀ high ∈ maxAmount, low ≤ high then
    pure ⟨minAmount, maxAmount, currency, period, display, h⟩
  else .error (salaryError "salary min_amount must be less than or equal to max_amount")

/-- The arguments of `normalize_salary`. -/
structure SalaryArguments where
  minAmount : Json := .null
  maxAmount : Json := .null
  currency : Json := .null
  period : PeriodArgument := .value .null
  label : Json := .null
  defaultCurrency : Option String := none
  defaultPeriod : PeriodArgument := .value .null

/-- The smaller bound first. -/
def orderBounds : Option ℤ → Option ℤ → Option ℤ × Option ℤ
  | some low, some high => if high < low then (some high, some low) else (some low, some high)
  | low, high => (low, high)

/-- `normalize_salary`. -/
def normalizeSalary (text : UnicodeText) (args : SalaryArguments) :
    Except PyException NormalizedSalary := do
  let display := optionalCleanText args.label
  let parsed ← parseSalaryLabel display
  let minValue ← optionalAmount args.minAmount
  let maxValue ← optionalAmount args.maxAmount
  let currency := ((normalizeCurrency text args.currency).or parsed.currency).or
    (normalizeCurrency text (.ofOption args.defaultCurrency))
  let period := ((normalizePeriod args.period).or parsed.period).or
    (normalizePeriod args.defaultPeriod)
  let (minValue, maxValue) := orderBounds (minValue.or parsed.minAmount) (maxValue.or parsed.maxAmount)
  if minValue.isNone && maxValue.isNone && currency.isNone && period.isNone && display.isNone then
    pure ⟨none, none⟩
  else
    let salary ← buildSalary minValue maxValue currency period display
    pure ⟨some salary, display⟩

end Bisakerja
