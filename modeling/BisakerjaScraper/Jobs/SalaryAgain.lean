import BisakerjaScraper.Jobs.Completion
import BisakerjaScraper.Jobs.SalaryReads

/-! Salaries that are normalized again.

    A salary is refused where an amount is negative or no number. One that is returned has all it
    can have of its label, so a second call finds nothing to add, except the default currency. -/

namespace Bisakerja
open Schemes

/-- The Unicode tables, as far as currencies need them: upper case is there to stay, the codes of
    the labels are upper-case letters, and what consists of letters has no whitespace and no
    `$`. -/
structure CurrencyText extends UnicodeText where
  upper_upper : ∀ s, upper (upper s) = upper s
  upper_code : ∀ code ∈ ["IDR", "USD", "SGD"], upper code = code
  isAlpha_code : ∀ code ∈ ["IDR", "USD", "SGD"], isAlpha code = true
  isAlpha_space : ∀ s, isAlpha s = true → ∀ c ∈ s.toList, isSpace c = false
  isAlpha_dollar : isAlpha "US$" = false

/-! ### The model of a salary -/

/-- A salary is built of exactly its own fields. -/
theorem buildSalary_ok_iff {minAmount maxAmount : Option ℤ} {currency : Option String}
    {period : Option SalaryPeriod} {display : Option String} {salary : SalarySchema} :
    buildSalary minAmount maxAmount currency period display = .ok salary ↔
      salary.minAmount.map Nat.cast = minAmount ∧ salary.maxAmount.map Nat.cast = maxAmount ∧
        salary.currency.map Subtype.val = currency ∧ salary.period = period ∧
        salary.display = display := by
  have hamount : ∀ (field : String) (amount : Option ℤ) (checked : Option ℕ),
      checkAmount field amount = .ok checked ↔ checked.map Nat.cast = amount := by
    rintro field (- | n) (- | m)
    · simp [checkAmount]
    · simp [checkAmount]
    · simp only [checkAmount]
      split <;> simp
    · simp only [checkAmount, Option.map_some, Option.some.injEq]
      split
      · simp only [Except.ok.injEq, Option.some.injEq]
        omega
      · simp only [reduceCtorEq, false_iff]
        omega
  have hcode : ∀ checked : Option { s : String // s.length = 3 },
      checkCurrency currency = .ok checked ↔ checked.map Subtype.val = currency := by
    intro checked
    rcases currency with - | s
    · rcases checked with - | c <;> simp [checkCurrency]
    · simp only [checkCurrency]
      split
      · next hlength =>
        rcases checked with - | c
        · simp
        · simp only [Except.ok.injEq, Option.some.injEq, Option.map_some, Subtype.ext_iff, eq_comm]
      · next hlength =>
        rcases checked with - | c
        · simp
        · simp only [reduceCtorEq, Option.map_some, Option.some.injEq, false_iff]
          rintro rfl
          exact hlength c.2
  unfold buildSalary
  constructor
  · intro h
    obtain ⟨low, hlow, h⟩ := ok_bind_iff.mp h
    obtain ⟨high, hhigh, h⟩ := ok_bind_iff.mp h
    obtain ⟨code, hchecked, h⟩ := ok_bind_iff.mp h
    split at h
    · cases h
      exact ⟨(hamount _ _ _).mp hlow, (hamount _ _ _).mp hhigh, (hcode _).mp hchecked, rfl, rfl⟩
    · cases h
  · rintro ⟨hlow, hhigh, hcurrency, rfl, rfl⟩
    rw [(hamount _ _ _).mpr hlow, (hamount _ _ _).mpr hhigh, (hcode _).mpr hcurrency]
    exact dif_pos salary.min_le_max

/-! ### What a call returns -/

/-- The currency of a call whose label names one or none. -/
def currencyOf (text : UnicodeText) (args : SalaryArguments) (parsed : ParsedLabel) :
    Option String :=
  ((normalizeCurrency text args.currency).or parsed.currency).or
    (normalizeCurrency text (.ofOption args.defaultCurrency))

/-- The period of a call whose label names one or none. -/
def periodOf (args : SalaryArguments) (parsed : ParsedLabel) : Option SalaryPeriod :=
  ((normalizePeriod args.period).or parsed.period).or (normalizePeriod args.defaultPeriod)

/-- What a call reads, and the salary it makes of it. -/
structure Reads (text : UnicodeText) (args : SalaryArguments) (parsed : ParsedLabel)
    (low high : Option ℤ) (salary : SalarySchema) : Prop where
  label : parseSalaryLabel (optionalCleanText args.label) = .ok parsed
  min : optionalAmount args.minAmount = .ok low
  max : optionalAmount args.maxAmount = .ok high
  minAmount : salary.minAmount.map Nat.cast
    = (orderBounds (low.or parsed.minAmount) (high.or parsed.maxAmount)).1
  maxAmount : salary.maxAmount.map Nat.cast
    = (orderBounds (low.or parsed.minAmount) (high.or parsed.maxAmount)).2
  currency : salary.currency.map Subtype.val = currencyOf text args parsed
  period : salary.period = periodOf args parsed
  display : salary.display = optionalCleanText args.label
  someField : salary.minAmount.isSome ∨ salary.maxAmount.isSome ∨ salary.currency.isSome ∨
    salary.period.isSome ∨ salary.display.isSome

/-- A call returns a salary exactly when it reads one. -/
theorem normalizeSalary_some_iff {text : UnicodeText} {args : SalaryArguments}
    {salary : SalarySchema} {label : Option String} :
    normalizeSalary text args = .ok ⟨some salary, label⟩ ↔
      (∃ parsed low high, Reads text args parsed low high salary) ∧ label = salary.display := by
  unfold normalizeSalary
  dsimp only
  constructor
  · intro h
    obtain ⟨parsed, hparsed, h⟩ := ok_bind_iff.mp h
    obtain ⟨low, hlow, h⟩ := ok_bind_iff.mp h
    obtain ⟨high, hhigh, h⟩ := ok_bind_iff.mp h
    split at h
    · cases h
    · next hsome =>
      obtain ⟨built, hbuilt, h⟩ := ok_bind_iff.mp h
      cases h
      obtain ⟨hmin, hmax, hcurrency, hperiod, hdisplay⟩ := buildSalary_ok_iff.mp hbuilt
      refine ⟨⟨parsed, low, high, hparsed, hlow, hhigh, hmin, hmax, hcurrency, hperiod, hdisplay,
        ?_⟩, hdisplay.symm⟩
      rw [← hmin, ← hmax, ← hdisplay] at hsome
      by_contra hnone
      simp only [not_or, Option.not_isSome_iff_eq_none] at hnone
      obtain ⟨hmin', hmax', hcurrency', hperiod', hdisplay'⟩ := hnone
      rw [hcurrency', Option.map_none] at hcurrency
      rw [hperiod'] at hperiod
      rw [hmin', hmax', hdisplay', ← hcurrency, ← hperiod] at hsome
      exact hsome rfl
  · rintro ⟨⟨parsed, low, high, h⟩, rfl⟩
    rw [h.label, h.min, h.max, ok_bind, ok_bind, ok_bind]
    have hbuilt := buildSalary_ok_iff.mpr
      ⟨h.minAmount, h.maxAmount, h.currency, h.period, h.display⟩
    have hcurrency := h.currency
    have hperiod := h.period
    unfold currencyOf at hbuilt hcurrency
    unfold periodOf at hbuilt hperiod
    rw [if_neg, hbuilt, ok_bind, ← h.display]
    · rfl
    · rw [← h.minAmount, ← h.maxAmount, ← hcurrency, ← hperiod, ← h.display]
      simp only [Option.isNone_map, Bool.and_eq_true, Option.isNone_iff_eq_none]
      rintro ⟨⟨⟨⟨hmin, hmax⟩, hnone⟩, hperiod'⟩, hdisplay⟩
      have hsome := h.someField
      simp [hmin, hmax, hnone, hperiod', hdisplay] at hsome

/-! ### Currencies -/

/-- A currency of three upper-case letters. -/
def IsCode (text : UnicodeText) (code : String) : Prop :=
  code.length = 3 ∧ text.isAlpha code = true ∧ text.upper code = code

namespace CurrencyText

variable (text : CurrencyText)

theorem isCode_of_mem {code : String} (h : code ∈ ["IDR", "USD", "SGD"]) :
    IsCode text.toUnicodeText code := by
  refine ⟨?_, text.isAlpha_code code h, text.upper_code code h⟩
  simp only [List.mem_cons, List.not_mem_nil, or_false] at h
  rcases h with rfl | rfl | rfl <;> rfl

theorem isCode_of_normalizeCurrency {value : Json} {code : String}
    (h : normalizeCurrency text.toUnicodeText value = some code) :
    IsCode text.toUnicodeText code := by
  unfold normalizeCurrency at h
  split at h
  · cases h
  · dsimp only at h
    split at h
    · cases h
      exact text.isCode_of_mem (by decide)
    · split at h
      · cases h
        exact text.isCode_of_mem (by decide)
      · split at h
        · next hcode =>
          cases h
          simp only [Bool.and_eq_true, decide_eq_true_eq] at hcode
          exact ⟨hcode.1, hcode.2, text.upper_upper _⟩
        · cases h

theorem isCode_of_currencyFromLabel {label code : String}
    (h : currencyFromLabel label = some code) : IsCode text.toUnicodeText code := by
  refine text.isCode_of_mem ?_
  unfold currencyFromLabel at h
  dsimp only at h
  repeat' split at h
  all_goals cases h
  all_goals decide

/-- A code is normalized to itself. -/
theorem normalizeCurrency_of_isCode {code : String} (h : IsCode text.toUnicodeText code) :
    normalizeCurrency text.toUnicodeText (.str code) = some code := by
  obtain ⟨hlength, halpha, hupper⟩ := h
  have hclean : optionalCleanText (.str code) = some code := by
    have hword : ∀ word ∈ [code.toList], IsWord word := by
      intro word hword
      rw [List.mem_singleton.mp hword]
      refine ⟨?_, text.isAlpha_space code halpha⟩
      intro hnil
      rw [String.length, hnil] at hlength
      cases hlength
    have hclean := cleanText_spaced (List.cons_ne_nil code.toList []) hword
    rwa [spaced, String.ofList_toList] at hclean
  have hrupiah : code ∉ ["RP", "RUPIAH"] := by
    intro hmem
    simp only [List.mem_cons, List.not_mem_nil, or_false] at hmem
    rcases hmem with rfl | rfl <;> revert hlength <;> decide
  unfold normalizeCurrency
  rw [hclean]
  simp only [hupper]
  rw [if_neg hrupiah]
  by_cases hdollar : code ∈ ["$", "US$", "USD"]
  · rw [if_pos hdollar]
    simp only [List.mem_cons, List.not_mem_nil, or_false] at hdollar
    rcases hdollar with rfl | rfl | rfl
    · revert hlength
      decide
    · rw [text.isAlpha_dollar] at halpha
      cases halpha
    · rfl
  · rw [if_neg hdollar, if_pos (by simp [hlength, halpha])]

theorem isCode_of_currencyOf {args : SalaryArguments} {parsed : ParsedLabel} {code : String}
    (hparsed : parseSalaryLabel (optionalCleanText args.label) = .ok parsed)
    (h : currencyOf text.toUnicodeText args parsed = some code) :
    IsCode text.toUnicodeText code := by
  rcases Option.or_eq_some_iff.mp h with h | ⟨-, h⟩
  · rcases Option.or_eq_some_iff.mp h with h | ⟨-, h⟩
    · exact text.isCode_of_normalizeCurrency h
    · cases hlabel : optionalCleanText args.label with
      | none =>
        rw [hlabel] at hparsed
        cases hparsed
        cases h
      | some label =>
        rw [hlabel] at hparsed
        obtain ⟨amounts, -, hof⟩ := ok_bind_iff.mp hparsed
        cases hof
        exact text.isCode_of_currencyFromLabel h
  · exact text.isCode_of_normalizeCurrency h

end CurrencyText

/-! ### Calls that return -/

/-- A salary with its bounds in order and a currency of three letters, if it has them. -/
structure SoundSalary (text : UnicodeText) (salary : SalarySchema) : Prop where
  nonneg : (∀ low ∈ salary.minAmount, 0 ≤ low) ∧ ∀ high ∈ salary.maxAmount, 0 ≤ high
  le : ∀ low ∈ salary.minAmount, ∀ high ∈ salary.maxAmount, low ≤ high
  letters : ∀ currency ∈ salary.currency,
    currency.1.length = 3 ∧ text.isAlpha currency.1 = true

/-- The arguments of a second call, with or without a default currency. -/
def SalarySchema.again (salary : SalarySchema) (defaultCurrency : Option String) :
    SalaryArguments :=
  { salary.arguments with defaultCurrency }

/-- A salary with a currency: its own, or the default one. -/
def SalarySchema.withCurrency (salary : SalarySchema) (code : String) (hcode : code.length = 3) :
    SalarySchema :=
  { salary with currency := some (salary.currency.getD ⟨code, hcode⟩) }

theorem orderBounds_of_le {low high : Option ℕ} (h : ∀ l ∈ low, ∀ m ∈ high, l ≤ m) :
    orderBounds (low.map Nat.cast) (high.map Nat.cast) = (low.map Nat.cast, high.map Nat.cast) := by
  rcases low with - | l <;> rcases high with - | m
  · rfl
  · rfl
  · rfl
  · have hle := h l rfl m rfl
    exact if_neg (by omega)

/-- A bound that is missing in the end was missing in the label. -/
theorem or_of_orderBounds {low high low' high' a b : Option ℤ}
    (ha : a = (orderBounds (low.or low') (high.or high')).1)
    (hb : b = (orderBounds (low.or low') (high.or high')).2) :
    a.or low' = a ∧ b.or high' = b := by
  have hsome : ∀ x y : Option ℤ, ((orderBounds x y).1 = none ↔ x = none) ∧
      ((orderBounds x y).2 = none ↔ y = none) := by
    rintro (- | x) (- | y)
    · simp [orderBounds]
    · simp [orderBounds]
    · simp [orderBounds]
    · simp only [orderBounds]
      split <;> simp
  constructor
  · cases a with
    | some n => rfl
    | none =>
      have hnone := (hsome _ _).1.mp ha.symm
      rw [Option.or_eq_none_iff] at hnone
      rw [hnone.2]
      rfl
  · cases b with
    | some n => rfl
    | none =>
      have hnone := (hsome _ _).2.mp hb.symm
      rw [Option.or_eq_none_iff] at hnone
      rw [hnone.2]
      rfl

theorem optionalAmount_dump (amount : Option ℕ) :
    optionalAmount (dumpOption (fun n : ℕ => .int n) amount) = .ok (amount.map Nat.cast) := by
  cases amount <;> rfl

theorem optionalCleanText_str (s : String) : optionalCleanText (.str s) = cleanText s := rfl

theorem optionalCleanText_ofOption (value : Json) :
    optionalCleanText (.ofOption (optionalCleanText value)) = optionalCleanText value := by
  cases value with
  | str s =>
    rw [optionalCleanText_str]
    cases hclean : cleanText s with
    | none => rfl
    | some clean => rw [Json.ofOption, optionalCleanText_str, cleanText_of_cleanText hclean]
  | null | bool | int | float | list | dict => rfl

section Again

variable {text : CurrencyText} {args : SalaryArguments} {parsed : ParsedLabel}
  {low high : Option ℤ} {salary : SalarySchema}

/-- The currency of a second call: that of the salary, or the default one. -/
theorem currencyOf_again (h : Reads text.toUnicodeText args parsed low high salary)
    (defaultCurrency : Option String) :
    currencyOf text.toUnicodeText (salary.again defaultCurrency) parsed
      = (salary.currency.map Subtype.val).or
          (normalizeCurrency text.toUnicodeText (.ofOption defaultCurrency)) := by
  have hcurrency := h.currency
  cases hsalary : salary.currency with
  | some code =>
    rw [hsalary, Option.map_some] at hcurrency
    have hcode :=
      text.normalizeCurrency_of_isCode (text.isCode_of_currencyOf h.label hcurrency.symm)
    have hargument : (salary.again defaultCurrency).currency = .str code.1 := by
      simp [SalarySchema.again, SalarySchema.arguments, hsalary, dumpOption]
    rw [currencyOf, hargument, hcode]
    rfl
  | none =>
    rw [hsalary, Option.map_none, currencyOf] at hcurrency
    have hparsed := (Option.or_eq_none_iff.mp (Option.or_eq_none_iff.mp hcurrency.symm).1).2
    have hargument : (salary.again defaultCurrency).currency = .null := by
      simp [SalarySchema.again, SalarySchema.arguments, hsalary, dumpOption]
    rw [currencyOf, hargument, hparsed]
    rfl

theorem periodOf_again (h : Reads text.toUnicodeText args parsed low high salary)
    (defaultCurrency : Option String) :
    periodOf (salary.again defaultCurrency) parsed = salary.period := by
  have hperiod := h.period
  cases hsalary : salary.period with
  | some period =>
    have hargument : (salary.again defaultCurrency).period = .member period := by
      simp [SalarySchema.again, SalarySchema.arguments, hsalary]
    rw [periodOf, hargument]
    rfl
  | none =>
    rw [hsalary, periodOf] at hperiod
    have hparsed := (Option.or_eq_none_iff.mp (Option.or_eq_none_iff.mp hperiod.symm).1).2
    have hargument : (salary.again defaultCurrency).period = .value .null := by
      simp [SalarySchema.again, SalarySchema.arguments, hsalary]
    rw [periodOf, hargument, hparsed]
    rfl

/-- A second call reads the bounds, the period and the label of the first one again. -/
theorem reads_again (h : Reads text.toUnicodeText args parsed low high salary)
    (defaultCurrency : Option String) {again : SalarySchema}
    (hmin : again.minAmount = salary.minAmount) (hmax : again.maxAmount = salary.maxAmount)
    (hperiod : again.period = salary.period) (hdisplay : again.display = salary.display)
    (hcurrency : again.currency.map Subtype.val = (salary.currency.map Subtype.val).or
      (normalizeCurrency text.toUnicodeText (.ofOption defaultCurrency))) :
    Reads text.toUnicodeText (salary.again defaultCurrency) parsed
      (salary.minAmount.map Nat.cast) (salary.maxAmount.map Nat.cast) again := by
  have hlabel : optionalCleanText (salary.again defaultCurrency).label = salary.display := by
    change optionalCleanText (.ofOption salary.display) = salary.display
    rw [h.display, optionalCleanText_ofOption]
  obtain ⟨hlow, hhigh⟩ := or_of_orderBounds h.minAmount h.maxAmount
  refine ⟨?_, optionalAmount_dump _, optionalAmount_dump _, ?_, ?_, ?_, ?_, ?_, ?_⟩
  · rw [hlabel, h.display]
    exact h.label
  · rw [hlow, hhigh, orderBounds_of_le salary.min_le_max, hmin]
  · rw [hlow, hhigh, orderBounds_of_le salary.min_le_max, hmax]
  · rw [hcurrency, currencyOf_again h]
  · rw [hperiod, periodOf_again h]
  · rw [hlabel, hdisplay]
  · have hsome := h.someField
    have hcode : salary.currency.isSome → again.currency.isSome := by
      intro hsome
      obtain ⟨code, hcode⟩ := Option.isSome_iff_exists.mp hsome
      rw [hcode, Option.map_some, Option.some_or] at hcurrency
      obtain ⟨code', hcode', -⟩ := Option.map_eq_some_iff.mp hcurrency
      rw [hcode']
      rfl
    rw [hmin, hmax, hperiod, hdisplay]
    exact hsome.imp_right fun hrest => hrest.imp_right fun hrest => hrest.imp_left hcode

end Again

/-- A second call on a salary returns it again; with the default currency `IDR` it returns it with
    this currency if it had none. -/
theorem normalizeSalary_again (text : CurrencyText) {args : SalaryArguments}
    {salary : SalarySchema} {label : Option String}
    (h : normalizeSalary text.toUnicodeText args = .ok ⟨some salary, label⟩) :
    normalizeSalary text.toUnicodeText (salary.again none) = .ok ⟨some salary, label⟩ ∧
      normalizeSalary text.toUnicodeText (salary.again (some "IDR"))
        = .ok ⟨some (salary.withCurrency "IDR" rfl), label⟩ ∧
      (salary.currency ≠ none → salary.withCurrency "IDR" rfl = salary) := by
  obtain ⟨⟨parsed, low, high, hreads⟩, rfl⟩ := normalizeSalary_some_iff.mp h
  have hrupiah : normalizeCurrency text.toUnicodeText (.ofOption (some "IDR")) = some "IDR" :=
    text.normalizeCurrency_of_isCode (text.isCode_of_mem (by decide))
  have hsame : (salary.currency.map Subtype.val).or
      (normalizeCurrency text.toUnicodeText (.ofOption none)) = salary.currency.map Subtype.val :=
    Option.or_none
  have hdefault : (salary.withCurrency "IDR" rfl).currency.map Subtype.val
      = (salary.currency.map Subtype.val).or
          (normalizeCurrency text.toUnicodeText (.ofOption (some "IDR"))) := by
    rw [hrupiah]
    cases hcurrency : salary.currency <;> simp [SalarySchema.withCurrency, hcurrency]
  refine ⟨normalizeSalary_some_iff.mpr ⟨⟨_, _, _,
      reads_again hreads none rfl rfl rfl rfl hsame.symm⟩, rfl⟩,
    normalizeSalary_some_iff.mpr ⟨⟨_, _, _,
      reads_again hreads (some "IDR") rfl rfl rfl rfl hdefault⟩, rfl⟩, ?_⟩
  intro hsome
  obtain ⟨code, hcode⟩ := Option.ne_none_iff_exists'.mp hsome
  unfold SalarySchema.withCurrency
  rw [hcode, Option.getD_some, ← hcode]

/-- Upper-casing an ASCII letter leaves nothing to upper-case, and letters are no whitespace. -/
theorem toUpper_facts (c : Char) :
    c.toUpper.toUpper = c.toUpper ∧ (c.isAlpha = true → isSpace c = false) := by
  constructor
  · have hlower : ∀ n < 123, 97 ≤ n → (Char.ofNat n).toUpper.toUpper = (Char.ofNat n).toUpper := by
      decide
    by_cases h : 97 ≤ c.toNat ∧ c.toNat ≤ 122
    · have hc := hlower c.toNat (Nat.lt_succ_of_le h.2) h.1
      rwa [Char.ofNat_toNat] at hc
    · have hsame : c.toUpper = c := by
        unfold Char.toUpper
        rw [dif_neg]
        rintro ⟨hlow, hhigh⟩
        exact h ⟨hlow, hhigh⟩
      rw [hsame, hsame]
  · intro halpha
    have hletters : ∀ n < 123, 65 ≤ n → isSpace (Char.ofNat n) = false := by decide
    have hcode : 65 ≤ c.toNat ∧ c.toNat ≤ 122 := by
      simp only [isAlpha_eq, isUpper_eq, isLower_eq, Bool.or_eq_true, Bool.and_eq_true,
        decide_eq_true_eq, ge_iff_le, UInt32.le_iff_toNat_le] at halpha
      have hc : c.val.toNat = c.toNat := rfl
      have hA : 'A'.val.toNat = 65 := rfl
      have hZ : 'Z'.val.toNat = 90 := rfl
      have ha : 'a'.val.toNat = 97 := rfl
      have hz : 'z'.val.toNat = 122 := rfl
      omega
    have hspace := hletters c.toNat (Nat.lt_succ_of_le hcode.2) hcode.1
    rwa [Char.ofNat_toNat] at hspace

/-- The Unicode tables on ASCII texts. -/
def asciiCurrencies : CurrencyText where
  toUnicodeText := KnownSalary.asciiText
  upper_upper s := by
    have hupper : Char.toUpper ∘ Char.toUpper = Char.toUpper :=
      funext fun c => (toUpper_facts c).1
    simp only [KnownSalary.asciiText, String.toList_ofList, List.map_map, hupper]
  upper_code := by decide
  isAlpha_code := by decide
  isAlpha_space s halpha c hc := by
    simp only [KnownSalary.asciiText, Bool.and_eq_true, List.all_eq_true] at halpha
    exact (toUpper_facts c).2 (halpha.2 c hc)
  isAlpha_dollar := by decide

/-- Two amounts without a currency. -/
def fiveToTen : SalarySchema where
  minAmount := some 5
  maxAmount := some 10
  display := some "5 to 10"
  min_le_max := by simp

theorem fiveToTen_returned :
    normalizeSalary asciiCurrencies.toUnicodeText
        { minAmount := .int 10, maxAmount := .str "5", label := .str " 5  to 10" }
      = .ok ⟨some fiveToTen, some "5 to 10"⟩ := by rfl

/-- A second call on five to ten finds nothing to change but the currency. -/
theorem normalizeSalary_again_fiveToTen :
    normalizeSalary asciiCurrencies.toUnicodeText (fiveToTen.again none)
        = .ok ⟨some fiveToTen, some "5 to 10"⟩ ∧
      normalizeSalary asciiCurrencies.toUnicodeText (fiveToTen.again (some "IDR"))
        = .ok ⟨some (fiveToTen.withCurrency "IDR" rfl), some "5 to 10"⟩ ∧
      (fiveToTen.currency ≠ none → fiveToTen.withCurrency "IDR" rfl = fiveToTen) :=
  normalizeSalary_again asciiCurrencies fiveToTen_returned

/-- With the default currency a second call does not return the salary again. -/
theorem second_call_adds_currency :
    normalizeSalary asciiCurrencies.toUnicodeText
        { minAmount := .int 10, maxAmount := .str "5", label := .str " 5  to 10" }
        = .ok ⟨some fiveToTen, some "5 to 10"⟩ ∧
      normalizeSalary asciiCurrencies.toUnicodeText (fiveToTen.again (some "IDR"))
        ≠ .ok ⟨some fiveToTen, some "5 to 10"⟩ := by
  refine ⟨fiveToTen_returned, ?_⟩
  have hagain : normalizeSalary asciiCurrencies.toUnicodeText (fiveToTen.again (some "IDR"))
      = .ok ⟨some (fiveToTen.withCurrency "IDR" rfl), some "5 to 10"⟩ := by rfl
  rw [hagain]
  intro hsame
  have hcurrency := congrArg (fun result => result.toOption.bind fun normalized =>
    normalized.salary.bind fun salary => salary.currency.map Subtype.val) hsame
  revert hcurrency
  decide

end Bisakerja
