import BisakerjaScraper.Jobs.SalaryLabel
import BisakerjaScraper.Schemes.Fallible

/-! What reading a salary raises.

    A label never makes it raise: the amounts found in it begin with a digit, so they have no sign
    and are finite. A structured amount may be a text that reads as an infinite number or a NaN, or
    it may be negative. -/

namespace Bisakerja
open Schemes PyDecimal

/-! ### Numbers that begin with a digit -/

/-- Stripping keeps what the text begins with. -/
theorem strip_cons {c : Char} (h : isSpace c = false) (rest : List Char) :
    ∃ rest', (strip (String.ofList (c :: rest))).toList = c :: rest' := by
  unfold strip
  rw [String.toList_ofList, String.toList_ofList, List.dropWhile_cons_of_neg (by simp [h]),
    List.reverse_cons, List.dropWhile_append]
  split
  · exact ⟨[], by simp [h]⟩
  · exact ⟨(rest.reverse.dropWhile isSpace).reverse, by simp⟩

/-- Behind a digit there is no sign and no special value. -/
theorem ofText_of_isDecimalDigit {c : Char} {rest : List Char} {number : PyDecimal}
    (hc : isDecimalDigit c = true) (h : ofText (String.ofList (c :: rest)) = some number) :
    ∃ coefficient exponent, number = .finite false coefficient exponent := by
  obtain ⟨rest', hstrip⟩ := strip_cons (isSpace_of_isDecimalDigit hc) rest
  have hne : ∀ d, isOtherCode d.toNat = true → c ≠ d := fun d => ne_of_isDecimalDigit hc
  have hfilter : ((strip (String.ofList (c :: rest))).toList.filter (· ≠ '_'))
      = c :: rest'.filter (· ≠ '_') := by
    rw [hstrip, List.filter_cons_of_pos (by simpa using hne '_' (by decide))]
  have hsign : splitSign (c :: rest'.filter (· ≠ '_')) = (false, c :: rest'.filter (· ≠ '_')) := by
    rw [splitSign.eq_def]
    split
    · next heq => exact absurd (List.cons.inj heq).1 (hne '-' (by decide))
    · next heq => exact absurd (List.cons.inj heq).1 (hne '+' (by decide))
    · rfl
  have hi := hne 'i' (by decide)
  have hn := hne 'n' (by decide)
  have hs := hne 's' (by decide)
  unfold ofText at h
  rw [hfilter, hsign] at h
  simp only [List.map_cons, toLower_of_isDecimalDigit hc] at h
  rw [if_neg (by simp [hi])] at h
  split at h
  · next hnan => simp [isNanText, hn.symm, hs.symm] at hnan
  · split at h
    · cases h
    · obtain ⟨exponent, -, rfl⟩ := Option.map_eq_some_iff.mp h
      exact ⟨_, _, rfl⟩

/-- However its separators are read, a number that begins with a digit is finite and has no sign. -/
theorem parseDecimalNumber_of_isDecimalDigit {c : Char} {rest : List Char} {number : PyDecimal}
    (hc : isDecimalDigit c = true)
    (h : parseDecimalNumber (String.ofList (c :: rest)) = some number) :
    ∃ coefficient exponent, number = .finite false coefficient exponent := by
  obtain ⟨rest', hstrip⟩ := strip_cons (isSpace_of_isDecimalDigit hc) rest
  have hpoint : c ≠ '.' := ne_of_isDecimalDigit hc (by decide)
  have hcomma : c ≠ ',' := ne_of_isDecimalDigit hc (by decide)
  have hfilter : (c :: rest').filter (· ≠ '.') = c :: rest'.filter (· ≠ '.') :=
    List.filter_cons_of_pos (by simpa using hpoint)
  unfold parseDecimalNumber at h
  rw [hstrip] at h
  simp only [List.isEmpty_cons, Bool.false_eq_true, if_false, hfilter, List.map_cons,
    if_neg hcomma] at h
  split at h
  · exact ofText_of_isDecimalDigit hc h
  · split at h
    · exact ofText_of_isDecimalDigit hc h
    · split at h
      · exact ofText_of_isDecimalDigit hc h
      · split at h
        · next whole fraction hsplit =>
          split at h
          · have hjoin : ['.'].intercalate (splitPoints (c :: rest')) = c :: rest' :=
              List.intercalate_splitOn '.'
            rw [hsplit] at hjoin
            rcases whole with - | ⟨d, whole⟩
            · simp [List.intercalate] at hjoin
              exact absurd hjoin.1.symm hpoint
            · simp [List.intercalate] at hjoin
              rw [hjoin.1, List.cons_append] at h
              exact ofText_of_isDecimalDigit hc h
          · exact ofText_of_isDecimalDigit hc h
        · exact ofText_of_isDecimalDigit hc h

/-! ### Labels -/

/-- A match of the number pattern begins with a digit. -/
theorem number_of_mem_findNumbers {label : String} {found : NumberMatch}
    (h : found ∈ findNumbers label) : ∃ c rest, isDecimalDigit c = true ∧
      found.number = String.ofList (c :: rest) := by
  obtain ⟨back, length, -, hmatch⟩ := exists_match_of_mem_scanFrom h
  unfold matchNumber at hmatch
  dsimp only at hmatch
  split at hmatch
  · cases hmatch
  · next hdigits =>
    cases hmatch
    unfold splitDigits at hdigits ⊢
    rcases htake : back.takeWhile isDecimalDigit with - | ⟨c, digits⟩
    · rw [htake] at hdigits
      exact absurd rfl hdigits
    · have hmem : c ∈ back.takeWhile isDecimalDigit := by simp [htake]
      have hcons : ∀ groups tail, c :: digits ++ groups ++ tail = c :: (digits ++ groups ++ tail) :=
        fun _ _ => rfl
      exact ⟨c, _, List.mem_takeWhile_imp hmem, congrArg String.ofList (hcons _ _)⟩

theorem amountOf_ok {label : String} {found : NumberMatch} (h : found ∈ findNumbers label) :
    ∃ amount, amountOf label found = .ok amount ∧ ∀ n ∈ amount, 0 ≤ n := by
  obtain ⟨c, rest, hc, hnumber⟩ := number_of_mem_findNumbers h
  unfold amountOf
  rw [hnumber]
  cases hparse : parseDecimalNumber (String.ofList (c :: rest)) with
  | none => exact ⟨none, rfl, by simp⟩
  | some number =>
    obtain ⟨coefficient, exponent, rfl⟩ := parseDecimalNumber_of_isDecimalDigit hc hparse
    refine ⟨_, rfl, ?_⟩
    rintro n ⟨⟩
    simp only [Bool.false_eq_true, if_false]
    have hpow : ∀ k : ℕ, 0 ≤ (10 : ℤ) ^ k := fun k => Int.pow_nonneg (by decide)
    split
    · exact Int.mul_nonneg (Int.natCast_nonneg _) (hpow _)
    · exact Int.ediv_nonneg (Int.natCast_nonneg _) (hpow _)

theorem parseAmounts_ok (label : String) :
    ∃ amounts, parseAmounts label = .ok amounts ∧ ∀ n ∈ amounts, 0 ≤ n := by
  have hfound : ∀ numbers : List NumberMatch, (∀ found ∈ numbers, found ∈ findNumbers label) →
      ∃ amounts, numbers.mapM (amountOf label) = .ok amounts ∧
        ∀ amount ∈ amounts, ∀ n ∈ amount, 0 ≤ n := by
    intro numbers hnumbers
    induction numbers with
    | nil => exact ⟨[], rfl, by simp⟩
    | cons found rest ih =>
      obtain ⟨amount, hamount, hnonneg⟩ := amountOf_ok (hnumbers found List.mem_cons_self)
      obtain ⟨amounts, hrest, hall⟩ := ih fun other hmem => hnumbers other (List.mem_cons_of_mem _ hmem)
      refine ⟨amount :: amounts, ?_, List.forall_mem_cons.mpr ⟨hnonneg, hall⟩⟩
      rw [List.mapM_cons, hamount, ok_bind, hrest]
      rfl
  obtain ⟨amounts, hamounts, hall⟩ := hfound ((findNumbers label).take 2)
    fun found hmem => List.mem_of_mem_take hmem
  refine ⟨amounts.filterMap id, ?_, fun n hn => ?_⟩
  · unfold parseAmounts
    rw [hamounts]
    rfl
  · obtain ⟨amount, hmem, rfl⟩ := List.mem_filterMap.mp hn
    exact hall _ hmem n rfl

theorem currencyFromLabel_length {label currency : String}
    (h : currencyFromLabel label = some currency) : currency.length = 3 := by
  unfold currencyFromLabel at h
  dsimp only at h
  repeat' split at h
  all_goals cases h
  all_goals rfl

/-- A label is read without raising, and what is found in it makes a salary. -/
theorem parseSalaryLabel_ok (label : Option String) : ∃ parsed, parseSalaryLabel label = .ok parsed ∧
    (∀ n ∈ parsed.minAmount, 0 ≤ n) ∧ (∀ n ∈ parsed.maxAmount, 0 ≤ n) ∧
    ∀ currency ∈ parsed.currency, currency.length = 3 := by
  cases label with
  | none => exact ⟨{}, rfl, by simp, by simp, by simp⟩
  | some label =>
    obtain ⟨amounts, hamounts, hnonneg⟩ := parseAmounts_ok label
    have hparsed : parseSalaryLabel (some label)
        = .ok ⟨amounts[0]?, amounts[1]?, currencyFromLabel label, periodFromLabel label⟩ := by
      rw [parseSalaryLabel, hamounts]
      rfl
    refine ⟨_, hparsed, ?_, ?_, ?_⟩
    · exact fun n hn => hnonneg n (List.mem_of_getElem? hn)
    · exact fun n hn => hnonneg n (List.mem_of_getElem? hn)
    · intro currency hcurrency
      dsimp only at hcurrency
      exact currencyFromLabel_length hcurrency

theorem normalizeCurrency_length {text : UnicodeText} {value : Json} {currency : String}
    (h : normalizeCurrency text value = some currency) : currency.length = 3 := by
  unfold normalizeCurrency at h
  split at h
  · cases h
  · dsimp only at h
    split at h
    · cases h
      rfl
    · split at h
      · cases h
        rfl
      · split at h
        · next hthree =>
          cases h
          simp only [Bool.and_eq_true, decide_eq_true_eq] at hthree
          exact hthree.1
        · cases h

/-! ### Structured amounts -/

/-- An amount that is not negative, nor a text of a negative or an infinite number or of a NaN. -/
def AmountRead : Json → Prop
  | .int n => 0 ≤ n
  | .float (.finite q) => q.den = 1 → 0 ≤ q.num
  | .str s => ∀ number ∈ parseDecimalNumber s, ∃ n ∈ number.toInt, 0 ≤ n
  | _ => True

theorem optionalAmount_error {value : Json} {exc : PyException}
    (h : optionalAmount value = .error exc) : ∃ className message, exc = .plain className message := by
  unfold optionalAmount at h
  split at h
  · cases h
  · cases h
  · split at h
    · next number _ =>
      cases hint : number.toInt with
      | some n =>
        rw [pyInt, hint] at h
        cases h
      | none =>
        rw [pyInt, hint] at h
        cases h
        unfold intError
        split <;> exact ⟨_, _, rfl⟩
    · cases h
  · cases h

/-- Of an amount that was read, only the sign matters. -/
theorem amountRead_of_ok {value : Json} {amount : Option ℤ} (h : optionalAmount value = .ok amount) :
    AmountRead value ↔ ∀ n ∈ amount, 0 ≤ n := by
  cases value with
  | int n =>
    cases h
    simp [AmountRead]
  | float x =>
    cases x with
    | finite q =>
      cases h
      by_cases hden : q.den = 1 <;> simp [AmountRead, hden]
    | posInf | negInf | nan =>
      cases h
      simp [AmountRead]
  | str s =>
    rw [optionalAmount] at h
    cases hparse : parseDecimalNumber s with
    | none =>
      rw [hparse] at h
      cases h
      simp [AmountRead, hparse]
    | some number =>
      rw [hparse] at h
      obtain ⟨n, hn, rfl⟩ := ok_map_iff.mp h
      rw [pyInt] at hn
      cases hint : number.toInt with
      | none =>
        rw [hint] at hn
        cases hn
      | some m =>
        rw [hint] at hn
        cases hn
        simp [AmountRead, hparse, hint]
  | null | bool | list | dict =>
    cases h
    simp [AmountRead]

/-- An amount that raises is not read. -/
theorem not_amountRead_of_error {value : Json} {exc : PyException}
    (h : optionalAmount value = .error exc) : ¬ AmountRead value := by
  unfold optionalAmount at h
  split at h
  · cases h
  · cases h
  · next s =>
    split at h
    · next number hparse =>
      cases hint : number.toInt with
      | none => simp [AmountRead, hparse, hint]
      | some n =>
        rw [pyInt, hint] at h
        cases h
    · cases h
  · cases h

/-- The model of a salary refuses exactly the negative amounts. -/
theorem goodWhen_buildSalary {kind : PyException → Prop} (hkind : ∀ field, kind (salaryError field))
    {minAmount maxAmount : Option ℤ} {currency : Option String}
    (hle : ∀ low ∈ minAmount, ∀ high ∈ maxAmount, low ≤ high)
    (hcurrency : ∀ s ∈ currency, s.length = 3) (period : Option SalaryPeriod)
    (display : Option String) :
    GoodWhen kind ((∀ n ∈ minAmount, 0 ≤ n) ∧ ∀ n ∈ maxAmount, 0 ≤ n)
      (buildSalary minAmount maxAmount currency period display) := by
  have hcheck : ∀ (field : String) (amount : Option ℤ),
      GoodWhen kind (∀ n ∈ amount, 0 ≤ n) (checkAmount field amount) := by
    rintro field (- | n)
    · exact goodWhen_ok (by simp) none
    · by_cases hn : 0 ≤ n
      · rw [checkAmount_ok (by simpa using hn)]
        exact goodWhen_ok (by simpa using hn) _
      · rw [checkAmount, if_neg hn]
        exact goodWhen_error (by simpa using hn) (hkind field)
  constructor
  · rintro ⟨hmin, hmax⟩
    obtain ⟨read, hread, -⟩ := buildSalary_ok hmin hmax hle hcurrency period display
    exact ⟨read, hread⟩
  · intro hnegative
    by_cases hmin : ∀ n ∈ minAmount, 0 ≤ n
    · have hmax : ¬ ∀ n ∈ maxAmount, 0 ≤ n := fun hmax => hnegative ⟨hmin, hmax⟩
      rw [buildSalary, checkAmount_ok hmin, ok_bind]
      exact Schemes.fails_bind_iff.mpr (.inl ((hcheck "max_amount" maxAmount).fails hmax))
    · exact Schemes.fails_bind_iff.mpr (.inl ((hcheck "min_amount" minAmount).fails hmin))

/-- The bounds in order are negative where the bounds are. -/
theorem nonneg_orderBounds_iff (a b : Option ℤ) :
    ((∀ n ∈ (orderBounds a b).1, 0 ≤ n) ∧ ∀ n ∈ (orderBounds a b).2, 0 ≤ n) ↔
      (∀ n ∈ a, 0 ≤ n) ∧ ∀ n ∈ b, 0 ≤ n := by
  rcases a with - | m <;> rcases b with - | n
  · rfl
  · rfl
  · rfl
  · by_cases hlt : n < m
    · simp [orderBounds, hlt, and_comm]
    · simp [orderBounds, hlt]

/-- Reading a salary raises exactly where a structured amount cannot be read or is negative, and
    then one of Python's own exceptions. -/
theorem goodWhen_normalizeSalary {kind : PyException → Prop}
    (hkind : ∀ className message, kind (.plain className message)) (text : UnicodeText)
    (args : SalaryArguments) :
    GoodWhen kind (AmountRead args.minAmount ∧ AmountRead args.maxAmount)
      (normalizeSalary text args) := by
  obtain ⟨parsed, hparsed, hmin, hmax, hcurrency⟩ :=
    parseSalaryLabel_ok (optionalCleanText args.label)
  unfold normalizeSalary
  dsimp only
  rw [hparsed, ok_bind]
  cases hlow : optionalAmount args.minAmount with
  | error exc =>
    obtain ⟨className, message, rfl⟩ := optionalAmount_error hlow
    exact goodWhen_error (fun h => not_amountRead_of_error hlow h.1) (hkind _ _)
  | ok low =>
    cases hhigh : optionalAmount args.maxAmount with
    | error exc =>
      obtain ⟨className, message, rfl⟩ := optionalAmount_error hhigh
      exact goodWhen_error (fun h => not_amountRead_of_error hhigh h.2) (hkind _ _)
    | ok high =>
      have hor : ∀ {amount other : Option ℤ}, (∀ n ∈ other, 0 ≤ n) →
          ((∀ n ∈ amount.or other, 0 ≤ n) ↔ ∀ n ∈ amount, 0 ≤ n) := by
        rintro (- | n) other hother
        · simpa using hother
        · rfl
      have hcond : (AmountRead args.minAmount ∧ AmountRead args.maxAmount) ↔
          (∀ n ∈ (orderBounds (low.or parsed.minAmount) (high.or parsed.maxAmount)).1, 0 ≤ n) ∧
            ∀ n ∈ (orderBounds (low.or parsed.minAmount) (high.or parsed.maxAmount)).2, 0 ≤ n := by
        rw [nonneg_orderBounds_iff, hor hmin, hor hmax, amountRead_of_ok hlow,
          amountRead_of_ok hhigh]
      refine GoodWhen.congr ?_ hcond.symm
      rw [ok_bind, ok_bind]
      split
      · next hnone =>
        simp only [Bool.and_eq_true, Option.isNone_iff_eq_none] at hnone
        obtain ⟨⟨⟨⟨hfirst, hsecond⟩, -⟩, -⟩, -⟩ := hnone
        exact goodWhen_ok (by rw [hfirst, hsecond]; simp) _
      · refine GoodWhen.bind_pure ?_ _
        refine goodWhen_buildSalary (fun _ => hkind _ _) (orderBounds_le _ _) ?_ _ _
        intro s hs
        rcases Option.or_eq_some_iff.mp hs with hs | ⟨-, hs⟩
        · rcases Option.or_eq_some_iff.mp hs with hs | ⟨-, hs⟩
          · exact normalizeCurrency_length hs
          · exact hcurrency s hs
        · exact normalizeCurrency_length hs

end Bisakerja
