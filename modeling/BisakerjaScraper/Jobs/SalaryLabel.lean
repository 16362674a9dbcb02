import BisakerjaScraper.Backend.Payloads
import BisakerjaScraper.Jobs.Salary

/-! Salary labels, written and read.

    The payload builder writes amounts with a comma between groups of three digits. The reader takes
    a comma for a decimal point: an amount of one group comes back as it was, one of two groups
    loses the second, and one of more groups is no number at all. -/

namespace Bisakerja
open Schemes

/-- An amount as the builder writes it. -/
def written (n : ℕ) : List Char := (formatThousands n).toList

/-! ### Digits in groups -/

theorem written_eq (n : ℕ) : written n = (groupDigits (Nat.toDigits 10 n).reverse).reverse := by
  have hneg : ¬ (n : ℤ) < 0 := by omega
  simp [written, formatThousands, hneg]

theorem groupDigits_of_length {l : List Char} (h : l.length ≤ 3) : groupDigits l = l := by
  rcases l with - | ⟨a, - | ⟨b, - | ⟨c, - | ⟨d, rest⟩⟩⟩⟩
  iterate 4 rfl
  simp only [List.length_cons] at h
  omega

theorem groupDigits_cons {a b c : Char} {rest : List Char} (h : rest ≠ []) :
    groupDigits (a :: b :: c :: rest) = a :: b :: c :: ',' :: groupDigits rest := by
  rcases rest with - | ⟨d, rest⟩
  · exact absurd rfl h
  · rw [groupDigits]

/-- Below a thousand an amount is written in one group. -/
theorem written_of_lt {n : ℕ} (h : n < 1000) : written n = Nat.toDigits 10 n := by
  have hlength : (Nat.toDigits 10 n).length ≤ 3 :=
    (Nat.length_toDigits_le_iff (by decide) (by decide)).mpr h
  rw [written_eq, groupDigits_of_length (by simpa using hlength), List.reverse_reverse]

/-- From a thousand on, the last group follows a comma. -/
theorem written_of_le {n : ℕ} (h : 1000 ≤ n) : ∃ group : List Char,
    written n = written (n / 1000) ++ ',' :: group ∧ group.length = 3 ∧
      ∀ c ∈ group, c.isDigit = true := by
  have hdigits : Nat.toDigits 10 n = Nat.toDigits 10 (n / 1000) ++
      [(n / 100 % 10).digitChar, (n / 10 % 10).digitChar, (n % 10).digitChar] := by
    rw [Nat.toDigits_of_base_le (by decide) (by omega : 10 ≤ n),
      Nat.toDigits_of_base_le (by decide) (by omega : 10 ≤ n / 10),
      Nat.toDigits_of_base_le (by decide) (by omega : 10 ≤ n / 10 / 10)]
    simp [Nat.div_div_eq_div_mul]
  refine ⟨[(n / 100 % 10).digitChar, (n / 10 % 10).digitChar, (n % 10).digitChar], ?_, rfl, ?_⟩
  · have hne : (Nat.toDigits 10 (n / 1000)).reverse ≠ [] := by simp [Nat.toDigits_ne_nil]
    rw [written_eq, written_eq, hdigits]
    simp [groupDigits_cons hne]
  · intro c hc
    refine Nat.isDigit_of_mem_toDigits (b := 10) (n := n) (by decide) (by decide) ?_
    rw [hdigits]
    exact List.mem_append_right _ hc

/-- The groups behind the first one. -/
def commaGroups (groups : List (List Char)) : List Char := groups.flatMap (',' :: ·)

/-- How an amount is written: a group of at most three digits, and groups of three digits behind
    commas, none below a thousand. -/
structure WrittenAs (n : ℕ) (head : List Char) (groups : List (List Char)) : Prop where
  eq : written n = head ++ commaGroups groups
  head_ne : head ≠ []
  head_length : head.length ≤ 3
  head_digit : ∀ c ∈ head, c.isDigit = true
  group_length : ∀ group ∈ groups, group.length = 3
  group_digit : ∀ group ∈ groups, ∀ c ∈ group, c.isDigit = true
  groups_nil : groups = [] ↔ n < 1000

theorem exists_writtenAs (n : ℕ) : ∃ head groups, WrittenAs n head groups := by
  induction n using Nat.strong_induction_on with
  | _ n ih =>
    by_cases h : n < 1000
    · refine ⟨Nat.toDigits 10 n, [], ⟨?_, Nat.toDigits_ne_nil, ?_, ?_, nofun, nofun, ?_⟩⟩
      · simp [written_of_lt h, commaGroups]
      · exact (Nat.length_toDigits_le_iff (by decide) (by decide)).mpr h
      · exact fun c hc => Nat.isDigit_of_mem_toDigits (by decide) (by decide) hc
      · exact iff_of_true rfl h
    · obtain ⟨group, heq, hlength, hdigit⟩ := written_of_le (by omega : 1000 ≤ n)
      obtain ⟨head, groups, hw⟩ := ih (n / 1000) (by omega)
      refine ⟨head, groups ++ [group], ⟨?_, hw.head_ne, hw.head_length, hw.head_digit, ?_, ?_, ?_⟩⟩
      · simp [heq, hw.eq, commaGroups]
      · intro other hother
        rcases List.mem_append.mp hother with hmem | hmem
        · exact hw.group_length other hmem
        · rw [List.mem_singleton.mp hmem, hlength]
      · intro other hother
        rcases List.mem_append.mp hother with hmem | hmem
        · exact hw.group_digit other hmem
        · rw [List.mem_singleton.mp hmem]
          exact hdigit
      · exact iff_of_false (by simp) h

theorem mem_commaGroups {groups : List (List Char)}
    (h : ∀ group ∈ groups, ∀ c ∈ group, c.isDigit = true) {c : Char} (hc : c ∈ commaGroups groups) :
    c = ',' ∨ c.isDigit = true := by
  simp only [commaGroups, List.mem_flatMap, List.mem_cons] at hc
  obtain ⟨group, hgroup, rfl | hmem⟩ := hc
  · exact .inl rfl
  · exact .inr (h group hgroup c hmem)

/-- An amount is written with digits and commas. -/
theorem mem_written {n : ℕ} {c : Char} (h : c ∈ written n) : c = ',' ∨ c.isDigit = true := by
  obtain ⟨head, groups, hw⟩ := exists_writtenAs n
  rw [hw.eq, List.mem_append] at h
  rcases h with h | h
  · exact .inr (hw.head_digit c h)
  · exact mem_commaGroups hw.group_digit h

/-! ### Finding an amount -/

/-- What follows an amount in a label: nothing, or a space. -/
def EndsAmount (tail : List Char) : Prop := ∀ c ∈ tail.head?, c = ' '

theorem splitGroups_of_endsAmount {tail : List Char} (h : EndsAmount tail) :
    splitGroups tail = ([], tail) := by
  rcases tail with - | ⟨a, - | ⟨b, - | ⟨c, - | ⟨d, rest⟩⟩⟩⟩ <;> try rfl
  rw [h a rfl]
  rfl

theorem splitTail_of_endsAmount {tail : List Char} (h : EndsAmount tail) : splitTail tail = ([], tail) := by
  rcases tail with - | ⟨a, - | ⟨b, rest⟩⟩ <;> try rfl
  rw [h a rfl]
  rfl

theorem splitGroups_commaGroups {groups : List (List Char)} {tail : List Char}
    (hlength : ∀ group ∈ groups, group.length = 3)
    (hdigit : ∀ group ∈ groups, ∀ c ∈ group, c.isDigit = true) (htail : EndsAmount tail) :
    splitGroups (commaGroups groups ++ tail) = (commaGroups groups, tail) := by
  induction groups with
  | nil => exact splitGroups_of_endsAmount htail
  | cons group groups ih =>
    obtain ⟨a, b, c, rfl⟩ := List.length_eq_three.mp (hlength group List.mem_cons_self)
    have hgroup : [a, b, c].all isDecimalDigit = true := by
      refine List.all_eq_true.mpr fun d hd => ?_
      exact PyDecimal.isDecimalDigit_of_isDigit (hdigit _ List.mem_cons_self d hd)
    have hgroups := ih (fun g hg => hlength g (List.mem_cons_of_mem _ hg))
      fun g hg => hdigit g (List.mem_cons_of_mem _ hg)
    have hsplit : commaGroups ([a, b, c] :: groups) ++ tail
        = ',' :: a :: b :: c :: (commaGroups groups ++ tail) := by
      simp [commaGroups]
    rw [hsplit, splitGroups, hgroup, hgroups]
    simp [isSeparator, commaGroups]

/-- The match of an amount, without a unit. -/
def numberOf (n : ℕ) : NumberMatch := ⟨String.ofList (written n), none⟩

/-- The pattern matches an amount up to what follows it. -/
theorem matchNumber_written (n : ℕ) (tail : List Char) (htail : EndsAmount tail)
    (hunit : matchUnit (tail.dropWhile isSpace) = none) :
    matchNumber (written n ++ tail)
      = some (numberOf n, (written n).length + (tail.takeWhile isSpace).length) := by
  obtain ⟨head, groups, hw⟩ := exists_writtenAs n
  have hstart : ∀ c ∈ (commaGroups groups ++ tail).head?, isDecimalDigit c = false := by
    intro c hc
    rcases groups with - | ⟨group, groups⟩
    · rw [htail c hc]
      rfl
    · simp only [commaGroups, List.flatMap_cons, List.cons_append, List.head?_cons,
        Option.mem_some_iff] at hc
      subst hc
      rfl
  have hdigits := PyDecimal.splitDigits_append
    (fun c hc => PyDecimal.isDecimalDigit_of_isDigit (hw.head_digit c hc)) _ hstart
  have hgroups := splitGroups_commaGroups hw.group_length hw.group_digit htail
  have hne : head.isEmpty = false := by simpa using hw.head_ne
  simp only [matchNumber, numberOf, hw.eq, List.append_assoc, hdigits, hgroups,
    splitTail_of_endsAmount htail, hunit, hne]
  simp

/-! ### Reading an amount -/

/-- The integer that an amount is read as, when no unit multiplies it. -/
def readAmount (n : ℕ) : Option ℤ :=
  (parseDecimalNumber (String.ofList (written n))).bind fun number => (number.mul 1).toInt

/-- Few digits survive the precision. -/
theorem mul_one_toInt {coefficient : ℕ} (h : coefficient < 10 ^ 28) (exponent : ℤ) :
    ((PyDecimal.finite false coefficient exponent).mul 1).toInt
      = (PyDecimal.finite false coefficient exponent).toInt := by
  have hlength : (Nat.toDigits 10 coefficient).length ≤ 28 :=
    (Nat.length_toDigits_le_iff (by decide) (by decide)).mpr h
  have hdropped : (Nat.toDigits 10 (coefficient * 1)).length - PyDecimal.precision = 0 := by
    rw [Nat.mul_one, PyDecimal.precision]
    omega
  simp only [PyDecimal.mul, hdropped]
  simp [PyDecimal.roundHalfEven, Nat.mod_one]

/-- An amount as the reader sees it: commas have become points. -/
theorem parseDecimalNumber_written (n : ℕ) {head : List Char} {groups : List (List Char)}
    (hw : WrittenAs n head groups) :
    parseDecimalNumber (String.ofList (written n))
      = PyDecimal.ofText (String.ofList (head ++ groups.flatMap ('.' :: ·))) := by
  have hspace : ∀ c ∈ written n, isSpace c = false := by
    intro c hc
    rcases mem_written hc with rfl | hdigit
    · rfl
    · exact PyDecimal.isSpace_of_isDigit hdigit
  have hstrip : strip (String.ofList (written n)) = String.ofList (written n) :=
    strip_ofList (fun c hc => hspace c (List.mem_of_mem_head? hc))
      fun c hc => hspace c (List.mem_of_getLast? hc)
  have hne : written n ≠ [] := by simp [hw.eq, hw.head_ne]
  have hpoint : '.' ∉ written n := by
    intro hmem
    rcases mem_written hmem with h | h <;> cases h
  have hdigits : ∀ l : List Char, (∀ c ∈ l, c.isDigit = true) →
      (l.map fun c => if c = ',' then '.' else c) = l := by
    intro l hl
    refine (List.map_congr_left fun c hc => if_neg ?_).trans (List.map_id l)
    rintro rfl
    exact absurd (hl _ hc) (by decide)
  simp only [parseDecimalNumber, hstrip, String.toList_ofList, List.isEmpty_iff, hne, if_false,
    List.contains_eq_mem, hpoint, decide_false, Bool.and_false, Bool.false_eq_true]
  rcases groups with - | ⟨group, groups⟩
  · have hhead : written n = head := by simp [hw.eq, commaGroups]
    have hcomma : ',' ∉ head := fun hmem => absurd (hw.head_digit _ hmem) (by decide)
    rw [hhead] at hpoint ⊢
    simp [hcomma, List.count_eq_zero.mpr hpoint, splitPoints, List.splitOn_eq_singleton hpoint]
  · have hcomma : ',' ∈ written n := by simp [hw.eq, commaGroups]
    have hmap : (written n).map (fun c => if c = ',' then '.' else c)
        = head ++ (group :: groups).flatMap ('.' :: ·) := by
      rw [hw.eq, List.map_append, hdigits head hw.head_digit, commaGroups, List.map_flatMap]
      refine congrArg (head ++ ·) (List.flatMap_congr fun g hg => ?_)
      rw [List.map_cons, hdigits g (hw.group_digit g hg)]
      rfl
    simp [hcomma, hmap]

/-- What the reader makes of an amount. -/
theorem parse_written_cases (n : ℕ) :
    (n < 1000 ∧ parseDecimalNumber (String.ofList (written n)) = some (.finite false n 0)) ∨
    (1000 ≤ n ∧ ∃ coefficient < 10 ^ 6,
      parseDecimalNumber (String.ofList (written n)) = some (.finite false coefficient (-3))) ∨
    (1000 ≤ n ∧ parseDecimalNumber (String.ofList (written n)) = none) := by
  obtain ⟨head, groups, hw⟩ := exists_writtenAs n
  have hrest : ∀ c ∈ groups.flatMap ('.' :: ·), c = '.' ∨ isDecimalDigit c = true := by
    intro c hc
    simp only [List.mem_flatMap, List.mem_cons] at hc
    obtain ⟨group, hgroup, rfl | hmem⟩ := hc
    · exact .inl rfl
    · exact .inr (PyDecimal.isDecimalDigit_of_isDigit (hw.group_digit group hgroup c hmem))
  have hhead : ∀ c ∈ head, isDecimalDigit c = true := fun c hc =>
    PyDecimal.isDecimalDigit_of_isDigit (hw.head_digit c hc)
  have hstart : ∀ c ∈ (groups.flatMap ('.' :: ·)).head?, isDecimalDigit c = false := by
    intro c hc
    rcases groups with - | ⟨group, groups⟩
    · cases hc
    · cases hc
      rfl
  rw [parseDecimalNumber_written n hw,
    PyDecimal.ofText_of_digits hw.head_ne hhead hrest hstart]
  rcases groups with - | ⟨group, - | ⟨next, groups⟩⟩
  · have hlt : n < 1000 := hw.groups_nil.mp rfl
    have hhead : head = Nat.toDigits 10 n := by
      rw [← written_of_lt hlt, hw.eq]
      simp [commaGroups]
    left
    refine ⟨hlt, ?_⟩
    simp [PyDecimal.splitFraction, PyDecimal.readExponent, hhead, PyDecimal.digitsValue_toDigits]
  · have hge : 1000 ≤ n := by
      by_contra hlt
      exact absurd (hw.groups_nil.mpr (by omega)) (by simp)
    have hsplit := PyDecimal.splitDigits_append (fun c hc =>
      PyDecimal.isDecimalDigit_of_isDigit (hw.group_digit group List.mem_cons_self c hc)) [] nofun
    rw [List.append_nil] at hsplit
    have hlength : group.length = 3 := hw.group_length group List.mem_cons_self
    have hbound := PyDecimal.digitsValue_lt (head ++ group)
    have hpow : 10 ^ (head ++ group).length ≤ 10 ^ 6 := by
      refine Nat.pow_le_pow_right (by decide) ?_
      have hhead := hw.head_length
      rw [List.length_append]
      omega
    right
    left
    refine ⟨hge, digitsValue (head ++ group), by omega, ?_⟩
    simp [PyDecimal.splitFraction, hsplit, PyDecimal.readExponent, hlength]
  · have hge : 1000 ≤ n := by
      by_contra hlt
      exact absurd (hw.groups_nil.mpr (by omega)) (by simp)
    have hsplit := PyDecimal.splitDigits_append (fun c hc =>
      PyDecimal.isDecimalDigit_of_isDigit (hw.group_digit group List.mem_cons_self c hc))
      ('.' :: (next ++ groups.flatMap ('.' :: ·))) fun c hc => by cases hc; rfl
    right
    right
    refine ⟨hge, ?_⟩
    simp [PyDecimal.splitFraction, hsplit, PyDecimal.readExponent]

theorem readAmount_of_lt {n : ℕ} (h : n < 1000) : readAmount n = some (n : ℤ) := by
  rcases parse_written_cases n with ⟨-, hparse⟩ | ⟨hge, -⟩ | ⟨hge, -⟩
  · rw [readAmount, hparse, Option.bind_some, mul_one_toInt (by omega)]
    simp [PyDecimal.toInt]
  · omega
  · omega

/-- Whatever is read is below a thousand. -/
theorem readAmount_lt {n : ℕ} {m : ℤ} (h : readAmount n = some m) : 0 ≤ m ∧ m < 1000 := by
  rcases parse_written_cases n with ⟨hlt, -⟩ | ⟨-, coefficient, hbound, hparse⟩ | ⟨-, hparse⟩
  · rw [readAmount_of_lt hlt] at h
    cases h
    omega
  · rw [readAmount, hparse, Option.bind_some, mul_one_toInt (by omega)] at h
    simp [PyDecimal.toInt] at h
    omega
  · simp [readAmount, hparse] at h

theorem amountOf_numberOf {label : String} (hlabel : labelMultiplier label = 1) (n : ℕ) :
    amountOf label (numberOf n) = .ok (readAmount n) := by
  have hfinite : ∀ coefficient exponent,
      parseDecimalNumber (String.ofList (written n)) = some (.finite false coefficient exponent) →
      amountOf label (numberOf n) = .ok (readAmount n) := by
    intro coefficient exponent hparse
    simp [amountOf, numberOf, readAmount, hparse, unitMultiplier, hlabel, pyInt, PyDecimal.mul,
      PyDecimal.toInt, Except.map]
  rcases parse_written_cases n with ⟨-, hparse⟩ | ⟨-, coefficient, -, hparse⟩ | ⟨-, hparse⟩
  · exact hfinite _ _ hparse
  · exact hfinite _ _ hparse
  · simp [amountOf, numberOf, readAmount, hparse]

/-! ### The words of a label -/

/-- The currencies of the labels. -/
inductive LabelCurrency where | idr | usd | sgd
  deriving DecidableEq

/-- The ISO code. -/
def LabelCurrency.code : LabelCurrency → String
  | .idr => "IDR"
  | .usd => "USD"
  | .sgd => "SGD"

/-- The words of `period_suffix`. -/
def periodWords : Option PrismaSalaryPeriod → List (List Char)
  | some .monthly => [['/'], ['m', 'o', 'n', 't', 'h']]
  | some .yearly => [['/'], ['y', 'e', 'a', 'r']]
  | none => []

/-- The words of the amounts. -/
def amountWords (currency : LabelCurrency) : List ℕ → List (List Char)
  | [single] => [currency.code.toList, written single]
  | [low, high] =>
    if currency = .idr then [currency.code.toList, written low, ['-'], written high]
    else [currency.code.toList, written low, ['-'], currency.code.toList, written high]
  | _ => []

/-- The words of a label. -/
def labelWords (amounts : List ℕ) (currency : LabelCurrency) (period : Option PrismaSalaryPeriod) :
    List (List Char) :=
  amountWords currency amounts ++ periodWords period

/-- The text of a label. -/
def labelText (amounts : List ℕ) (currency : LabelCurrency) (period : Option PrismaSalaryPeriod) :
    String :=
  String.ofList (spaced (labelWords amounts currency period))

/-- The amounts of a salary: the two bounds, or the only one. -/
def amountsOf : Option ℕ → Option ℕ → List ℕ
  | some low, some high => if low = high then [low] else [low, high]
  | minAmount, maxAmount => minAmount.toList ++ maxAmount.toList

theorem mem_amountsOf {minAmount maxAmount : Option ℕ} {amount : ℕ}
    (h : amount ∈ amountsOf minAmount maxAmount) :
    minAmount = some amount ∨ maxAmount = some amount := by
  rcases minAmount with - | low <;> rcases maxAmount with - | high
  · cases h
  · exact .inr (congrArg some (List.mem_singleton.mp h).symm)
  · exact .inl (congrArg some (List.mem_singleton.mp h).symm)
  · by_cases heq : low = high
    · simp only [amountsOf, if_pos heq, List.mem_singleton] at h
      exact .inl (congrArg some h.symm)
    · simp only [amountsOf, if_neg heq, List.mem_pair] at h
      rcases h with rfl | rfl
      · exact .inl rfl
      · exact .inr rfl

/-- A salary with at least one amount. -/
structure KnownSalary where
  minAmount : Option ℕ
  maxAmount : Option ℕ
  currency : LabelCurrency
  period : Option PrismaSalaryPeriod
  known : minAmount ≠ none ∨ maxAmount ≠ none
  ordered : ∀ low ∈ minAmount, ∀ high ∈ maxAmount, low ≤ high

namespace KnownSalary

variable (salary : KnownSalary)

/-- The amounts: one, or two in order. -/
def amounts : List ℕ := amountsOf salary.minAmount salary.maxAmount

/-- The label the builder generates. -/
def label : Option String :=
  buildSalaryDisplayFallback (salary.minAmount.map Nat.cast) (salary.maxAmount.map Nat.cast)
    salary.currency.code salary.period

theorem amounts_cases : (∃ single, salary.amounts = [single]) ∨
    ∃ low high, low < high ∧ salary.amounts = [low, high] := by
  obtain ⟨minAmount, maxAmount, -, -, known, ordered⟩ := salary
  rcases minAmount with - | low <;> rcases maxAmount with - | high
  · simp at known
  · exact .inl ⟨high, rfl⟩
  · exact .inl ⟨low, rfl⟩
  · have hle := ordered low rfl high rfl
    by_cases heq : low = high
    · subst heq
      exact .inl ⟨low, by simp [amounts, amountsOf]⟩
    · exact .inr ⟨low, high, by omega, by simp [amounts, amountsOf, heq]⟩

theorem withPeriod_eq {amount : String} (words : List (List Char)) (hne : words ≠ [])
    (h : amount.toList = spaced words) (period : Option PrismaSalaryPeriod) :
    (if periodSuffix period = "" then amount else amount ++ " " ++ periodSuffix period)
      = String.ofList (spaced (words ++ periodWords period)) := by
  refine String.toList_injective ?_
  rcases period with - | (- | -)
  · simp [periodSuffix, periodWords, h]
  · rw [spaced_append hne (by simp [periodWords])]
    simp [periodSuffix, periodWords, h, spaced]
  · rw [spaced_append hne (by simp [periodWords])]
    simp [periodSuffix, periodWords, h, spaced]

/-- The label is its words, separated by spaces. -/
theorem label_eq :
    salary.label = some (labelText salary.amounts salary.currency salary.period) := by
  obtain ⟨minAmount, maxAmount, currency, period, known, ordered⟩ := salary
  have hsingle : ∀ single : ℕ, (formatSalaryAmount single currency.code).toList
      = spaced [currency.code.toList, written single] := by
    intro single
    simp [formatSalaryAmount, spaced, written]
  rcases minAmount with - | low <;> rcases maxAmount with - | high
  · simp at known
  · exact congrArg some (withPeriod_eq _ (List.cons_ne_nil _ _) (hsingle high) period)
  · exact congrArg some (withPeriod_eq _ (List.cons_ne_nil _ _) (hsingle low) period)
  · have hle := ordered low rfl high rfl
    have hnot : ¬ (low : ℤ) > high := by omega
    by_cases heq : low = high
    · subst heq
      simp only [label, amounts, amountsOf, buildSalaryDisplayFallback, Option.map_some, if_true,
        if_neg hnot]
      exact congrArg some (withPeriod_eq _ (List.cons_ne_nil _ _) (hsingle low) period)
    · have hne : (low : ℤ) ≠ high := by omega
      by_cases hidr : currency = .idr
      · subst hidr
        simp only [label, amounts, amountsOf, buildSalaryDisplayFallback, Option.map_some,
          if_neg hnot, if_neg heq, if_neg hne, labelText, labelWords, amountWords, if_true]
        refine congrArg some (withPeriod_eq _ (List.cons_ne_nil _ _) ?_ period)
        simp [spaced, written, LabelCurrency.code]
      · have hcode : currency.code ≠ "IDR" := by
          cases currency <;> simp_all [LabelCurrency.code]
        simp only [label, amounts, amountsOf, buildSalaryDisplayFallback, Option.map_some,
          if_neg hnot, if_neg heq, if_neg hne, if_neg hcode, labelText, labelWords, amountWords,
          if_neg hidr]
        refine congrArg some (withPeriod_eq _ (List.cons_ne_nil _ _) ?_ period)
        simp [spaced, written, formatSalaryAmount]

end KnownSalary

/-! ### What is found in a label -/

theorem matchNumber_eq_none {c : Char} (h : isDecimalDigit c = false) (rest : List Char) :
    matchNumber (c :: rest) = none := by
  simp [matchNumber, PyDecimal.splitDigits, h]

/-- A word without digits is passed over. -/
theorem scan_word {word : List Char} (h : ∀ c ∈ word, isDecimalDigit c = false)
    (next : List Char) (words : List (List Char)) :
    scan matchNumber (spaced (word :: next :: words)) = scan matchNumber (spaced (next :: words)) := by
  have hsplit : spaced (word :: next :: words) = (word ++ [' ']) ++ spaced (next :: words) := by
    simp [spaced]
  rw [hsplit, scan_append_of_none fun c hc rest => matchNumber_eq_none ?_ rest]
  rcases List.mem_append.mp hc with hmem | hmem
  · exact h c hmem
  · rw [List.mem_singleton.mp hmem]
    rfl

theorem scan_last {word : List Char} (h : ∀ c ∈ word, isDecimalDigit c = false) :
    scan matchNumber (spaced [word]) = [] := by
  have hnone := scan_append_of_none (fun c hc rest => matchNumber_eq_none (h c hc) rest) []
  simpa [spaced] using hnone

theorem written_ne_nil (n : ℕ) : written n ≠ [] := by
  obtain ⟨head, groups, hw⟩ := exists_writtenAs n
  simp [hw.eq, hw.head_ne]

/-- A dash or a slash starts no unit. -/
theorem matchUnit_mark {c : Char} (h : c = '-' ∨ c = '/') (rest : List Char) :
    matchUnit (c :: rest) = none := by
  rw [matchUnit, List.findSome?_eq_none_iff]
  intro unit hunit
  have hfails : ((unit.toList.zip ((c :: rest).take unit.toList.length)).all fun pair =>
      sameLetter pair.1 pair.2) = false := by
    simp only [numberUnits, List.mem_cons, List.not_mem_nil, or_false] at hunit
    rcases h with rfl | rfl <;>
      rcases hunit with rfl | rfl | rfl | rfl | rfl | rfl | rfl <;> rfl
  simp [hfails]

/-- An amount before a dash or a slash is found. -/
theorem scan_amount (n : ℕ) {c : Char} (h : c = '-' ∨ c = '/') (words : List (List Char)) :
    scan matchNumber (spaced (written n :: [c] :: words))
      = numberOf n :: scan matchNumber (spaced ([c] :: words)) := by
  obtain ⟨rest, hrest⟩ : ∃ rest, spaced ([c] :: words) = c :: rest := by
    rcases words with - | ⟨next, words⟩
    · exact ⟨[], rfl⟩
    · exact ⟨_, rfl⟩
  have hspace : isSpace c = false := by rcases h with rfl | rfl <;> rfl
  have hmatch := matchNumber_written n (' ' :: c :: rest) (fun d hd => by cases hd; rfl)
    (by simpa [hspace, show isSpace ' ' = true from rfl] using matchUnit_mark h rest)
  have hlength : ((' ' :: c :: rest).takeWhile isSpace).length = 1 := by
    simp [hspace, show isSpace ' ' = true from rfl]
  rw [hlength] at hmatch
  rw [show spaced (written n :: [c] :: words) = written n ++ ' ' :: spaced ([c] :: words) from rfl,
    hrest, scan_of_match (by omega) (by simp [written_ne_nil]) hmatch]
  simp [List.drop_append, List.drop_eq_nil_of_le]

/-- An amount at the end is found. -/
theorem scan_last_amount (n : ℕ) : scan matchNumber (spaced [written n]) = [numberOf n] := by
  have hmatch := matchNumber_written n [] nofun rfl
  have hpos := List.length_pos_iff.mpr (written_ne_nil n)
  simp only [List.append_nil, List.takeWhile_nil, List.length_nil, Nat.add_zero] at hmatch
  rw [spaced, scan_of_match hpos (written_ne_nil n) hmatch, List.drop_length, scan_nil]

/-- An amount before the period is the last one found. -/
theorem scan_period (n : ℕ) (period : Option PrismaSalaryPeriod) :
    scan matchNumber (spaced (written n :: periodWords period)) = [numberOf n] := by
  rcases period with - | (- | -)
  · exact scan_last_amount n
  all_goals
    rw [periodWords, scan_amount n (.inr rfl), scan_word (forall_mem_of_all (by decide)),
      scan_last (forall_mem_of_all (by decide))]

theorem code_no_digit (currency : LabelCurrency) :
    ∀ c ∈ currency.code.toList, isDecimalDigit c = false := by
  cases currency <;> exact forall_mem_of_all (by decide)

/-- The amounts of a label are found, in order. -/
theorem KnownSalary.findNumbers_label (salary : KnownSalary) :
    findNumbers (labelText salary.amounts salary.currency salary.period)
      = salary.amounts.map numberOf := by
  have hcode := code_no_digit salary.currency
  rw [findNumbers, labelText, String.toList_ofList]
  rcases salary.amounts_cases with ⟨single, hamounts⟩ | ⟨low, high, -, hamounts⟩
  · rw [hamounts]
    exact (scan_word hcode _ _).trans (scan_period single _)
  · rw [hamounts, labelWords, amountWords]
    split
    · exact ((scan_word hcode _ _).trans (scan_amount low (.inl rfl) _)).trans
        (congrArg (numberOf low :: ·)
          ((scan_word (forall_mem_of_all (by decide)) _ _).trans (scan_period high _)))
    · exact ((scan_word hcode _ _).trans (scan_amount low (.inl rfl) _)).trans
        (congrArg (numberOf low :: ·) ((scan_word (forall_mem_of_all (by decide)) _ _).trans
          ((scan_word hcode _ _).trans (scan_period high _))))

/-! ### What is looked up in a label -/

theorem mem_labelWords {amounts : List ℕ} {currency : LabelCurrency}
    {period : Option PrismaSalaryPeriod} {word : List Char}
    (h : word ∈ labelWords amounts currency period) : word = currency.code.toList ∨
      (∃ n, word = written n) ∨ word = ['-'] ∨ word ∈ periodWords period := by
  rcases List.mem_append.mp h with hmem | hmem
  · unfold amountWords at hmem
    split at hmem
    · simp only [List.mem_cons, List.not_mem_nil, or_false] at hmem
      rcases hmem with hcode | hsingle
      · exact .inl hcode
      · exact .inr (.inl ⟨_, hsingle⟩)
    · split at hmem
      · simp only [List.mem_cons, List.not_mem_nil, or_false] at hmem
        rcases hmem with hcode | hlow | hdash | hhigh
        · exact .inl hcode
        · exact .inr (.inl ⟨_, hlow⟩)
        · exact .inr (.inr (.inl hdash))
        · exact .inr (.inl ⟨_, hhigh⟩)
      · simp only [List.mem_cons, List.not_mem_nil, or_false] at hmem
        rcases hmem with hcode | hlow | hdash | hcode | hhigh
        · exact .inl hcode
        · exact .inr (.inl ⟨_, hlow⟩)
        · exact .inr (.inr (.inl hdash))
        · exact .inl hcode
        · exact .inr (.inl ⟨_, hhigh⟩)
    · cases hmem
  · exact .inr (.inr (.inr hmem))

/-- The characters of a label. -/
theorem mem_label {amounts : List ℕ} {currency : LabelCurrency} {period : Option PrismaSalaryPeriod}
    {c : Char} (h : c ∈ spaced (labelWords amounts currency period)) :
    c ∈ currency.code.toList ∨ c ∈ (periodWords period).flatten ∨ c ∈ [' ', '-', ','] ∨
      c.isDigit = true := by
  rcases mem_spaced h with rfl | ⟨word, hword, hc⟩
  · simp
  · rcases mem_labelWords hword with hcode | ⟨n, hn⟩ | hdash | hperiod
    · exact .inl (hcode ▸ hc)
    · rw [hn] at hc
      rcases mem_written hc with rfl | hdigit
      · simp
      · exact .inr (.inr (.inr hdigit))
    · rw [hdash] at hc
      rw [List.mem_singleton.mp hc]
      simp
    · exact .inr (.inl (List.mem_flatten.mpr ⟨word, hperiod, hc⟩))

theorem lowerText_ofList (text : List Char) :
    (lowerText (String.ofList text)).toList = text.flatMap lowerChar := by
  simp [lowerText]

theorem lowerChar_of_isDigit {c : Char} (h : c.isDigit = true) : lowerChar c = [c] := by
  have hother : ∀ d : Char, d.isDigit = false → c ≠ d := by
    rintro d hd rfl
    simp [hd] at h
  simp [lowerChar, hother _ (show '\u212a'.isDigit = false from rfl),
    hother _ (show '\u0130'.isDigit = false from rfl), PyDecimal.toLower_of_isDigit h]

theorem isAlpha_of_isDigit {c : Char} (h : c.isDigit = true) : c.isAlpha = false := by
  simp only [Char.isDigit, Bool.and_eq_true, decide_eq_true_eq, ge_iff_le,
    UInt32.le_iff_toNat_le] at h
  have hnine : '9'.val.toNat = 57 := rfl
  have hA : 'A'.val.toNat = 65 := rfl
  have ha : 'a'.val.toNat = 97 := rfl
  simp only [isAlpha_eq, isUpper_eq, isLower_eq, Bool.or_eq_false_iff, Bool.and_eq_false_iff,
    decide_eq_false_iff_not, ge_iff_le, UInt32.le_iff_toNat_le]
  omega

theorem lowerChar_periodWords (period : Option PrismaSalaryPeriod) :
    ∀ c ∈ (periodWords period).flatten, lowerChar c = [c] := by
  rcases period with - | (- | -) <;> exact forall_mem_of_all (by decide)

/-- A letter that neither the currency nor the period has is not in the label. -/
theorem not_mem_lowerText {amounts : List ℕ} {currency : LabelCurrency}
    {period : Option PrismaSalaryPeriod} {c : Char} (halpha : c.isAlpha = true)
    (hcode : c ∉ (lowerText currency.code).toList) (hperiod : c ∉ (periodWords period).flatten) :
    c ∉ (lowerText (String.ofList (spaced (labelWords amounts currency period)))).toList := by
  rw [lowerText_ofList, List.mem_flatMap]
  rintro ⟨d, hd, hc⟩
  rcases mem_label hd with hmem | hmem | hmem | hdigit
  · exact hcode (by simpa [lowerText] using ⟨d, hmem, hc⟩)
  · rw [lowerChar_periodWords period d hmem, List.mem_singleton] at hc
    exact hperiod (hc ▸ hmem)
  · have hmarks : ∀ d ∈ [' ', '-', ','], ∀ c ∈ lowerChar d, c.isAlpha = false := by
      intro d hd
      simp only [List.mem_cons, List.not_mem_nil, or_false] at hd
      rcases hd with rfl | rfl | rfl <;> exact forall_mem_of_all (by decide)
    rw [hmarks d hmem c hc] at halpha
    cases halpha
  · rw [lowerChar_of_isDigit hdigit, List.mem_singleton] at hc
    rw [hc, isAlpha_of_isDigit hdigit] at halpha
    cases halpha

/-- The words of a label are in it, in lower case. -/
theorem isInfix_lowerText {words : List (List Char)} {word : List Char} (h : word ∈ words)
    {token : String} (htoken : token.toList = word.flatMap lowerChar) :
    isInfix token (lowerText (String.ofList (spaced words))) = true := by
  rw [isInfix, decide_eq_true_eq, lowerText_ofList, htoken]
  obtain ⟨front, back, heq⟩ := infix_spaced h
  exact ⟨front.flatMap lowerChar, back.flatMap lowerChar, by simp [← heq]⟩

section Label

variable (amounts : List ℕ) (currency : LabelCurrency) (period : Option PrismaSalaryPeriod)

/-- A token with a letter that neither the currency nor the period has is not found. -/
theorem isInfix_label_eq_false (token : String) (c : Char) (hc : c ∈ token.toList)
    (halpha : c.isAlpha = true) (hcode : c ∉ (lowerText currency.code).toList)
    (hperiod : c ∉ (periodWords period).flatten) :
    isInfix token (lowerText (labelText amounts currency period)) = false :=
  isInfix_eq_false hc (not_mem_lowerText halpha hcode hperiod)

/-- Letters that no currency and no period has. -/
theorem label_lacks {c : Char} (h : c ∈ ['j', 'l', 'b', 'p']) :
    c.isAlpha = true ∧ c ∉ (lowerText currency.code).toList ∧ c ∉ (periodWords period).flatten := by
  have hcode : ∀ currency : LabelCurrency, ∀ c ∈ ['j', 'l', 'b', 'p'],
      c ∉ (lowerText currency.code).toList := by
    rintro (- | - | -) <;> exact forall_mem_of_all (by decide)
  have hperiod : ∀ period, ∀ c ∈ ['j', 'l', 'b', 'p'], c ∉ (periodWords period).flatten := by
    rintro (- | (- | -)) <;> exact forall_mem_of_all (by decide)
  have halpha : ∀ c ∈ ['j', 'l', 'b', 'p'], c.isAlpha = true := forall_mem_of_all (by decide)
  exact ⟨halpha c h, hcode currency c h, hperiod period c h⟩

/-- A token with such a letter is in no label. -/
theorem isInfix_label_of_lacks (token : String) (c : Char) (hc : c ∈ token.toList)
    (h : c ∈ ['j', 'l', 'b', 'p']) :
    isInfix token (lowerText (labelText amounts currency period)) = false :=
  have hlacks := label_lacks currency period h
  isInfix_label_eq_false amounts currency period token c hc hlacks.1 hlacks.2.1 hlacks.2.2

theorem labelMultiplier_label : labelMultiplier (labelText amounts currency period) = 1 := by
  have hlacks := isInfix_label_of_lacks amounts currency period
  simp [labelMultiplier, hlacks "jt" 'j' (by decide) (by decide),
    hlacks "juta" 'j' (by decide) (by decide), hlacks "million" 'l' (by decide) (by decide),
    hlacks "rb" 'b' (by decide) (by decide), hlacks "ribu" 'b' (by decide) (by decide)]

theorem dollar_not_mem_label : '$' ∉ (labelText amounts currency period).toList := by
  have hcode : ∀ currency : LabelCurrency, '$' ∉ currency.code.toList := by
    rintro (- | - | -) <;> decide
  have hperiod : ∀ period, '$' ∉ (periodWords period).flatten := by
    rintro (- | (- | -)) <;> decide
  rw [labelText, String.toList_ofList]
  intro hmem
  rcases mem_label hmem with h | h | h | h
  · exact hcode currency h
  · exact hperiod period h
  · exact absurd h (by decide)
  · exact absurd h (by decide)

/-- The currency of a label is read back. -/
theorem currencyFromLabel_label
    (h : currency.code.toList ∈ labelWords amounts currency period) :
    currencyFromLabel (labelText amounts currency period) = some currency.code := by
  have hlacks := isInfix_label_of_lacks amounts currency period
  have hrp := hlacks "rp" 'p' (by decide) (by decide)
  have hrupiah := hlacks "rupiah" 'p' (by decide) (by decide)
  have hdollar : isInfix "$" (labelText amounts currency period) = false :=
    isInfix_eq_false (show '$' ∈ "$".toList by decide) (dollar_not_mem_label amounts currency period)
  have hperiod : ∀ period, ∀ c ∈ ['i', 'u'], c ∉ (periodWords period).flatten := by
    rintro (- | (- | -)) <;> exact forall_mem_of_all (by decide)
  have habsent := isInfix_label_eq_false amounts currency period
  cases currency with
  | idr =>
    have hidr := isInfix_lowerText h (show "idr".toList = _ by decide)
    simp only [labelText] at hrp ⊢
    simp [currencyFromLabel, hidr, LabelCurrency.code]
  | usd =>
    have husd := isInfix_lowerText h (show "usd".toList = _ by decide)
    have hidr := habsent "idr" 'i' (by decide) (by decide) (by decide)
      (hperiod period 'i' (by decide))
    simp only [labelText] at hrp hrupiah hidr ⊢
    simp [currencyFromLabel, hrp, hidr, hrupiah, husd, LabelCurrency.code]
  | sgd =>
    have hsgd := isInfix_lowerText h (show "sgd".toList = _ by decide)
    have hidr := habsent "idr" 'i' (by decide) (by decide) (by decide)
      (hperiod period 'i' (by decide))
    have husd := habsent "usd" 'u' (by decide) (by decide) (by decide)
      (hperiod period 'u' (by decide))
    simp only [labelText] at hrp hrupiah hidr husd hdollar ⊢
    simp [currencyFromLabel, hrp, hidr, hrupiah, husd, hdollar, hsgd, LabelCurrency.code]

/-- The period of a row as the schema names it. -/
def salaryPeriod : PrismaSalaryPeriod → SalaryPeriod
  | .monthly => .monthly
  | .yearly => .yearly

/-- The period of a label is read back. -/
theorem periodFromLabel_label :
    periodFromLabel (labelText amounts currency period) = period.map salaryPeriod := by
  have hlacks := isInfix_label_of_lacks amounts currency period
  have hcode : ∀ currency : LabelCurrency, ∀ c ∈ ['m', 't', 'y', 'h'],
      c ∉ (lowerText currency.code).toList := by
    rintro (- | - | -) <;> exact forall_mem_of_all (by decide)
  have habsent := isInfix_label_eq_false amounts currency period
  have hbulan := hlacks "/bulan" 'b' (by decide) (by decide)
  have hperBulan := hlacks "per bulan" 'b' (by decide) (by decide)
  have hperHari := hlacks "per hari" 'p' (by decide) (by decide)
  have hperTahun := hlacks "per tahun" 'p' (by decide) (by decide)
  have hjam := hlacks "/jam" 'j' (by decide) (by decide)
  have hperJam := hlacks "per jam" 'j' (by decide) (by decide)
  have hmonthly := hlacks "monthly" 'l' (by decide) (by decide)
  have hyearly := hlacks "yearly" 'l' (by decide) (by decide)
  have hdaily := hlacks "daily" 'l' (by decide) (by decide)
  have hhourly := hlacks "hourly" 'l' (by decide) (by decide)
  rcases period with - | (- | -)
  · have hmonth := habsent "month" 'm' (by decide) (by decide) (hcode _ 'm' (by decide)) (by decide)
    have htahun := habsent "/tahun" 't' (by decide) (by decide) (hcode _ 't' (by decide)) (by decide)
    have hyear := habsent "year" 'y' (by decide) (by decide) (hcode _ 'y' (by decide)) (by decide)
    have hhari := habsent "/hari" 'h' (by decide) (by decide) (hcode _ 'h' (by decide)) (by decide)
    have hday := habsent "day" 'y' (by decide) (by decide) (hcode _ 'y' (by decide)) (by decide)
    have hhour := habsent "hour" 'h' (by decide) (by decide) (hcode _ 'h' (by decide)) (by decide)
    simp [periodFromLabel, hbulan, hperBulan, hmonthly, hmonth, htahun, hperTahun, hyearly, hyear,
      hhari, hperHari, hdaily, hday, hjam, hperJam, hhourly, hhour]
  · have hmonth : isInfix "month" (lowerText (labelText amounts currency (some .monthly))) = true :=
      isInfix_lowerText (List.mem_append_right _
        (show ['m', 'o', 'n', 't', 'h'] ∈ periodWords (some .monthly) by simp [periodWords]))
        (by decide)
    simp [periodFromLabel, hmonth, salaryPeriod]
  · have hmonth := habsent "month" 'm' (by decide) (by decide) (hcode _ 'm' (by decide)) (by decide)
    have hyear : isInfix "year" (lowerText (labelText amounts currency (some .yearly))) = true :=
      isInfix_lowerText (List.mem_append_right _
        (show ['y', 'e', 'a', 'r'] ∈ periodWords (some .yearly) by simp [periodWords]))
        (by decide)
    simp [periodFromLabel, hbulan, hperBulan, hmonthly, hmonth, hyear, salaryPeriod]

end Label

/-! ### The round trip -/

theorem mapM_amountOf {label : String} (hlabel : labelMultiplier label = 1) (amounts : List ℕ) :
    (amounts.map numberOf).mapM (amountOf label) = .ok (amounts.map readAmount) := by
  induction amounts with
  | nil => rfl
  | cons n amounts ih =>
    rw [List.map_cons, List.mapM_cons, amountOf_numberOf hlabel, ih]
    rfl

theorem parseAmounts_eq {label : String} {amounts : List ℕ}
    (hfound : findNumbers label = amounts.map numberOf) (hlabel : labelMultiplier label = 1)
    (hlength : amounts.length ≤ 2) : parseAmounts label = .ok (amounts.filterMap readAmount) := by
  rw [parseAmounts, hfound, List.take_of_length_le (by simpa using hlength), mapM_amountOf hlabel]
  simp [bind, Except.bind, pure, Except.pure, List.filterMap_map]

theorem orderBounds_mem {a b : Option ℤ} {x : ℤ}
    (h : (orderBounds a b).1 = some x ∨ (orderBounds a b).2 = some x) :
    a = some x ∨ b = some x := by
  rcases a with - | m <;> rcases b with - | n
  · simp [orderBounds] at h
  · simpa [orderBounds] using h
  · simpa [orderBounds] using h
  · by_cases hlt : n < m
    · simp [orderBounds, hlt] at h
      tauto
    · simpa [orderBounds, hlt] using h

theorem orderBounds_le (a b : Option ℤ) :
    ∀ low ∈ (orderBounds a b).1, ∀ high ∈ (orderBounds a b).2, low ≤ high := by
  rcases a with - | m <;> rcases b with - | n
  · simp [orderBounds]
  · simp [orderBounds]
  · simp [orderBounds]
  · by_cases hlt : n < m
    · simp [orderBounds, hlt]
      omega
    · simp [orderBounds, hlt]
      omega

theorem checkAmount_ok {field : String} {amount : Option ℤ} (h : ∀ n ∈ amount, 0 ≤ n) :
    checkAmount field amount = .ok (amount.map Int.toNat) := by
  cases amount with
  | none => rfl
  | some n => simp [checkAmount, h n rfl]

theorem checkCurrency_ok {currency : Option String} (h : ∀ s ∈ currency, s.length = 3) :
    ∃ checked, checkCurrency currency = .ok checked ∧ checked.map Subtype.val = currency := by
  cases currency with
  | none => exact ⟨none, rfl, rfl⟩
  | some s => exact ⟨_, dif_pos (h s rfl), rfl⟩

/-- Bounds that are not negative and in order make a salary. -/
theorem buildSalary_ok {minAmount maxAmount : Option ℤ} {currency : Option String}
    (hmin : ∀ n ∈ minAmount, 0 ≤ n) (hmax : ∀ n ∈ maxAmount, 0 ≤ n)
    (hle : ∀ low ∈ minAmount, ∀ high ∈ maxAmount, low ≤ high)
    (hcurrency : ∀ s ∈ currency, s.length = 3) (period : Option SalaryPeriod)
    (display : Option String) :
    ∃ read, buildSalary minAmount maxAmount currency period display = .ok read ∧
      read.minAmount.map Nat.cast = minAmount ∧ read.maxAmount.map Nat.cast = maxAmount ∧
      read.currency.map Subtype.val = currency ∧ read.period = period := by
  have hcast : ∀ amount : Option ℤ, (∀ n ∈ amount, 0 ≤ n) →
      (amount.map Int.toNat).map Nat.cast = amount := by
    rintro (- | n) h
    · rfl
    · have hn := h n rfl
      simp only [Option.map_some, Option.some.injEq]
      omega
  have horder : ∀ low ∈ minAmount.map Int.toNat, ∀ high ∈ maxAmount.map Int.toNat, low ≤ high := by
    intro low hlow high hhigh
    obtain ⟨l, hl, rfl⟩ := Option.map_eq_some_iff.mp hlow
    obtain ⟨m, hm, rfl⟩ := Option.map_eq_some_iff.mp hhigh
    exact Int.toNat_le_toNat (hle l hl m hm)
  obtain ⟨checked, hchecked, hcode⟩ := checkCurrency_ok hcurrency
  refine ⟨⟨minAmount.map Int.toNat, maxAmount.map Int.toNat, checked, period, display, horder⟩,
    ?_, hcast _ hmin, hcast _ hmax, hcode, rfl⟩
  simp only [buildSalary, checkAmount_ok hmin, checkAmount_ok hmax, hchecked]
  exact dif_pos horder

namespace KnownSalary

variable (salary : KnownSalary)

/-- The bounds that are read from the label. -/
def readBounds : Option ℤ × Option ℤ :=
  orderBounds (salary.amounts.filterMap readAmount)[0]? (salary.amounts.filterMap readAmount)[1]?

theorem isWord_labelWords : ∀ word ∈ labelWords salary.amounts salary.currency salary.period,
    IsWord word := by
  intro word hword
  have hcode : ∀ currency : LabelCurrency, IsWord currency.code.toList := by
    rintro (- | - | -) <;> exact ⟨by decide, forall_mem_of_all (by decide)⟩
  have hperiod : ∀ period, ∀ word ∈ periodWords period, IsWord word := by
    rintro (- | (- | -)) word hmem
    · cases hmem
    · rcases List.mem_pair.mp hmem with rfl | rfl <;> exact ⟨by decide, forall_mem_of_all (by decide)⟩
    · rcases List.mem_pair.mp hmem with rfl | rfl <;> exact ⟨by decide, forall_mem_of_all (by decide)⟩
  rcases mem_labelWords hword with hmem | ⟨n, hn⟩ | hdash | hmem
  · exact hmem ▸ hcode salary.currency
  · rw [hn]
    refine ⟨written_ne_nil n, fun c hc => ?_⟩
    rcases mem_written hc with rfl | hdigit
    · rfl
    · exact PyDecimal.isSpace_of_isDigit hdigit
  · rw [hdash]
    exact ⟨by decide, forall_mem_of_all (by decide)⟩
  · exact hperiod _ word hmem

theorem code_mem_labelWords :
    salary.currency.code.toList ∈ labelWords salary.amounts salary.currency salary.period := by
  rcases salary.amounts_cases with ⟨single, h⟩ | ⟨low, high, -, h⟩
  · simp [h, labelWords, amountWords]
  · by_cases hidr : salary.currency = .idr
    · simp [h, labelWords, amountWords, hidr]
    · simp [h, labelWords, amountWords, hidr]

theorem cleanText_label :
    cleanText (labelText salary.amounts salary.currency salary.period)
      = some (labelText salary.amounts salary.currency salary.period) :=
  cleanText_spaced (List.ne_nil_of_mem salary.code_mem_labelWords) salary.isWord_labelWords

/-- What is parsed from the label. -/
theorem parseSalaryLabel_label :
    parseSalaryLabel (some (labelText salary.amounts salary.currency salary.period)) = .ok
      { minAmount := (salary.amounts.filterMap readAmount)[0]?
        maxAmount := (salary.amounts.filterMap readAmount)[1]?
        currency := some salary.currency.code
        period := salary.period.map salaryPeriod } := by
  have hlength : salary.amounts.length ≤ 2 := by
    rcases salary.amounts_cases with ⟨single, h⟩ | ⟨low, high, -, h⟩ <;> simp [h]
  have hamounts := parseAmounts_eq salary.findNumbers_label
    (labelMultiplier_label salary.amounts salary.currency salary.period) hlength
  have hcurrency := currencyFromLabel_label salary.amounts salary.currency salary.period
    salary.code_mem_labelWords
  have hperiod := periodFromLabel_label salary.amounts salary.currency salary.period
  generalize labelText salary.amounts salary.currency salary.period = label at *
  rw [parseSalaryLabel, hamounts, hcurrency, hperiod]
  rfl

/-- What is read from a label is not negative and below a thousand. -/
theorem readBounds_lt {m : ℤ} (h : salary.readBounds.1 = some m ∨ salary.readBounds.2 = some m) :
    0 ≤ m ∧ m < 1000 := by
  have hread : ∀ index : ℕ, (salary.amounts.filterMap readAmount)[index]? = some m →
      0 ≤ m ∧ m < 1000 := by
    intro index hindex
    obtain ⟨n, -, hn⟩ := List.mem_filterMap.mp (List.mem_of_getElem? hindex)
    exact readAmount_lt hn
  rcases orderBounds_mem h with hfirst | hsecond
  · exact hread 0 hfirst
  · exact hread 1 hsecond

/-- What the label is read as. -/
theorem normalizeSalary_label (text : UnicodeText) : ∃ result read,
    normalizeSalary text
      { label := .str (labelText salary.amounts salary.currency salary.period) } = .ok result ∧
    result.salary = some read ∧ read.minAmount.map Nat.cast = salary.readBounds.1 ∧
    read.maxAmount.map Nat.cast = salary.readBounds.2 ∧
    read.currency.map Subtype.val = some salary.currency.code ∧
    read.period = salary.period.map salaryPeriod := by
  have hcode : ∀ currency : LabelCurrency, ∀ s ∈ some currency.code, s.length = 3 := by
    rintro (- | - | -) s ⟨⟩ <;> rfl
  obtain ⟨read, hbuild, hmin, hmax, hcurrency, hperiod⟩ := buildSalary_ok
    (fun n hn => (salary.readBounds_lt (.inl hn)).1) (fun n hn => (salary.readBounds_lt (.inr hn)).1)
    (orderBounds_le _ _) (hcode salary.currency) (salary.period.map salaryPeriod)
    (some (labelText salary.amounts salary.currency salary.period))
  refine ⟨⟨some read, some (labelText salary.amounts salary.currency salary.period)⟩, read, ?_, rfl,
    hmin, hmax, hcurrency, hperiod⟩
  have hclean := salary.cleanText_label
  simp only [readBounds] at hbuild
  have hparse := salary.parseSalaryLabel_label
  generalize labelText salary.amounts salary.currency salary.period = label at *
  simp only [normalizeSalary, optionalCleanText, hclean, hparse, optionalAmount, normalizeCurrency,
    normalizePeriod, Json.ofOption]
  simp only [bind, Except.bind, pure, Except.pure, Option.none_or, Option.or_none,
    Option.isNone_some, Bool.and_false, Bool.false_and, Bool.false_eq_true, if_false, hbuild]

/-- The salary is read back from its label. -/
structure ReadBack (read : SalarySchema) : Prop where
  amounts : amountsOf read.minAmount read.maxAmount = salary.amounts
  currency : read.currency.map Subtype.val = some salary.currency.code
  period : read.period = salary.period.map salaryPeriod

/-- Parsing the label the builder generates gives the salary back. -/
def RoundTrips (text : UnicodeText) : Prop :=
  ∃ label result read, salary.label = some label ∧
    normalizeSalary text { label := .str label } = .ok result ∧ result.salary = some read ∧
    salary.ReadBack read

/-- BUG: the reader takes the commas of the builder for decimal points. A salary comes back from its
    label exactly when all its amounts are below a thousand. -/
theorem roundTrips_iff (text : UnicodeText) :
    salary.RoundTrips text ↔ ∀ amount ∈ salary.amounts, amount < 1000 := by
  obtain ⟨result, read, hresult, hread, hmin, hmax, hcurrency, hperiod⟩ :=
    salary.normalizeSalary_label text
  constructor
  · rintro ⟨label, result', read', hlabel, hresult', hread', hback⟩ amount hamount
    rw [salary.label_eq] at hlabel
    cases hlabel
    rw [hresult] at hresult'
    cases hresult'
    rw [hread] at hread'
    cases hread'
    rw [← hback.amounts] at hamount
    have hbound : read.minAmount = some amount ∨ read.maxAmount = some amount :=
      mem_amountsOf hamount
    have hlt : (0 : ℤ) ≤ amount ∧ (amount : ℤ) < 1000 := by
      refine salary.readBounds_lt ?_
      rw [← hmin, ← hmax]
      rcases hbound with h | h
      · exact .inl (by simp [h])
      · exact .inr (by simp [h])
    omega
  · intro hlt
    refine ⟨_, result, read, salary.label_eq, hresult, hread, ?_, hcurrency, hperiod⟩
    have hcast : ∀ (amount : Option ℕ) (n : ℕ), amount.map (Nat.cast : ℕ → ℤ) = some (n : ℤ) →
        amount = some n := by
      rintro (- | m) n h
      · cases h
      · have hmn : (m : ℤ) = n := Option.some.inj h
        exact congrArg some (by omega)
    rcases salary.amounts_cases with ⟨single, hsingle⟩ | ⟨low, high, hle, hpair⟩
    · have hone : salary.readBounds = (some (single : ℤ), none) := by
        have hread := readAmount_of_lt (hlt single (by simp [hsingle]))
        simp [readBounds, hsingle, hread, orderBounds]
      rw [hone] at hmin hmax
      rw [hcast _ _ hmin, Option.map_eq_none_iff.mp hmax, hsingle]
      rfl
    · have htwo : salary.readBounds = (some (low : ℤ), some (high : ℤ)) := by
        have hlow := readAmount_of_lt (hlt low (by simp [hpair]))
        have hhigh := readAmount_of_lt (hlt high (by simp [hpair]))
        have horder : ¬ (high : ℤ) < low := by omega
        simp [readBounds, hpair, hlow, hhigh, orderBounds, horder]
      rw [htwo] at hmin hmax
      rw [hcast _ _ hmin, hcast _ _ hmax, hpair, amountsOf, if_neg hle.ne]

/-- Three million rupiah a month. -/
def threeMillion : KnownSalary where
  minAmount := some 3000000
  maxAmount := none
  currency := .idr
  period := some .monthly
  known := .inl nofun
  ordered := nofun

/-- The Unicode tables on ASCII texts. -/
def asciiText : UnicodeText where
  upper s := String.ofList (s.toList.map Char.toUpper)
  isAlpha s := !s.toList.isEmpty && s.toList.all Char.isAlpha

/-- The amount of `IDR 3,000,000 / month` is lost. -/
theorem not_roundTrips_threeMillion : ¬ threeMillion.RoundTrips asciiText := by
  rintro ⟨label, result, read, hlabel, hresult, hread, hback⟩
  have hgenerated : threeMillion.label = some "IDR 3,000,000 / month" := by decide +kernel
  have hlost : (normalizeSalary asciiText { label := .str "IDR 3,000,000 / month" }).toOption.bind
      (fun r => r.salary.map fun s => amountsOf s.minAmount s.maxAmount) = some [] := by
    decide +kernel
  rw [hgenerated] at hlabel
  cases hlabel
  rw [hresult] at hlost
  simp only [Except.toOption, Option.bind_some, hread, Option.map_some, hback.amounts] at hlost
  cases hlost

end KnownSalary

end Bisakerja
