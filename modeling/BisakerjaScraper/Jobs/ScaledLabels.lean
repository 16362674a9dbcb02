import BisakerjaScraper.Jobs.SalaryUnits
import Mathlib.Tactic.Ring

/-! Salary labels that are read as they are meant.

    The reader takes the first two numbers it finds for the amounts, whatever they are, and looks
    for letters behind a number, not for words. An amount without a unit gets the unit that is
    anywhere in the label, even if it is a full amount, and the two single letters are never handed
    on. -/

namespace Bisakerja
open Schemes PyDecimal

/-! ### Numbers around the amounts -/

theorem splitGroups_eq (text : List Char) :
    (splitGroups text).1 ++ (splitGroups text).2 = text := by
  induction text using splitGroups.induct with
  | case1 mark a b c rest hgroup ih =>
    rw [splitGroups, if_pos hgroup]
    simp [ih]
  | case2 mark a b c rest hgroup => rw [splitGroups, if_neg hgroup, List.nil_append]
  | case3 text hshort =>
    rw [splitGroups]
    · rfl
    · exact hshort

theorem splitTail_eq (text : List Char) : (splitTail text).1 ++ (splitTail text).2 = text := by
  unfold splitTail
  split
  · split
    · simp [splitDigits, List.takeWhile_append_dropWhile]
    · rfl
  · rfl

/-- A match is no longer than the text. -/
theorem length_matchNumber {text : List Char} {found : NumberMatch} {length : ℕ}
    (h : matchNumber text = some (found, length)) : length ≤ text.length := by
  unfold matchNumber at h
  dsimp only at h
  split at h
  · cases h
  · have hlength := congrArg Prod.snd (Option.some.inj h)
    dsimp only at hlength
    have hdigits := congrArg List.length (@List.takeWhile_append_dropWhile _ isDecimalDigit text)
    rw [← hlength]
    simp only [splitDigits]
    generalize text.dropWhile isDecimalDigit = rest at hdigits ⊢
    have hgroups := congrArg List.length (splitGroups_eq rest)
    generalize (splitGroups rest).2 = left at hgroups ⊢
    have htail := congrArg List.length (splitTail_eq left)
    generalize (splitTail left).2 = behind at htail ⊢
    have hspaces := congrArg List.length (@List.takeWhile_append_dropWhile _ isSpace behind)
    have hunit : ((matchUnit (behind.dropWhile isSpace)).getD []).length
        ≤ (behind.dropWhile isSpace).length := by
      cases hmatch : matchUnit (behind.dropWhile isSpace) with
      | none => exact Nat.zero_le _
      | some taken =>
        have htaken := congrArg List.length (matchUnit_some hmatch).1
        rw [List.length_take] at htaken
        rw [Option.getD_some]
        omega
    simp only [List.length_append] at hdigits hgroups htail hspaces
    omega

/-- A number stands in front of what is left of the label there. -/
theorem place_of_mem_scan {n : ℕ} {text : List Char} {found : ℕ × NumberMatch}
    (h : found ∈ scan (placedNumber n) text) : n < found.1 ∧ found.1 ≤ text.length + n := by
  obtain ⟨back, length, hsuffix, hmatch⟩ := exists_match_of_mem_scanFrom h
  unfold placedNumber at hmatch
  obtain ⟨⟨number, length'⟩, hnumber, hfound⟩ := Option.map_eq_some_iff.mp hmatch
  have hplace : back.length + n = found.1 := congrArg (fun p => p.1.1) hfound
  have hle := hsuffix.length_le
  have hpos : 0 < back.length := by
    rw [List.length_pos_iff]
    rintro rfl
    cases hnumber
  omega

/-- The numbers in words that stand apart are found as in the words alone. -/
theorem scan_words (n : ℕ) {words back : List Char} (hwords : StandsApart words)
    (hback : ∀ c ∈ back.head?, isDecimalDigit c = true) :
    scan (placedNumber n) (words ++ back)
      = scan (placedNumber (back.length + n)) words ++ scan (placedNumber n) back := by
  refine scan_append_of_apart ?_ ?_
  · intro text found length hmatch
    obtain ⟨⟨number, length'⟩, hnumber, hfound⟩ := Option.map_eq_some_iff.mp hmatch
    obtain rfl : length' = length := congrArg Prod.snd hfound
    exact length_matchNumber hnumber
  · intro text hne hsuffix
    rw [placedNumber, placedNumber, matchNumber_append (hwords.suffix hsuffix hne) hne hback,
      List.length_append, Nat.add_assoc]

/-- There are no numbers in a text without digits, and only there. -/
theorem scan_eq_nil_iff (n : ℕ) (text : List Char) :
    scan (placedNumber n) text = [] ↔ ∀ c ∈ text, isDecimalDigit c = false := by
  have hskip : ∀ {c}, isDecimalDigit c = false → ∀ rest, placedNumber n (c :: rest) = none := by
    intro c hc rest
    rw [placedNumber, matchNumber_of_not_digit hc]
    rfl
  constructor
  · intro h
    induction text with
    | nil => simp
    | cons c rest ih =>
      by_cases hc : isDecimalDigit c = true
      · exfalso
        have hsome : ∃ found, placedNumber n (c :: rest) = some found := by
          simp [placedNumber, matchNumber, splitDigits, hc]
        obtain ⟨found, hfound⟩ := hsome
        rw [scan, scanFrom, hfound] at h
        cases h
      · have hc : isDecimalDigit c = false := by simpa using hc
        have hrest : scan (placedNumber n) rest = [] := by
          have hpass := @scan_append_of_none _ _ (placedNumber n) [c] (fun d hd => by
            rw [List.mem_singleton.mp hd]
            exact hskip hc) rest
          rwa [List.singleton_append, h, eq_comm] at hpass
        exact List.forall_mem_cons.mpr ⟨hc, ih hrest⟩
  · intro h
    have hnone := @scan_append_of_none _ _ (placedNumber n) text (fun c hc => hskip (h c hc)) []
    rwa [List.append_nil] at hnone

/-! ### Labels -/

/-- What follows the first amount. -/
def afterFirst (second : Option (List Char × Amount)) (back : List Char) : List Char :=
  match second with
  | none => back
  | some (between, amount) => between ++ (amount.text ++ back)

/-- A label with one or two amounts among other words; numbers in these stand apart from the
    amounts. -/
structure SalaryText where
  front : List Char
  first : Amount
  second : Option (List Char × Amount)
  back : List Char
  front_apart : StandsApart front
  first_ends : first.unit = none → EndsBefore (afterFirst second back)
  between_apart : ∀ p ∈ second, StandsApart p.1
  second_ends : ∀ p ∈ second, p.2.unit = none → EndsBefore back

/-- The reader multiplies an amount as it is meant: it makes a number of the figure, and for a
    figure of three decimals at most and below `10 ^ 22` the powers of ten agree, or the amount is
    below one either way; a longer figure keeps its whole part when it is cut to three decimals and
    its product is rounded. -/
def Amount.Kept (amount : Amount) (label : String) (rest : List Char) (other : Option Amount) :
    Prop :=
  amount.figure.Readable ∧
    if amount.figure.excess = [] ∧ amount.figure.coefficient < 10 ^ 22 then
      amount.usedMultiplier label rest * 10 ^ amount.figure.decimals.length
          = amount.multiplier other * 10 ^ amount.figure.readDecimals ∨
        (amount.figure.coefficient * amount.multiplier other
            < 10 ^ amount.figure.decimals.length ∧
          amount.figure.coefficient * amount.usedMultiplier label rest
            < 10 ^ amount.figure.readDecimals)
    else
      ((PyDecimal.finite false amount.figure.seen.coefficient
        (-amount.figure.seen.readDecimals)).mul (amount.usedMultiplier label rest)).toInt
          = some (amount.value other)

/-- Whole parts of a number times powers of ten agree when the powers do, or when the number is
    below one either way. -/
theorem whole_eq_iff (n a b c d : ℕ) :
    n * 10 ^ a / 10 ^ b = n * 10 ^ c / 10 ^ d ↔
      10 ^ a * 10 ^ d = 10 ^ c * 10 ^ b ∨ (n * 10 ^ c < 10 ^ d ∧ n * 10 ^ a < 10 ^ b) := by
  have hpos : ∀ k : ℕ, 0 < 10 ^ k := fun k => Nat.pow_pos (by decide)
  have hlarger : ∀ a b c d : ℕ, a + d < c + b → n * 10 ^ a / 10 ^ b = n * 10 ^ c / 10 ^ d →
      n * 10 ^ c / 10 ^ d = 0 := by
    intro a b c d hlt heq
    by_contra hne
    have hfloor := Nat.div_mul_le_self (n * 10 ^ a) (10 ^ b)
    rw [heq] at hfloor
    have hten : n * 10 ^ c / 10 ^ d * 10 ≤ n * 10 ^ c / 10 ^ d := by
      rw [Nat.le_div_iff_mul_le (hpos d)]
      refine Nat.le_of_mul_le_mul_right ?_ (hpos b)
      calc n * 10 ^ c / 10 ^ d * 10 * 10 ^ d * 10 ^ b
          = n * 10 ^ c / 10 ^ d * 10 ^ b * 10 ^ (d + 1) := by ring
        _ ≤ n * 10 ^ a * 10 ^ (d + 1) := Nat.mul_le_mul_right _ hfloor
        _ = n * 10 ^ (a + d + 1) := by ring
        _ ≤ n * 10 ^ (c + b) := Nat.mul_le_mul_left _ (Nat.pow_le_pow_right (by decide) hlt)
        _ = n * 10 ^ c * 10 ^ b := by ring
    generalize n * 10 ^ c / 10 ^ d = whole at hne hten
    omega
  have hsmall : ∀ k l : ℕ, n * 10 ^ k / 10 ^ l = 0 ↔ n * 10 ^ k < 10 ^ l := fun k l =>
    Nat.div_eq_zero_iff_lt (hpos l)
  constructor
  · intro heq
    rcases Nat.lt_trichotomy (a + d) (c + b) with hlt | hsame | hlt
    · have hzero := hlarger a b c d hlt heq
      exact .inr ⟨(hsmall c d).mp hzero, (hsmall a b).mp (heq.trans hzero)⟩
    · left
      rw [← Nat.pow_add, ← Nat.pow_add, hsame]
    · have hzero := hlarger c d a b hlt heq.symm
      exact .inr ⟨(hsmall c d).mp (heq.symm.trans hzero), (hsmall a b).mp hzero⟩
  · rintro (heq | ⟨hmeant, hread⟩)
    · calc n * 10 ^ a / 10 ^ b = n * 10 ^ a * 10 ^ d / (10 ^ b * 10 ^ d) :=
            (Nat.mul_div_mul_right _ _ (hpos d)).symm
        _ = n * 10 ^ c * 10 ^ b / (10 ^ d * 10 ^ b) := by
            rw [Nat.mul_assoc, heq, Nat.mul_assoc, Nat.mul_comm (10 ^ b)]
        _ = n * 10 ^ c / 10 ^ d := Nat.mul_div_mul_right _ _ (hpos b)
    · rw [(hsmall a b).mpr hread, (hsmall c d).mpr hmeant]

theorem UnitWord.multiplier_pow (unit : UnitWord) : ∃ e ≤ 6, unit.multiplier = 10 ^ e := by
  unfold multiplier
  split
  · exact ⟨6, le_rfl, rfl⟩
  · exact ⟨3, by decide, rfl⟩

theorem multiplier_pow (amount : Amount) (other : Option Amount) :
    ∃ e, amount.multiplier other = 10 ^ e := by
  have hunit : ∀ unit : UnitWord, ∃ e, unit.multiplier = 10 ^ e := by
    intro unit
    obtain ⟨e, -, he⟩ := unit.multiplier_pow
    exact ⟨e, he⟩
  unfold Amount.multiplier
  split
  · exact hunit _
  · split
    · exact ⟨0, rfl⟩
    · cases other.bind Amount.unit with
      | none => exact ⟨0, rfl⟩
      | some unit => exact hunit unit

theorem usedMultiplier_pow (amount : Amount) (label : String) (rest : List Char) :
    ∃ e ≤ 6, amount.usedMultiplier label rest = 10 ^ e := by
  have hlabel : ∃ e ≤ 6, labelMultiplier label = 10 ^ e := by
    unfold labelMultiplier
    dsimp only
    split
    · exact ⟨6, le_rfl, rfl⟩
    · split
      · exact ⟨3, by decide, rfl⟩
      · exact ⟨0, by decide, rfl⟩
  have hunit : ∀ unit multiplier, unitMultiplier unit = some multiplier →
      ∃ e ≤ 6, multiplier = 10 ^ e := by
    intro unit multiplier h
    unfold unitMultiplier at h
    split at h
    · cases h
    · dsimp only at h
      split at h
      · exact ⟨6, le_rfl, (Option.some.inj h).symm⟩
      · split at h
        · exact ⟨3, by decide, (Option.some.inj h).symm⟩
        · cases h
  unfold Amount.usedMultiplier
  split
  · exact hlabel
  · split
    · next unit _ => exact unit.multiplier_pow
    · cases hread : unitMultiplier ((Figure.unitBehind rest).map String.ofList) with
      | none => exact hlabel
      | some multiplier => exact hunit _ _ hread

/-- A product of 28 digits at most is not rounded. -/
theorem mul_toInt {coefficient multiplier : ℕ} (h : coefficient * multiplier < 10 ^ 28)
    (decimals : ℕ) :
    ((PyDecimal.finite false coefficient (-decimals)).mul multiplier).toInt
      = some ((coefficient * multiplier / 10 ^ decimals : ℕ) : ℤ) := by
  have hlength : (Nat.toDigits 10 (coefficient * multiplier)).length ≤ 28 :=
    (Nat.length_toDigits_le_iff (by decide) (by decide)).mpr h
  have hdropped :
      (Nat.toDigits 10 (coefficient * multiplier)).length - PyDecimal.precision = 0 := by
    rw [PyDecimal.precision]
    omega
  have hround :
      PyDecimal.roundHalfEven (coefficient * multiplier) 0 = coefficient * multiplier := by
    simp [PyDecimal.roundHalfEven, Nat.mod_one]
  simp only [PyDecimal.mul, hdropped, hround, PyDecimal.toInt]
  rcases decimals with - | decimals
  · simp
  · have hneg : ¬ 0 ≤ -((decimals + 1 : ℕ) : ℤ) + ((0 : ℕ) : ℤ) := by omega
    have hexponent : (-(-((decimals + 1 : ℕ) : ℤ) + ((0 : ℕ) : ℤ))).toNat = decimals + 1 := by omega
    rw [if_neg hneg, hexponent, if_neg (by decide)]
    push_cast
    rfl

/-- The match of an amount is read as the amount exactly when it is multiplied as it is meant. -/
theorem amountAt_found_iff (amount : Amount) (label : String) (rest : List Char)
    (other : Option Amount) :
    amountAt label (amount.found rest) = some (amount.value other)
      ↔ amount.Kept label rest other := by
  rw [amount.amountAt_found, Amount.Kept]
  by_cases hread : amount.figure.Readable
  · rw [if_pos hread]
    refine Iff.trans ?_ (and_iff_right hread).symm
    split
    · next hshort =>
      have hdecimals : amount.figure.seen = amount.figure := by
        have htake : amount.figure.decimals.take 3 = amount.figure.decimals := by
          have hsplit := List.take_append_drop 3 amount.figure.decimals
          rwa [show amount.figure.decimals.drop 3 = [] from hshort.1, List.append_nil] at hsplit
        unfold Figure.seen
        simp only [htake]
      obtain ⟨e, he⟩ := multiplier_pow amount other
      obtain ⟨e', hsix, he'⟩ := usedMultiplier_pow amount label rest
      have hfits : amount.figure.coefficient * amount.usedMultiplier label rest < 10 ^ 28 := by
        have hpow : 10 ^ e' ≤ 10 ^ 6 := Nat.pow_le_pow_right (by decide) hsix
        rw [he']
        calc amount.figure.coefficient * 10 ^ e'
            ≤ amount.figure.coefficient * 10 ^ 6 := Nat.mul_le_mul_left _ hpow
          _ < 10 ^ 22 * 10 ^ 6 := Nat.mul_lt_mul_of_pos_right hshort.2 (by decide)
      rw [hdecimals, mul_toInt hfits, Amount.value, Option.some.injEq, Nat.cast_inj, he, he',
        whole_eq_iff]
    · exact Iff.rfl
  · rw [if_neg hread]
    exact iff_of_false (fun h => by cases h) fun h => hread h.1

namespace SalaryText

variable (text : SalaryText)

/-- The label. -/
def label : String :=
  String.ofList (text.front ++ (text.first.text ++ afterFirst text.second text.back))

/-- The amounts the label states, with their places. -/
def amounts : List (ℕ × ℤ) :=
  match text.second with
  | none => [((text.first.text ++ text.back).length, text.first.value none)]
  | some (between, amount) =>
    [((text.first.text ++ (between ++ (amount.text ++ text.back))).length,
        text.first.value (some amount)),
      ((amount.text ++ text.back).length, amount.value (some text.first))]

/-- The amounts of the label, and no other numbers, are read, each with its own multiplier. -/
def Scaled : Prop :=
  placedAmounts text.label = .ok text.amounts ∧
    parseAmounts text.label = .ok (text.amounts.map Prod.snd)

/-- A number the reader makes nothing of. -/
def Unread (found : NumberMatch) : Prop := parseDecimalNumber found.number = none

/-- The reader finds the amounts first, with no other number it can read before the last of them or
    right behind a single one, and multiplies each as it is meant. -/
def Plain : Prop :=
  match text.second with
  | none =>
    (((∀ c ∈ text.front, isDecimalDigit c = false) ∧ text.first.figure.excess = [] ∧
        ∀ found ∈ (scan matchNumber text.back).head?, Unread found) ∨
      ∃ found, scan matchNumber text.front = [found] ∧ Unread found) ∧
      text.first.Kept text.label text.back none
  | some (between, amount) =>
    (∀ c ∈ text.front ++ between, isDecimalDigit c = false) ∧ text.first.figure.excess = [] ∧
      text.first.Kept text.label (between ++ (amount.text ++ text.back)) (some amount) ∧
      amount.Kept text.label text.back (some text.first)

/-- What is read of a label are the amounts of the first two numbers. -/
theorem scaled_iff : text.Scaled ↔
    (usedNumbers text.label).filterMap (amountHere text.label) = text.amounts := by
  obtain ⟨hplaced, hparsed⟩ := placedAmounts_eq text.label
  unfold Scaled
  rw [hplaced, hparsed, Except.ok.injEq, Except.ok.injEq, and_iff_left_of_imp]
  intro h
  rw [h]

theorem head?_text (amount : Amount) (rest : List Char) :
    ∀ c ∈ (amount.text ++ rest).head?, isDecimalDigit c = true := by
  intro c hc
  obtain ⟨d, head, hhead⟩ := List.exists_cons_of_ne_nil amount.figure.head_ne
  have hd := amount.figure.head_digit d (by simp [hhead])
  unfold Amount.text Figure.text at hc
  rw [hhead] at hc
  obtain rfl : d = c := by simpa using hc
  exact hd

/-- The numbers of a label: those in front, the first amount, and those behind it. -/
theorem scan_label : scan (placedNumber 0) text.label.toList =
    scan (placedNumber (text.first.text ++ afterFirst text.second text.back).length) text.front
      ++ ((text.first.text ++ afterFirst text.second text.back).length,
          text.first.found (afterFirst text.second text.back))
        :: scan (placedNumber 0) (text.first.behind (afterFirst text.second text.back)) := by
  have hscan := text.first.scan_text 0 text.first_ends
  rw [label, String.toList_ofList, scan_words 0 text.front_apart (head?_text _ _), hscan]
  rfl

theorem amountHere_place {label : String} {found : ℕ × NumberMatch} {placed : ℕ × ℤ}
    (h : amountHere label found = some placed) : placed.1 = found.1 := by
  obtain ⟨amount, -, rfl⟩ := Option.map_eq_some_iff.mp h
  rfl

/-- Where numbers stand in front, behind an amount, and where it stands itself. -/
theorem places {n : ℕ} {rest : List Char} (amount : Amount) (front : List Char)
    (hn : (amount.text ++ rest).length = n) :
    (∀ found ∈ scan (placedNumber n) front, n < found.1) ∧
      ∀ found ∈ scan (placedNumber 0) (amount.behind rest), found.1 < n := by
  refine ⟨fun found hfound => (place_of_mem_scan hfound).1, fun found hfound => ?_⟩
  have hplace := (place_of_mem_scan hfound).2
  have hpos : 0 < amount.figure.seen.text.length := by
    rw [List.length_pos_iff]
    simp [Figure.text, amount.figure.seen.head_ne]
  rw [← hn, amount.text_append, List.length_append]
  omega

section Used

variable {label : String} {front back : List (ℕ × NumberMatch)} {found : ℕ × NumberMatch}
  {placed : ℕ × ℤ}

/-- A list that begins with what is read elsewhere is another one. -/
theorem used_ne {found other : ℕ × NumberMatch} {placed : ℕ × ℤ} {rest list : List (ℕ × ℤ)}
    (h : amountHere label other = some placed) (hplace : other.1 ≠ found.1) {amount : ℤ} :
    placed :: rest ≠ (found.1, amount) :: list := by
  intro heq
  have hplaced := amountHere_place h
  rw [(List.cons.inj heq).1] at hplaced
  exact hplace hplaced.symm

/-- One amount is read when it is first and the next number is unread, or second behind an unread
    one. -/
theorem used_single_iff (hfront : ∀ other ∈ front, found.1 < other.1)
    (hback : ∀ other ∈ back, other.1 < found.1) (amount : ℤ) :
    ((front ++ found :: back).take 2).filterMap (amountHere label) = [(found.1, amount)] ↔
      ((front = [] ∧ ∀ other ∈ back.head?, amountHere label other = none) ∨
          ∃ other, front = [other] ∧ amountHere label other = none) ∧
        amountHere label found = some (found.1, amount) := by
  rcases front with - | ⟨first, - | ⟨second, front⟩⟩
  · cases hfound : amountHere label found with
    | none =>
      refine iff_of_false ?_ (by simp)
      rcases back with - | ⟨next, back⟩
      · simp [hfound]
      · cases hnext : amountHere label next with
        | none => simp [hfound, hnext]
        | some placed =>
          have hlt := hback next List.mem_cons_self
          simpa [hfound, hnext] using
            @used_ne label found next placed [] [] hnext (by omega) amount
    | some placed =>
      rcases back with - | ⟨next, back⟩
      · simp [hfound]
      · cases hnext : amountHere label next <;> simp [hfound, hnext]
  · have hlt := hfront first List.mem_cons_self
    cases hfirst : amountHere label first with
    | none =>
      cases hfound : amountHere label found <;> simp [hfirst, hfound]
    | some placed =>
      refine iff_of_false ?_ (by simp [hfirst])
      simp only [List.singleton_append, List.take_succ_cons, List.filterMap_cons, hfirst]
      exact used_ne hfirst (by omega)
  · refine iff_of_false ?_ (by simp)
    have hlt := hfront first List.mem_cons_self
    have hlt' := hfront second (List.mem_cons_of_mem _ List.mem_cons_self)
    cases hfirst : amountHere label first with
    | some placed =>
      simp only [List.cons_append, List.take_succ_cons, List.filterMap_cons, hfirst]
      exact used_ne hfirst (by omega)
    | none =>
      cases hsecond : amountHere label second with
      | none => simp [hfirst, hsecond]
      | some placed =>
        simp only [List.cons_append, List.take_succ_cons, List.filterMap_cons, hfirst, hsecond]
        exact used_ne hsecond (by omega)

/-- Two amounts are read when they are the first two numbers. -/
theorem used_pair_iff (hfront : ∀ other ∈ front, found.1 < other.1) (amount : ℤ) :
    ((front ++ found :: back).take 2).filterMap (amountHere label) = [(found.1, amount), placed] ↔
      front = [] ∧ amountHere label found = some (found.1, amount) ∧
        ∃ other, back.head? = some other ∧ amountHere label other = some placed := by
  rcases front with - | ⟨first, front⟩
  · rcases back with - | ⟨next, back⟩
    · cases hfound : amountHere label found <;> simp [hfound]
    · cases hfound : amountHere label found <;> cases hnext : amountHere label next <;>
        simp [hfound, hnext]
  · refine iff_of_false ?_ (by simp)
    have hlt := hfront first List.mem_cons_self
    cases hfirst : amountHere label first with
    | some other =>
      simp only [List.cons_append, List.take_succ_cons, List.filterMap_cons, hfirst]
      exact used_ne hfirst (by omega)
    | none =>
      intro heq
      have hlength := congrArg List.length heq
      rcases front with - | ⟨second, front⟩
      · cases hfound : amountHere label found <;> simp [hfirst, hfound] at hlength
      · cases hsecond : amountHere label second <;> simp [hfirst, hsecond] at hlength

end Used

/-- A number of a text is no amount exactly when the reader makes nothing of it. -/
theorem amountHere_eq_none_iff (label : String) (n : ℕ) (words : List Char)
    {found : ℕ × NumberMatch} (h : found ∈ scan (placedNumber n) words) :
    amountHere label found = none ↔ Unread found.2 := by
  have hmem : found.2 ∈ findNumbers (String.ofList words) := by
    rw [findNumbers, String.toList_ofList, ← map_scan_placedNumber n]
    exact List.mem_map_of_mem h
  obtain ⟨c, rest, hc, hnumber⟩ := number_of_mem_findNumbers hmem
  rw [amountHere, Option.map_eq_none_iff, amountAt, Unread, hnumber]
  cases hparse : parseDecimalNumber (String.ofList (c :: rest)) with
  | none => simp
  | some number =>
    obtain ⟨coefficient, exponent, rfl⟩ := parseDecimalNumber_of_isDecimalDigit hc hparse
    exact iff_of_false (fun h => by cases h) (fun h => by cases h)

/-- An amount is read at its place exactly when it is multiplied as it is meant. -/
theorem amountHere_found_iff (amount : Amount) (label : String) (n : ℕ) (rest : List Char)
    (other : Option Amount) :
    amountHere label (n, amount.found rest) = some (n, amount.value other)
      ↔ amount.Kept label rest other := by
  rw [← amountAt_found_iff, amountHere]
  cases amountAt label (amount.found rest) <;> simp

/-- A single unread number in front, with its place or without. -/
theorem front_iff (label : String) (n : ℕ) (words : List Char) :
    (∃ other, scan (placedNumber n) words = [other] ∧ amountHere label other = none) ↔
      ∃ found, scan matchNumber words = [found] ∧ Unread found := by
  rw [← map_scan_placedNumber n]
  constructor
  · rintro ⟨other, hother, hnone⟩
    refine ⟨other.2, by rw [hother]; rfl, ?_⟩
    exact (amountHere_eq_none_iff label n words (by simp [hother])).mp hnone
  · rintro ⟨found, hfound, hunread⟩
    obtain ⟨other, hother, rfl⟩ := List.map_eq_singleton_iff.mp hfound
    refine ⟨other, hother, ?_⟩
    exact (amountHere_eq_none_iff label n words (by simp [hother])).mpr hunread

/-- Behind an amount no further number is read: the pattern sees all of the amount, and the next
    number is unread. -/
theorem behind_iff (amount : Amount) (label : String) {rest : List Char}
    (h : amount.unit = none → EndsBefore rest) :
    (∀ other ∈ (scan (placedNumber 0) (amount.behind rest)).head?,
        amountHere label other = none) ↔
      amount.figure.excess = [] ∧ ∀ found ∈ (scan matchNumber rest).head?, Unread found := by
  by_cases hexcess : amount.figure.excess = []
  · rw [amount.scan_behind_of_nil 0 hexcess, and_iff_right hexcess, ← map_scan_placedNumber 0,
      List.head?_map]
    cases hscan : (scan (placedNumber 0) rest).head? with
    | none => simp
    | some found =>
      have hmem := List.mem_of_mem_head? (Option.mem_def.mpr hscan)
      simpa using amountHere_eq_none_iff label 0 rest hmem
  · refine iff_of_false ?_ fun h => hexcess h.1
    obtain ⟨found, tail, hscan, hread⟩ := amount.scan_behind_of_ne 0 label hexcess h
    intro hnone
    rw [hscan] at hnone
    have hhere := hnone _ rfl
    rw [amountHere, Option.map_eq_none_iff] at hhere
    exact hread hhere

/-- The second number is the second amount: the pattern sees all of the first one, there is no
    number between them, and the second one is multiplied as it is meant. -/
theorem second_iff {first amount : Amount} {between back : List Char} (label : String)
    {other : Option Amount}
    (hfirst : first.unit = none → EndsBefore (between ++ (amount.text ++ back)))
    (hbetween : StandsApart between) (hback : amount.unit = none → EndsBefore back) :
    (∃ found, (scan (placedNumber 0) (first.behind (between ++ (amount.text ++ back)))).head?
          = some found ∧
        amountHere label found = some ((amount.text ++ back).length, amount.value other)) ↔
      first.figure.excess = [] ∧ (∀ c ∈ between, isDecimalDigit c = false) ∧
        amount.Kept label back other := by
  have helsewhere : ∀ {found placed}, (amount.text ++ back).length < found.1 →
      amountHere label found = some placed → placed.1 ≠ (amount.text ++ back).length := by
    intro found placed hlt hplaced
    rw [amountHere_place hplaced]
    omega
  by_cases hexcess : first.figure.excess = []
  · have hscan := amount.scan_text 0 hback
    rw [first.scan_behind_of_nil 0 hexcess, scan_words 0 hbetween (head?_text _ _), hscan,
      and_iff_right hexcess, ← scan_eq_nil_iff (amount.text ++ back).length]
    rcases hwords : scan (placedNumber (amount.text ++ back).length) between with - | ⟨found, tail⟩
    · simp [amountHere_found_iff]
    · refine iff_of_false ?_ (by simp)
      rintro ⟨other, hhead, hother⟩
      obtain rfl : found = other := by simpa using hhead
      have hmem : found ∈ scan (placedNumber (amount.text ++ back).length) between :=
        hwords ▸ List.mem_cons_self
      exact helsewhere (place_of_mem_scan hmem).1 hother rfl
  · refine iff_of_false ?_ fun h => hexcess h.1
    obtain ⟨found, tail, hscan, -⟩ := first.scan_behind_of_ne 0 label hexcess hfirst
    rw [hscan]
    rintro ⟨other, hhead, hother⟩
    obtain rfl : _ = other := Option.some.inj hhead
    refine helsewhere ?_ hother rfl
    have hpos := List.length_pos_iff.mpr hexcess
    simp only [Amount.behind, List.length_append]
    omega

/-- BUG: the amounts of a label, and no other numbers, are read with their own units exactly when
    the label is plain. -/
theorem scaled_iff_plain : text.Scaled ↔ text.Plain := by
  rw [scaled_iff, usedNumbers, scan_label]
  unfold amounts Plain
  rcases hsecond : text.second with - | ⟨between, amount⟩
  · dsimp only [afterFirst]
    have hends := text.first_ends
    rw [hsecond, afterFirst] at hends
    obtain ⟨hfront, hback⟩ := places text.first text.front
      (rfl : (text.first.text ++ text.back).length = _)
    rw [used_single_iff hfront hback, scan_eq_nil_iff, front_iff, behind_iff _ _ hends,
      amountHere_found_iff]
  · dsimp only [afterFirst]
    have hends := text.first_ends
    rw [hsecond, afterFirst] at hends
    obtain ⟨hfront, -⟩ := places text.first text.front
      (rfl : (text.first.text ++ (between ++ (amount.text ++ text.back))).length = _)
    have hmem : (between, amount) ∈ text.second := by rw [hsecond, Option.mem_def]
    rw [used_pair_iff hfront, scan_eq_nil_iff, amountHere_found_iff,
      second_iff _ hends (text.between_apart _ hmem) (text.second_ends _ hmem),
      List.forall_mem_append]
    tauto

/-- Five million, in full. -/
def fiveMillion : Amount where
  figure :=
    { indonesian := true, head := ['5'], groups := [['0', '0', '0'], ['0', '0', '0']]
      decimals := [], head_ne := List.cons_ne_nil _ _, head_digit := by decide
      group_length := by decide, group_digit := by decide, decimal_digit := by decide }
  unit := none
  full := true

/-- `Rp 5.000.000 monthly`. -/
def monthly : SalaryText where
  front := ['R', 'p', ' ']
  first := fiveMillion
  second := none
  back := [' ', 'm', 'o', 'n', 't', 'h', 'l', 'y']
  front_apart := by
    refine ⟨by decide, ?_⟩
    intro front d c heq _
    have hlast := congrArg List.getLast? heq
    obtain rfl : ' ' = c := by simpa using hlast
    rfl
  first_ends _ := by
    refine ⟨by decide, ?_⟩
    intro c d rest heq hc
    rw [← (List.cons.inj heq).1] at hc
    cases hc
  between_apart := nofun
  second_ends := nofun

/-- The `m` of `monthly` is taken for a unit. -/
theorem not_scaled_monthly :
    parseAmounts monthly.label = .ok [5000000000000] ∧ ¬ monthly.Scaled := by
  have hread : (parseAmounts monthly.label).toOption = some [5000000000000] := by decide +kernel
  have hmeant : monthly.amounts.map Prod.snd = [5000000] := by decide +kernel
  have hparsed : parseAmounts monthly.label = .ok [5000000000000] := by
    cases hamounts : parseAmounts monthly.label with
    | error exc =>
      rw [hamounts] at hread
      cases hread
    | ok amounts =>
      rw [hamounts] at hread
      exact congrArg Except.ok (Option.some.inj hread)
  refine ⟨hparsed, ?_⟩
  rintro ⟨-, hscaled⟩
  rw [hparsed, hmeant] at hscaled
  exact absurd (Except.ok.inj hscaled) (by decide)

end SalaryText

end Bisakerja
