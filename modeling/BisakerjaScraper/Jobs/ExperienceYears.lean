import BisakerjaScraper.Jobs.Completion
import BisakerjaScraper.Jobs.DefaultsRaise
import BisakerjaScraper.Schemes.Words
import Mathlib.Data.List.Perm.Basic

/-! The level a number of years stands for.

    A text states a range of years once, by itself: no other number runs into it. What the patterns
    find around it (ranges without a unit count too) is the same whatever the two numbers are, so
    the level is a function of the smallest and of the largest number. More years never mean a lower
    level, except that from three years on `2-5 years` is senior and `3-5 years` is not. -/

namespace Bisakerja
open Schemes

/-! ### What stands around a range -/

/-- A dash or a `to`, with or without spaces. -/
def IsRangeSign (sign : List Char) : Prop :=
  ∃ gap marks gap' : List Char, sign = gap ++ marks ++ gap' ∧ marks ≠ [] ∧
    (∀ c ∈ gap, isSpace c = true) ∧ (∀ c ∈ marks, isRangeMark c = true) ∧
    ∀ c ∈ gap', isSpace c = true

/-- `years`, `year` or `tahun`, with or without spaces before it. -/
def IsYearsUnit (unit : List Char) : Prop :=
  ∃ gap : List Char, (∀ c ∈ gap, isSpace c = true) ∧
    (unit = gap ++ "years".toList ∨ unit = gap ++ "year".toList ∨ unit = gap ++ "tahun".toList)

/-- A number is not continued by what follows: the text before it does not end in a number, nor in
    one and a dash. -/
def EndsApart (before : List Char) : Prop :=
  ∀ front low sign : List Char, before = front ++ low ++ sign → low ≠ [] →
    (∀ c ∈ low, isDecimalDigit c = true) → sign ≠ [] ∧ ¬ IsRangeSign sign

/-- A number as a text writes it. -/
structure Numeral where
  digits : List Char
  nonempty : digits ≠ []
  decimal : ∀ c ∈ digits, isDecimalDigit c = true

/-- Its value. -/
def Numeral.value (n : Numeral) : ℕ := digitsValue n.digits

/-- `int` reads it. -/
def Numeral.Short (n : Numeral) : Prop := n.digits.length ≤ 4300

/-- A place in a text where years are stated. -/
structure YearsPlace where
  before : List Char
  sign : List Char
  unit : List Char
  after : List Char
  apart : EndsApart before
  isSign : IsRangeSign sign
  isUnit : IsYearsUnit unit

/-- The text with `low - high years` there. -/
def YearsPlace.range (place : YearsPlace) (low high : Numeral) : List Char :=
  place.before ++ (low.digits ++ place.sign ++ high.digits ++ place.unit ++ place.after)

/-- The text with `low+ years` there. -/
def YearsPlace.plus (place : YearsPlace) (low : Numeral) : List Char :=
  place.before ++ (low.digits ++ '+' :: place.unit ++ place.after)

/-- The other ranges the pattern finds in the text. -/
def YearsPlace.ranges (place : YearsPlace) : List (List Char × List Char) :=
  scan yearsRange place.before ++ scan yearsRange place.after

/-- The other numbers of years with a plus. -/
def YearsPlace.pluses (place : YearsPlace) : List (List Char) :=
  scan yearsPlus place.before ++ scan yearsPlus place.after

/-- `int` reads the other numbers. -/
def YearsPlace.Short (place : YearsPlace) : Prop :=
  (∀ range ∈ place.ranges, range.1.length ≤ 4300 ∧ range.2.length ≤ 4300) ∧
    ∀ digits ∈ place.pluses, digits.length ≤ 4300

/-- The numbers of a match. -/
def rangeValue (range : List Char × List Char) : ℕ × ℕ := (digitsValue range.1, digitsValue range.2)

/-- The number of a match, twice. -/
def plusValue (digits : List Char) : ℕ × ℕ := (digitsValue digits, digitsValue digits)

/-- The other years of the text. -/
def YearsPlace.others (place : YearsPlace) : List (ℕ × ℕ) :=
  place.ranges.map rangeValue ++ place.pluses.map plusValue

/-- The smallest number, the ones of the text included. -/
def YearsPlace.least (place : YearsPlace) (low : ℕ) : ℕ :=
  place.others.foldl (fun least years => min least years.1) low

/-- The largest number, the ones of the text included. -/
def YearsPlace.most (place : YearsPlace) (high : ℕ) : ℕ :=
  place.others.foldl (fun most years => max most years.2) high

/-! ### Digits, spaces and dashes -/

theorem isDecimalDigit_of_isSpace {c : Char} (h : isSpace c = true) : isDecimalDigit c = false := by
  by_contra hdigit
  rw [PyDecimal.isSpace_of_isDecimalDigit (by simpa using hdigit)] at h
  cases h

theorem isDecimalDigit_of_isRangeMark {c : Char} (h : isRangeMark c = true) :
    isDecimalDigit c = false := by
  simp only [isRangeMark, List.mem_cons, List.not_mem_nil, or_false, decide_eq_true_eq] at h
  rcases h with rfl | rfl | rfl | rfl | rfl <;> decide

theorem isRangeMark_of_isDecimalDigit {c : Char} (h : isDecimalDigit c = true) :
    isRangeMark c = false := by
  by_contra hmark
  rw [isDecimalDigit_of_isRangeMark (by simpa using hmark)] at h
  cases h

theorem isRangeMark_of_isSpace {c : Char} (h : isSpace c = true) : isRangeMark c = false := by
  by_contra hmark
  simp only [isRangeMark, List.mem_cons, List.not_mem_nil, or_false, decide_eq_true_eq,
    Bool.not_eq_false] at hmark
  rcases hmark with rfl | rfl | rfl | rfl | rfl <;> exact absurd h (by decide)

/-! ### What the patterns match -/

/-- The parts of a text that `_YEARS_RANGE_PATTERN` looks at. -/
theorem yearsRange_eq {text low gap marks gap' high rest₁ rest₂ rest₃ rest₄ rest₅ : List Char}
    (hlow : text.takeWhile isDecimalDigit = low ∧ text.dropWhile isDecimalDigit = rest₁)
    (hgap : rest₁.takeWhile isSpace = gap ∧ rest₁.dropWhile isSpace = rest₂)
    (hmarks : rest₂.takeWhile isRangeMark = marks ∧ rest₂.dropWhile isRangeMark = rest₃)
    (hgap' : rest₃.takeWhile isSpace = gap' ∧ rest₃.dropWhile isSpace = rest₄)
    (hhigh : rest₄.takeWhile isDecimalDigit = high ∧ rest₄.dropWhile isDecimalDigit = rest₅) :
    yearsRange text =
      if low = [] ∨ marks = [] ∨ high = [] then none
      else some ((low, high),
        low.length + gap.length + marks.length + gap'.length + high.length) := by
  obtain ⟨rfl, rfl⟩ := hlow
  obtain ⟨rfl, rfl⟩ := hgap
  obtain ⟨rfl, rfl⟩ := hmarks
  obtain ⟨rfl, rfl⟩ := hgap'
  obtain ⟨rfl, rfl⟩ := hhigh
  rfl

/-- The number and what is behind it that `_YEARS_PLUS_PATTERN` looks at. -/
theorem yearsPlus_eq {text low rest : List Char}
    (hlow : text.takeWhile isDecimalDigit = low ∧ text.dropWhile isDecimalDigit = rest) :
    yearsPlus text =
      if low = [] then none
      else
        match lstrip rest with
        | '+' :: rest =>
          if (literal "tahun".toList (lstrip rest)).isSome ∨
              (literal "year".toList (lstrip rest)).isSome then some (low, low.length)
          else none
        | _ => none := by
  obtain ⟨rfl, rfl⟩ := hlow
  rfl

theorem length_span (p : Char → Bool) (text : List Char) :
    (text.takeWhile p).length + (text.dropWhile p).length = text.length := by
  rw [← List.length_append, List.takeWhile_append_dropWhile]

theorem length_yearsRange {text : List Char} {found : List Char × List Char} {length : ℕ}
    (h : yearsRange text = some (found, length)) : 0 < length ∧ length ≤ text.length := by
  rw [yearsRange_eq ⟨rfl, rfl⟩ ⟨rfl, rfl⟩ ⟨rfl, rfl⟩ ⟨rfl, rfl⟩ ⟨rfl, rfl⟩,
    Option.ite_none_left_eq_some] at h
  obtain ⟨hnone, hsome⟩ := h
  obtain ⟨-, rfl⟩ := Prod.mk.inj (Option.some.inj hsome)
  have hpos := List.length_pos_iff.mpr (not_or.mp hnone).1
  have h1 := length_span isDecimalDigit text
  have h2 := length_span isSpace (text.dropWhile isDecimalDigit)
  have h3 := length_span isRangeMark ((text.dropWhile isDecimalDigit).dropWhile isSpace)
  have h4 := length_span isSpace
    (((text.dropWhile isDecimalDigit).dropWhile isSpace).dropWhile isRangeMark)
  have h5 := length_span isDecimalDigit
    ((((text.dropWhile isDecimalDigit).dropWhile isSpace).dropWhile isRangeMark).dropWhile isSpace)
  omega

theorem length_yearsPlus {text low : List Char} {length : ℕ}
    (h : yearsPlus text = some (low, length)) : 0 < length ∧ length ≤ text.length := by
  rw [yearsPlus_eq ⟨rfl, rfl⟩, Option.ite_none_left_eq_some] at h
  obtain ⟨hlow, hsome⟩ := h
  have hpos := List.length_pos_iff.mpr hlow
  have hsplit := length_span isDecimalDigit text
  split at hsome
  · split at hsome
    · obtain ⟨-, rfl⟩ := Prod.mk.inj (Option.some.inj hsome)
      omega
    · cases hsome
  · cases hsome

theorem yearsRange_of_no_digit {c : Char} (h : isDecimalDigit c = false) (rest : List Char) :
    yearsRange (c :: rest) = none := by
  simp [yearsRange, PyDecimal.splitDigits, h]

theorem yearsPlus_of_no_digit {c : Char} (h : isDecimalDigit c = false) (rest : List Char) :
    yearsPlus (c :: rest) = none := by
  simp [yearsPlus, PyDecimal.splitDigits, h]

/-- A range is matched up to its second number. -/
theorem yearsRange_of_range {low sign high : List Char} (hlow : low ≠ [])
    (hlow' : ∀ c ∈ low, isDecimalDigit c = true) (hsign : IsRangeSign sign) (hhigh : high ≠ [])
    (hhigh' : ∀ c ∈ high, isDecimalDigit c = true) {rest : List Char}
    (hrest : ∀ c ∈ rest.head?, isDecimalDigit c = false) :
    yearsRange (low ++ sign ++ high ++ rest)
      = some ((low, high), (low ++ sign ++ high).length) := by
  obtain ⟨gap, marks, gap', rfl, hmarks, hgap, hmarks', hgap'⟩ := hsign
  obtain ⟨mark, marks, rfl⟩ := List.exists_cons_of_ne_nil hmarks
  obtain ⟨digit, high, rfl⟩ := List.exists_cons_of_ne_nil hhigh
  have hdigit := hhigh' digit List.mem_cons_self
  have hspace := PyDecimal.isSpace_of_isDecimalDigit hdigit
  have hnomark := isRangeMark_of_isDecimalDigit hdigit
  have hmark := hmarks' mark List.mem_cons_self
  have hnospace : isSpace mark = false := by
    by_contra hspace
    rw [isRangeMark_of_isSpace (by simpa using hspace)] at hmark
    cases hmark
  -- each part ends where the next begins
  have hlowEnds := @span_front _ isDecimalDigit low
    (gap ++ (mark :: marks ++ (gap' ++ (digit :: high ++ rest)))) hlow' (by
      rcases gap with - | ⟨c, gap⟩
      · simpa using isDecimalDigit_of_isRangeMark hmark
      · simpa using isDecimalDigit_of_isSpace (hgap c List.mem_cons_self))
  have hgapEnds := @span_front _ isSpace gap
    (mark :: marks ++ (gap' ++ (digit :: high ++ rest))) hgap (by simpa using hnospace)
  have hmarksEnd := @span_front _ isRangeMark (mark :: marks)
    (gap' ++ (digit :: high ++ rest)) hmarks' (by
      rcases gap' with - | ⟨c, gap'⟩
      · simpa using hnomark
      · simpa using isRangeMark_of_isSpace (hgap' c List.mem_cons_self))
  have hgapEnds' := @span_front _ isSpace gap' (digit :: high ++ rest) hgap'
    (by simpa using hspace)
  have hhighEnds := span_front hhigh' hrest
  have htext : low ++ (gap ++ (mark :: marks) ++ gap') ++ (digit :: high) ++ rest
      = low ++ (gap ++ (mark :: marks ++ (gap' ++ (digit :: high ++ rest)))) := by simp
  rw [htext]
  rw [yearsRange_eq hlowEnds hgapEnds hmarksEnd hgapEnds' hhighEnds, if_neg (by simp [hlow])]
  simp only [List.length_append, Option.some.injEq, Prod.mk.injEq, true_and]
  omega

/-! ### A number before the place -/

theorem EndsApart.suffix {before text : List Char} (h : EndsApart before)
    (htext : text <:+ before) : EndsApart text := by
  obtain ⟨more, rfl⟩ := htext
  intro front low sign hsplit
  exact h (more ++ front) low sign (by rw [hsplit]; simp)

theorem EndsApart.last {before : List Char} (h : EndsApart before) :
    ∀ c ∈ before.getLast?, isDecimalDigit c = false := by
  intro c hc
  by_contra hdigit
  obtain ⟨front, rfl⟩ := List.getLast?_eq_some_iff.mp hc
  exact (h front [c] [] (by simp) (by simp) (by simpa using hdigit)).1 rfl

theorem EndsApart.dropWhile_ne_nil {before text : List Char} (h : EndsApart before)
    (hne : text ≠ []) (htext : text <:+ before) : text.dropWhile isDecimalDigit ≠ [] :=
  Schemes.dropWhile_ne_nil hne (h.suffix htext).last

/-- A number behind it does not change what the range pattern matches in front of the place. -/
theorem yearsRange_append {text : List Char} (hne : text ≠ []) (h : EndsApart text) {digit : Char}
    (hdigit : isDecimalDigit digit = true) (back : List Char) :
    yearsRange (text ++ digit :: back) = yearsRange text := by
  have hspace : ∀ c ∈ (digit :: back).head?, isSpace c = false := by
    simpa using PyDecimal.isSpace_of_isDecimalDigit hdigit
  have hmark : ∀ c ∈ (digit :: back).head?, isRangeMark c = false := by
    simpa using isRangeMark_of_isDecimalDigit hdigit
  -- only the numbers could go on behind the end of the text
  have hlow := span_of_stops (h.dropWhile_ne_nil hne (List.suffix_refl _)) (digit :: back)
  have hgap := span_append hspace (text.dropWhile isDecimalDigit)
  have hmarks := span_append hmark ((text.dropWhile isDecimalDigit).dropWhile isSpace)
  have hgap' := span_append hspace
    (((text.dropWhile isDecimalDigit).dropWhile isSpace).dropWhile isRangeMark)
  have hself : yearsRange text = _ :=
    yearsRange_eq ⟨rfl, rfl⟩ ⟨rfl, rfl⟩ ⟨rfl, rfl⟩ ⟨rfl, rfl⟩ ⟨rfl, rfl⟩
  rw [yearsRange_eq hlow hgap hmarks hgap' ⟨rfl, rfl⟩, hself]
  have hsplit₁ := List.takeWhile_append_dropWhile (p := isDecimalDigit) (l := text)
  have hsplit₂ := List.takeWhile_append_dropWhile (p := isSpace)
    (l := text.dropWhile isDecimalDigit)
  have hsplit₃ := List.takeWhile_append_dropWhile (p := isRangeMark)
    (l := (text.dropWhile isDecimalDigit).dropWhile isSpace)
  have hsplit₄ := List.takeWhile_append_dropWhile (p := isSpace)
    (l := ((text.dropWhile isDecimalDigit).dropWhile isSpace).dropWhile isRangeMark)
  by_cases hsome : text.takeWhile isDecimalDigit = [] ∨
    ((text.dropWhile isDecimalDigit).dropWhile isSpace).takeWhile isRangeMark = []
  · rw [if_pos (hsome.imp_right .inl), if_pos (hsome.imp_right .inl)]
  · obtain ⟨hnum, hbare⟩ := not_or.mp hsome
    have hleft : (((text.dropWhile isDecimalDigit).dropWhile isSpace).dropWhile
        isRangeMark).dropWhile isSpace ≠ [] := by
      intro hnil
      rw [hnil, List.append_nil] at hsplit₄
      have hsign : IsRangeSign ((text.dropWhile isDecimalDigit).takeWhile isSpace ++
          ((text.dropWhile isDecimalDigit).dropWhile isSpace).takeWhile isRangeMark ++
          (((text.dropWhile isDecimalDigit).dropWhile isSpace).dropWhile isRangeMark).takeWhile
            isSpace) :=
        ⟨_, _, _, rfl, hbare, fun c hc => List.mem_takeWhile_imp hc,
          fun c hc => List.mem_takeWhile_imp hc, fun c hc => List.mem_takeWhile_imp hc⟩
      refine (h [] _ _ ?_ hnum fun c hc => List.mem_takeWhile_imp hc).2 hsign
      rw [hsplit₄, List.append_assoc, List.append_assoc, hsplit₃, hsplit₂, hsplit₁, List.nil_append]
    have hsuffix := (List.dropWhile_suffix isSpace).trans ((List.dropWhile_suffix isRangeMark).trans
      ((List.dropWhile_suffix isSpace).trans (List.dropWhile_suffix (l := text) isDecimalDigit)))
    rw [(span_of_stops (h.dropWhile_ne_nil hleft hsuffix) (digit :: back)).1]

theorem isLetter_of_isDecimalDigit {c : Char} (h : isDecimalDigit c = true) :
    isLetter c = false := by
  have hnone : ∀ start ∈ decimalZeros, ∀ k < 10, ¬ (97 ≤ start + k ∧ start + k ≤ 122) := by
    decide +kernel
  have hfold : foldLetter c = c := by
    have hne : ∀ d, isDecimalDigit d = false → c ≠ d := by
      rintro d hd rfl
      rw [hd] at h
      cases h
    unfold foldLetter
    rw [if_neg (not_or.mpr ⟨hne _ (by decide), hne _ (by decide)⟩), if_neg (hne _ (by decide)),
      if_neg (hne _ (by decide)), PyDecimal.toLower_of_isDecimalDigit h]
  by_contra hletter
  obtain ⟨start, hfind⟩ := Option.isSome_iff_exists.mp (Option.isSome_map.symm.trans h)
  have hrange := List.find?_some hfind
  simp only [Bool.and_eq_true, decide_eq_true_eq] at hrange
  refine hnone start (List.mem_of_find?_eq_some hfind) (c.toNat - start) (by omega) ?_
  rw [isLetter, hfold, Bool.not_eq_false, isLower_eq, Bool.and_eq_true] at hletter
  rw [Nat.add_sub_cancel' hrange.1]
  simpa [UInt32.le_iff_toNat_le] using hletter

/-- Nor does it change what the pattern with a plus matches. -/
theorem yearsPlus_append {text : List Char} (hne : text ≠ []) (h : EndsApart text) {digit : Char}
    (hdigit : isDecimalDigit digit = true) (back : List Char) :
    yearsPlus (text ++ digit :: back) = yearsPlus text := by
  have hspace : ∀ c ∈ (digit :: back).head?, isSpace c = false := by
    simpa using PyDecimal.isSpace_of_isDecimalDigit hdigit
  have hletter : ∀ c ∈ (digit :: back).head?, isLetter c = false := by
    simpa using isLetter_of_isDecimalDigit hdigit
  have hplus : digit ≠ '+' := PyDecimal.ne_of_isDecimalDigit hdigit (by decide)
  have hself : yearsPlus text = _ := yearsPlus_eq ⟨rfl, rfl⟩
  rw [yearsPlus_eq (span_of_stops (h.dropWhile_ne_nil hne (List.suffix_refl _)) (digit :: back)),
    hself, lstrip, (span_append hspace _).2, lstrip]
  cases (text.dropWhile isDecimalDigit).dropWhile isSpace with
  | nil => simp [hplus]
  | cons c rest =>
    by_cases hc : c = '+'
    · subst hc
      have htahun : ∀ l ∈ "tahun".toList, l.isLower = true := forall_mem_of_all (by decide)
      have hyear : ∀ l ∈ "year".toList, l.isLower = true := forall_mem_of_all (by decide)
      simp only [List.cons_append, lstrip, (span_append hspace _).2, literal_append htahun hletter,
        literal_append hyear hletter, Option.isSome_map]
      rfl
    · simp [hc]

/-! ### What the patterns find in the text -/

theorem IsRangeSign.no_digit {sign : List Char} (h : IsRangeSign sign) :
    ∀ c ∈ sign, isDecimalDigit c = false := by
  obtain ⟨gap, marks, gap', rfl, -, hgap, hmarks, hgap'⟩ := h
  intro c hc
  simp only [List.mem_append] at hc
  rcases hc with (hc | hc) | hc
  · exact isDecimalDigit_of_isSpace (hgap c hc)
  · exact isDecimalDigit_of_isRangeMark (hmarks c hc)
  · exact isDecimalDigit_of_isSpace (hgap' c hc)

/-- Behind the spaces there is a dash or a letter. -/
theorem IsRangeSign.head {sign : List Char} (h : IsRangeSign sign) (rest : List Char) :
    ∃ c rest', isRangeMark c = true ∧ lstrip (sign ++ rest) = c :: rest' := by
  obtain ⟨gap, marks, gap', rfl, hne, hgap, hmarks, -⟩ := h
  obtain ⟨mark, marks, rfl⟩ := List.exists_cons_of_ne_nil hne
  have hmark := hmarks mark List.mem_cons_self
  have hspace : isSpace mark = false := by
    by_contra hspace
    rw [isRangeMark_of_isSpace (by simpa using hspace)] at hmark
    cases hmark
  refine ⟨mark, marks ++ (gap' ++ rest), hmark, ?_⟩
  rw [lstrip, List.append_assoc, List.append_assoc]
  exact (span_front hgap (by simpa using hspace)).2

theorem IsYearsUnit.no_digit {unit : List Char} (h : IsYearsUnit unit) :
    ∀ c ∈ unit, isDecimalDigit c = false := by
  obtain ⟨gap, hgap, h⟩ := h
  have hword : ∀ word : List Char, (∀ c ∈ word, isDecimalDigit c = false) →
      ∀ c ∈ gap ++ word, isDecimalDigit c = false := by
    intro word hword c hc
    rcases List.mem_append.mp hc with hc | hc
    · exact isDecimalDigit_of_isSpace (hgap c hc)
    · exact hword c hc
  rcases h with rfl | rfl | rfl <;> exact hword _ (forall_mem_of_all (by decide))

/-- Behind the spaces the pattern with a plus finds its unit. -/
theorem IsYearsUnit.found {unit : List Char} (h : IsYearsUnit unit) (rest : List Char) :
    (literal "tahun".toList (lstrip (unit ++ rest))).isSome ∨
      (literal "year".toList (lstrip (unit ++ rest))).isSome := by
  obtain ⟨gap, hgap, rfl | rfl | rfl⟩ := h
  · right
    rw [lstrip, List.append_assoc, (span_front hgap (by simpa using by decide)).2]
    rfl
  · right
    rw [lstrip, List.append_assoc, (span_front hgap (by simpa using by decide)).2]
    rfl
  · left
    rw [lstrip, List.append_assoc, (span_front hgap (by simpa using by decide)).2]
    rfl

theorem IsYearsUnit.no_plus {unit : List Char} (h : IsYearsUnit unit) (rest : List Char) :
    (lstrip (unit ++ rest)).head? ≠ some '+' := by
  intro hplus
  have hfound := h.found rest
  obtain ⟨rest', hcons⟩ := List.head?_eq_some_iff.mp hplus
  rw [hcons] at hfound
  simp [literal, foldLetter] at hfound

/-- A number that no plus follows is not found by the pattern with one. -/
theorem scan_yearsPlus_number {number : List Char} (hnumber : ∀ c ∈ number, isDecimalDigit c = true)
    {back : List Char} (hdigit : ∀ c ∈ back.head?, isDecimalDigit c = false)
    (hplus : (lstrip back).head? ≠ some '+') :
    scan yearsPlus (number ++ back) = scan yearsPlus back := by
  refine scan_append_of_skipped fun text _ hsuffix => ?_
  rw [yearsPlus_eq (span_front (fun c hc => hnumber c (hsuffix.subset hc)) hdigit)]
  cases hback : lstrip back with
  | nil => simp
  | cons c rest =>
    have hc : c ≠ '+' := by
      rintro rfl
      rw [hback] at hplus
      exact hplus rfl
    simp [hc]

namespace YearsPlace

variable (place : YearsPlace)

/-- What stands before the place is scanned by itself. -/
theorem scan_before (low : Numeral) (back : List Char) :
    scan yearsRange (place.before ++ (low.digits ++ back))
        = scan yearsRange place.before ++ scan yearsRange (low.digits ++ back) ∧
      scan yearsPlus (place.before ++ (low.digits ++ back))
        = scan yearsPlus place.before ++ scan yearsPlus (low.digits ++ back) := by
  obtain ⟨digit, digits, hcons⟩ := List.exists_cons_of_ne_nil low.nonempty
  have hdigit := low.decimal digit (hcons ▸ List.mem_cons_self)
  rw [hcons, List.cons_append]
  refine ⟨scan_append_of_apart (fun text x length hmatch => (length_yearsRange hmatch).2)
    fun text hne hsuffix => ?_,
    scan_append_of_apart (fun text x length hmatch => (length_yearsPlus hmatch).2)
    fun text hne hsuffix => ?_⟩
  · exact yearsRange_append hne (place.apart.suffix hsuffix) hdigit _
  · exact yearsPlus_append hne (place.apart.suffix hsuffix) hdigit _

theorem scan_unit {β : Type} {pattern : List Char → Option (β × ℕ)}
    (hpattern : ∀ {c}, isDecimalDigit c = false → ∀ rest, pattern (c :: rest) = none) :
    scan pattern (place.unit ++ place.after) = scan pattern place.after :=
  scan_append_of_none (fun c hc => hpattern (place.isUnit.no_digit c hc)) _

theorem scan_plus {β : Type} {pattern : List Char → Option (β × ℕ)}
    (hpattern : ∀ {c}, isDecimalDigit c = false → ∀ rest, pattern (c :: rest) = none) :
    scan pattern ('+' :: (place.unit ++ place.after)) = scan pattern place.after := by
  have hplus : scan pattern (['+'] ++ (place.unit ++ place.after))
      = scan pattern (place.unit ++ place.after) :=
    scan_append_of_none
      (fun c hc => hpattern (by obtain rfl := List.mem_singleton.mp hc; decide)) _
  exact hplus.trans (place.scan_unit hpattern)

theorem head_unit : ∀ c ∈ (place.unit ++ place.after).head?, isDecimalDigit c = false := by
  have hne : place.unit ≠ [] := by
    obtain ⟨gap, -, h⟩ := place.isUnit
    rcases h with h | h | h <;> simp [h]
  intro c hc
  rw [List.head?_append_of_ne_nil _ hne] at hc
  exact place.isUnit.no_digit c (List.mem_of_mem_head? hc)

theorem yearsRange_range (low high : Numeral) :
    scan yearsRange (place.range low high)
      = scan yearsRange place.before ++
        (low.digits, high.digits) :: scan yearsRange place.after := by
  have hmatch := yearsRange_of_range low.nonempty low.decimal place.isSign high.nonempty
    high.decimal place.head_unit
  have hfront : low.digits ++ place.sign ++ high.digits ++ place.unit ++ place.after
      = low.digits ++ (place.sign ++ high.digits ++ place.unit ++ place.after) := by simp
  rw [range, hfront, (place.scan_before low _).1, ← hfront, List.append_assoc _ place.unit,
    scan_of_match _ _ hmatch, List.drop_left, place.scan_unit yearsRange_of_no_digit]
  · exact (length_yearsRange hmatch).1
  · simp [low.nonempty]

theorem yearsPlus_range (low high : Numeral) :
    scan yearsPlus (place.range low high) = place.pluses := by
  have hfront : low.digits ++ place.sign ++ high.digits ++ place.unit ++ place.after
      = low.digits ++ (place.sign ++ (high.digits ++ (place.unit ++ place.after))) := by simp
  obtain ⟨mark, rest, hmark, hcons⟩ :=
    place.isSign.head (high.digits ++ (place.unit ++ place.after))
  have hne : mark ≠ '+' := by
    rintro rfl
    revert hmark
    decide
  have hhead : ∀ c ∈ (place.sign ++ (high.digits ++ (place.unit ++ place.after))).head?,
      isDecimalDigit c = false := by
    have hsign : place.sign ≠ [] := by
      obtain ⟨gap, marks, gap', h, hmarks, -⟩ := place.isSign
      simp [h, hmarks]
    intro c hc
    rw [List.head?_append_of_ne_nil _ hsign] at hc
    exact place.isSign.no_digit c (List.mem_of_mem_head? hc)
  rw [range, hfront, (place.scan_before low _).2,
    scan_yearsPlus_number low.decimal hhead (by rw [hcons]; simpa using hne),
    scan_append_of_none fun c hc => yearsPlus_of_no_digit (place.isSign.no_digit c hc),
    scan_yearsPlus_number high.decimal place.head_unit (place.isUnit.no_plus _),
    place.scan_unit yearsPlus_of_no_digit, pluses]

theorem yearsRange_plus (low : Numeral) :
    scan yearsRange (place.plus low) = place.ranges := by
  have hfront : low.digits ++ '+' :: place.unit ++ place.after
      = low.digits ++ ('+' :: (place.unit ++ place.after)) := by simp
  have hskip : scan yearsRange (low.digits ++ '+' :: (place.unit ++ place.after))
      = scan yearsRange ('+' :: (place.unit ++ place.after)) := by
    refine scan_append_of_skipped fun text _ hsuffix => ?_
    rw [yearsRange_eq (span_front (fun c hc => low.decimal c (hsuffix.subset hc)) (by simp; decide))
      ⟨rfl, rfl⟩ ⟨rfl, rfl⟩ ⟨rfl, rfl⟩ ⟨rfl, rfl⟩, if_pos (.inr (.inl rfl))]
  rw [plus, hfront, (place.scan_before low _).1, hskip, place.scan_plus yearsRange_of_no_digit,
    ranges]

theorem yearsPlus_plus (low : Numeral) :
    scan yearsPlus (place.plus low)
      = scan yearsPlus place.before ++ low.digits :: scan yearsPlus place.after := by
  have hfront : low.digits ++ '+' :: place.unit ++ place.after
      = low.digits ++ ('+' :: (place.unit ++ place.after)) := by simp
  have hmatch : yearsPlus (low.digits ++ '+' :: (place.unit ++ place.after))
      = some (low.digits, low.digits.length) := by
    have hplus : lstrip ('+' :: (place.unit ++ place.after)) = '+' :: (place.unit ++ place.after) :=
      rfl
    rw [yearsPlus_eq (span_front low.decimal (by simp; decide)), if_neg low.nonempty, hplus]
    exact if_pos (place.isUnit.found place.after)
  rw [plus, hfront, (place.scan_before low _).2, scan_of_match _ _ hmatch, List.drop_left,
    place.scan_plus yearsPlus_of_no_digit]
  · exact (length_yearsPlus hmatch).1
  · simp

end YearsPlace

/-! ### The years found -/

/-- `min` and `max` in one match. -/
theorem YearsFound.add_eq (found : YearsFound) (years : ℕ × ℕ) :
    found.add years = ⟨some (found.yearMin.elim years.1 (min · years.1)),
      some (found.yearMax.elim years.2 (max · years.2))⟩ := by
  obtain ⟨least, most⟩ := found
  have hleast : (if least.all (years.1 < ·) then some years.1 else least)
      = some (least.elim years.1 (min · years.1)) := by
    cases least with
    | none => rfl
    | some n => grind
  have hmost : (if most.all (· < years.2) then some years.2 else most)
      = some (most.elim years.2 (max · years.2)) := by
    cases most with
    | none => rfl
    | some n => grind
  rw [YearsFound.add, hleast, hmost]

instance : RightCommutative YearsFound.add where
  right_comm found a b := by
    simp only [YearsFound.add_eq, Option.elim_some]
    cases found.yearMin <;> cases found.yearMax <;>
      simp [Nat.min_comm, Nat.max_comm, Nat.min_left_comm, Nat.max_left_comm]

/-- The order in which the patterns find the years does not matter. -/
theorem YearsFound.foldl_add (low high : ℕ) (others : List (ℕ × ℕ)) :
    others.foldl YearsFound.add ⟨some low, some high⟩
      = ⟨some (others.foldl (fun least years => min least years.1) low),
          some (others.foldl (fun most years => max most years.2) high)⟩ := by
  induction others generalizing low high with
  | nil => rfl
  | cons years others ih => rw [List.foldl_cons, YearsFound.add_eq]; exact ih _ _

/-- `int` of numbers that are not too long. -/
theorem readYears_ok_iff {digits : List Char} {years : ℕ} :
    readYears digits = .ok years ↔ digits.length ≤ 4300 ∧ digitsValue digits = years := by
  unfold readYears
  split
  · next hfits => simp [hfits]
  · next hlong => simp [hlong]

theorem yearsEvidence_of_read {found : List Char} (h : YearsRead found) :
    yearsEvidence found = .ok (((scan yearsRange found).map rangeValue ++
      (scan yearsPlus found).map plusValue).foldl YearsFound.add {}) := by
  have hranges : (scan yearsRange found).mapM readRange
      = .ok ((scan yearsRange found).map rangeValue) := by
    refine mapM_of_ok fun range hrange => ?_
    obtain ⟨hlow, hhigh⟩ := h.ranges range hrange
    rw [readRange, readYears_ok_iff.mpr ⟨hlow, rfl⟩, readYears_ok_iff.mpr ⟨hhigh, rfl⟩]
    rfl
  have hpluses : (scan yearsPlus found).mapM readPlus
      = .ok ((scan yearsPlus found).map plusValue) := by
    refine mapM_of_ok fun digits hdigits => ?_
    rw [readPlus, readYears_ok_iff.mpr ⟨h.pluses digits hdigits, rfl⟩]
    rfl
  rw [yearsEvidence, hranges, hpluses]
  rfl

namespace YearsPlace

variable {place : YearsPlace}

theorem yearsRead_range {low high : Numeral} :
    YearsRead (place.range low high) ↔ place.Short ∧ low.Short ∧ high.Short := by
  have hsplit : (∀ range ∈ scan yearsRange (place.range low high),
      range.1.length ≤ 4300 ∧ range.2.length ≤ 4300) ↔
        (∀ range ∈ place.ranges, range.1.length ≤ 4300 ∧ range.2.length ≤ 4300) ∧
          low.Short ∧ high.Short := by
    rw [yearsRange_range, ranges, List.forall_mem_append, List.forall_mem_append,
      List.forall_mem_cons]
    exact ⟨fun ⟨hbefore, hrange, hafter⟩ => ⟨⟨hbefore, hafter⟩, hrange⟩,
      fun ⟨⟨hbefore, hafter⟩, hrange⟩ => ⟨hbefore, hrange, hafter⟩⟩
  constructor
  · rintro ⟨hranges, hpluses⟩
    rw [yearsPlus_range] at hpluses
    obtain ⟨hothers, hlow, hhigh⟩ := hsplit.mp hranges
    exact ⟨⟨hothers, hpluses⟩, hlow, hhigh⟩
  · rintro ⟨⟨hothers, hpluses⟩, hlow, hhigh⟩
    exact ⟨hsplit.mpr ⟨hothers, hlow, hhigh⟩, by rwa [yearsPlus_range]⟩

theorem yearsRead_plus {low : Numeral} :
    YearsRead (place.plus low) ↔ place.Short ∧ low.Short := by
  have hsplit : (∀ digits ∈ scan yearsPlus (place.plus low), digits.length ≤ 4300) ↔
      (∀ digits ∈ place.pluses, digits.length ≤ 4300) ∧ low.Short := by
    rw [yearsPlus_plus, pluses, List.forall_mem_append, List.forall_mem_append,
      List.forall_mem_cons]
    exact ⟨fun ⟨hbefore, hplus, hafter⟩ => ⟨⟨hbefore, hafter⟩, hplus⟩,
      fun ⟨⟨hbefore, hafter⟩, hplus⟩ => ⟨hbefore, hplus, hafter⟩⟩
  constructor
  · rintro ⟨hranges, hpluses⟩
    rw [yearsRange_plus] at hranges
    obtain ⟨hothers, hlow⟩ := hsplit.mp hpluses
    exact ⟨⟨hranges, hothers⟩, hlow⟩
  · rintro ⟨⟨hranges, hothers⟩, hlow⟩
    exact ⟨by rwa [yearsRange_plus], hsplit.mpr ⟨hothers, hlow⟩⟩

/-- Years in whatever order with the other ones of the text. -/
theorem foldl_perm {years : List (ℕ × ℕ)} {low high : ℕ}
    (h : years.Perm ((low, high) :: place.others)) :
    years.foldl YearsFound.add {} = ⟨some (place.least low), some (place.most high)⟩ := by
  rw [h.foldl_eq, List.foldl_cons, YearsFound.add_eq]
  exact YearsFound.foldl_add low high place.others

theorem yearsEvidence_range {low high : Numeral} (h : YearsRead (place.range low high)) :
    yearsEvidence (place.range low high)
      = .ok ⟨some (place.least low.value), some (place.most high.value)⟩ := by
  rw [yearsEvidence_of_read h, yearsRange_range, yearsPlus_range, foldl_perm]
  rw [others, ranges, List.map_append, List.map_append, List.map_cons, List.append_assoc,
    List.append_assoc]
  exact List.perm_middle

theorem yearsEvidence_plus {low : Numeral} (h : YearsRead (place.plus low)) :
    yearsEvidence (place.plus low)
      = .ok ⟨some (place.least low.value), some (place.most low.value)⟩ := by
  rw [yearsEvidence_of_read h, yearsRange_plus, yearsPlus_plus, foldl_perm]
  rw [others, pluses, List.map_append (f := plusValue), List.map_append (f := plusValue),
    List.map_cons, ← List.append_assoc, ← List.append_assoc]
  exact List.perm_middle

theorem least_le (low : ℕ) : place.least low ≤ low := by
  have hfold : ∀ (years : List (ℕ × ℕ)) (n : ℕ),
      years.foldl (fun least years => min least years.1) n ≤ n := by
    intro years
    induction years with
    | nil => exact fun n => Nat.le_refl n
    | cons pair years ih => exact fun n => (ih _).trans (Nat.min_le_left _ _)
  exact hfold place.others low

theorem le_most (high : ℕ) : high ≤ place.most high := by
  have hfold : ∀ (years : List (ℕ × ℕ)) (n : ℕ),
      n ≤ years.foldl (fun most years => max most years.2) n := by
    intro years
    induction years with
    | nil => exact fun n => Nat.le_refl n
    | cons pair years ih => exact fun n => (Nat.le_max_left _ _).trans (ih _)
  exact hfold place.others high

theorem least_mono {low low' : ℕ} (h : low ≤ low') : place.least low ≤ place.least low' := by
  have hfold : ∀ (years : List (ℕ × ℕ)) (n m : ℕ), n ≤ m →
      years.foldl (fun least years => min least years.1) n
        ≤ years.foldl (fun least years => min least years.1) m := by
    intro years
    induction years with
    | nil => exact fun n m hle => hle
    | cons pair years ih => exact fun n m hle => ih _ _ (by dsimp only; omega)
  exact hfold place.others low low' h

theorem most_mono {high high' : ℕ} (h : high ≤ high') : place.most high ≤ place.most high' := by
  have hfold : ∀ (years : List (ℕ × ℕ)) (n m : ℕ), n ≤ m →
      years.foldl (fun most years => max most years.2) n
        ≤ years.foldl (fun most years => max most years.2) m := by
    intro years
    induction years with
    | nil => exact fun n m hle => hle
    | cons pair years ih => exact fun n m hle => ih _ _ (by dsimp only; omega)
  exact hfold place.others high high' h

end YearsPlace

/-! ### The level as a function of the years -/

/-- The levels from the lowest to the highest. -/
def levelOrder : List ExperienceLevel := [.entryLevel, .junior, .midLevel, .senior]

/-- A level is not above another. -/
def ExperienceLevel.AtMost (level level' : ExperienceLevel) : Prop :=
  levelOrder.idxOf level ≤ levelOrder.idxOf level'

instance (level level' : ExperienceLevel) : Decidable (level.AtMost level') :=
  inferInstanceAs (Decidable (_ ≤ _))

/-- The thresholds, on a smallest number that is not above the largest. -/
theorem YearsFound.level_eq {least most : ℕ} (h : least ≤ most) :
    YearsFound.level ⟨some least, some most⟩ =
      if 3 ≤ least ∧ most ≤ 5 then .midLevel
      else if 5 ≤ most then .senior
      else if 3 ≤ most then .midLevel
      else if 1 ≤ most then .junior
      else .entryLevel := by
  simp only [level, Option.any_some, Bool.and_eq_true, decide_eq_true_eq]
  grind

/-- The one place where more years mean a lower level. -/
theorem YearsFound.level_atMost_iff {least most least' most' : ℕ} (h : least ≤ most)
    (h' : least' ≤ most') (hleast : least ≤ least') (hmost : most ≤ most') :
    (level ⟨some least, some most⟩).AtMost (level ⟨some least', some most'⟩) ↔
      ¬ (most = 5 ∧ most' = 5 ∧ least < 3 ∧ 3 ≤ least') := by
  rw [level_eq h, level_eq h', ExperienceLevel.AtMost]
  split_ifs <;> simp [levelOrder] <;> omega

/-! ### The level of a job -/

/-- The texts of a job without a level of its own. -/
structure JobText where
  title : String
  description : Option String := none
  requirements : Option String := none

/-- The level inferred for it. -/
def JobText.level (job : JobText) : Except PyException ExperienceLevel :=
  experienceLevelOf job.title job.description job.requirements

/-- Its texts together read so, and no keyword names a level. -/
def JobText.States (job : JobText) (text : List Char) : Prop :=
  (levelText job.title job.description job.requirements).toList = text ∧
    keywordLevel (levelText job.title job.description job.requirements) = none

/-- A range of years. -/
structure YearsRange where
  low : Numeral
  high : Numeral
  le : low.value ≤ high.value

/-- One range after its numbers have been raised. -/
def YearsRange.RaisedTo (years years' : YearsRange) : Prop :=
  years.low.value ≤ years'.low.value ∧ years.high.value ≤ years'.high.value

/-- `int` reads both numbers. -/
def YearsRange.Short (years : YearsRange) : Prop := years.low.Short ∧ years.high.Short

/-- Five years stay the most, and the least are raised from below three to three or more. -/
def YearsPlace.Dips (place : YearsPlace) (years years' : YearsRange) : Prop :=
  place.most years.high.value = 5 ∧ place.most years'.high.value = 5 ∧
    place.least years.low.value < 3 ∧ 3 ≤ place.least years'.low.value

/-- Both have a level, and the second one's is not below the first one's. -/
def JobText.NotAbove (job job' : JobText) : Prop :=
  ∃ level level', job.level = .ok level ∧ job'.level = .ok level' ∧ level.AtMost level'

/-- Both have the same level, or none. -/
def JobText.SameLevel (job job' : JobText) : Prop :=
  ∀ level, job.level = .ok level ↔ job'.level = .ok level

theorem JobText.States.level_eq {job : JobText} {text : List Char} (h : job.States text) :
    job.level = (yearsEvidence text).map YearsFound.level := by
  obtain ⟨htext, hkeyword⟩ := h
  unfold JobText.level experienceLevelOf
  dsimp only
  generalize levelText job.title job.description job.requirements = found at htext hkeyword ⊢
  subst htext
  rw [hkeyword]

theorem JobText.States.level_range {job : JobText} {place : YearsPlace} {low high : Numeral}
    (h : job.States (place.range low high)) {level : ExperienceLevel} :
    job.level = .ok level ↔ (place.Short ∧ low.Short ∧ high.Short) ∧
      YearsFound.level ⟨some (place.least low.value), some (place.most high.value)⟩ = level := by
  rw [h.level_eq, ← YearsPlace.yearsRead_range]
  constructor
  · intro hlevel
    obtain ⟨found, hfound, hof⟩ := ok_map_iff.mp hlevel
    have hread := (goodWhen_yearsEvidence _).of_ok hfound
    rw [YearsPlace.yearsEvidence_range hread] at hfound
    cases hfound
    exact ⟨hread, hof⟩
  · rintro ⟨hread, rfl⟩
    rw [YearsPlace.yearsEvidence_range hread]
    rfl

theorem JobText.States.level_plus {job : JobText} {place : YearsPlace} {low : Numeral}
    (h : job.States (place.plus low)) {level : ExperienceLevel} :
    job.level = .ok level ↔ (place.Short ∧ low.Short) ∧
      YearsFound.level ⟨some (place.least low.value), some (place.most low.value)⟩ = level := by
  rw [h.level_eq, ← YearsPlace.yearsRead_plus]
  constructor
  · intro hlevel
    obtain ⟨found, hfound, hof⟩ := ok_map_iff.mp hlevel
    have hread := (goodWhen_yearsEvidence _).of_ok hfound
    rw [YearsPlace.yearsEvidence_plus hread] at hfound
    cases hfound
    exact ⟨hread, hof⟩
  · rintro ⟨hread, rfl⟩
    rw [YearsPlace.yearsEvidence_plus hread]
    rfl

/-- `low+ years` is as good as `low - low years`. -/
theorem JobText.sameLevel_of_plus {job job' : JobText} {place : YearsPlace} {low : Numeral}
    (h : job.States (place.plus low)) (h' : job'.States (place.range low low)) :
    job.SameLevel job' := by
  intro level
  rw [h.level_plus, h'.level_range, and_self]

/-- Where one range of years is stated, raising its numbers lowers no level unless five years stay
    the most and the least pass three; a number with a plus counts as both ends of a range. -/
theorem level_monotone_iff {place : YearsPlace} {years years' : YearsRange}
    (hraise : years.RaisedTo years') {job job' jobPlus jobBoth : JobText}
    (h : job.States (place.range years.low years.high))
    (h' : job'.States (place.range years'.low years'.high))
    (hplus : jobPlus.States (place.plus years.low))
    (hboth : jobBoth.States (place.range years.low years.low)) :
    (job.NotAbove job' ∧ jobPlus.SameLevel jobBoth) ↔
      place.Short ∧ years.Short ∧ years'.Short ∧ ¬ place.Dips years years' := by
  have hle : place.least years.low.value ≤ place.most years.high.value :=
    (place.least_le _).trans (years.le.trans (place.le_most _))
  have hle' : place.least years'.low.value ≤ place.most years'.high.value :=
    (place.least_le _).trans (years'.le.trans (place.le_most _))
  have hdips := YearsFound.level_atMost_iff hle hle' (place.least_mono hraise.1)
    (place.most_mono hraise.2)
  constructor
  · rintro ⟨⟨level, level', hlevel, hlevel', hatMost⟩, -⟩
    obtain ⟨⟨hothers, hshort⟩, rfl⟩ := h.level_range.mp hlevel
    obtain ⟨⟨-, hshort'⟩, rfl⟩ := h'.level_range.mp hlevel'
    exact ⟨hothers, hshort, hshort', hdips.mp hatMost⟩
  · rintro ⟨hothers, hshort, hshort', hnone⟩
    exact ⟨⟨_, _, h.level_range.mpr ⟨⟨hothers, hshort⟩, rfl⟩,
      h'.level_range.mpr ⟨⟨hothers, hshort'⟩, rfl⟩, hdips.mpr hnone⟩,
      JobText.sameLevel_of_plus hplus hboth⟩

/-- A text that is a range of years. -/
def bareYears : YearsPlace where
  before := []
  sign := " - ".toList
  unit := " years".toList
  after := []
  apart := by
    intro front low sign hsplit hlow
    simp [hlow] at hsplit
  isSign := ⟨[' '], ['-'], [' '], rfl, by simp, by decide, by decide, by decide⟩
  isUnit := ⟨[' '], by decide, .inl rfl⟩

/-- One digit. -/
def digitNumeral (c : Char) (h : isDecimalDigit c = true) : Numeral where
  digits := [c]
  nonempty := List.cons_ne_nil c []
  decimal := by simpa using h

theorem bareYears_others : bareYears.ranges = [] ∧ bareYears.pluses = [] := ⟨rfl, rfl⟩

theorem bareYears_short : bareYears.Short := by
  simp [YearsPlace.Short, bareYears_others]

/-- From `1 - 2 years` to `3 - 5 years` the level rises, and `1+ years` is `1 - 1 years`. -/
theorem level_monotone_one_to_three :
    JobText.NotAbove ⟨"1 - 2 years", none, none⟩ ⟨"3 - 5 years", none, none⟩ ∧
      JobText.SameLevel ⟨"1+ years", none, none⟩ ⟨"1 - 1 years", none, none⟩ := by
  refine (@level_monotone_iff bareYears
    ⟨digitNumeral '1' (by decide), digitNumeral '2' (by decide), by decide⟩
    ⟨digitNumeral '3' (by decide), digitNumeral '5' (by decide), by decide⟩
    ⟨by decide, by decide⟩ _ _ _ _ ⟨by decide, by decide⟩ ⟨by decide, by decide⟩
    ⟨by decide, by decide⟩ ⟨by decide, by decide⟩).mpr ⟨bareYears_short, ?_, ?_, ?_⟩
  · simp [YearsRange.Short, Numeral.Short, digitNumeral]
  · simp [YearsRange.Short, Numeral.Short, digitNumeral]
  · rintro ⟨hmost, -⟩
    revert hmost
    decide

/-- `2 - 5 years` is senior, `3 - 5 years` is not. -/
theorem two_to_five_above_three_to_five :
    ¬ JobText.NotAbove ⟨"2 - 5 years", none, none⟩ ⟨"3 - 5 years", none, none⟩ := by
  have hfirst : JobText.level ⟨"2 - 5 years", none, none⟩ = .ok .senior := by rfl
  have hsecond : JobText.level ⟨"3 - 5 years", none, none⟩ = .ok .midLevel := by rfl
  rintro ⟨level, level', hlevel, hlevel', hatMost⟩
  rw [hfirst] at hlevel
  rw [hsecond] at hlevel'
  cases hlevel
  cases hlevel'
  revert hatMost
  decide

end Bisakerja
