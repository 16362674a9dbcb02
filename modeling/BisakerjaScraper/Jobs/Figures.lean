import BisakerjaScraper.Jobs.SalaryReads
import BisakerjaScraper.Schemes.Words

/-! Numbers as salary labels write them.

    A number has digits, perhaps groups of three digits behind marks of one kind, and perhaps
    decimals behind a mark of the other kind. The pattern takes three decimals at most, and the
    reader guesses from the marks alone which of them group digits. -/

namespace Bisakerja
open Schemes PyDecimal

/-- A number as a label writes it: `5.000.000,5` the Indonesian way, `5,000,000.5` the other. -/
structure Figure where
  indonesian : Bool
  head : List Char
  groups : List (List Char)
  decimals : List Char
  head_ne : head ≠ []
  head_digit : ∀ c ∈ head, isDecimalDigit c = true
  group_length : ∀ group ∈ groups, group.length = 3
  group_digit : ∀ group ∈ groups, ∀ c ∈ group, isDecimalDigit c = true
  decimal_digit : ∀ c ∈ decimals, isDecimalDigit c = true

namespace Figure

variable (figure : Figure)

/-- The mark before a group. -/
def groupMark : Char := if figure.indonesian then '.' else ','

/-- The mark before the decimals. -/
def decimalMark : Char := if figure.indonesian then ',' else '.'

/-- The groups with their marks. -/
def groupText : List Char := figure.groups.flatMap (figure.groupMark :: ·)

/-- The decimals with their mark. -/
def decimalText : List Char :=
  if figure.decimals = [] then [] else figure.decimalMark :: figure.decimals

/-- The number as it stands in a label. -/
def text : List Char := figure.head ++ figure.groupText ++ figure.decimalText

/-- The number without its decimal mark. -/
def coefficient : ℕ := digitsValue (figure.head ++ figure.groups.flatten ++ figure.decimals)

/-- The number with three decimals at most. -/
def seen : Figure :=
  { figure with
    decimals := figure.decimals.take 3
    decimal_digit := fun c hc => figure.decimal_digit c (List.mem_of_mem_take hc) }

/-- The decimals behind the third. -/
def excess : List Char := figure.decimals.drop 3

/-! ### The pattern -/

theorem isSeparator_groupMark : isSeparator figure.groupMark = true := by
  unfold groupMark
  cases figure.indonesian <;> rfl

theorem isSeparator_decimalMark : isSeparator figure.decimalMark = true := by
  unfold decimalMark
  cases figure.indonesian <;> rfl

theorem isDecimalDigit_separator {c : Char} (h : isSeparator c = true) :
    isDecimalDigit c = false := by
  unfold isSeparator at h
  simp only [Bool.or_eq_true, decide_eq_true_eq] at h
  rcases h with rfl | rfl <;> decide

/-- A text does not begin with a separator and a digit. -/
def NoTail (text : List Char) : Prop :=
  ∀ c d rest, text = c :: d :: rest → isSeparator c = true → isDecimalDigit d = false

/-- A number ends before a text: neither a digit nor a separator and a digit follows, except that
    the pattern ends a number behind three decimals. -/
def Ends (rest : List Char) : Prop :=
  (∀ c ∈ rest.head?, isDecimalDigit c = true → figure.decimals.length = 3) ∧ NoTail rest

theorem splitGroups_of_noTail {text : List Char} (h : NoTail text) :
    splitGroups text = ([], text) := by
  unfold splitGroups
  split
  · next c d e f rest =>
    by_cases hc : isSeparator c = true
    · simp [h c d _ rfl hc]
    · simp [hc]
  · rfl

theorem splitTail_of_noTail {text : List Char} (h : NoTail text) : splitTail text = ([], text) := by
  unfold splitTail
  split
  · next c d rest =>
    by_cases hc : isSeparator c = true
    · simp [h c d _ rfl hc]
    · simp [hc]
  · rfl

theorem splitGroups_group {mark : Char} (hmark : isSeparator mark = true) {group : List Char}
    (hlength : group.length = 3) (hdigit : ∀ c ∈ group, isDecimalDigit c = true)
    (rest : List Char) :
    splitGroups (mark :: (group ++ rest))
      = (mark :: (group ++ (splitGroups rest).1), (splitGroups rest).2) := by
  obtain ⟨a, b, c, rfl⟩ := List.length_eq_three.mp hlength
  have hall : [a, b, c].all isDecimalDigit = true := List.all_eq_true.mpr hdigit
  simp only [List.cons_append, List.nil_append, splitGroups]
  rw [if_pos (by rw [hmark, hall]; rfl)]

theorem splitGroups_groupText (rest : List Char) :
    splitGroups (figure.groupText ++ rest)
      = (figure.groupText ++ (splitGroups rest).1, (splitGroups rest).2) := by
  have hgroups : ∀ groups : List (List Char), (∀ group ∈ groups, group ∈ figure.groups) →
      splitGroups (groups.flatMap (figure.groupMark :: ·) ++ rest)
        = (groups.flatMap (figure.groupMark :: ·) ++ (splitGroups rest).1,
            (splitGroups rest).2) := by
    intro groups hmem
    induction groups with
    | nil => rfl
    | cons group groups ih =>
      have hgroup := hmem group List.mem_cons_self
      have hrest := ih fun other hother => hmem other (List.mem_cons_of_mem _ hother)
      rw [List.flatMap_cons, List.append_assoc, List.cons_append,
        splitGroups_group figure.isSeparator_groupMark (figure.group_length _ hgroup)
          (figure.group_digit _ hgroup), hrest]
      simp
  exact hgroups figure.groups fun _ h => h

/-- The decimals are taken as a group or as the tail of the number. -/
theorem splitTail_decimalText {rest : List Char} (hlength : figure.decimals.length ≤ 3)
    (hends : figure.Ends rest) :
    (splitGroups (figure.decimalText ++ rest)).1
        ++ (splitTail (splitGroups (figure.decimalText ++ rest)).2).1 = figure.decimalText ∧
      (splitTail (splitGroups (figure.decimalText ++ rest)).2).2 = rest := by
  obtain ⟨hhead, htail⟩ := hends
  have hmark := figure.isSeparator_decimalMark
  have hdigit := figure.decimal_digit
  unfold decimalText
  rcases hdecimals : figure.decimals with - | ⟨a, decimals⟩
  · rw [if_pos rfl, List.nil_append, splitGroups_of_noTail htail, splitTail_of_noTail htail]
    simp
  · rw [hdecimals] at hlength hhead hdigit
    rw [if_neg (List.cons_ne_nil _ _), List.cons_append]
    by_cases hthree : (a :: decimals).length = 3
    · rw [splitGroups_group hmark hthree hdigit, splitGroups_of_noTail htail,
        splitTail_of_noTail htail]
      simp
    · have hrest : ∀ c ∈ rest.head?, isDecimalDigit c = false := by
        intro c hc
        by_contra hd
        exact hthree (hhead c hc (by simpa using hd))
      have hshort : splitGroups (figure.decimalMark :: (a :: decimals ++ rest))
          = ([], figure.decimalMark :: (a :: decimals ++ rest)) := by
        rcases decimals with - | ⟨b, decimals⟩
        · rcases rest with - | ⟨c, - | ⟨d, rest⟩⟩
          · rfl
          · rfl
          · simp [splitGroups, hrest c rfl]
        · rcases decimals with - | ⟨c, decimals⟩
          · rcases rest with - | ⟨d, rest⟩
            · rfl
            · simp [splitGroups, hrest d rfl]
          · simp only [List.length_cons] at hlength hthree
            omega
      have hsplit := splitDigits_append hdigit rest hrest
      have ha := hdigit a List.mem_cons_self
      rw [hshort, List.cons_append, splitTail, if_pos (by simp [hmark, ha]), ← List.cons_append,
        hsplit]
      simp

/-- The unit the pattern takes behind a number. -/
def unitBehind (rest : List Char) : Option (List Char) := matchUnit (rest.dropWhile isSpace)

/-- The pattern takes a number up to where it ends. -/
theorem matchNumber_text {rest : List Char} (hlength : figure.decimals.length ≤ 3)
    (hends : figure.Ends rest) :
    matchNumber (figure.text ++ rest)
      = some (⟨String.ofList figure.text, (unitBehind rest).map String.ofList⟩,
          figure.text.length + ((rest.takeWhile isSpace).length
            + ((unitBehind rest).getD []).length)) := by
  have hstart : ∀ c ∈ (figure.groupText ++ (figure.decimalText ++ rest)).head?,
      isDecimalDigit c = false := by
    intro c hc
    unfold groupText decimalText at hc
    rcases hgroups : figure.groups with - | ⟨group, groups⟩
    · rw [hgroups] at hc
      by_cases hdecimals : figure.decimals = []
      · by_contra hd
        have hthree := hends.1 c (by simpa [hdecimals] using hc) (by simpa using hd)
        rw [hdecimals] at hthree
        cases hthree
      · rw [if_neg hdecimals] at hc
        obtain rfl : figure.decimalMark = c := by simpa using hc
        exact isDecimalDigit_separator figure.isSeparator_decimalMark
    · rw [hgroups] at hc
      obtain rfl : figure.groupMark = c := by simpa using hc
      exact isDecimalDigit_separator figure.isSeparator_groupMark
  have hdigits := splitDigits_append figure.head_digit _ hstart
  have hne : figure.head.isEmpty = false := by simpa using figure.head_ne
  obtain ⟨htaken, hleft⟩ := figure.splitTail_decimalText hlength hends
  have htext : figure.head ++ (figure.groupText ++ (splitGroups (figure.decimalText ++ rest)).1)
      ++ (splitTail (splitGroups (figure.decimalText ++ rest)).2).1 = figure.text := by
    rw [List.append_assoc, List.append_assoc, htaken, text, List.append_assoc]
  have hnumber : figure.text ++ rest
      = figure.head ++ (figure.groupText ++ (figure.decimalText ++ rest)) := by
    simp only [text, List.append_assoc]
  rw [hnumber, matchNumber, hdigits]
  simp only [hne, Bool.false_eq_true, if_false, figure.splitGroups_groupText, hleft, htext,
    unitBehind]
  rw [← htext]
  simp only [List.length_append]
  congr 2
  omega

/-! ### The reader -/

/-- How many of the digits the reader takes for decimals. -/
def readDecimals : ℕ :=
  if figure.indonesian then figure.decimals.length
  else if figure.groups = [] then
    if figure.decimals.length = 3 then 0 else figure.decimals.length
  else 3 + figure.decimals.length

/-- The reader makes a number of it: there is one comma at most. -/
def Readable : Prop := figure.indonesian = true ∨ figure.groups.length ≤ 1

instance : Decidable figure.Readable := inferInstanceAs (Decidable (_ ∨ _))

/-- Digits behind a point, if there are any. -/
def pointed (fraction : List Char) : List Char := if fraction = [] then [] else '.' :: fraction

/-- Digits with a fraction behind a point are read as they are. -/
theorem ofText_pointed {whole fraction : List Char} (hne : whole ≠ [])
    (hwhole : ∀ c ∈ whole, isDecimalDigit c = true)
    (hfraction : ∀ c ∈ fraction, isDecimalDigit c = true) :
    ofText (String.ofList (whole ++ pointed fraction))
      = some (.finite false (digitsValue (whole ++ fraction)) (-fraction.length)) := by
  have hpointed : splitFraction (pointed fraction) = (fraction, []) := by
    unfold pointed
    split
    · next hnil =>
      rw [hnil]
      rfl
    · have hsplit := splitDigits_append hfraction [] nofun
      rwa [List.append_nil] at hsplit
  have hall : ∀ c ∈ pointed fraction, c = '.' ∨ isDecimalDigit c = true := by
    intro c hc
    unfold pointed at hc
    split at hc
    · cases hc
    · exact (List.mem_cons.mp hc).imp_right (hfraction c)
  have hstart : ∀ c ∈ (pointed fraction).head?, isDecimalDigit c = false := by
    intro c hc
    unfold pointed at hc
    split at hc
    · cases hc
    · obtain rfl : '.' = c := by simpa using hc
      decide
  rw [ofText_of_digits hne hwhole hall hstart, hpointed]
  simp [readExponent]

/-- Digits with two points are no number. -/
theorem ofText_two_points {whole fraction rest : List Char} (hne : whole ≠ [])
    (hwhole : ∀ c ∈ whole, isDecimalDigit c = true)
    (hfraction : ∀ c ∈ fraction, isDecimalDigit c = true)
    (hrest : ∀ c ∈ rest, c = '.' ∨ isDecimalDigit c = true) :
    ofText (String.ofList (whole ++ '.' :: (fraction ++ '.' :: rest))) = none := by
  have hpoint : isDecimalDigit '.' = false := by decide
  have hsplit := splitDigits_append hfraction ('.' :: rest) fun c hc => by
    obtain rfl : '.' = c := by simpa using hc
    exact hpoint
  rw [ofText_of_digits hne hwhole]
  · simp [splitFraction, hsplit, readExponent]
  · intro c hc
    simp only [List.mem_cons, List.mem_append] at hc
    rcases hc with rfl | hc | rfl | hc
    · exact .inl rfl
    · exact .inr (hfraction c hc)
    · exact .inl rfl
    · exact hrest c hc
  · intro c hc
    obtain rfl : '.' = c := by simpa using hc
    exact hpoint

theorem ne_mark {c : Char} (h : isDecimalDigit c = true) : c ≠ '.' ∧ c ≠ ',' :=
  ⟨ne_of_isDecimalDigit h (by decide), ne_of_isDecimalDigit h (by decide)⟩

/-- The commas of a text as points. -/
def pointCommas (text : List Char) : List Char := text.map fun c => if c = ',' then '.' else c

theorem pointCommas_digits {digits : List Char} (h : ∀ c ∈ digits, isDecimalDigit c = true) :
    pointCommas digits = digits := by
  refine (List.map_congr_left fun c hc => if_neg ?_).trans (List.map_id digits)
  exact (ne_mark (h c hc)).2

theorem filter_digits {digits : List Char} (h : ∀ c ∈ digits, isDecimalDigit c = true) :
    digits.filter (· ≠ '.') = digits :=
  List.filter_eq_self.mpr fun c hc => by simpa using (ne_mark (h c hc)).1

theorem not_mem_digits {digits : List Char} (h : ∀ c ∈ digits, isDecimalDigit c = true) :
    '.' ∉ digits ∧ ',' ∉ digits :=
  ⟨fun hmem => (ne_mark (h _ hmem)).1 rfl, fun hmem => (ne_mark (h _ hmem)).2 rfl⟩

/-- Points before groups are taken out. -/
theorem filter_points {groups : List (List Char)}
    (h : ∀ group ∈ groups, ∀ c ∈ group, isDecimalDigit c = true) :
    (groups.flatMap ('.' :: ·)).filter (· ≠ '.') = groups.flatten := by
  induction groups with
  | nil => rfl
  | cons group groups ih =>
    have hrest := ih fun other hother => h other (List.mem_cons_of_mem _ hother)
    rw [List.flatMap_cons, List.filter_append, hrest, List.filter_cons_of_neg (by simp),
      filter_digits (h group List.mem_cons_self), List.flatten_cons]

/-- Commas before groups stay. -/
theorem filter_commas {groups : List (List Char)}
    (h : ∀ group ∈ groups, ∀ c ∈ group, isDecimalDigit c = true) :
    (groups.flatMap (',' :: ·)).filter (· ≠ '.') = groups.flatMap (',' :: ·) := by
  refine List.filter_eq_self.mpr fun c hc => ?_
  obtain ⟨group, hgroup, hc⟩ := List.mem_flatMap.mp hc
  rcases List.mem_cons.mp hc with rfl | hc
  · rfl
  · simpa using (ne_mark (h group hgroup c hc)).1

theorem pointCommas_commas {groups : List (List Char)}
    (h : ∀ group ∈ groups, ∀ c ∈ group, isDecimalDigit c = true) :
    pointCommas (groups.flatMap (',' :: ·)) = groups.flatMap ('.' :: ·) := by
  unfold pointCommas
  rw [List.map_flatMap]
  refine List.flatMap_congr fun group hgroup => ?_
  exact congrArg ('.' :: ·) (pointCommas_digits (h group hgroup))

theorem mem_flatMap_mark {groups : List (List Char)} {mark c : Char}
    (h : ∀ group ∈ groups, ∀ d ∈ group, isDecimalDigit d = true)
    (hc : c ∈ groups.flatMap (mark :: ·)) : c = mark ∨ isDecimalDigit c = true := by
  obtain ⟨group, hgroup, hc⟩ := List.mem_flatMap.mp hc
  exact (List.mem_cons.mp hc).imp_right (h group hgroup c)

/-- A number has no whitespace. -/
theorem strip_text : strip (String.ofList figure.text) = String.ofList figure.text := by
  have hspace : ∀ c ∈ figure.text, isSpace c = false := by
    intro c hc
    have hmark : ∀ d, isSeparator d = true → isSpace d = false := by
      intro d hd
      unfold isSeparator at hd
      simp only [Bool.or_eq_true, decide_eq_true_eq] at hd
      rcases hd with rfl | rfl <;> rfl
    unfold text at hc
    rcases List.mem_append.mp hc with hc | hc
    · rcases List.mem_append.mp hc with hc | hc
      · exact isSpace_of_isDecimalDigit (figure.head_digit c hc)
      · rcases mem_flatMap_mark figure.group_digit hc with rfl | hd
        · exact hmark _ figure.isSeparator_groupMark
        · exact isSpace_of_isDecimalDigit hd
    · unfold decimalText at hc
      split at hc
      · cases hc
      · rcases List.mem_cons.mp hc with rfl | hc
        · exact hmark _ figure.isSeparator_decimalMark
        · exact isSpace_of_isDecimalDigit (figure.decimal_digit c hc)
  exact strip_ofList (fun c hc => hspace c (List.mem_of_mem_head? hc))
    fun c hc => hspace c (List.mem_of_getLast? hc)

/-- What the reader makes of the text between the ends. -/
theorem parseDecimalNumber_text :
    parseDecimalNumber (String.ofList figure.text) = ofText (String.ofList
      (if ',' ∈ figure.text ∧ '.' ∈ figure.text then
        pointCommas (figure.text.filter (· ≠ '.'))
      else if ',' ∈ figure.text then pointCommas figure.text
      else if 1 < figure.text.count '.' then figure.text.filter (· ≠ '.')
      else
        match splitPoints figure.text with
        | [whole, fraction] => if fraction.length = 3 then whole ++ fraction else figure.text
        | _ => figure.text)) := by
  have hne : figure.text ≠ [] := by simp [text, figure.head_ne]
  unfold parseDecimalNumber
  rw [figure.strip_text, String.toList_ofList]
  simp only [List.isEmpty_iff, hne, if_false, List.contains_eq_mem, Bool.and_eq_true,
    decide_eq_true_eq]
  rfl

theorem whole_digit : ∀ c ∈ figure.head ++ figure.groups.flatten, isDecimalDigit c = true := by
  intro c hc
  rcases List.mem_append.mp hc with hc | hc
  · exact figure.head_digit c hc
  · obtain ⟨group, hgroup, hc⟩ := List.mem_flatten.mp hc
    exact figure.group_digit group hgroup c hc

/-- The Indonesian way, a number is read as it is written. -/
theorem parse_indonesian (h : figure.indonesian = true) :
    parseDecimalNumber (String.ofList figure.text)
      = some (.finite false figure.coefficient (-figure.decimals.length)) := by
  obtain ⟨hheadPoint, hheadComma⟩ := not_mem_digits figure.head_digit
  obtain ⟨hdecimalPoint, hdecimalComma⟩ := not_mem_digits figure.decimal_digit
  have hne : figure.head ++ figure.groups.flatten ≠ [] := by simp [figure.head_ne]
  have hread := ofText_pointed hne figure.whole_digit figure.decimal_digit
  have hgroups : figure.groupText = figure.groups.flatMap ('.' :: ·) := by
    unfold groupText groupMark
    rw [if_pos h]
  have hgroupComma : ',' ∉ figure.groupText := by
    intro hmem
    rw [hgroups] at hmem
    rcases mem_flatMap_mark figure.group_digit hmem with hc | hc
    · cases hc
    · exact (ne_mark hc).2 rfl
  have hgroupFilter : figure.groupText.filter (· ≠ '.') = figure.groups.flatten := by
    rw [hgroups, filter_points figure.group_digit]
  rw [figure.parseDecimalNumber_text]
  by_cases hdecimals : figure.decimals = []
  · have htext : figure.text = figure.head ++ figure.groupText := by
      simp [text, decimalText, hdecimals]
    have hwhole : figure.text.filter (· ≠ '.') = figure.head ++ figure.groups.flatten := by
      rw [htext, List.filter_append, filter_digits figure.head_digit, hgroupFilter]
    have hcomma : ',' ∉ figure.text := by simp [htext, hheadComma, hgroupComma]
    rw [if_neg (by simp [hcomma]), if_neg hcomma]
    have hwholeRead : ofText (String.ofList (figure.head ++ figure.groups.flatten))
        = some (.finite false figure.coefficient (-figure.decimals.length)) := by
      rw [hdecimals] at hread
      simpa [pointed, coefficient, hdecimals] using hread
    rcases hlist : figure.groups with - | ⟨group, - | ⟨next, groups⟩⟩
    · have hhead : figure.text = figure.head := by simp [htext, groupText, hlist]
      rw [hhead, if_neg (by simp [List.count_eq_zero.mpr hheadPoint]), splitPoints,
        List.splitOn_eq_singleton hheadPoint]
      simpa [hlist] using hwholeRead
    · have hone : figure.text = figure.head ++ '.' :: group := by
        simp [htext, hgroups, hlist]
      have hmem : group ∈ figure.groups := by simp [hlist]
      have hpoint := (not_mem_digits (figure.group_digit group hmem)).1
      have hcount : figure.text.count '.' = 1 := by
        simp [hone, List.count_eq_zero.mpr hheadPoint, List.count_eq_zero.mpr hpoint]
      have hsplit : splitPoints figure.text = [figure.head, group] := by
        rw [hone, splitPoints, List.splitOn_append_cons_self_of_not_mem hheadPoint,
          List.splitOn_eq_singleton hpoint]
      rw [if_neg (by omega), hsplit]
      dsimp only
      rw [if_pos (figure.group_length group hmem)]
      simpa [hlist] using hwholeRead
    · have hcount : 1 < figure.text.count '.' := by
        simp [htext, hgroups, hlist]
        omega
      rw [if_pos hcount, hwhole, hwholeRead]
  · have htext : figure.text = figure.head ++ figure.groupText ++ ',' :: figure.decimals := by
      simp [text, decimalText, hdecimals, decimalMark, h]
    have hcomma : ',' ∈ figure.text := by simp [htext]
    have hpointed : figure.head ++ figure.groups.flatten ++ pointed figure.decimals
        = figure.head ++ figure.groups.flatten ++ '.' :: figure.decimals := by
      simp [pointed, hdecimals]
    have hlast : pointCommas (figure.head ++ figure.groups.flatten ++ ',' :: figure.decimals)
        = figure.head ++ figure.groups.flatten ++ pointed figure.decimals := by
      have hwhole := pointCommas_digits figure.whole_digit
      have hdigits := pointCommas_digits figure.decimal_digit
      unfold pointCommas at hwhole hdigits ⊢
      rw [List.map_append, hwhole, List.map_cons, hdigits, hpointed]
      rfl
    by_cases hpoint : '.' ∈ figure.text
    · have hfilter : figure.text.filter (· ≠ '.')
          = figure.head ++ figure.groups.flatten ++ ',' :: figure.decimals := by
        rw [htext, List.filter_append, List.filter_append, filter_digits figure.head_digit,
          hgroupFilter, List.filter_cons_of_pos (by decide), filter_digits figure.decimal_digit]
      rw [if_pos ⟨hcomma, hpoint⟩, hfilter, hlast]
      exact hread
    · have hnone : figure.groups = [] := by
        by_contra hsome
        obtain ⟨group, groups, hlist⟩ := List.exists_cons_of_ne_nil hsome
        refine hpoint ?_
        simp [htext, hgroups, hlist]
      have hsame : figure.text
          = figure.head ++ figure.groups.flatten ++ ',' :: figure.decimals := by
        simp [htext, groupText, hnone]
      rw [if_neg (by simp [hpoint]), if_pos hcomma, hsame, hlast]
      exact hread

/-- The other way without groups, a point before three digits is taken for a mark of a group. -/
theorem parse_other_decimals (h : figure.indonesian = false) (hgroups : figure.groups = []) :
    parseDecimalNumber (String.ofList figure.text)
      = some (.finite false figure.coefficient (-figure.readDecimals)) := by
  obtain ⟨hheadPoint, hheadComma⟩ := not_mem_digits figure.head_digit
  obtain ⟨hdecimalPoint, hdecimalComma⟩ := not_mem_digits figure.decimal_digit
  have htext : figure.text = figure.head ++ pointed figure.decimals := by
    simp [text, decimalText, decimalMark, h, groupText, hgroups, pointed]
  have hcoefficient : figure.coefficient = digitsValue (figure.head ++ figure.decimals) := by
    simp [coefficient, hgroups]
  have hcomma : ',' ∉ figure.text := by
    rw [htext, pointed]
    split <;> simp [hheadComma, hdecimalComma]
  have hcount : ¬ 1 < figure.text.count '.' := by
    rw [htext, pointed]
    split <;> simp [List.count_eq_zero.mpr hheadPoint, List.count_eq_zero.mpr hdecimalPoint]
  have hread := ofText_pointed figure.head_ne figure.head_digit figure.decimal_digit
  rw [figure.parseDecimalNumber_text, if_neg (by simp [hcomma]), if_neg hcomma, if_neg hcount,
    htext, hcoefficient, readDecimals]
  simp only [h, hgroups, Bool.false_eq_true, if_false, if_true]
  by_cases hdecimals : figure.decimals = []
  · have hsplit : splitPoints (figure.head ++ pointed figure.decimals) = [figure.head] := by
      simp [pointed, hdecimals, splitPoints, List.splitOn_eq_singleton hheadPoint]
    rw [hsplit]
    simpa [hdecimals] using hread
  · have hsplit : splitPoints (figure.head ++ pointed figure.decimals)
        = [figure.head, figure.decimals] := by
      rw [pointed, if_neg hdecimals, splitPoints,
        List.splitOn_append_cons_self_of_not_mem hheadPoint,
        List.splitOn_eq_singleton hdecimalPoint]
    rw [hsplit]
    dsimp only
    by_cases hthree : figure.decimals.length = 3
    · have hjoined := @ofText_pointed (figure.head ++ figure.decimals) []
        (by simp [figure.head_ne])
        (by
          intro c hc
          exact (List.mem_append.mp hc).elim (figure.head_digit c) (figure.decimal_digit c))
        (by simp)
      rw [if_pos hthree, if_pos hthree]
      simpa [pointed] using hjoined
    · rw [if_neg hthree, if_neg hthree, hread]

/-- The other way with groups, the commas are taken for points. -/
theorem parse_other_groups (h : figure.indonesian = false) (hgroups : figure.groups ≠ []) :
    parseDecimalNumber (String.ofList figure.text)
      = ofText (String.ofList
          (figure.head ++ figure.groups.flatMap ('.' :: ·) ++ figure.decimals)) := by
  have hmarks : figure.groupText = figure.groups.flatMap (',' :: ·) := by
    unfold groupText groupMark
    rw [if_neg (by simp [h])]
  have hcomma : ',' ∈ figure.text := by
    obtain ⟨group, groups, hlist⟩ := List.exists_cons_of_ne_nil hgroups
    simp [text, hmarks, hlist]
  have hpoints : pointCommas (figure.head ++ figure.groups.flatMap (',' :: ·) ++ figure.decimals)
      = figure.head ++ figure.groups.flatMap ('.' :: ·) ++ figure.decimals := by
    have hhead := pointCommas_digits figure.head_digit
    have hmiddle := pointCommas_commas figure.group_digit
    have hdecimals := pointCommas_digits figure.decimal_digit
    unfold pointCommas at hhead hmiddle hdecimals ⊢
    rw [List.map_append, List.map_append, hhead, hmiddle, hdecimals]
  rw [figure.parseDecimalNumber_text]
  by_cases hpoint : '.' ∈ figure.text
  · have hfilter : figure.text.filter (· ≠ '.')
        = figure.head ++ figure.groups.flatMap (',' :: ·) ++ figure.decimals := by
      have hlast : figure.decimalText.filter (· ≠ '.') = figure.decimals := by
        have hdigits := filter_digits figure.decimal_digit
        unfold decimalText decimalMark
        split
        · next hnil => rw [hnil]; rfl
        · rw [if_neg (by simp [h]), List.filter_cons_of_neg (by simp), hdigits]
      rw [text, List.filter_append, List.filter_append, filter_digits figure.head_digit, hmarks,
        filter_commas figure.group_digit, hlast]
    rw [if_pos ⟨hcomma, hpoint⟩, hfilter, hpoints]
  · have hnone : figure.decimals = [] := by
      by_contra hsome
      refine hpoint ?_
      simp [text, decimalText, hsome, decimalMark, h]
    have hsame : figure.text
        = figure.head ++ figure.groups.flatMap (',' :: ·) ++ figure.decimals := by
      simp [text, hmarks, decimalText, hnone]
    rw [if_neg (by simp [hpoint]), if_pos hcomma, hsame, hpoints]

/-- What the reader makes of a number. -/
theorem parse_text :
    parseDecimalNumber (String.ofList figure.text)
      = if figure.Readable then
          some (.finite false figure.coefficient (-figure.readDecimals))
        else none := by
  cases hway : figure.indonesian with
  | true =>
    rw [figure.parse_indonesian hway, if_pos (.inl hway), readDecimals, if_pos hway]
  | false =>
    rcases hlist : figure.groups with - | ⟨group, - | ⟨next, groups⟩⟩
    · rw [figure.parse_other_decimals hway hlist, if_pos (.inr (by simp [hlist]))]
    · have hmem : group ∈ figure.groups := by simp [hlist]
      have hread := @ofText_pointed figure.head (group ++ figure.decimals) figure.head_ne
        figure.head_digit fun c hc =>
          (List.mem_append.mp hc).elim (figure.group_digit group hmem c) (figure.decimal_digit c)
      have hne : group ++ figure.decimals ≠ [] := by
        intro hnil
        have hlength := figure.group_length group hmem
        rw [(List.append_eq_nil_iff.mp hnil).1] at hlength
        cases hlength
      rw [figure.parse_other_groups hway (by simp [hlist]), if_pos (.inr (by simp [hlist])),
        readDecimals, if_neg (by simp [hway]), if_neg (by simp [hlist])]
      rw [pointed, if_neg hne] at hread
      simpa [hlist, coefficient, figure.group_length group hmem] using hread
    · have hmem : group ∈ figure.groups := by simp [hlist]
      have hnone : ¬ figure.Readable := by simp [Readable, hway, hlist]
      rw [figure.parse_other_groups hway (by simp [hlist]), if_neg hnone, hlist]
      have htwo := @ofText_two_points figure.head group
        (next ++ groups.flatMap ('.' :: ·) ++ figure.decimals) figure.head_ne figure.head_digit
        (figure.group_digit group hmem) ?_
      · simpa using htwo
      · intro c hc
        have hnext : next ∈ figure.groups := by simp [hlist]
        rcases List.mem_append.mp hc with hc | hc
        · rcases List.mem_append.mp hc with hc | hc
          · exact .inr (figure.group_digit next hnext c hc)
          · refine mem_flatMap_mark (fun other hother => ?_) hc
            exact figure.group_digit other (by simp [hlist, hother])
        · exact .inr (figure.decimal_digit c hc)

end Figure

end Bisakerja
