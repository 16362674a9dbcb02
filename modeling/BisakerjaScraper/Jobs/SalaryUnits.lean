import BisakerjaScraper.Jobs.Figures

/-! The units of the amounts of a salary label.

    A label has one or two amounts, each with a unit or without, among other words. What is read of
    it is compared with what it says: the numbers, their units, and no other numbers. -/

namespace Bisakerja
open Schemes PyDecimal

/-! ### Numbers in a text -/

theorem matchNumber_of_not_digit {c : Char} (h : isDecimalDigit c = false) (rest : List Char) :
    matchNumber (c :: rest) = none := by
  simp [matchNumber, splitDigits, h]

/-- A number in a text is not continued by the digits behind it: the text ends in neither a digit
    nor a digit and a separator. -/
def StandsApart (text : List Char) : Prop :=
  (∀ c ∈ text.getLast?, isDecimalDigit c = false) ∧
    ∀ front d c, text = front ++ [d, c] → isDecimalDigit d = true → isSeparator c = false

theorem StandsApart.suffix {text back : List Char} (h : StandsApart text) (hback : back <:+ text)
    (hne : back ≠ []) : StandsApart back := by
  obtain ⟨front, rfl⟩ := hback
  refine ⟨?_, ?_⟩
  · intro c hc
    refine h.1 c ?_
    rwa [List.getLast?_append_of_ne_nil _ hne]
  · rintro more d c rfl
    exact h.2 (front ++ more) d c (List.append_assoc _ _ _).symm

/-- What is left of a text behind some digits or groups. -/
structure Left (text : List Char) : Prop where
  ne : text ≠ []
  apart : StandsApart text
  single : ∀ c, text = [c] → isSeparator c = false

theorem Left.of_suffix {d : Char} {front text : List Char} (hne : text ≠ [])
    (hd : isDecimalDigit d = true) (h : StandsApart (front ++ d :: text)) : Left text := by
  refine ⟨hne, h.suffix ⟨front ++ [d], by simp⟩ hne, ?_⟩
  rintro c rfl
  exact h.2 front d c rfl hd

/-- The groups at the front of what is left are the same with digits behind it. -/
theorem splitGroups_append {text back : List Char} (h : Left text) :
    Left (splitGroups text).2 ∧
      splitGroups (text ++ back) = ((splitGroups text).1, (splitGroups text).2 ++ back) := by
  induction text using splitGroups.induct with
  | case1 mark a b c rest hgroup ih =>
    have hdigits := (Bool.and_eq_true_iff.mp hgroup).2
    have hc : isDecimalDigit c = true := List.all_eq_true.mp hdigits c (by simp)
    have hne : rest ≠ [] := by
      rintro rfl
      have hlast := h.apart.1 c rfl
      rw [hc] at hlast
      cases hlast
    obtain ⟨hleft, hsame⟩ := ih (@Left.of_suffix c [mark, a, b] rest hne hc h.apart)
    rw [splitGroups, if_pos hgroup]
    refine ⟨hleft, ?_⟩
    simp only [List.cons_append, splitGroups]
    rw [if_pos hgroup, hsame]
  | case2 mark a b c rest hgroup =>
    rw [splitGroups, if_neg hgroup]
    refine ⟨h, ?_⟩
    simp only [List.cons_append, splitGroups]
    rw [if_neg hgroup]
  | case3 text hshort =>
    have hsplit : splitGroups text = ([], text) := by
      rw [splitGroups]
      exact hshort
    rw [hsplit]
    refine ⟨h, ?_⟩
    rcases text with - | ⟨x, - | ⟨y, - | ⟨z, - | ⟨w, rest⟩⟩⟩⟩
    · exact absurd rfl h.ne
    · refine Figure.splitGroups_of_noTail ?_
      rintro c d rest heq hc
      rw [← (List.cons.inj heq).1, h.single x rfl] at hc
      cases hc
    · refine Figure.splitGroups_of_noTail ?_
      rintro c d rest heq -
      rw [← (List.cons.inj (List.cons.inj heq).2).1]
      exact h.apart.1 y rfl
    · have hz := h.apart.1 z rfl
      rcases back with - | ⟨w, back⟩
      · rfl
      · simp [splitGroups, hz]
    · exact absurd rfl (hshort x y z w rest)

/-- So is the tail of a number. -/
theorem splitTail_append {text back : List Char} (h : Left text) :
    splitTail (text ++ back) = ((splitTail text).1, (splitTail text).2 ++ back) := by
  rcases text with - | ⟨x, - | ⟨y, rest⟩⟩
  · exact absurd rfl h.ne
  · have hsingle : splitTail [x] = ([], [x]) := rfl
    rw [hsingle]
    refine Figure.splitTail_of_noTail ?_
    rintro c d rest heq hc
    rw [← (List.cons.inj heq).1, h.single x rfl] at hc
    cases hc
  · have hne : (y :: rest).dropWhile isDecimalDigit ≠ [] := by
      refine dropWhile_ne_nil (List.cons_ne_nil _ _) fun c hc => h.apart.1 c ?_
      rwa [List.getLast?_cons_cons]
    obtain ⟨htake, hdrop⟩ := span_of_stops hne back
    simp only [List.cons_append, splitTail]
    split
    · simp only [splitDigits]
      rw [← List.cons_append, htake, hdrop]
    · rfl

/-- A digit is no letter of a unit. -/
theorem sameLetter_digit {letter c : Char} (hletter : isDecimalDigit letter = false)
    (hc : isDecimalDigit c = true) : sameLetter letter c = false := by
  have hne : ∀ d, isDecimalDigit d = false → c ≠ d := by
    rintro d hd rfl
    rw [hc] at hd
    cases hd
  simp [sameLetter, toLower_of_isDecimalDigit hc, hne letter hletter, hne '\u212a' (by decide),
    hne '\u0130' (by decide), hne '\u0131' (by decide)]

/-- A unit does not go on in a digit. -/
theorem matchUnit_append {text back : List Char}
    (hback : ∀ c ∈ back.head?, isDecimalDigit c = true) :
    matchUnit (text ++ back) = matchUnit text := by
  have hletters : ∀ unit ∈ numberUnits, ∀ letter ∈ unit.toList, isDecimalDigit letter = false := by
    decide
  have hcongr : ∀ {f g : String → Option (List Char)} (units : List String),
      (∀ unit ∈ units, f unit = g unit) → units.findSome? f = units.findSome? g := by
    intro f g units hunits
    induction units with
    | nil => rfl
    | cons unit units ih =>
      rw [List.findSome?_cons, List.findSome?_cons, hunits unit List.mem_cons_self,
        ih fun other hother => hunits other (List.mem_cons_of_mem _ hother)]
  unfold matchUnit
  refine hcongr numberUnits fun unit hunit => ?_
  dsimp only
  by_cases hlength : unit.toList.length ≤ text.length
  · rw [List.take_append_of_le_length hlength]
  · have hshort : ((text.take unit.toList.length).length = unit.toList.length) ↔ False := by
      rw [List.length_take, min_eq_right (by omega)]
      exact iff_of_false (by omega) id
    rw [if_neg, if_neg (by rw [Bool.and_eq_true, decide_eq_true_eq, hshort]; simp)]
    rcases back with - | ⟨d, back⟩
    · rw [List.append_nil, Bool.and_eq_true, decide_eq_true_eq, hshort]
      simp
    · intro hall
      have hpair := (List.all_eq_true.mp (Bool.and_eq_true_iff.mp hall).2)
        (unit.toList[text.length], d) ?_
      · rw [sameLetter_digit (hletters unit hunit _ (List.getElem_mem _)) (hback d rfl)] at hpair
        cases hpair
      · refine List.mem_iff_getElem.mpr ⟨text.length, ?_, ?_⟩
        · simp only [List.length_zip, List.length_take, List.length_append, List.length_cons]
          omega
        · simp [List.getElem_append_right]

/-- The pattern does not see the digits behind a text. -/
theorem matchNumber_append {text back : List Char} (h : StandsApart text) (hne : text ≠ [])
    (hback : ∀ c ∈ back.head?, isDecimalDigit c = true) :
    matchNumber (text ++ back) = matchNumber text := by
  rcases text with - | ⟨c, rest⟩
  · exact absurd rfl hne
  · by_cases hc : isDecimalDigit c = true
    · have hstops := dropWhile_ne_nil hne h.1
      obtain ⟨htake, hdrop⟩ := span_of_stops hstops back
      have hleft : Left ((c :: rest).dropWhile isDecimalDigit) := by
        have htext := @List.takeWhile_append_dropWhile _ isDecimalDigit (c :: rest)
        rcases List.eq_nil_or_concat' ((c :: rest).takeWhile isDecimalDigit) with
          hnil | ⟨front, d, hfront⟩
        · simp [hc] at hnil
        · have hd : d ∈ (c :: rest).takeWhile isDecimalDigit := by simp [hfront]
          refine @Left.of_suffix d front _ hstops (List.mem_takeWhile_imp hd) ?_
          rw [hfront, List.append_assoc, List.singleton_append] at htext
          rwa [htext]
      obtain ⟨hgroups, hsame⟩ := @splitGroups_append _ back hleft
      have htail := @splitTail_append _ back hgroups
      have hspace : ∀ d ∈ back.head?, isSpace d = false := fun d hd =>
        isSpace_of_isDecimalDigit (hback d hd)
      simp only [matchNumber, splitDigits, htake, hdrop, hsame, htail, (span_append hspace _).1,
        (span_append hspace _).2, matchUnit_append hback]
      rfl
    · rw [List.cons_append, matchNumber_of_not_digit (by simpa using hc),
        matchNumber_of_not_digit (by simpa using hc)]

/-! ### Units -/

/-- A unit behind a number: the word of a unit, in upper or lower case, perhaps behind spaces. -/
structure UnitWord where
  gap : List Char
  name : String
  letters : List Char
  gap_space : ∀ c ∈ gap, isSpace c = true
  name_mem : name ∈ numberUnits
  spelled : letters.map Char.toLower = name.toList

namespace UnitWord

variable (unit : UnitWord)

/-- The unit as it stands in a label. -/
def text : List Char := unit.gap ++ unit.letters

/-- What the unit stands for: a million or a thousand. -/
def multiplier : ℕ := if unit.name ∈ ["jt", "juta", "m", "million"] then 1000000 else 1000

theorem toLower_of_isSpace {c : Char} (h : isSpace c = true) : c.toLower = c := by
  unfold isSpace at h
  simp only [Bool.or_eq_true, Bool.and_eq_true, decide_eq_true_eq, List.mem_cons,
    List.not_mem_nil, or_false] at h
  unfold Char.toLower
  rw [dif_neg]
  rintro ⟨hlow, hhigh⟩
  have hA : 'A'.val.toNat = 65 := rfl
  have hZ : 'Z'.val.toNat = 90 := rfl
  have hc : c.val.toNat = c.toNat := rfl
  simp only [ge_iff_le, UInt32.le_iff_toNat_le] at hlow hhigh
  omega

/-- A letter of a unit is neither whitespace nor a digit nor a separator. -/
theorem letter_facts {c : Char} (h : c ∈ unit.letters) :
    isSpace c = false ∧ isDecimalDigit c = false ∧ isSeparator c = false ∧ c ≠ '\u212a' ∧
      c ≠ '\u0130' := by
  have hfacts : ∀ name ∈ numberUnits, ∀ l ∈ name.toList, isSpace l = false ∧
      isDecimalDigit l = false ∧ isSeparator l = false ∧ l ≠ '\u212a' ∧ l ≠ '\u0130' := by
    decide
  have hmem : c.toLower ∈ unit.name.toList := by
    rw [← unit.spelled]
    exact List.mem_map_of_mem h
  obtain ⟨hspace, hdigit, hseparator, hkelvin, hdotted⟩ := hfacts _ unit.name_mem _ hmem
  refine ⟨?_, ?_, ?_, ?_, ?_⟩
  · by_contra hc
    rw [toLower_of_isSpace (by simpa using hc)] at hspace
    exact hc hspace
  · by_contra hc
    rw [toLower_of_isDecimalDigit (by simpa using hc)] at hdigit
    exact hc hdigit
  · by_contra hc
    have hsame : c.toLower = c := by
      unfold isSeparator at hc
      simp only [Bool.not_eq_false, Bool.or_eq_true, decide_eq_true_eq] at hc
      rcases hc with rfl | rfl <;> rfl
    rw [hsame] at hseparator
    exact hc hseparator
  · rintro rfl
    exact hkelvin rfl
  · rintro rfl
    exact hdotted rfl

theorem letters_ne : unit.letters ≠ [] := by
  intro hnil
  have hspelled := unit.spelled
  rw [hnil] at hspelled
  have hnames : ∀ name ∈ numberUnits, name.toList ≠ [] := by decide
  exact hnames _ unit.name_mem hspelled.symm

/-- The front of a unit that spells a unit has its multiplier. -/
theorem unitMultiplier_taken {taken back : List Char} {name : String}
    (h : unit.letters = taken ++ back) (hspelled : taken.map Char.toLower = name.toList) :
    unitMultiplier (some (String.ofList taken))
      = if name ∈ ["jt", "juta", "m", "million"] then some 1000000
        else if name ∈ ["rb", "ribu", "k"] then some 1000 else none := by
  have hlist : taken.flatMap lowerChar = name.toList := by
    rw [← hspelled, List.map_eq_flatMap]
    refine List.flatMap_congr fun c hc => ?_
    obtain ⟨-, -, -, hkelvin, hdotted⟩ := unit.letter_facts (h ▸ List.mem_append_left _ hc)
    rw [lowerChar, if_neg hkelvin, if_neg hdotted]
  have hlower : lowerText (String.ofList taken) = name := by
    rw [lowerText, String.toList_ofList, hlist, String.ofList_toList]
  rw [unitMultiplier, hlower]

/-- A text begins with some letters, in any case. -/
def beginsLike : List Char → List Char → Bool
  | [], _ => true
  | _ :: _, [] => false
  | letter :: letters, c :: text => sameLetter letter c && beginsLike letters text

theorem beginsLike_eq (letters text : List Char) :
    (decide ((text.take letters.length).length = letters.length) &&
      (letters.zip (text.take letters.length)).all fun pair => sameLetter pair.1 pair.2)
        = beginsLike letters text := by
  induction letters generalizing text with
  | nil => simp [beginsLike]
  | cons letter letters ih =>
    cases text with
    | nil => simp [beginsLike]
    | cons c text =>
      rw [beginsLike, ← ih text]
      simp [Bool.and_left_comm]

/-- The unit that is taken is the first that the text begins with. -/
theorem matchUnit_eq (text : List Char) : matchUnit text = numberUnits.findSome? fun unit =>
    if beginsLike unit.toList text then some (text.take unit.toList.length) else none := by
  unfold matchUnit
  simp only [beginsLike_eq]

/-- The pattern takes the front of a unit, and its multiplier is looked up. -/
theorem matchUnit_letters (rest : List Char) :
    ∃ taken back, unit.letters = taken ++ back ∧ matchUnit (unit.letters ++ rest) = some taken ∧
      unitMultiplier (some (String.ofList taken)) = some unit.multiplier := by
  have hspelled := unit.spelled
  have hname := unit.name_mem
  have hread := @unitMultiplier_taken unit
  unfold multiplier
  generalize unit.name = name at hspelled hname ⊢
  generalize unit.letters = letters at hspelled hread ⊢
  have hjt : "jt".toList = ['j', 't'] := rfl
  have hjuta : "juta".toList = ['j', 'u', 't', 'a'] := rfl
  have hm : "m".toList = ['m'] := rfl
  have hmillion : "million".toList = ['m', 'i', 'l', 'l', 'i', 'o', 'n'] := rfl
  have hrb : "rb".toList = ['r', 'b'] := rfl
  have hribu : "ribu".toList = ['r', 'i', 'b', 'u'] := rfl
  have hk : "k".toList = ['k'] := rfl
  simp only [numberUnits, List.mem_cons, List.not_mem_nil, or_false] at hname
  by_cases hlong : name = "million"
  · subst hlong
    rw [hmillion] at hspelled
    obtain ⟨a, more, rfl, ha, -⟩ := List.map_eq_cons_iff.mp hspelled
    refine ⟨[a], more, rfl, ?_, ?_⟩
    · simp [matchUnit_eq, numberUnits, beginsLike, sameLetter, hjt, hjuta, hm, ha]
    · rw [hread rfl (show [a].map Char.toLower = "m".toList by simp [ha, hm])]
      rfl
  · refine ⟨letters, [], (List.append_nil _).symm, ?_, ?_⟩
    · rcases hname with rfl | rfl | rfl | rfl | rfl | rfl | rfl
      · rw [hjt] at hspelled
        simp only [List.map_eq_cons_iff, List.map_eq_nil_iff] at hspelled
        obtain ⟨a, _, rfl, ha, b, _, rfl, hb, rfl⟩ := hspelled
        simp [matchUnit_eq, numberUnits, beginsLike, sameLetter, hjt, ha, hb]
      · rw [hjuta] at hspelled
        simp only [List.map_eq_cons_iff, List.map_eq_nil_iff] at hspelled
        obtain ⟨a, _, rfl, ha, b, _, rfl, hb, c, _, rfl, hc, d, _, rfl, hd, rfl⟩ := hspelled
        simp [matchUnit_eq, numberUnits, beginsLike, sameLetter, hjt, hjuta, ha, hb, hc, hd]
      · rw [hm] at hspelled
        simp only [List.map_eq_cons_iff, List.map_eq_nil_iff] at hspelled
        obtain ⟨a, _, rfl, ha, rfl⟩ := hspelled
        simp [matchUnit_eq, numberUnits, beginsLike, sameLetter, hjt, hjuta, hm, ha]
      · exact absurd rfl hlong
      · rw [hrb] at hspelled
        simp only [List.map_eq_cons_iff, List.map_eq_nil_iff] at hspelled
        obtain ⟨a, _, rfl, ha, b, _, rfl, hb, rfl⟩ := hspelled
        simp [matchUnit_eq, numberUnits, beginsLike, sameLetter, hjt, hjuta, hm, hmillion, hrb, ha, hb]
      · rw [hribu] at hspelled
        simp only [List.map_eq_cons_iff, List.map_eq_nil_iff] at hspelled
        obtain ⟨a, _, rfl, ha, b, _, rfl, hb, c, _, rfl, hc, d, _, rfl, hd, rfl⟩ := hspelled
        simp [matchUnit_eq, numberUnits, beginsLike, sameLetter, hjt, hjuta, hm, hmillion, hrb, hribu, ha, hb,
          hc, hd]
      · rw [hk] at hspelled
        simp only [List.map_eq_cons_iff, List.map_eq_nil_iff] at hspelled
        obtain ⟨a, _, rfl, ha, rfl⟩ := hspelled
        simp [matchUnit_eq, numberUnits, beginsLike, sameLetter, hjt, hjuta, hm, hmillion, hrb, hribu, hk, ha]
    · rw [hread (List.append_nil _).symm hspelled]
      rcases hname with rfl | rfl | rfl | rfl | rfl | rfl | rfl
      all_goals rfl

/-- The text of a unit has no digit. -/
theorem isDecimalDigit_text {c : Char} (h : c ∈ unit.text) : isDecimalDigit c = false := by
  rcases List.mem_append.mp h with hc | hc
  · by_contra hd
    have hspace := isSpace_of_isDecimalDigit (by simpa using hd)
    rw [unit.gap_space c hc] at hspace
    cases hspace
  · exact (unit.letter_facts hc).2.1

theorem isSeparator_text {c : Char} (h : c ∈ unit.text) : isSeparator c = false := by
  rcases List.mem_append.mp h with hc | hc
  · by_contra hs
    have hspace := unit.gap_space c hc
    unfold isSeparator at hs
    simp only [Bool.not_eq_false, Bool.or_eq_true, decide_eq_true_eq] at hs
    rcases hs with rfl | rfl <;> cases hspace
  · exact (unit.letter_facts hc).2.2.1

theorem dropWhile_text (rest : List Char) :
    (unit.text ++ rest).dropWhile isSpace = unit.letters ++ rest := by
  rw [text, List.append_assoc, List.dropWhile_append_of_pos unit.gap_space]
  obtain ⟨c, letters, hletters⟩ := List.exists_cons_of_ne_nil unit.letters_ne
  have hc := (unit.letter_facts (c := c) (by simp [hletters])).1
  rw [hletters, List.cons_append, List.dropWhile_cons_of_neg (by simp [hc])]

end UnitWord

/-- What the pattern takes for a unit is at the front and has no digit. -/
theorem matchUnit_some {text taken : List Char} (h : matchUnit text = some taken) :
    taken = text.take taken.length ∧ ∀ c ∈ taken, isDecimalDigit c = false := by
  have hletters : ∀ unit ∈ numberUnits, ∀ letter ∈ unit.toList, isDecimalDigit letter = false := by
    decide
  obtain ⟨unit, hunit, htaken⟩ := List.exists_of_findSome?_eq_some h
  dsimp only at htaken
  split at htaken
  · next hall =>
    obtain ⟨hlength, hall⟩ := Bool.and_eq_true_iff.mp hall
    have hlength := of_decide_eq_true hlength
    obtain rfl := Option.some.inj htaken
    refine ⟨by rw [hlength], ?_⟩
    intro c hc
    obtain ⟨index, hindex, rfl⟩ := List.mem_iff_getElem.mp hc
    have hunitIndex : index < unit.toList.length := by omega
    have hpair := List.all_eq_true.mp hall
      (unit.toList[index], (text.take unit.toList.length)[index]) ?_
    · by_contra hd
      have hletter := hletters unit hunit _ (List.getElem_mem hunitIndex)
      rw [sameLetter_digit hletter (by simpa using hd)] at hpair
      cases hpair
    · refine List.mem_iff_getElem.mpr ⟨index, ?_, ?_⟩
      · rw [List.length_zip]
        omega
      · rw [List.getElem_zip]
  · cases htaken

/-! ### Amounts and where they are found -/

/-- A match of the number pattern and its place: how much of the label is left there, with `behind`
    characters behind the text. -/
def placedNumber (behind : ℕ) (text : List Char) : Option ((ℕ × NumberMatch) × ℕ) :=
  (matchNumber text).map fun found => ((text.length + behind, found.1), found.2)

/-- The numbers `_parse_amounts` reads, with their places. -/
def usedNumbers (label : String) : List (ℕ × NumberMatch) :=
  (scan (placedNumber 0) label.toList).take 2

/-- `_parse_amounts`, with the places of the amounts. -/
def placedAmounts (label : String) : Except PyException (List (ℕ × ℤ)) := do
  let amounts ← (usedNumbers label).mapM fun found =>
    (amountOf label found.2).map (·.map (found.1, ·))
  pure (amounts.filterMap id)

/-- The amount a match stands for, if it stands for one. -/
def amountAt (label : String) (found : NumberMatch) : Option ℤ :=
  (parseDecimalNumber found.number).bind fun number =>
    (number.mul ((unitMultiplier found.unit).getD (labelMultiplier label))).toInt

/-- The amount of a match, at its place. -/
def amountHere (label : String) (found : ℕ × NumberMatch) : Option (ℕ × ℤ) :=
  (amountAt label found.2).map (found.1, ·)

theorem amountOf_eq {label : String} {found : NumberMatch} (h : found ∈ findNumbers label) :
    amountOf label found = .ok (amountAt label found) := by
  obtain ⟨c, rest, hc, hnumber⟩ := number_of_mem_findNumbers h
  unfold amountOf amountAt
  rw [hnumber]
  cases hparse : parseDecimalNumber (String.ofList (c :: rest)) with
  | none => rfl
  | some number =>
    obtain ⟨coefficient, exponent, rfl⟩ := parseDecimalNumber_of_isDecimalDigit hc hparse
    rfl

theorem map_scan_placedNumber (behind : ℕ) (text : List Char) :
    (scan (placedNumber behind) text).map Prod.snd = scan matchNumber text := by
  refine map_scan (fun text => ?_) text
  unfold placedNumber
  cases matchNumber text <;> rfl

/-- The amounts of a label and their places are those of the numbers that are read. -/
theorem placedAmounts_eq (label : String) :
    placedAmounts label = .ok ((usedNumbers label).filterMap (amountHere label)) ∧
      parseAmounts label
        = .ok (((usedNumbers label).filterMap (amountHere label)).map Prod.snd) := by
  have hused : (usedNumbers label).map Prod.snd = (findNumbers label).take 2 := by
    rw [usedNumbers, List.map_take, map_scan_placedNumber]
    rfl
  have hmem : ∀ found ∈ usedNumbers label, found.2 ∈ findNumbers label := by
    intro found hfound
    have hsnd := List.mem_map_of_mem (f := Prod.snd) hfound
    rw [hused] at hsnd
    exact List.mem_of_mem_take hsnd
  constructor
  · have hplaced : (usedNumbers label).mapM (fun found =>
        (amountOf label found.2).map (·.map (found.1, ·)))
        = .ok ((usedNumbers label).map (amountHere label)) := by
      refine mapM_of_ok fun found hfound => ?_
      rw [amountOf_eq (hmem found hfound)]
      rfl
    rw [placedAmounts, hplaced, ok_bind, List.filterMap_map]
    rfl
  · have hread : ((findNumbers label).take 2).mapM (amountOf label)
        = .ok (((findNumbers label).take 2).map (amountAt label)) :=
      mapM_of_ok fun found hfound => amountOf_eq (List.mem_of_mem_take hfound)
    rw [parseAmounts, hread, ok_bind, ← hused, List.map_map, List.filterMap_map,
      List.map_filterMap]
    refine congrArg Except.ok (List.filterMap_congr fun found _ => ?_)
    dsimp only [amountHere, Function.comp_apply]
    cases amountAt label found.2 <;> rfl

/-- An amount of a label: its number, its unit if it has one, and whether it is a full amount, one
    that the unit of another amount is not meant for. -/
structure Amount where
  figure : Figure
  unit : Option UnitWord
  full : Bool

/-- A number is not continued by what follows. -/
def EndsBefore (rest : List Char) : Prop :=
  (∀ c ∈ rest.head?, isDecimalDigit c = false) ∧ Figure.NoTail rest

namespace Amount

variable (amount : Amount)

/-- The unit as it stands in the label. -/
def unitText : List Char := amount.unit.elim [] UnitWord.text

/-- The amount as it stands in the label. -/
def text : List Char := amount.figure.text ++ amount.unitText

/-- What stands behind the decimals the pattern sees. -/
def behind (rest : List Char) : List Char := amount.figure.excess ++ (amount.unitText ++ rest)

/-- What the amount is meant to be multiplied by: its unit, or the one of the other amount if it has
    none and is not full. -/
def multiplier (other : Option Amount) : ℕ :=
  match amount.unit with
  | some unit => unit.multiplier
  | none =>
    if amount.full then 1
    else ((other.bind Amount.unit).map UnitWord.multiplier).getD 1

/-- The whole part of the amount. -/
def value (other : Option Amount) : ℤ :=
  (amount.figure.coefficient * amount.multiplier other / 10 ^ amount.figure.decimals.length : ℕ)

/-- What the amount is multiplied by: its unit, or what looks like one behind it, or the multiplier
    of the label. -/
def usedMultiplier (label : String) (rest : List Char) : ℕ :=
  if amount.figure.excess ≠ [] then labelMultiplier label
  else
    match amount.unit with
    | some unit => unit.multiplier
    | none =>
      (unitMultiplier ((Figure.unitBehind rest).map String.ofList)).getD (labelMultiplier label)

/-- The match of the amount. -/
def found (rest : List Char) : NumberMatch :=
  ⟨String.ofList amount.figure.seen.text,
    (Figure.unitBehind (amount.behind rest)).map String.ofList⟩

theorem text_append (rest : List Char) :
    amount.text ++ rest = amount.figure.seen.text ++ amount.behind rest := by
  have hdecimals : amount.figure.decimalText
      = amount.figure.seen.decimalText ++ amount.figure.excess := by
    unfold Figure.decimalText
    by_cases hnil : amount.figure.decimals = []
    · simp [Figure.seen, Figure.excess, hnil]
    · have hseen : amount.figure.seen.decimals ≠ [] := by simp [Figure.seen, hnil]
      rw [if_neg hnil, if_neg hseen, List.cons_append]
      exact congrArg (_ :: ·) (List.take_append_drop 3 _).symm
  unfold text behind Figure.text
  rw [hdecimals]
  simp only [List.append_assoc]
  rfl

theorem isDecimalDigit_unitText {c : Char} (h : c ∈ amount.unitText) :
    isDecimalDigit c = false := by
  unfold unitText at h
  cases hunit : amount.unit with
  | none =>
    rw [hunit] at h
    cases h
  | some unit =>
    rw [hunit] at h
    exact unit.isDecimalDigit_text h

/-- The number ends before its unit, or before what follows. -/
theorem endsBefore_unitText {rest : List Char} (h : amount.unit = none → EndsBefore rest) :
    EndsBefore (amount.unitText ++ rest) := by
  unfold unitText
  cases hunit : amount.unit with
  | none => exact h hunit
  | some unit =>
    have hne : unit.text ≠ [] := by simp [UnitWord.text, unit.letters_ne]
    obtain ⟨c, text, htext⟩ := List.exists_cons_of_ne_nil hne
    have hmem : c ∈ unit.text := by simp [htext]
    dsimp only [Option.elim_some]
    rw [htext, List.cons_append]
    refine ⟨?_, ?_⟩
    · intro d hd
      obtain rfl : c = d := by simpa using hd
      exact unit.isDecimalDigit_text hmem
    · intro d e more heq hd
      rw [← (List.cons.inj heq).1, unit.isSeparator_text hmem] at hd
      cases hd

theorem seen_ends {rest : List Char} (h : amount.unit = none → EndsBefore rest) :
    amount.figure.seen.Ends (amount.behind rest) := by
  unfold behind
  rcases hexcess : amount.figure.excess with - | ⟨d, excess⟩
  · obtain ⟨hhead, htail⟩ := amount.endsBefore_unitText h
    refine ⟨fun c hc hdigit => ?_, htail⟩
    rw [hhead c hc] at hdigit
    cases hdigit
  · have hd : isDecimalDigit d = true :=
      amount.figure.decimal_digit d (List.mem_of_mem_drop (hexcess ▸ List.mem_cons_self))
    refine ⟨fun c hc hdigit => ?_, ?_⟩
    · have hlength := congrArg List.length hexcess
      simp only [Figure.excess, List.length_drop, List.length_cons] at hlength
      simp only [Figure.seen, List.length_take]
      omega
    · intro c e more heq hc
      rw [← (List.cons.inj heq).1] at hc
      have hsep := Figure.isDecimalDigit_separator hc
      rw [hd] at hsep
      cases hsep

/-- The unit of the match has the multiplier that is used. -/
theorem unitMultiplier_found (label : String) (rest : List Char) :
    (unitMultiplier (amount.found rest).unit).getD (labelMultiplier label)
      = amount.usedMultiplier label rest := by
  unfold found usedMultiplier
  by_cases hexcess : amount.figure.excess = []
  · rw [if_neg (by simp [hexcess])]
    have hbehind : amount.behind rest = amount.unitText ++ rest := by simp [behind, hexcess]
    dsimp only
    rw [hbehind]
    unfold unitText
    cases hunit : amount.unit with
    | none => rfl
    | some unit =>
      obtain ⟨taken, back, -, hmatch, hread⟩ := unit.matchUnit_letters rest
      dsimp only [Option.elim_some]
      rw [Figure.unitBehind, unit.dropWhile_text, hmatch, Option.map_some, hread]
      rfl
  · rw [if_pos hexcess]
    obtain ⟨d, excess, hcons⟩ := List.exists_cons_of_ne_nil hexcess
    have hd : isDecimalDigit d = true :=
      amount.figure.decimal_digit d (List.mem_of_mem_drop (hcons ▸ List.mem_cons_self))
    have hbehind : amount.behind rest = d :: (excess ++ (amount.unitText ++ rest)) := by
      simp [behind, hcons]
    have hunit : matchUnit ([] ++ amount.behind rest) = matchUnit [] := by
      refine matchUnit_append fun c hc => ?_
      rw [hbehind] at hc
      obtain rfl : d = c := by simpa using hc
      exact hd
    have hspace : (amount.behind rest).dropWhile isSpace = amount.behind rest := by
      rw [hbehind, List.dropWhile_cons_of_neg (by simp [isSpace_of_isDecimalDigit hd])]
    have hnone : matchUnit [] = none := by decide
    dsimp only
    rw [Figure.unitBehind, hspace, ← List.nil_append (amount.behind rest), hunit, hnone]
    rfl

/-- What the match of an amount is read as. -/
theorem amountAt_found (label : String) (rest : List Char) :
    amountAt label (amount.found rest)
      = if amount.figure.Readable then
          ((PyDecimal.finite false amount.figure.seen.coefficient
            (-amount.figure.seen.readDecimals)).mul (amount.usedMultiplier label rest)).toInt
        else none := by
  have hparse := amount.figure.seen.parse_text
  rw [amountAt, unitMultiplier_found]
  unfold found
  dsimp only
  rw [hparse]
  by_cases hread : amount.figure.Readable
  · rw [if_pos hread, if_pos (show amount.figure.seen.Readable from hread), Option.bind_some]
  · rw [if_neg hread, if_neg (show ¬ amount.figure.seen.Readable from hread), Option.bind_none]

/-- Neither spaces nor a unit hold a digit. -/
theorem isDecimalDigit_of_mem_take {text : List Char} {c : Char}
    (h : c ∈ text.take ((text.takeWhile isSpace).length
      + ((Figure.unitBehind text).getD []).length)) : isDecimalDigit c = false := by
  have htake := @List.take_length_add_append _ (text.takeWhile isSpace) (text.dropWhile isSpace)
    ((Figure.unitBehind text).getD []).length
  rw [List.takeWhile_append_dropWhile] at htake
  rw [htake, List.mem_append] at h
  rcases h with hc | hc
  · by_contra hd
    have hspace := isSpace_of_isDecimalDigit (by simpa using hd)
    rw [List.mem_takeWhile_imp hc] at hspace
    cases hspace
  · unfold Figure.unitBehind at hc
    cases hmatch : matchUnit (text.dropWhile isSpace) with
    | none =>
      rw [hmatch] at hc
      simp at hc
    | some taken =>
      obtain ⟨htaken, hdigits⟩ := matchUnit_some hmatch
      rw [hmatch, Option.getD_some, ← htaken] at hc
      exact hdigits c hc

/-- The pattern finds an amount where it stands, and goes on behind what it sees of it. -/
theorem scan_text (n : ℕ) {rest : List Char} (h : amount.unit = none → EndsBefore rest) :
    scan (placedNumber n) (amount.text ++ rest)
      = ((amount.text ++ rest).length + n, amount.found rest)
          :: scan (placedNumber n) (amount.behind rest) := by
  have hshort : amount.figure.seen.decimals.length ≤ 3 := by
    simp only [Figure.seen, List.length_take]
    omega
  have hmatch := amount.figure.seen.matchNumber_text hshort (amount.seen_ends h)
  rw [← amount.text_append] at hmatch
  have hne : amount.figure.seen.text ≠ [] := by
    simp [Figure.text, amount.figure.seen.head_ne]
  have hpos : 0 < amount.figure.seen.text.length := List.length_pos_iff.mpr hne
  have hplaced : placedNumber n (amount.text ++ rest)
      = some (((amount.text ++ rest).length + n, amount.found rest),
          amount.figure.seen.text.length
            + (((amount.behind rest).takeWhile isSpace).length
              + ((Figure.unitBehind (amount.behind rest)).getD []).length)) := by
    rw [placedNumber, hmatch]
    rfl
  have hnil : amount.text ++ rest ≠ [] := by
    rw [amount.text_append]
    simp [hne]
  rw [scan_of_match (by omega) hnil hplaced]
  refine congrArg (_ :: ·) ?_
  rw [amount.text_append, ← List.drop_drop, List.drop_left]
  refine scan_drop_of_none fun c hc rest => ?_
  rw [placedNumber, matchNumber_of_not_digit (isDecimalDigit_of_mem_take hc)]
  rfl

/-- Behind a number that the pattern sees as a whole, the scan goes on with what follows. -/
theorem scan_behind_of_nil (n : ℕ) (hexcess : amount.figure.excess = []) (rest : List Char) :
    scan (placedNumber n) (amount.behind rest) = scan (placedNumber n) rest := by
  have hnone : ∀ c ∈ amount.unitText, ∀ more, placedNumber n (c :: more) = none := by
    intro c hc more
    rw [placedNumber, matchNumber_of_not_digit (amount.isDecimalDigit_unitText hc)]
    rfl
  rw [behind, hexcess, List.nil_append]
  exact scan_append_of_none hnone rest

/-- Decimals behind the third are found as a number by themselves. -/
theorem scan_behind_of_ne (n : ℕ) (label : String) (hexcess : amount.figure.excess ≠ [])
    {rest : List Char} (h : amount.unit = none → EndsBefore rest) :
    ∃ found tail, scan (placedNumber n) (amount.behind rest)
        = ((amount.behind rest).length + n, found) :: tail ∧ amountAt label found ≠ none := by
  let figure : Figure :=
    { indonesian := true, head := amount.figure.excess, groups := [], decimals := []
      head_ne := hexcess
      head_digit := fun c hc => amount.figure.decimal_digit c (List.mem_of_mem_drop hc)
      group_length := by simp, group_digit := by simp, decimal_digit := by simp }
  let left : Amount := { figure, unit := amount.unit, full := amount.full }
  have htext : left.text ++ rest = amount.behind rest := by
    simp [left, figure, text, behind, Figure.text, Figure.groupText, Figure.decimalText, unitText]
  have hscan := left.scan_text n h
  rw [htext] at hscan
  refine ⟨_, _, hscan, ?_⟩
  rw [left.amountAt_found, if_pos (.inl rfl)]
  exact Option.some_ne_none _

end Amount

end Bisakerja
