import BisakerjaScraper.Backend.RequirementItems

/-! The sentence made of a title.

    Noise is found word by word, or across one space. The words around the title in the sentence are
    no noise, and none lies across where they meet the title, so the sentence is noise when the
    title is. -/

namespace Bisakerja
open Schemes

namespace RelationText

variable {alphabet : Alphabet}

/-! ### Noise -/

/-- What noise folds to. -/
def noiseTexts : List (List Char) :=
  ["thr", "tunjangan", "benefit", "benefits", "fasilitas", "bonus", "cuti", "bpjs", "gaji pokok",
    "kompensasi", "asuransi", "uang makan", "transport", "transportasi"].map String.toList

theorem spells_sequence {chars word : List Char}
    (h : (sequence (chars.map fun letter => .one (foldLetter · = letter))).Spells word) :
    word.map foldLetter = chars := by
  induction chars generalizing word with
  | nil =>
    obtain ⟨rfl, -⟩ := h
    rfl
  | cons letter chars ih =>
    obtain ⟨_, back, rfl, ⟨c, hc, rfl⟩, hback⟩ := h
    rw [List.map_append, ih hback]
    simpa using hc

theorem spells_letters {s : String} {word : List Char} (h : (letters s).Spells word) :
    word.map foldLetter = s.toList := spells_sequence h

theorem spells_withSuffix {stem suffix : String} {word : List Char}
    (h : (withSuffix stem suffix).Spells word) :
    word.map foldLetter = stem.toList ∨ word.map foldLetter = stem.toList ++ suffix.toList := by
  obtain ⟨front, _, rfl, hfront, more, _, rfl, hmore, rfl, -⟩ := h
  rw [List.append_nil, List.map_append, spells_letters hfront]
  rcases hmore with hsuffix | ⟨rfl, -⟩
  · exact .inr (by rw [spells_letters hsuffix])
  · exact .inl (by simp)

/-- Noise is a text of a pattern that looks nowhere, between boundaries. -/
theorem exists_requirementNoise (alphabet : Alphabet) : ∃ re : TextPattern,
    alphabet.requirementNoisePattern = re.bounded alphabet.isWord ∧ re.Blind ∧ re.takes = true ∧
      ∀ word, re.Spells word → word.map foldLetter ∈ noiseTexts := by
  refine ⟨_, rfl, blind_choice (by simp [blind_letters, blind_withSuffix]), rfl, fun word h => ?_⟩
  rcases h with h | h | h | h | h | h | h | h | h | h | h | h | h
  all_goals first
    | rw [spells_letters h]; decide
    | rcases spells_withSuffix h with h | h <;> rw [h] <;> decide

/-- What a search finds folds to noise. -/
theorem exists_infix_of_search {chars : List Char}
    (h : alphabet.requirementNoisePattern.search chars = true) :
    ∃ noise ∈ noiseTexts, noise <:+: chars.map foldLetter := by
  obtain ⟨re, heq, hblind, htakes, hspells⟩ := exists_requirementNoise alphabet
  rw [heq, Regex.search_bounded_iff hblind htakes] at h
  obtain ⟨front, word, back, rfl, hword, -⟩ := h
  refine ⟨_, hspells word hword, front.map foldLetter, back.map foldLetter, ?_⟩
  simp

/-- The letters around a space in noise. -/
theorem noiseTexts_space : (noiseTexts.all fun noise => (List.range noise.length).all fun n =>
    isSpace (noise.getD n 'a') = false ||
      ((noise.take n).getLast?.any (· ∈ ['i', 'g']) &&
        (noise.drop (n + 1)).head?.any (· ∈ ['p', 'm']))) = true := by
  decide +kernel

theorem around_space {front back : List Char} {c : Char} (hc : isSpace c = true)
    (h : front ++ c :: back ∈ noiseTexts) :
    front.getLast?.any (· ∈ ['i', 'g']) = true ∧ back.head?.any (· ∈ ['p', 'm']) = true := by
  have hplace := List.all_eq_true.mp (List.all_eq_true.mp noiseTexts_space _ h) front.length
    (by simp)
  simpa [hc, List.getD_eq_getElem?_getD] using hplace

/-- Noise in two texts on the two sides of a space is noise in one of them, where the letters around
    the space are not those of noise. -/
theorem search_noise_join {a b : List Char} {c : Char} (hc : isSpace c = true)
    (h : a.getLast?.any (foldLetter · ∈ ['i', 'g']) = false ∨
      b.head?.any (foldLetter · ∈ ['p', 'm']) = false) :
    alphabet.requirementNoisePattern.search (a ++ c :: b)
      = (alphabet.requirementNoisePattern.search a || alphabet.requirementNoisePattern.search b) := by
  obtain ⟨re, heq, hblind, htakes, hspells⟩ := exists_requirementNoise alphabet
  rw [heq]
  refine Regex.search_bounded_join hblind htakes (alphabet.isWord_of_isSpace hc)
    fun front back hacross hfront hback => ?_
  have hnoise := hspells _ hacross
  rw [List.map_append, List.map_cons, foldLetter_of_isSpace hc] at hnoise
  obtain ⟨hlast, hfirst⟩ := around_space hc hnoise
  rw [List.getLast?_map, Option.any_map] at hlast
  rw [List.head?_map, Option.any_map] at hfirst
  have hlast' : a.getLast? = front.getLast? := by
    obtain ⟨rest, rfl⟩ := hfront
    rw [List.getLast?_append_of_ne_nil]
    rintro rfl
    cases hlast
  have hfirst' : b.head? = back.head? := by
    obtain ⟨rest, rfl⟩ := hback
    rw [List.head?_append_of_ne_nil]
    rintro rfl
    cases hfirst
  rcases h with h | h
  · rw [hlast'] at h
    cases hlast.symm.trans h
  · rw [hfirst'] at h
    cases hfirst.symm.trans h

/-! ### Noise in joined words -/

theorem joinWords_append_break {a b : List Char} {c : Char} (hc : isSpace c = true)
    (ha : joinWords a ≠ []) (hb : joinWords b ≠ []) :
    joinWords (a ++ c :: b) = joinWords a ++ ' ' :: joinWords b := by
  have hwords : ∀ {text : List Char}, joinWords text ≠ [] → words isSpace text ≠ [] := by
    intro text hne hnil
    exact hne (by rw [joinWords, hnil]; rfl)
  unfold joinWords
  rw [words_append_break hc, spaced_append (hwords ha) (hwords hb)]

/-- The same, with the words joined. -/
theorem search_joinWords_join {a b : List Char} {c : Char} (hc : isSpace c = true)
    (h : (joinWords a).getLast?.any (foldLetter · ∈ ['i', 'g']) = false ∨
      (joinWords b).head?.any (foldLetter · ∈ ['p', 'm']) = false) :
    alphabet.requirementNoisePattern.search (joinWords (a ++ c :: b))
      = (alphabet.requirementNoisePattern.search (joinWords a) ||
        alphabet.requirementNoisePattern.search (joinWords b)) := by
  have hnone : alphabet.requirementNoisePattern.search [] = false := rfl
  rcases eq_or_ne (joinWords a) [] with ha | ha
  · have hspaces := joinWords_eq_nil_iff.mp ha
    rw [ha, hnone, Bool.false_or, joinWords, words_breaks_append hspaces, words_cons_break hc,
      ← joinWords]
  · rcases eq_or_ne (joinWords b) [] with hb | hb
    · have hwords : words isSpace (a ++ c :: b) = words isSpace a := by
        rw [words_append_break hc, words_eq_nil (joinWords_eq_nil_iff.mp hb), List.append_nil]
      rw [hb, hnone, Bool.or_false, joinWords, hwords, ← joinWords]
    · rw [joinWords_append_break hc ha hb]
      exact search_noise_join rfl h

/-- A text that ends in a word does so when its words are joined. -/
theorem getLast?_joinWords_concat {d : Char} (hd : isSpace d = false) (a : List Char) :
    (joinWords (a ++ [d])).getLast? = some d := by
  obtain ⟨front, word, rfl, hfront, hword⟩ := exists_last_word isSpace a
  have hlonger : ∀ e ∈ word ++ [d], isSpace e = false := by
    intro e he
    rcases List.mem_append.mp he with he | he
    · exact hword e he
    · rwa [List.mem_singleton.mp he]
  rw [joinWords, List.append_assoc, words_append_of_getLast hfront,
    words_of_no_break (by simp) hlonger, spaced_concat_append, List.getLast?_concat]

/-- A mark ends what noise may be found in. -/
theorem search_joinWords_mark {mark : List Char} {d : Char}
    (hmark : ∀ e ∈ mark ++ [d], alphabet.isWord e = false) (hd : isSpace d = false)
    (hletter : foldLetter d ∉ ['i', 'g']) (a b : List Char) :
    alphabet.requirementNoisePattern.search (joinWords (a ++ (mark ++ [d]) ++ ' ' :: b))
      = (alphabet.requirementNoisePattern.search (joinWords a) ||
        alphabet.requirementNoisePattern.search (joinWords b)) := by
  rw [search_joinWords_join rfl, requirementNoisePattern_search_congr
    (trimmed_joinWords (alphabet.isWord_of_isSpace rfl) hmark a)]
  rw [← List.append_assoc, getLast?_joinWords_concat hd]
  exact .inl (by simpa using hletter)

/-- Dashes that become dots make no difference to what noise is found. -/
theorem search_joinWords_replaceFrom (text pre : List Char) :
    alphabet.requirementNoisePattern.search
        (joinWords (pre ++ replaceFrom " - ".toList ". ".toList 0 text))
      = alphabet.requirementNoisePattern.search (joinWords (pre ++ text)) := by
  induction hn : text.length using Nat.strong_induction_on generalizing text pre with
  | _ n ih =>
    cases text with
    | nil => rfl
    | cons c rest =>
      by_cases hstarts : " - ".toList.isPrefixOf (c :: rest) = true
      · obtain ⟨behind, hbehind⟩ := List.isPrefixOf_iff_prefix.mp hstarts
        have hlength := congrArg List.length hbehind
        rw [List.length_append, hn] at hlength
        rw [← hbehind, replaceFrom_append (by decide), ← List.append_assoc,
          ih behind.length (by change 3 + _ = _ at hlength; omega) behind _ rfl]
        have hdot : ∀ e ∈ [] ++ ['.'], alphabet.isWord e = false := by
          simp [Alphabet.isWord]
        have hdash : ∀ e ∈ [' '] ++ ['-'], alphabet.isWord e = false := by
          simp [Alphabet.isWord]
        have hdots := search_joinWords_mark hdot rfl (by decide) pre behind
        have hdashes := search_joinWords_mark hdash rfl (by decide) pre behind
        simpa using hdots.trans hdashes.symm
      · rw [replaceFrom, if_neg hstarts, List.append_cons, List.append_cons pre c rest]
        exact ih rest.length (by simp [← hn]) rest (pre ++ [c]) rfl

/-! ### Titles -/

theorem hasHtmlTag_append_left {front : List Char} (h : '<' ∉ front) (chars : List Char) :
    hasHtmlTag (front ++ chars) = hasHtmlTag chars := by
  induction front with
  | nil => rfl
  | cons c front ih =>
    obtain ⟨hc, hmore⟩ := not_or.mp (List.mem_cons.not.mp h)
    rw [List.cons_append, hasHtmlTag, ih hmore]
    simp [Ne.symm hc]

theorem hasHtmlTag_append_right {back : List Char} (hopening : '<' ∉ back) (hclosing : '>' ∉ back)
    (chars : List Char) : hasHtmlTag (chars ++ back) = hasHtmlTag chars := by
  induction chars with
  | nil =>
    simpa [hasHtmlTag] using hasHtmlTag_append_left hopening []
  | cons c chars ih =>
    have hnone : ∀ d ∈ back, decide (d ≠ '>') = true := by
      intro d hd
      simpa using fun heq : d = '>' => hclosing (heq ▸ hd)
    rw [List.cons_append, hasHtmlTag, hasHtmlTag, ih]
    by_cases hmem : '>' ∈ chars
    · obtain ⟨inside, behind, rfl, hinside⟩ := List.eq_append_cons_of_mem hmem
      have hall : ∀ d ∈ inside, decide (d ≠ '>') = true := by
        intro d hd
        simpa using fun heq : d = '>' => hinside (heq ▸ hd)
      rw [List.append_assoc, List.takeWhile_append_of_pos hall, List.takeWhile_append_of_pos hall,
        List.dropWhile_append_of_pos hall, List.dropWhile_append_of_pos hall]
      rfl
    · have hnever : ∀ {rest : List Char}, '>' ∉ rest → (rest.dropWhile (· ≠ '>')).isEmpty = true := by
        intro rest hrest
        simpa using fun d hd (heq : d = '>') => hrest (heq ▸ hd)
      rw [hnever hmem, hnever (by simp [hmem, hclosing])]
      simp

/-- Bullets are replaced one by one. -/
theorem replaceChars_bullet_append (new : String) (a b : List Char) :
    replaceChars "•" new (a ++ b) = replaceChars "•" new a ++ replaceChars "•" new b := by
  have hbullet : "•".toList = ['•'] := by decide
  unfold replaceChars
  rw [hbullet]
  induction a with
  | nil => rfl
  | cons d a ih =>
    have hstarts : ∀ rest : List Char, ['•'].isPrefixOf (d :: rest) = ('•' == d) := by
      simp [List.isPrefixOf]
    rw [List.cons_append, replaceFrom, replaceFrom, hstarts, hstarts]
    split
    · rw [List.length_singleton, Nat.sub_self, ih, List.append_assoc]
    · rw [ih, List.cons_append]

/-- What stands before the title. -/
def sentenceFront : List Char := "Has core competencies relevant to the".toList

/-- What stands behind the title. -/
def sentenceBack : List Char := "role.".toList

/-- The sentence that is made of a title. -/
def roleSentence (title : String) : String :=
  "Has core competencies relevant to the " ++ title ++ " role."

theorem toList_roleSentence (title : String) : (roleSentence title).toList
    = sentenceFront ++ ' ' :: (title.toList ++ ' ' :: sentenceBack) := by
  have hfront : "Has core competencies relevant to the ".toList = sentenceFront ++ [' '] := by
    decide +kernel
  have hback : " role.".toList = ' ' :: sentenceBack := by
    decide +kernel
  unfold roleSentence
  simp only [String.toList_append, hfront, hback, List.append_assoc, List.cons_append,
    List.nil_append]

/-- A title names noise, such as benefits. A title with markup is read in its sentence. -/
def isNoisyTitle (text : RelationText) (title : String) : Bool :=
  if hasHtmlTag title.toList then text.isNoisyRequirement (roleSentence title)
  else (text.normalizeTextBlock (some title)).any fun block =>
    text.alphabet.requirementNoisePattern.search block.toList

/-- What noise is found in a block. -/
theorem search_blockChars (chars : List Char) :
    alphabet.requirementNoisePattern.search (blockChars chars)
      = alphabet.requirementNoisePattern.search (joinWords (replaceChars "•" ". " chars)) :=
  search_joinWords_replaceFrom _ []

/-- What noise is found in the sentence is found between the words around it. -/
theorem search_joinWords_sentence (chars : List Char) :
    alphabet.requirementNoisePattern.search
        (joinWords (sentenceFront ++ ' ' :: (chars ++ ' ' :: sentenceBack)))
      = alphabet.requirementNoisePattern.search (joinWords chars) := by
  have hnone : ∀ known ∈ [sentenceFront, sentenceBack],
      alphabet.requirementNoisePattern.search (joinWords known) = false := by
    intro known hknown
    by_contra hfound
    obtain ⟨noise, hnoise, hinfix⟩ := exists_infix_of_search (by simpa using hfound)
    have hnever : ∀ known ∈ [sentenceFront, sentenceBack], ∀ noise ∈ noiseTexts,
        ¬ noise <:+: (joinWords known).map foldLetter := by
      decide +kernel
    exact hnever known hknown noise hnoise hinfix
  have hspace : isSpace ' ' = true := rfl
  have hthe : (joinWords sentenceFront).getLast?.any (foldLetter · ∈ ['i', 'g']) = false := by
    decide +kernel
  have hrole : (joinWords sentenceBack).head?.any (foldLetter · ∈ ['p', 'm']) = false := by
    decide +kernel
  rw [search_joinWords_join hspace (.inl hthe), search_joinWords_join hspace (.inr hrole),
    hnone _ List.mem_cons_self, hnone _ (List.mem_cons_of_mem _ List.mem_cons_self), Bool.false_or,
    Bool.or_false]

/-- The same of its block. -/
theorem search_blockChars_sentence (chars : List Char) :
    alphabet.requirementNoisePattern.search
        (blockChars (joinWords (sentenceFront ++ ' ' :: (chars ++ ' ' :: sentenceBack))))
      = alphabet.requirementNoisePattern.search (blockChars (joinWords chars)) := by
  rw [search_blockChars, search_blockChars]
  by_cases hnil : joinWords chars = []
  · have hspaces := joinWords_eq_nil_iff.mp hnil
    have hwords : joinWords (sentenceFront ++ ' ' :: (chars ++ ' ' :: sentenceBack))
        = joinWords (sentenceFront ++ ' ' :: ([] ++ ' ' :: sentenceBack)) := by
      unfold joinWords
      rw [words_append_break rfl, words_append_break rfl, words_eq_nil hspaces,
        words_append_break rfl, words_append_break rfl, words_nil]
    have hsame : joinWords (replaceChars "•" ". "
          (joinWords (sentenceFront ++ ' ' :: ([] ++ ' ' :: sentenceBack))))
        = joinWords (sentenceFront ++ ' ' :: ([] ++ ' ' :: sentenceBack)) := by
      decide +kernel
    rw [hwords, hsame, search_joinWords_sentence, hnil]
    rfl
  · have hfront : joinWords sentenceFront = sentenceFront ∧
        replaceChars "•" ". " sentenceFront = sentenceFront := by
      decide +kernel
    have hback : joinWords sentenceBack = sentenceBack ∧
        replaceChars "•" ". " sentenceBack = sentenceBack := by
      decide +kernel
    have hspace : ∀ rest : List Char,
        replaceChars "•" ". " (' ' :: rest) = ' ' :: replaceChars "•" ". " rest :=
      replaceChars_bullet_append ". " [' ']
    have hbackNe : joinWords sentenceBack ≠ [] := by
      rw [hback.1]
      decide
    have htailNe : joinWords (chars ++ ' ' :: sentenceBack) ≠ [] := by
      rw [joinWords_append_break rfl hnil hbackNe]
      simp
    have hfrontNe : joinWords sentenceFront ≠ [] := by
      rw [hfront.1]
      decide
    rw [joinWords_append_break rfl hfrontNe htailNe, joinWords_append_break rfl hnil hbackNe,
      hfront.1, hback.1, replaceChars_bullet_append, hspace, replaceChars_bullet_append, hspace,
      hfront.2, hback.2, search_joinWords_sentence]

/-- The sentence is noise when the title is. -/
theorem isNoisyRequirement_roleSentence (text : RelationText) (title : String) :
    text.isNoisyRequirement (roleSentence title) = text.isNoisyTitle title := by
  rw [isNoisyTitle]
  split
  · rfl
  · next htag =>
    have hfront : '<' ∉ sentenceFront ++ [' '] := by decide
    have hopening : '<' ∉ ' ' :: sentenceBack := by decide
    have hclosing : '>' ∉ ' ' :: sentenceBack := by decide
    have hplain : hasHtmlTag (roleSentence title).toList = false := by
      rw [toList_roleSentence, List.append_cons, hasHtmlTag_append_left hfront,
        hasHtmlTag_append_right hopening hclosing]
      simpa using htag
    have hvisible : stripVisualNoise (roleSentence title).toList
        = sentenceFront ++ ' ' :: (stripVisualNoise title.toList ++ ' ' :: sentenceBack) := by
      have hends : sentenceFront.flatMap visibleChars = sentenceFront ∧
          sentenceBack.flatMap visibleChars = sentenceBack := by
        decide +kernel
      unfold stripVisualNoise
      rw [toList_roleSentence, List.flatMap_append, List.flatMap_cons, List.flatMap_append,
        List.flatMap_cons, hends.1, hends.2]
      rfl
    have hsome : joinWords (sentenceFront ++ ' ' ::
        (stripVisualNoise title.toList ++ ' ' :: sentenceBack)) ≠ [] := by
      rw [ne_eq, joinWords_eq_nil_iff]
      intro hall
      cases hall 'H' List.mem_cons_self
    rw [isNoisyRequirement, normalizeTextBlock_of_no_tag hplain,
      normalizeTextBlock_of_no_tag (by simpa using htag), hvisible, if_neg hsome]
    dsimp only
    rw [String.toList_ofList, search_blockChars_sentence]
    by_cases hnil : joinWords (stripVisualNoise title.toList) = []
    · rw [if_pos hnil, hnil]
      rfl
    · rw [if_neg hnil, Option.any_some, String.toList_ofList]

end RelationText

end Bisakerja
