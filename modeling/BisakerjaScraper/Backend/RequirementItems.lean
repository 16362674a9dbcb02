import BisakerjaScraper.Backend.PlainTexts

/-! The items of a requirement text.

    An item is a candidate that is neither noise nor without signal, less the dots at its end. The
    dots have no part in what makes a text noise, and no candidate has markup left, so an item is no
    noise either. -/

namespace Bisakerja
open Schemes

/-! ### Candidates -/

theorem infix_intercalate_of_mem {α : Type} {sep piece : List α} {texts : List (List α)}
    (h : piece ∈ texts) : piece <:+: sep.intercalate texts := by
  induction texts with
  | nil => cases h
  | cons first texts ih =>
    cases texts with
    | nil =>
      rw [List.mem_singleton.mp h, List.intercalate_singleton]
    | cons next more =>
      rw [List.intercalate_cons_cons]
      rcases List.mem_cons.mp h with rfl | h
      · exact (List.prefix_append _ _).isInfix.trans (List.prefix_append _ _).isInfix
      · exact (ih h).trans (List.suffix_append _ _).isInfix

namespace RelationText

variable {text : RelationText} {value item : String} {part candidate : List Char}

/-- The parts of a requirement text are plain. -/
theorem isPlain_of_mem_requirementParts (h : part ∈ text.requirementParts value) : IsPlain part := by
  have hlines := ((IsPlain.sub_stripVisualNoise value.toList).replaceChars "•" "\n" (by decide)
    (by decide) (by decide)).replaceChars " - " "\n" (by decide) (by decide) (by decide)
  refine (hlines.sub rfl fun _ c hc => .inr ?_).piece (Regex.infix_of_mem_split h)
  rw [List.mem_singleton.mp hc]
  decide

/-- So are the candidates they are cut into. -/
theorem isPlain_of_mem_requirementCandidates (hpart : IsPlain part)
    (h : candidate ∈ requirementCandidates part) : IsPlain candidate := by
  unfold requirementCandidates at h
  split at h
  · obtain ⟨fragment, hfragment, rfl⟩ := List.mem_map.mp h
    have hwithin : fragment <:+: part := by
      have hjoined : fragment <:+: [','].intercalate (part.splitOn ',') :=
        infix_intercalate_of_mem hfragment
      rwa [List.intercalate_splitOn] at hjoined
    refine IsPlain.strip ?_
    rw [String.toList_ofList]
    exact hpart.piece hwithin
  · rw [List.mem_singleton.mp h]
    exact hpart

/-- The block of a text without a tag. -/
theorem normalizeTextBlock_of_no_tag (h : hasHtmlTag value.toList = false) :
    text.normalizeTextBlock (some value) = if joinWords (stripVisualNoise value.toList) = [] then none
      else some (String.ofList (blockChars (joinWords (stripVisualNoise value.toList)))) := by
  rw [normalizeTextBlock, sourceChars, h]
  rfl

/-- The block of a plain text. -/
theorem normalizeTextBlock_of_isPlain (h : IsPlain value.toList) :
    text.normalizeTextBlock (some value) = if joinWords value.toList = [] then none
      else some (String.ofList (blockChars (joinWords value.toList))) := by
  rw [normalizeTextBlock_of_no_tag h.hasHtmlTag, stripVisualNoise_of_visible h.visible]

theorem isNoisyRequirement_of_isPlain (h : IsPlain value.toList) :
    text.isNoisyRequirement value = (joinWords value.toList = [] ||
      text.alphabet.requirementNoisePattern.search (blockChars (joinWords value.toList))) := by
  rw [isNoisyRequirement, normalizeTextBlock_of_isPlain h]
  by_cases hnil : joinWords value.toList = [] <;> simp [hnil]

theorem isPlain_normalizeTextBlock (h : IsPlain value.toList) :
    IsPlain ((text.normalizeTextBlock (some value)).getD "").toList := by
  rw [normalizeTextBlock_of_isPlain h]
  split
  · exact IsPlain.nil
  · simpa using h.joinWords.blockChars

/-- What a replacement writes by itself is fresh. -/
def writesFresh : Piece → Bool
  | .text s => s.toList.all fun c => IsFresh c
  | .group _ => true

theorem requirementReplacements_fresh (alphabet : Alphabet) :
    (alphabet.requirementReplacements.all fun replacement =>
      replacement.1.avoids ['<', '>'] && replacement.2.all writesFresh) = true := rfl

/-- A replacement has what groups took, and what it writes by itself. -/
theorem mem_expand {pieces : List Piece} (hpieces : pieces.all writesFresh = true)
    {groups : List (List Char)} {c : Char} (hc : c ∈ Piece.expand pieces groups) :
    (∃ group ∈ groups, c ∈ group) ∨ IsFresh c := by
  obtain ⟨piece, hpiece, hmem⟩ := List.mem_flatMap.mp hc
  have hfresh := List.all_eq_true.mp hpieces piece hpiece
  cases piece with
  | text s => exact .inr (of_decide_eq_true (List.all_eq_true.mp hfresh c hmem))
  | group n =>
    change c ∈ groups.getD (n - 1) [] at hmem
    rw [List.getD_eq_getElem?_getD] at hmem
    cases hgroup : groups[n - 1]? with
    | none => simp [hgroup] at hmem
    | some group =>
      rw [hgroup, Option.getD_some] at hmem
      exact .inl ⟨group, List.mem_of_getElem? hgroup, hmem⟩

theorem isPlain_normalizeRequirementLanguage (h : IsPlain value.toList) :
    IsPlain (text.normalizeRequirementLanguage value).toList := by
  have hall : ∀ (replacements : List (TextPattern × List Piece)) {a : List Char}, IsPlain a →
      (replacements.all fun replacement =>
        replacement.1.avoids ['<', '>'] && replacement.2.all writesFresh) = true →
      IsPlain (replacements.foldl
        (fun value replacement => replacement.1.sub (Piece.expand replacement.2) value) a) := by
    intro replacements
    induction replacements with
    | nil => exact fun ha _ => ha
    | cons replacement replacements ih =>
      intro a ha hfresh
      rw [List.all_cons, Bool.and_eq_true, Bool.and_eq_true] at hfresh
      obtain ⟨⟨havoids, hpieces⟩, hmore⟩ := hfresh
      exact ih (ha.sub havoids fun groups c hc => mem_expand hpieces hc) hmore
  unfold normalizeRequirementLanguage
  rw [toList_normalizeText, String.toList_ofList]
  exact (hall _ h (requirementReplacements_fresh text.alphabet)).joinWords

/-! ### Items -/

theorem blind_sequence {res : List TextPattern} (h : ∀ re ∈ res, re.Blind) :
    (sequence res).Blind := by
  induction res with
  | nil => exact .inl fun _ _ => rfl
  | cons re res ih =>
    obtain ⟨hfirst, hmore⟩ := List.forall_mem_cons.mp h
    exact ⟨hfirst, ih hmore⟩

theorem blind_choice {res : List TextPattern} (h : ∀ re ∈ res, re.Blind) : (choice res).Blind := by
  induction res with
  | nil => exact .inr fun _ _ => rfl
  | cons re res ih =>
    obtain ⟨hfirst, hmore⟩ := List.forall_mem_cons.mp h
    cases res with
    | nil => exact hfirst
    | cons next res => exact ⟨hfirst, ih hmore⟩

theorem blind_letters (s : String) : (letters s).Blind :=
  blind_sequence (by simp [Regex.Blind])

theorem blind_withSuffix (stem suffix : String) : (withSuffix stem suffix).Blind :=
  blind_sequence (by simp [optional, nothing, Regex.Blind, blind_letters])

/-- Noise is found alike in texts that differ in what trails. -/
theorem requirementNoisePattern_search_congr {alphabet : Alphabet} {a b : List Char}
    (h : trimmed alphabet.isWord a = trimmed alphabet.isWord b) :
    alphabet.requirementNoisePattern.search a = alphabet.requirementNoisePattern.search b :=
  Regex.search_bounded_congr (blind_choice (by simp [blind_letters, blind_withSuffix])) rfl h

/-- The block of a text does not see what trails. -/
theorem trimmed_blockChars {a b : List Char}
    (h : trimmed text.alphabet.isWord a = trimmed text.alphabet.isWord b) :
    trimmed text.alphabet.isWord (blockChars (joinWords a))
      = trimmed text.alphabet.isWord (blockChars (joinWords b)) := by
  have hspace : text.alphabet.isWord ' ' = false := text.alphabet.isWord_of_isSpace rfl
  have hwords : ∀ {a b : List Char},
      trimmed text.alphabet.isWord a = trimmed text.alphabet.isWord b →
      trimmed text.alphabet.isWord (joinWords a) = trimmed text.alphabet.isWord (joinWords b) :=
    trimmed_congr fun text _ htail => trimmed_joinWords hspace htail text
  have hdot : ∀ c ∈ ". ".toList, text.alphabet.isWord c = false := by
    simp [Alphabet.isWord]
  have hbullet : ∀ c ∈ "•".toList, text.alphabet.isWord c = false := by
    simp [Alphabet.isWord, text.isAlnum_bullet]
  have hdash : ∀ c ∈ " - ".toList, text.alphabet.isWord c = false := by
    simp [Alphabet.isWord]
  refine hwords (trimmed_congr (fun text _ htail => ?_) (trimmed_congr (fun text _ htail => ?_)
    (hwords h)))
  · exact trimmed_replaceFrom hdash hdot 0 htail text
  · exact trimmed_replaceFrom hbullet hdot 0 htail text

/-- No technical term begins with a dot. -/
theorem techSkillPattern_fullMatch_of_dots (alphabet : Alphabet) {dots : List Char}
    (h : ∀ c ∈ dots, c = '.') : alphabet.techSkillPattern.fullMatch dots = false := by
  have hboundary : wordBoundary alphabet.isWord none dots.head? = false := by
    cases dots with
    | nil => rfl
    | cons c dots =>
      rw [h c List.mem_cons_self]
      simp [wordBoundary, Alphabet.isWord]
  refine List.any_eq_false.mpr fun behind hbehind => ?_
  obtain ⟨hfirst, -⟩ := Regex.mem_ends_bounded.mp hbehind
  rw [hboundary] at hfirst
  cases hfirst

/-- Dots alone say little. -/
theorem isLowSignalRequirement_of_dots (h : ∀ c ∈ value.toList, c = '.') :
    text.isLowSignalRequirement value = true := by
  have hword : (words (!isMarkedChar ·) value.toList).length ≤ 1 := by
    rcases eq_or_ne value.toList [] with hnil | hne
    · simp [hnil]
    · rw [words_of_no_break hne fun c hc => by rw [h c hc]; rfl]
      exact le_rfl
  have hmatch : text.alphabet.techSkillPattern.fullMatch (strip value).toList = false := by
    exact techSkillPattern_fullMatch_of_dots _ fun c hc => h c ((infix_strip value).subset hc)
  unfold isLowSignalRequirement
  split
  · rfl
  · dsimp only
    split_ifs
    · rfl
    · rfl
    · rfl
    · rfl
    · omega
    · rw [hmatch]
      rfl

/-- An item of a plain candidate is no noise, and not blank. -/
theorem requirementItem_sound (hcandidate : IsPlain candidate)
    (h : text.requirementItem candidate = some item) :
    text.isNoisyRequirement item = false ∧ strip item ≠ "" := by
  unfold requirementItem at h
  have hblock : IsPlain ((text.normalizeTextBlock (some (String.ofList candidate))).getD "").toList :=
    isPlain_normalizeTextBlock (by rwa [String.toList_ofList])
  generalize (text.normalizeTextBlock (some (String.ofList candidate))).getD "" = block at h hblock
  have hhead : ∀ c ∈ (text.normalizeRequirementLanguage block).toList.head?, isSpace c = false :=
    head?_normalizeText _
  have hplain : IsPlain (text.normalizeRequirementLanguage block).toList :=
    isPlain_normalizeRequirementLanguage hblock
  generalize text.normalizeRequirementLanguage block = value at h hhead hplain
  dsimp only at h
  split at h
  · cases h
  · next hkept =>
    obtain rfl := Option.some.inj h
    simp only [Bool.or_eq_true, decide_eq_true_eq, not_or, Bool.not_eq_true] at hkept
    obtain ⟨⟨hne, hsignal⟩, hnoise⟩ := hkept
    -- the text is the item and dots
    have hfront : (rstripDots value).toList = value.toList.rdropWhile fun c => c = '.' := by
      rw [rstripDots, String.toList_ofList]
    have hsplit : (rstripDots value).toList ++ value.toList.rtakeWhile (fun c => c = '.')
        = value.toList := by
      rw [hfront, List.rdropWhile_append_rtakeWhile]
    have hdots : ∀ c ∈ value.toList.rtakeWhile (fun c => c = '.'), c = '.' := by
      intro c hc
      simpa using List.mem_rtakeWhile_imp hc
    have hitem : IsPlain (rstripDots value).toList := by
      refine hplain.piece ?_
      rw [hfront]
      exact (List.rdropWhile_prefix _ _).isInfix
    have hsome : ¬ ∀ c ∈ (rstripDots value).toList, isSpace c = true := by
      intro hblank
      -- a blank item is empty, and dots alone say little
      have hnil : (rstripDots value).toList = [] := by
        cases hitems : (rstripDots value).toList with
        | nil => rfl
        | cons c rest =>
          have hc : isSpace c = true := hblank c (by simp [hitems])
          rw [hhead c (by rw [← hsplit, hitems]; rfl)] at hc
          cases hc
      rw [hnil, List.nil_append] at hsplit
      rw [isLowSignalRequirement_of_dots (by rwa [hsplit] at hdots)] at hsignal
      cases hsignal
    refine ⟨?_, fun hblank => hsome ((strip_eq_empty_iff _).mp hblank)⟩
    rw [isNoisyRequirement_of_isPlain hplain, Bool.or_eq_false_iff] at hnoise
    rw [isNoisyRequirement_of_isPlain hitem, Bool.or_eq_false_iff]
    refine ⟨by simpa [joinWords_eq_nil_iff] using hsome, ?_⟩
    rw [← hnoise.2]
    refine requirementNoisePattern_search_congr (trimmed_blockChars ?_)
    rw [← hsplit, trimmed_append_of_none]
    intro c hc
    rw [hdots c hc]
    simp [Alphabet.isWord]

theorem mem_dedupeStringsFrom {values seen : List String} {s : String}
    (h : s ∈ text.dedupeStringsFrom seen values) : s ∈ values := by
  induction values generalizing seen with
  | nil => cases h
  | cons value values ih =>
    rw [dedupeStringsFrom] at h
    split at h
    · exact List.mem_cons_of_mem value (ih h)
    · rcases List.mem_cons.mp h with rfl | h
      · exact List.mem_cons_self
      · exact List.mem_cons_of_mem value (ih h)

/-- The items of a requirement text are no noise, and not blank. -/
theorem splitRequirementText_sound (h : item ∈ text.splitRequirementText value) :
    text.isNoisyRequirement item = false ∧ strip (text.casefold item) ≠ "" := by
  obtain ⟨candidate, hcandidate, hitem⟩ := List.mem_filterMap.mp (mem_dedupeStringsFrom h)
  obtain ⟨part, hpart, hmem⟩ := List.mem_flatMap.mp hcandidate
  obtain ⟨hnoise, hblank⟩ := requirementItem_sound
    (isPlain_of_mem_requirementCandidates (isPlain_of_mem_requirementParts hpart) hmem) hitem
  exact ⟨hnoise, fun hfold => hblank (text.casefold_blank item hfold)⟩

end RelationText

end Bisakerja
