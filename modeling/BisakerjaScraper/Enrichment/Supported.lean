import BisakerjaScraper.Enrichment.Schemas

/-! When a fact counts as supported.

    The words of a fact are looked for in the joined words of the source, not among them: a word is
    found inside a longer one, and the words of one letter are not looked for at all unless they
    stand together. -/

namespace Bisakerja
open Schemes

namespace Enrichment

variable (casefold : String → String)

/-- The facts of an answer. -/
def factsOf (output : EnrichmentOutput casefold) : List String :=
  output.skills.map EnrichedSkill.name ++ output.requirements.map EnrichedRequirement.value

/-- The word tokens of a text, in lower case. -/
def tokensOf (text : String) : List String := wordsOf (casefold text)

section Facts

variable (sourceText fact : String)

/-- Each token of the fact is a token of the source. -/
def WholeWords : Prop := ∀ token ∈ tokensOf casefold fact, token ∈ tokensOf casefold sourceText

/-- Some token has two characters. -/
def HasLong : Prop := ∃ token ∈ tokensOf casefold fact, 2 ≤ token.length

/-- The tokens of two characters or more stand within tokens of the source. -/
def WithinWords : Prop := ∀ token ∈ tokensOf casefold fact, 2 ≤ token.length →
  ∃ word ∈ tokensOf casefold sourceText, isInfix token word

/-- The tokens stand in the source one after the other, separated by blanks. -/
def StandsTogether : Prop :=
  isInfix (joinText " " (tokensOf casefold fact)) (joinText " " (tokensOf casefold sourceText))

/-- The fact has tokens, and none is missed where they are looked for. -/
def LooksSupported : Prop :=
  tokensOf casefold fact ≠ [] ∧ WithinWords casefold sourceText fact ∧
    (HasLong casefold fact ∨ StandsTogether casefold sourceText fact)

/-- The fact has no tokens, or tokens of one character only that do not stand together. -/
def Scattered : Prop :=
  tokensOf casefold fact = [] ∨
    ¬ HasLong casefold fact ∧ ¬ StandsTogether casefold sourceText fact

end Facts

section Answers

variable (output : EnrichmentOutput casefold) (sourceText : String)

/-- An answer is accepted exactly when its facts consist of tokens of the source. -/
def ExactSupport : Prop :=
  ((∃ validated, validateEnrichmentOutput casefold output sourceText = .ok validated) →
      ∀ fact ∈ factsOf casefold output, WholeWords casefold sourceText fact) ∧
    ((∀ fact ∈ factsOf casefold output, WholeWords casefold sourceText fact) →
      ∃ validated, validateEnrichmentOutput casefold output sourceText = .ok validated)

/-- All facts look supported, and a token of one of them is a part of longer words only. -/
def HasHalfWord : Prop :=
  (∀ fact ∈ factsOf casefold output, LooksSupported casefold sourceText fact) ∧
    ∃ fact ∈ factsOf casefold output, ∃ token ∈ tokensOf casefold fact,
      token ∉ tokensOf casefold sourceText

/-- All facts consist of tokens of the source, and one of them is scattered. -/
def HasScattered : Prop :=
  (∀ fact ∈ factsOf casefold output, WholeWords casefold sourceText fact) ∧
    ∃ fact ∈ factsOf casefold output, Scattered casefold sourceText fact

end Answers

/-! ### Tokens and their joined text -/

theorem map_toList_wordsOf (value : String) :
    (wordsOf value).map String.toList = words (fun c => !isWordPart c) value.toList := by
  simp [wordsOf, Function.comp_def]

/-- A token is not empty and has no other characters. -/
theorem of_mem_wordsOf {value token : String} (h : token ∈ wordsOf value) :
    token.toList ≠ [] ∧ ∀ c ∈ token.toList, (!isWordPart c) = false := by
  have hmem : token.toList ∈ words (fun c => !isWordPart c) value.toList := by
    rw [← map_toList_wordsOf]
    exact List.mem_map_of_mem h
  exact of_mem_words hmem

theorem toList_joined (value : String) : (joinText " " (wordsOf value)).toList
    = [' '].intercalate (words (fun c => !isWordPart c) value.toList) := by
  rw [toList_joinText, map_toList_wordsOf]
  rfl

/-- Joined tokens have the same tokens. -/
theorem wordsOf_joined (value : String) :
    wordsOf (joinText " " (wordsOf value)) = wordsOf value := by
  have hwords : words (fun c => !isWordPart c)
      ([' '].intercalate (words (fun c => !isWordPart c) value.toList)) = _ :=
    words_intercalate (by decide) fun w hw => of_mem_words hw
  rw [wordsOf, toList_joined, hwords]
  rfl

/-- A token stands in joined tokens exactly when it stands within one of them. -/
theorem isInfix_joined_iff {value text token : String} (h : token ∈ wordsOf value) :
    isInfix token (joinText " " (wordsOf text)) = true ↔
      ∃ word ∈ wordsOf text, isInfix token word = true := by
  obtain ⟨hne, hparts⟩ := of_mem_wordsOf h
  have hiff :
      token.toList <:+: [' '].intercalate (words (fun c => !isWordPart c) text.toList) ↔ _ :=
    infix_intercalate (by decide) hne hparts
  rw [isInfix, decide_eq_true_iff, toList_joined, hiff, ← map_toList_wordsOf]
  simp [isInfix]

theorem joined_eq_empty_iff (value : String) :
    joinText " " (wordsOf value) = "" ↔ wordsOf value = [] := by
  constructor
  · intro h
    rw [← wordsOf_joined, h]
    rfl
  · intro h
    rw [h]
    rfl

/-! ### What is accepted -/

section Accepted

variable {casefold} {sourceText fact : String}

theorem withinWords_of_standsTogether (h : StandsTogether casefold sourceText fact) :
    WithinWords casefold sourceText fact := by
  intro token htoken _
  have hself : isInfix token (joinText " " (tokensOf casefold fact)) = true :=
    (isInfix_joined_iff htoken).mpr ⟨token, htoken, by simp [isInfix]⟩
  refine (isInfix_joined_iff htoken).mp ?_
  have htrans := (of_decide_eq_true hself).trans (of_decide_eq_true h)
  exact decide_eq_true htrans

/-- The two tests of the code, on tokens. -/
theorem isSupportedBySource_iff :
    isSupportedBySource casefold fact (normalizeText casefold sourceText) = true ↔
      LooksSupported casefold sourceText fact := by
  have htokens : wordsOf (normalizeText casefold fact) = tokensOf casefold fact := wordsOf_joined _
  have hnil : normalizeText casefold fact = "" ↔ tokensOf casefold fact = [] :=
    joined_eq_empty_iff _
  have hjoined : isInfix (normalizeText casefold fact) (normalizeText casefold sourceText) = true ↔
      StandsTogether casefold sourceText fact := Iff.rfl
  unfold isSupportedBySource LooksSupported
  dsimp only
  rw [htokens]
  by_cases hempty : tokensOf casefold fact = []
  · rw [if_pos (hnil.mpr hempty)]
    simp [hempty]
  rw [if_neg fun h => hempty (hnil.mp h)]
  by_cases htogether : StandsTogether casefold sourceText fact
  · rw [if_pos (hjoined.mpr htogether)]
    simp [hempty, htogether, withinWords_of_standsTogether htogether]
  rw [if_neg fun h => htogether (hjoined.mp h)]
  have hlong : (tokensOf casefold fact).filter (2 ≤ ·.length) = [] ↔ ¬ HasLong casefold fact := by
    simp [List.filter_eq_nil_iff, HasLong]
  by_cases hnone : HasLong casefold fact
  · rw [if_neg fun h => hlong.mp h hnone]
    have hall : ((tokensOf casefold fact).filter (2 ≤ ·.length)).all
        (isInfix · (normalizeText casefold sourceText)) = true ↔
          WithinWords casefold sourceText fact := by
      simp only [List.all_eq_true, List.mem_filter, decide_eq_true_eq, and_imp]
      exact forall₂_congr fun token htoken => imp_congr_right fun _ => isInfix_joined_iff htoken
    rw [hall]
    simp [hempty, hnone]
  · rw [if_pos (hlong.mpr hnone)]
    simp [hnone, htogether]

/-- A fact of whole words is refused exactly when it is scattered. -/
theorem looksSupported_iff_of_wholeWords (h : WholeWords casefold sourceText fact) :
    LooksSupported casefold sourceText fact ↔ ¬ Scattered casefold sourceText fact := by
  have hwithin : WithinWords casefold sourceText fact := fun token htoken _ =>
    ⟨token, h token htoken, by simp [isInfix]⟩
  unfold LooksSupported Scattered
  tauto

theorem accepted_iff (output : EnrichmentOutput casefold) (sourceText : String) :
    (∃ validated, validateEnrichmentOutput casefold output sourceText = .ok validated) ↔
      ∀ fact ∈ factsOf casefold output, LooksSupported casefold sourceText fact := by
  have hnone : unsupportedFacts casefold output (normalizeText casefold sourceText) = [] ↔
      ∀ fact ∈ factsOf casefold output, LooksSupported casefold sourceText fact := by
    simp only [unsupportedFacts, factsOf, List.append_eq_nil_iff, List.filterMap_eq_nil_iff,
      ← isSupportedBySource_iff, List.mem_append, List.mem_map, or_imp, forall_and,
      forall_exists_index, and_imp, forall_apply_eq_imp_iff₂, ite_eq_left_iff, reduceCtorEq,
      imp_false, Bool.not_eq_true, Bool.not_eq_false]
  rw [← hnone]
  unfold validateEnrichmentOutput
  dsimp only
  by_cases h : unsupportedFacts casefold output (normalizeText casefold sourceText) = []
  · simp [h]
  · simp [h]

end Accepted

/-- BUG: words are looked for as parts of the source text. Exactly the facts of whole words are
    accepted but for an answer with a half word that looks supported, and one of whole words with a
    scattered fact. -/
theorem exactSupport_iff (output : EnrichmentOutput casefold) (sourceText : String) :
    ExactSupport casefold output sourceText ↔
      ¬ HasHalfWord casefold output sourceText ∧ ¬ HasScattered casefold output sourceText := by
  unfold ExactSupport
  rw [accepted_iff]
  refine and_congr ?_ ?_
  · simp only [HasHalfWord, WholeWords, not_and, not_exists, not_not]
  · have hrefused : ∀ fact ∈ factsOf casefold output, WholeWords casefold sourceText fact →
        (LooksSupported casefold sourceText fact ↔ ¬ Scattered casefold sourceText fact) :=
      fun fact _ => looksSupported_iff_of_wholeWords
    simp only [HasScattered, not_and, not_exists]
    exact forall_congr' fun hwhole => forall₂_congr fun fact hfact =>
      hrefused fact hfact (hwhole fact hfact)

/-! ### Half words -/

/-- An answer with one skill. -/
def oneSkill (name : String) : EnrichmentOutput fun text => text where
  skills := [⟨name, ⟨1, confidence_one⟩⟩]
  requirements := []
  confidence := ⟨1, confidence_one⟩
  skills_nodup := by simp
  requirements_nodup := requirements_nodup_nil

/-- A skill is accepted for a longer word. -/
theorem half_word_accepted :
    (validateEnrichmentOutput _ (oneSkill "java") "we use javascript").isOk = true ∧
      tokensOf (fun text => text) "java" = ["java"] ∧
      tokensOf (fun text => text) "we use javascript" = ["we", "use", "javascript"] ∧
      ¬ ExactSupport _ (oneSkill "java") "we use javascript" := by
  refine ⟨by decide +kernel, by decide +kernel, by decide +kernel, fun h => ?_⟩
  have hok := h.1 ⟨_, rfl⟩ "java" (by decide +kernel) "java" (by decide +kernel)
  revert hok
  decide +kernel

end Enrichment

end Bisakerja
