import BisakerjaScraper.Cli.Redaction
import BisakerjaScraper.Eligibility.Known
import Mathlib.Data.List.Chain

/-! Secrets in a message.

    A message is taken to hold a secret when redaction changes it, and redaction makes its
    whitespace single blanks: whitespace alone makes a message sensitive. -/

namespace Bisakerja
open Schemes

/-! ### Detection -/

/-- A database URL, a cookie assignment, or an authorization bearer header. -/
def namesSecret (text : IdentityText) (value : String) : Bool :=
  let lowered := text.lower value
  isInfix "postgresql://" lowered || isInfix "postgresql+asyncpg://" lowered ||
    (isInfix "cookie" lowered && isInfix "=" lowered) ||
    (isInfix "authorization" lowered && isInfix "bearer" lowered)

/-- `contains_sensitive_fragment`. -/
def containsSensitiveFragment (text : IdentityText) : Option String → Bool
  | none => false
  | some value =>
    if value = "" then false
    else namesSecret text value || redactText value ≠ value

/-- The message names a secret, or one of the patterns finds something else than stars in it. -/
def HasSecret (text : IdentityText) (value : String) : Prop :=
  namesSecret text value = true ∨ redactTokens value.toList ≠ value.toList ∨
    redactQueries value.toList ≠ value.toList

/-- Secrets are what is detected in a message, and redacting it again changes nothing. -/
def DetectsSecrets (text : IdentityText) (value : String) : Prop :=
  (containsSensitiveFragment text (some value) = true ↔ HasSecret text value) ∧
    redactText (redactText value) = redactText value

/-! ### Words -/

/-- The text behind a word, when some words follow. -/
def behind : List (List Char) → List Char
  | [] => []
  | word :: rest => ' ' :: spaced (word :: rest)

theorem spaced_cons (word : List Char) (rest : List (List Char)) :
    spaced (word :: rest) = word ++ behind rest := by
  cases rest with
  | nil => simp [spaced, behind]
  | cons other more => rfl

theorem spaced_eq_intercalate (ws : List (List Char)) : spaced ws = [' '].intercalate ws := by
  induction ws with
  | nil => rfl
  | cons word rest ih =>
    cases rest with
    | nil => simp [spaced]
    | cons other more =>
      rw [List.intercalate_cons_cons, ← ih, spaced]
      simp

/-- Words written with blanks between them are found again. -/
theorem words_spaced {ws : List (List Char)} (h : ∀ word ∈ ws, IsWord word) :
    words isSpace (spaced ws) = ws := by
  rw [spaced_eq_intercalate]
  exact words_intercalate (by decide) h

theorem spaced_injective {ws others : List (List Char)} (h : ∀ word ∈ ws, IsWord word)
    (hothers : ∀ word ∈ others, IsWord word) (heq : spaced ws = spaced others) : ws = others := by
  rw [← words_spaced h, heq, words_spaced hothers]

theorem toList_compactText (text : String) :
    (compactText text).toList = spaced (words isSpace text.toList) := by
  rw [compactText, toList_joinText, words_strip, spaced_eq_intercalate, List.map_map]
  congr 1
  simp [Function.comp_def]

theorem isWord_stars : IsWord stars := ⟨by decide, by decide⟩

/-! ### Redaction word by word -/

/-- The words behind those that end in `bearer` are masked. -/
def redactWords : List (List Char) → List (List Char)
  | word :: value :: rest =>
    if EndsBearer word then word :: stars :: redactWords rest
    else word :: redactWords (value :: rest)
  | short => short

theorem redactWords_eq_nil_iff (ws : List (List Char)) : redactWords ws = [] ↔ ws = [] := by
  cases ws with
  | nil => simp [redactWords]
  | cons word rest =>
    cases rest with
    | nil => simp [redactWords]
    | cons value more => by_cases h : EndsBearer word <;> simp [redactWords, h]

theorem head?_behind (ws : List (List Char)) : ∀ c ∈ (behind ws).head?, isSpace c = true := by
  cases ws with
  | nil => simp [behind]
  | cons word rest =>
    intro c hc
    obtain rfl : ' ' = c := by simpa [behind] using hc
    decide

theorem redactTokens_behind {ws : List (List Char)}
    (h : redactTokens (spaced ws) = spaced (redactWords ws)) :
    redactTokens (behind ws) = behind (redactWords ws) := by
  cases hredacted : redactWords ws with
  | nil =>
    rw [(redactWords_eq_nil_iff ws).mp hredacted]
    rfl
  | cons word rest =>
    cases ws with
    | nil => cases hredacted
    | cons first more =>
      rw [hredacted] at h
      rw [behind, behind, ← h, redactTokens, masked_of_none (tokenAt_space _)]
      rfl

/-- Tokens are redacted word by word. -/
theorem redactTokens_spaced {ws : List (List Char)} (h : ∀ word ∈ ws, IsWord word) :
    redactTokens (spaced ws) = spaced (redactWords ws) := by
  induction ws using redactWords.induct with
  | case1 word value rest hends ih =>
    obtain ⟨hword, hmore⟩ := List.forall_mem_cons.mp h
    obtain ⟨hvalue, hrest⟩ := List.forall_mem_cons.mp hmore
    have hpair := redactTokens_pair hword.2 hvalue.1 hvalue.2 (head?_behind rest)
    rw [if_pos hends, redactTokens_behind (ih hrest), ← spaced_cons, ← spaced_cons] at hpair
    rw [redactWords, if_pos hends]
    exact hpair
  | case2 word value rest hends ih =>
    obtain ⟨hword, hmore⟩ := List.forall_mem_cons.mp h
    obtain ⟨hvalue, hrest⟩ := List.forall_mem_cons.mp hmore
    have hpair := redactTokens_pair hword.2 hvalue.1 hvalue.2 (head?_behind rest)
    rw [if_neg hends, ← spaced_cons, ih hmore] at hpair
    rw [redactWords, if_neg hends, spaced_cons word]
    cases hredacted : redactWords (value :: rest) with
    | nil => exact absurd ((redactWords_eq_nil_iff _).mp hredacted) (List.cons_ne_nil _ _)
    | cons other more =>
      rw [hredacted] at hpair
      exact hpair
  | case3 short hshort =>
    rcases short with - | ⟨word, - | ⟨value, rest⟩⟩
    · rfl
    · exact redactTokens_of_no_space (h word List.mem_cons_self).2
    · exact absurd rfl (hshort word value rest)

/-- Queries are redacted within words. -/
theorem redactQueries_spaced {ws : List (List Char)} (h : ∀ word ∈ ws, IsWord word) :
    redactQueries (spaced ws) = spaced (ws.map redactQueries) := by
  induction ws with
  | nil => rfl
  | cons word rest ih =>
    obtain ⟨hword, hrest⟩ := List.forall_mem_cons.mp h
    cases rest with
    | nil => rfl
    | cons other more =>
      have hspace : ' ' ∉ word := fun hmem => by
        have hno := hword.2 ' ' hmem
        revert hno
        decide
      have hredacted := ih hrest
      rw [List.map_cons] at hredacted
      rw [spaced, redactQueries_append_space hspace, hredacted]
      rfl

theorem isWord_redactQueries {word : List Char} (h : IsWord word) : IsWord (redactQueries word) :=
  ⟨(masked_eq_nil_iff bounds_queryAt).not.mpr h.1, forall_masked bounds_queryAt (by decide) h.2⟩

theorem isWord_redactWords {ws : List (List Char)} (h : ∀ word ∈ ws, IsWord word) :
    ∀ word ∈ redactWords ws, IsWord word := by
  induction ws using redactWords.induct with
  | case1 word value rest hends ih =>
    simp only [List.forall_mem_cons] at h
    rw [redactWords, if_pos hends]
    simp only [List.forall_mem_cons]
    exact ⟨h.1, isWord_stars, ih h.2.2⟩
  | case2 word value rest hends ih =>
    obtain ⟨hword, hmore⟩ := List.forall_mem_cons.mp h
    rw [redactWords, if_neg hends]
    exact List.forall_mem_cons.mpr ⟨hword, ih hmore⟩
  | case3 short hshort =>
    rcases short with - | ⟨word, - | ⟨value, rest⟩⟩
    · exact h
    · exact h
    · exact absurd rfl (hshort word value rest)

/-! ### Redacting again -/

/-- What stands behind a word that ends in `bearer` is masked. -/
def TokensMasked (ws : List (List Char)) : Prop :=
  ws.IsChain fun word value => EndsBearer word → value = stars

theorem not_endsBearer_stars : ¬ EndsBearer stars := by decide

theorem tokensMasked_redactWords (ws : List (List Char)) : TokensMasked (redactWords ws) := by
  induction ws using redactWords.induct with
  | case1 word value rest hends ih =>
    rw [redactWords, if_pos hends]
    refine List.isChain_cons_cons.mpr ⟨fun _ => rfl, ?_⟩
    cases hrest : redactWords rest with
    | nil => exact List.isChain_singleton _
    | cons other more =>
      rw [hrest] at ih
      exact List.isChain_cons_cons.mpr ⟨fun h => absurd h not_endsBearer_stars, ih⟩
  | case2 word value rest hends ih =>
    rw [redactWords, if_neg hends]
    cases hrest : redactWords (value :: rest) with
    | nil => exact List.isChain_singleton _
    | cons other more =>
      rw [hrest] at ih
      exact List.isChain_cons_cons.mpr ⟨fun h => absurd h hends, ih⟩
  | case3 short hshort =>
    rcases short with - | ⟨word, - | ⟨value, rest⟩⟩
    · exact List.isChain_nil
    · exact List.isChain_singleton _
    · exact absurd rfl (hshort word value rest)

/-- Masked tokens are left alone. -/
theorem redactWords_of_tokensMasked {ws : List (List Char)} (h : TokensMasked ws) :
    redactWords ws = ws := by
  induction ws using redactWords.induct with
  | case1 word value rest hends ih =>
    obtain ⟨hvalue, hmore⟩ := List.isChain_cons_cons.mp h
    rw [redactWords, if_pos hends, hvalue hends, ih hmore.tail]
  | case2 word value rest hends ih =>
    obtain ⟨-, hmore⟩ := List.isChain_cons_cons.mp h
    rw [redactWords, if_neg hends, ih hmore]
  | case3 short hshort =>
    rcases short with - | ⟨word, - | ⟨value, rest⟩⟩
    · rfl
    · rfl
    · exact absurd rfl (hshort word value rest)

/-- A word that ends in `bearer` with its queries redacted ends so without. -/
theorem endsBearer_of_redactQueries {word : List Char} (h : EndsBearer (redactQueries word)) :
    EndsBearer word := by
  rcases masked_eq_or bounds_queryAt word with hsame | ⟨front, back, heq, hback⟩
  · rwa [redactQueries, hsame] at h
  · have hsplit : (redactQueries word).map foldLetter
        = (front ++ ['*', '*']).map foldLetter ++ '*' :: back.map foldLetter := by
      rw [redactQueries, heq]
      simp [stars, show foldLetter '*' = '*' by decide]
    rw [EndsBearer, hsplit] at h
    rcases List.suffix_or_suffix_of_suffix h (List.suffix_append _ _) with hshort | hlong
    · rcases List.suffix_cons_iff.mp hshort with hstar | hsuffix
      · cases hstar
      · exact hsuffix.trans (hback.map foldLetter)
    · have hstar : '*' ∉ "bearer".toList := by decide
      exact absurd (hlong.subset List.mem_cons_self) hstar

theorem TokensMasked.map_redactQueries {ws : List (List Char)} (h : TokensMasked ws) :
    TokensMasked (ws.map redactQueries) := by
  refine (List.isChain_map _).mpr (h.imp fun word value hvalue hends => ?_)
  rw [hvalue (endsBearer_of_redactQueries hends)]
  rfl

theorem toList_redactText (text : String) : (redactText text).toList
    = spaced ((redactWords (words isSpace text.toList)).map redactQueries) := by
  have hwords : ∀ word ∈ words isSpace text.toList, IsWord word := fun _ => of_mem_words
  rw [redactText, String.toList_ofList, toList_compactText, redactTokens_spaced hwords,
    redactQueries_spaced (isWord_redactWords hwords)]

theorem words_redactText (text : String) : words isSpace (redactText text).toList
    = (redactWords (words isSpace text.toList)).map redactQueries := by
  rw [toList_redactText]
  refine words_spaced fun word hword => ?_
  obtain ⟨word, hmem, rfl⟩ := List.mem_map.mp hword
  exact isWord_redactQueries (isWord_redactWords (fun _ => of_mem_words) word hmem)

/-- Redacting a text again changes nothing. -/
theorem redactText_redactText (text : String) : redactText (redactText text) = redactText text := by
  have hmasked := (tokensMasked_redactWords (words isSpace text.toList)).map_redactQueries
  have hqueries : redactQueries ∘ redactQueries = redactQueries :=
    funext redactQueries_redactQueries
  rw [← String.toList_inj, toList_redactText, words_redactText,
    redactWords_of_tokensMasked hmasked, List.map_map, hqueries, toList_redactText]

/-- A redacted text has single blanks. -/
theorem compactText_redactText (text : String) :
    compactText (redactText text) = redactText text := by
  rw [← String.toList_inj, toList_compactText, words_redactText, toList_redactText]

/-! ### Detection is exact on single blanks -/

/-- With single blanks, redaction changes a text exactly when one of the patterns does. -/
theorem redactText_ne_iff {value : String} (h : compactText value = value) :
    redactText value ≠ value ↔
      redactTokens value.toList ≠ value.toList ∨ redactQueries value.toList ≠ value.toList := by
  have hredacted := toList_redactText value
  have hvalue : value.toList = spaced (words isSpace value.toList) := by
    rw [← toList_compactText, h]
  have hwords : ∀ word ∈ words isSpace value.toList, IsWord word := fun _ => of_mem_words
  rw [ne_eq, ← String.toList_inj, hredacted]
  generalize words isSpace value.toList = ws at hvalue hwords
  have hqueried : ∀ {others : List (List Char)}, (∀ word ∈ others, IsWord word) →
      ∀ word ∈ others.map redactQueries, IsWord word := fun hothers =>
    List.forall_mem_map.mpr fun word hword => isWord_redactQueries (hothers word hword)
  have htokens : redactTokens value.toList = value.toList ↔ redactWords ws = ws := by
    rw [hvalue, redactTokens_spaced hwords]
    exact ⟨spaced_injective (isWord_redactWords hwords) hwords, congrArg spaced⟩
  have hqueries : redactQueries value.toList = value.toList ↔ ws.map redactQueries = ws := by
    rw [hvalue, redactQueries_spaced hwords]
    exact ⟨spaced_injective (hqueried hwords) hwords, congrArg spaced⟩
  have hboth : spaced ((redactWords ws).map redactQueries) = value.toList ↔
      (redactWords ws).map redactQueries = ws := by
    rw [hvalue]
    exact ⟨spaced_injective (hqueried (isWord_redactWords hwords)) hwords, congrArg spaced⟩
  rw [hboth, ne_eq, ne_eq, htokens, hqueries, ← not_and_or, not_iff_not]
  constructor
  · intro hsame
    -- the words are redacted, so their tokens are
    have hmasked : TokensMasked ws := hsame ▸ (tokensMasked_redactWords ws).map_redactQueries
    have hws := redactWords_of_tokensMasked hmasked
    exact ⟨hws, by rwa [hws] at hsame⟩
  · rintro ⟨hws, hsame⟩
    rw [hws, hsame]

/-- BUG: redaction is compared with the message as it came. Secrets are what is detected exactly
    when the whitespace of the message is single blanks or the message has a secret. -/
theorem detectsSecrets_iff (text : IdentityText) (value : String) :
    DetectsSecrets text value ↔ compactText value = value ∨ HasSecret text value := by
  have hempty : value = "" → ¬ HasSecret text value := by
    rintro rfl
    simp [HasSecret, namesSecret, text.lower_empty, redactTokens, redactQueries, isInfix]
  have hdetected : containsSensitiveFragment text (some value) = true ↔
      value ≠ "" ∧ (namesSecret text value = true ∨ redactText value ≠ value) := by
    unfold containsSensitiveFragment
    by_cases hvalue : value = "" <;> simp [hvalue]
  rw [DetectsSecrets, and_iff_left (redactText_redactText value), hdetected]
  by_cases hcompact : compactText value = value
  · rw [redactText_ne_iff hcompact]
    refine iff_of_true ?_ (.inl hcompact)
    exact and_iff_right_of_imp fun hsecret hvalue => hempty hvalue hsecret
  · have hchanged : redactText value ≠ value := fun hsame =>
      hcompact (by rw [← hsame, compactText_redactText])
    have hvalue : value ≠ "" := by
      rintro rfl
      exact hcompact rfl
    simp [hchanged, hvalue, hcompact]

/-! ### A line break -/

/-- A message in two lines is taken to hold a secret. -/
theorem line_break_sensitive :
    containsSensitiveFragment asciiText (some "parser failed\nat line 3") = true ∧
      ¬ HasSecret asciiText "parser failed\nat line 3" ∧
      ¬ DetectsSecrets asciiText "parser failed\nat line 3" := by
  have hsensitive :
      containsSensitiveFragment asciiText (some "parser failed\nat line 3") = true := by
    decide +kernel
  have hnone : ¬ HasSecret asciiText "parser failed\nat line 3" := by
    unfold HasSecret
    decide +kernel
  exact ⟨hsensitive, hnone, fun h => hnone (h.1.mp hsensitive)⟩

end Bisakerja
