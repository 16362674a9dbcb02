import Mathlib.Data.List.DropRight
import BisakerjaScraper.Python.Text
import BisakerjaScraper.Schemes.Words

/-! The text helpers the modules share. -/

namespace Bisakerja
open Schemes

/-- `_WHITESPACE_RE.sub(" ", value)`, after a whitespace character or not. -/
def collapseSpaces : Bool → List Char → List Char
  | _, [] => []
  | afterSpace, c :: rest =>
    if isSpace c then (if afterSpace then [] else [' ']) ++ collapseSpaces true rest
    else c :: collapseSpaces false rest

/-- `normalize_text`. -/
def normalizeText (value : String) : String :=
  strip (String.ofList (collapseSpaces false value.toList))

/-- `clean_text` on a text. -/
def cleanText (value : String) : Option String :=
  let text := normalizeText value
  if text = "" then none else some text

/-! ### Texts that are clean -/

/-- A word: it is not empty and holds no whitespace. -/
def IsWord (word : List Char) : Prop := word ≠ [] ∧ ∀ c ∈ word, isSpace c = false

/-- Words separated by single spaces. -/
def spaced : List (List Char) → List Char
  | [] => []
  | [word] => word
  | word :: next :: words => word ++ ' ' :: spaced (next :: words)

theorem collapseSpaces_append {word : List Char} (h : IsWord word) (afterSpace : Bool)
    (text : List Char) :
    collapseSpaces afterSpace (word ++ text) = word ++ collapseSpaces false text := by
  obtain ⟨hne, hword⟩ := h
  induction word generalizing afterSpace with
  | nil => exact absurd rfl hne
  | cons c rest ih =>
    have hc := hword c List.mem_cons_self
    rcases rest with - | ⟨d, rest⟩
    · simp [collapseSpaces, hc]
    · have hrest := ih false (List.cons_ne_nil d rest) fun e he => hword e (List.mem_cons_of_mem _ he)
      simp only [List.cons_append, collapseSpaces, hc, Bool.false_eq_true, if_false] at hrest ⊢
      rw [hrest]

theorem collapseSpaces_spaced {words : List (List Char)} (h : ∀ word ∈ words, IsWord word)
    (afterSpace : Bool) : collapseSpaces afterSpace (spaced words) = spaced words := by
  induction words generalizing afterSpace with
  | nil => rfl
  | cons word words ih =>
    have hword := h word List.mem_cons_self
    have hwords := ih fun w hw => h w (List.mem_cons_of_mem _ hw)
    rcases words with - | ⟨next, words⟩
    · simpa [spaced, collapseSpaces] using collapseSpaces_append hword afterSpace []
    · rw [spaced, collapseSpaces_append hword]
      simp [collapseSpaces, hwords, show isSpace ' ' = true from rfl]

theorem head?_spaced {word : List Char} (h : word ≠ []) (words : List (List Char)) :
    (spaced (word :: words)).head? = word.head? := by
  rcases words with - | ⟨next, words⟩
  · rfl
  · rw [spaced, List.head?_append_of_ne_nil _ h]

theorem spaced_ne_nil {words : List (List Char)} (hne : words ≠ [])
    (h : ∀ word ∈ words, IsWord word) : spaced words ≠ [] := by
  rcases words with - | ⟨word, words⟩
  · exact absurd rfl hne
  · intro hnil
    have hhead := head?_spaced (h word List.mem_cons_self).1 words
    rw [hnil, List.head?_nil, eq_comm, List.head?_eq_none_iff] at hhead
    exact (h word List.mem_cons_self).1 hhead

theorem getLast?_spaced {words : List (List Char)} (h : ∀ word ∈ words, IsWord word) :
    ∀ c ∈ (spaced words).getLast?, isSpace c = false := by
  induction words with
  | nil => simp [spaced]
  | cons word words ih =>
    have hwords := ih fun w hw => h w (List.mem_cons_of_mem _ hw)
    rcases words with - | ⟨next, words⟩
    · exact fun c hc => (h word List.mem_cons_self).2 c (List.mem_of_getLast? hc)
    · intro c hc
      have hne := spaced_ne_nil (List.cons_ne_nil next words) fun w hw =>
        h w (List.mem_cons_of_mem _ hw)
      rw [spaced, List.getLast?_append, List.getLast?_cons_of_ne_nil hne] at hc
      exact hwords c (by simpa [hne] using hc)

theorem spaced_append {words others : List (List Char)} (hwords : words ≠ []) (hothers : others ≠ []) :
    spaced (words ++ others) = spaced words ++ ' ' :: spaced others := by
  induction words with
  | nil => exact absurd rfl hwords
  | cons word words ih =>
    rcases words with - | ⟨next, words⟩
    · obtain ⟨other, more, rfl⟩ := List.exists_cons_of_ne_nil hothers
      rfl
    · have hrest := ih (List.cons_ne_nil next words)
      simp only [List.cons_append, spaced, List.append_assoc] at hrest ⊢
      rw [hrest]

/-- Every word is in the text. -/
theorem infix_spaced {word : List Char} {words : List (List Char)} (h : word ∈ words) :
    word <:+: spaced words := by
  induction words with
  | nil => cases h
  | cons first words ih =>
    rcases words with - | ⟨next, words⟩
    · rw [List.mem_singleton.mp h]
      exact List.infix_rfl
    · rw [spaced]
      rcases List.mem_cons.mp h with rfl | hmem
      · exact (List.prefix_append _ _).isInfix
      · exact (ih hmem).trans ((List.suffix_cons _ _).trans (List.suffix_append _ _)).isInfix

/-- What is in the text is in a word, or is a space. -/
theorem mem_spaced {words : List (List Char)} {c : Char} (h : c ∈ spaced words) :
    c = ' ' ∨ ∃ word ∈ words, c ∈ word := by
  induction words with
  | nil => cases h
  | cons first words ih =>
    rcases words with - | ⟨next, words⟩
    · exact .inr ⟨first, List.mem_cons_self, h⟩
    · rw [spaced, List.mem_append, List.mem_cons] at h
      rcases h with hmem | rfl | hmem
      · exact .inr ⟨first, List.mem_cons_self, hmem⟩
      · exact .inl rfl
      · rcases ih hmem with rfl | ⟨word, hword, hc⟩
        · exact .inl rfl
        · exact .inr ⟨word, List.mem_cons_of_mem _ hword, hc⟩

/-- Words separated by single spaces are clean. -/
theorem cleanText_spaced {words : List (List Char)} (hne : words ≠ [])
    (h : ∀ word ∈ words, IsWord word) :
    cleanText (String.ofList (spaced words)) = some (String.ofList (spaced words)) := by
  have hhead : ∀ c ∈ (spaced words).head?, isSpace c = false := by
    rcases words with - | ⟨word, words⟩
    · exact absurd rfl hne
    · rw [head?_spaced (h word List.mem_cons_self).1]
      exact fun c hc => (h word List.mem_cons_self).2 c (List.mem_of_mem_head? hc)
  have hnonempty : String.ofList (spaced words) ≠ "" := by
    intro hempty
    exact spaced_ne_nil hne h (by simpa using congrArg String.toList hempty)
  simp only [cleanText, normalizeText, String.toList_ofList, collapseSpaces_spaced h,
    strip_ofList hhead (getLast?_spaced h), if_neg hnonempty]

/-! ### Words of texts -/

theorem words_lstrip (text : List Char) : words isSpace (lstrip text) = words isSpace text := by
  unfold lstrip
  conv_rhs => rw [← List.takeWhile_append_dropWhile (p := isSpace) (l := text)]
  rw [words_breaks_append fun c hc => List.mem_takeWhile_imp hc]

theorem words_rdropWhile (text : List Char) :
    words isSpace (text.rdropWhile isSpace) = words isSpace text := by
  induction text using List.reverseRecOn with
  | nil => rfl
  | append_singleton text c ih =>
    by_cases hc : isSpace c = true
    · rw [List.rdropWhile_concat_pos _ _ _ hc, ih, words_append_break hc, words_nil,
        List.append_nil]
    · rw [List.rdropWhile_concat_neg _ _ _ hc]

theorem words_strip (text : String) : words isSpace (strip text).toList = words isSpace text.toList := by
  unfold strip
  rw [String.toList_ofList]
  exact (words_rdropWhile _).trans (words_lstrip text.toList)

/-- Collapsing whitespace keeps the words, behind the beginning of a word or not. -/
theorem words_collapseSpaces (text : List Char) :
    words isSpace (collapseSpaces true text) = words isSpace text ∧
      ∀ word, words isSpace (word ++ collapseSpaces false text) = words isSpace (word ++ text) := by
  induction text with
  | nil => exact ⟨rfl, fun word => rfl⟩
  | cons c text ih =>
    unfold collapseSpaces
    by_cases hc : isSpace c = true
    · have hspace : isSpace ' ' = true := by decide
      refine ⟨?_, fun word => ?_⟩
      · simp only [hc, if_true, List.nil_append]
        rw [ih.1, words_cons_break hc]
      · simp only [hc, Bool.false_eq_true, if_false, if_true, List.singleton_append]
        rw [words_append_break hspace, ih.1, words_append_break hc]
    · simp only [hc]
      refine ⟨ih.2 [c], fun word => ?_⟩
      have h := ih.2 (word ++ [c])
      rwa [List.append_assoc, List.append_assoc] at h

theorem words_normalizeText (value : String) :
    words isSpace (normalizeText value).toList = words isSpace value.toList := by
  unfold normalizeText
  rw [words_strip, String.toList_ofList]
  exact (words_collapseSpaces value.toList).2 []

/-- Whitespace around a text without any at its ends is stripped. -/
theorem strip_padded {lead core tail : List Char} (hlead : ∀ c ∈ lead, isSpace c = true)
    (htail : ∀ c ∈ tail, isSpace c = true) (hhead : ∀ c ∈ core.head?, isSpace c = false)
    (hlast : ∀ c ∈ core.getLast?, isSpace c = false) :
    strip (String.ofList (lead ++ (core ++ tail))) = String.ofList core := by
  rcases core with - | ⟨c, core⟩
  · have hall : ∀ c ∈ lead ++ tail, isSpace c = true := by
      intro c hc
      exact (List.mem_append.mp hc).elim (hlead c) (htail c)
    simp [strip, List.dropWhile_eq_nil_iff.mpr hall]
  · have hfront : (c :: core ++ tail).dropWhile isSpace = c :: core ++ tail := by
      rw [List.cons_append, List.dropWhile_cons_of_neg (by simp [hhead c rfl])]
    have hback : (c :: core).reverse.dropWhile isSpace = (c :: core).reverse := by
      rcases hrev : (c :: core).reverse with - | ⟨d, back⟩
      · rfl
      · have hd : (c :: core).getLast? = some d := by
          rw [← List.head?_reverse, hrev]
          rfl
        rw [List.dropWhile_cons_of_neg (by simp [hlast d hd])]
    rw [strip, String.toList_ofList, List.dropWhile_append_of_pos hlead, hfront,
      List.reverse_append, List.dropWhile_append_of_pos (by simpa using htail), hback,
      List.reverse_reverse]

/-- Behind whitespace, collapsing leaves the words separated by single spaces, and perhaps one
    space. -/
theorem collapseSpaces_eq_spaced (text : List Char) :
    ∃ tail, (∀ c ∈ tail, isSpace c = true) ∧ (words isSpace text = [] → tail = []) ∧
      collapseSpaces true text = spaced (words isSpace text) ++ tail := by
  have hbreaks : ∀ breaks rest : List Char, (∀ c ∈ breaks, isSpace c = true) →
      collapseSpaces true (breaks ++ rest) = collapseSpaces true rest := by
    intro breaks rest h
    induction breaks with
    | nil => rfl
    | cons c breaks ih =>
      have hc := h c List.mem_cons_self
      simpa [collapseSpaces, hc] using ih fun d hd => h d (List.mem_cons_of_mem _ hd)
  induction hn : text.length using Nat.strong_induction_on generalizing text with
  | _ n ih =>
    rcases breaks_or_word isSpace text with hall | ⟨breaks, word, rest, rfl, hall, hne, hword, hrest⟩
    · refine ⟨[], by simp, fun _ => rfl, ?_⟩
      have hnone := hbreaks text [] hall
      rw [List.append_nil] at hnone
      rw [words_eq_nil hall, hnone]
      rfl
    · have hlt : rest.length < n := by
        have := List.length_pos_iff.mpr hne
        simp only [List.length_append] at hn
        omega
      obtain ⟨tail, htail, hnil, hcollapse⟩ := ih _ hlt rest rfl
      rw [words_breaks_word hall hne hword hrest, hbreaks _ _ hall,
        collapseSpaces_append ⟨hne, hword⟩]
      rcases rest with - | ⟨c, rest⟩
      · exact ⟨[], by simp, fun _ => rfl, by simp [collapseSpaces, spaced]⟩
      · have hc := hrest c rfl
        have hspace : collapseSpaces false (c :: rest) = ' ' :: collapseSpaces true (c :: rest) := by
          simp [collapseSpaces, hc]
        rw [hspace, hcollapse]
        cases hwords : words isSpace (c :: rest) with
        | nil =>
          refine ⟨[' '], by decide, nofun, ?_⟩
          rw [hnil hwords]
          rfl
        | cons next more => exact ⟨tail, htail, nofun, by simp [spaced]⟩

/-- `normalize_text` leaves the words separated by single spaces. -/
theorem toList_normalizeText (value : String) :
    (normalizeText value).toList = spaced (words isSpace value.toList) := by
  obtain ⟨tail, htail, -, hcollapse⟩ := collapseSpaces_eq_spaced value.toList
  have hwords : ∀ word ∈ words isSpace value.toList, IsWord word := fun word hword => of_mem_words hword
  have hhead : ∀ c ∈ (spaced (words isSpace value.toList)).head?, isSpace c = false := by
    rcases hsome : words isSpace value.toList with - | ⟨word, more⟩
    · simp [spaced]
    · have hword := hwords word (hsome ▸ List.mem_cons_self)
      rw [head?_spaced hword.1]
      exact fun c hc => hword.2 c (List.mem_of_mem_head? hc)
  have hlead : ∃ lead, (∀ c ∈ lead, isSpace c = true) ∧
      collapseSpaces false value.toList = lead ++ collapseSpaces true value.toList := by
    rcases value.toList with - | ⟨c, rest⟩
    · exact ⟨[], by simp, rfl⟩
    · by_cases hc : isSpace c = true
      · exact ⟨[' '], by decide, by simp [collapseSpaces, hc]⟩
      · exact ⟨[], by simp, by simp [collapseSpaces, hc]⟩
  obtain ⟨lead, hlead, hfront⟩ := hlead
  rw [normalizeText, hfront, hcollapse, strip_padded hlead htail hhead (getLast?_spaced hwords),
    String.toList_ofList]

/-- Cleaning leaves no empty text. -/
theorem cleanText_ne_empty (s : String) : cleanText s ≠ some "" := by
  unfold cleanText
  dsimp only
  split
  · exact nofun
  · next hne =>
    intro h
    exact hne (Option.some.inj h)

theorem strip_eq_empty_iff (s : String) : strip s = "" ↔ ∀ c ∈ s.toList, isSpace c = true := by
  rw [← words_eq_nil_iff, ← words_strip]
  constructor
  · intro h
    rw [h]
    rfl
  · intro h
    have hall := words_eq_nil_iff.mp (words_strip s ▸ h)
    simp [strip, List.dropWhile_eq_nil_iff.mpr hall]

theorem normalizeText_eq_empty_iff (s : String) :
    normalizeText s = "" ↔ ∀ c ∈ s.toList, isSpace c = true := by
  rw [normalizeText, strip_eq_empty_iff, String.toList_ofList, ← words_eq_nil_iff,
    ← words_eq_nil_iff]
  exact iff_of_eq (congrArg (· = []) ((words_collapseSpaces s.toList).2 []))

theorem cleanText_eq_none_iff (s : String) : cleanText s = none ↔ strip s = "" := by
  rw [strip_eq_empty_iff, ← normalizeText_eq_empty_iff]
  unfold cleanText
  dsimp only
  split <;> simp_all

/-- A clean text is clean. -/
theorem cleanText_of_cleanText {value clean : String} (h : cleanText value = some clean) :
    cleanText clean = some clean := by
  unfold cleanText at h
  dsimp only at h
  split at h
  · cases h
  · next hne =>
    obtain rfl := Option.some.inj h
    have hlist := toList_normalizeText value
    have hsome : words isSpace value.toList ≠ [] := by
      intro hnil
      rw [hnil] at hlist
      exact hne (String.toList_inj.mp hlist)
    have hclean := cleanText_spaced hsome fun word hword => of_mem_words hword
    rwa [← hlist, String.ofList_toList] at hclean

/-- Stripping leaves nothing to strip. -/
theorem strip_strip (s : String) : strip (strip s) = strip s := by
  unfold strip
  rw [String.toList_ofList]
  change String.ofList ((((s.toList.dropWhile isSpace).rdropWhile isSpace).dropWhile
    isSpace).rdropWhile isSpace) = _
  have hfront : ((s.toList.dropWhile isSpace).rdropWhile isSpace).dropWhile isSpace
      = (s.toList.dropWhile isSpace).rdropWhile isSpace := by
    have hstarts := List.rdropWhile_prefix isSpace (s.toList.dropWhile isSpace)
    rw [List.dropWhile_eq_self_iff]
    intro hlen
    rw [hstarts.getElem hlen]
    exact List.dropWhile_eq_self_iff.mp (List.dropWhile_idempotent isSpace s.toList)
      (hlen.trans_le hstarts.length_le)
  rw [hfront, List.rdropWhile_idempotent]
  rfl

end Bisakerja
