import BisakerjaScraper.Shared.SettledHtml

/-! Display HTML made again.

    What `ensure_display_html` wraps itself it leaves as it is from then on. What it sanitizes it
    may change once more: text without any tag is wrapped the next time, and where two texts that
    meet bring whitespace both, it is collapsed. -/

namespace Bisakerja
open Schemes

/-! ### The calls that are kept -/

/-- A text that ends in whitespace. -/
def HtmlEvent.endsSpace : HtmlEvent → Bool
  | .data text => Bisakerja.endsSpace text.toList
  | .startTag _ _ | .startEndTag _ _ | .endTag _ => false

/-- A text that begins with whitespace. -/
def HtmlEvent.beginsSpace : HtmlEvent → Bool
  | .data text => Bisakerja.beginsSpace text.toList
  | .startTag _ _ | .startEndTag _ _ | .endTag _ => false

/-- A call for a tag. -/
def HtmlEvent.isTag : HtmlEvent → Bool
  | .data _ => false
  | .startTag _ _ | .startEndTag _ _ | .endTag _ => true

/-- Calls of which no two bring whitespace where they meet. -/
def EventsApart (events : List HtmlEvent) : Prop :=
  events.IsChain fun a b => ¬ (a.endsSpace = true ∧ b.beginsSpace = true)

theorem eventsApart_concat {events : List HtmlEvent} {event : HtmlEvent} :
    EventsApart (events ++ [event]) ↔ EventsApart events ∧
      ¬ (events.getLast?.any HtmlEvent.endsSpace = true ∧ event.beginsSpace = true) := by
  unfold EventsApart
  rw [List.isChain_append]
  cases events.getLast? with
  | none => simp
  | some c => simp

/-! ### What is written -/

namespace DisplayHTMLSanitizer

variable {casefold : String → String} {s : DisplayHTMLSanitizer} {tokens : List DisplayToken}
  {kept : List HtmlEvent}

/-- What the sanitizer has written for the calls it kept. -/
structure Kept (s : DisplayHTMLSanitizer) (tokens : List DisplayToken) (kept : List HtmlEvent) :
    Prop where
  written : Written tokens s.parts s.openTags
  ends : ∀ last ∈ s.parts.getLast?, last ≠ [] ∧ last ≠ [' ']
  tidy : Tidy tokens
  first : ∀ token ∈ tokens.head?, token.isBlank = false
  nil : tokens = [] ↔ kept = []
  apart : TokensApart tokens ↔ EventsApart kept
  last : tokens.getLast?.any DisplayToken.isBlank = kept.getLast?.any HtmlEvent.endsSpace
  tags : (∃ token ∈ tokens, token.isTag = true) ↔ ∃ event ∈ kept, event.isTag = true

theorem closeThrough_parts (lowered : String) (parts : List (List Char)) (openTags : List String) :
    ∃ more, (closeThrough lowered parts openTags).1 = parts ++ more ∧
      ∀ part ∈ more, part ≠ [] ∧ part ≠ [' '] := by
  induction openTags generalizing parts with
  | nil => exact ⟨[], (List.append_nil parts).symm, by simp⟩
  | cons top openTags ih =>
    have htop : closingText top ≠ [] ∧ closingText top ≠ [' '] := by
      simp [closingText]
    rw [closeThrough]
    split
    · exact ⟨[closingText top], rfl, by simpa using htop⟩
    · obtain ⟨more, hmore, hparts⟩ := ih (parts ++ [closingText top])
      refine ⟨closingText top :: more, by rw [hmore, List.append_assoc]; rfl, ?_⟩
      exact List.forall_mem_cons.mpr ⟨htop, hparts⟩

/-- A call for a tag appends whole tags. -/
theorem handle_tag_parts (casefold : String → String) (s : DisplayHTMLSanitizer)
    {event : HtmlEvent} (htag : event.isTag = true) :
    ∃ more, (s.handle casefold event).parts = s.parts ++ more ∧
      ∀ part ∈ more, part ≠ [] ∧ part ≠ [' '] := by
  have hstart : ∀ tag, ∃ more, (s.handleStarttag casefold tag).parts = s.parts ++ more ∧
      ∀ part ∈ more, part ≠ [] ∧ part ≠ [' '] := by
    intro tag
    have hopening : ∀ tag, openingText tag ≠ [] ∧ openingText tag ≠ [' '] := fun tag => by
      simp [openingText]
    have hnone : ∃ more, s.parts = s.parts ++ more ∧ ∀ part ∈ more, part ≠ [] ∧ part ≠ [' '] :=
      ⟨[], by simp, by simp⟩
    rw [handleStarttag]
    split
    · exact hnone
    · split
      · exact hnone
      · split
        · exact hnone
        · split
          · exact ⟨_, rfl, by simpa using hopening "br"⟩
          · exact ⟨_, rfl, by simpa using hopening (casefold tag)⟩
  cases event with
  | data data => cases htag
  | startTag tag attrs => exact hstart tag
  | startEndTag tag attrs => exact hstart tag
  | endTag tag =>
    have hnone : ∃ more, s.parts = s.parts ++ more ∧ ∀ part ∈ more, part ≠ [] ∧ part ≠ [' '] :=
      ⟨[], by simp, by simp⟩
    rw [handle, handleEndtag]
    split
    · split
      · exact hnone
      · exact hnone
    · split
      · exact hnone
      · split
        · exact hnone
        · split
          · exact hnone
          · exact closeThrough_parts (casefold tag) s.parts s.openTags

/-- A text that is not blank is not written as a lone space. -/
theorem escape_ne_space {text : List Char} (hwords : words isSpace text ≠ []) :
    escape text ≠ [] ∧ escape text ≠ [' '] := by
  rw [Ne, words_eq_nil_iff] at hwords
  push Not at hwords
  obtain ⟨c, hc, hspace⟩ := hwords
  obtain ⟨d, rest, hescape, hd⟩ := (escapeChar_of_not_isSpace (by simpa using hspace)).1
  have hmem : d ∈ escape text := List.mem_flatMap.mpr ⟨c, hc, by rw [hescape]; simp⟩
  constructor
  · intro hnil
    rw [hnil] at hmem
    cases hmem
  · intro hlone
    rw [hlone, List.mem_singleton] at hmem
    rw [hmem] at hd
    exact absurd hd (by decide)

/-- What is written for a text: it is collapsed, and stands behind a space where none is. -/
theorem dataParts_text {normalized : List Char}
    (hends : ∀ last ∈ s.parts.getLast?, last ≠ [] ∧ last ≠ [' '])
    (hspaces : ∀ c ∈ normalized, isSpace c = true → c = ' ')
    (hwords : words isSpace normalized ≠ []) :
    ∃ text, (s.dataParts normalized).flatten = escape text ∧
      ((s.parts = [] ∧ text = lstrip normalized) ∨ (s.parts ≠ [] ∧ text = normalized) ∨
        (s.parts ≠ [] ∧ text = ' ' :: normalized ∧ beginsSpace normalized = false ∧
          s.parts.flatten.getLast? ≠ some ' ')) ∧
      ∀ last ∈ (s.dataParts normalized).getLast?, last ≠ [] ∧ last ≠ [' '] := by
  have hne : normalized ≠ [] := by
    rintro rfl
    exact hwords (words_nil _)
  have hescape := escape_ne_space hwords
  by_cases hparts : s.parts = []
  · have hstripped : words isSpace (lstrip normalized) ≠ [] := by rwa [words_lstrip]
    have hnonempty : lstrip normalized ≠ [] := by
      intro hnil
      rw [hnil, words_nil] at hstripped
      exact hstripped rfl
    have hlstrip := escape_ne_space hstripped
    have hdata : s.dataParts normalized = [escape (lstrip normalized)] := by
      simp [dataParts, separator, escapedBehind, hparts, hnonempty, hlstrip.1]
    refine ⟨lstrip normalized, ?_, .inl ⟨hparts, rfl⟩, ?_⟩
    · rw [hdata, List.flatten_singleton]
    · simpa [hdata] using hlstrip
  · obtain ⟨last, hlast⟩ := Option.ne_none_iff_exists'.mp (List.getLast?_eq_none_iff.not.mpr hparts)
    obtain ⟨hnonempty, hlone⟩ := hends last hlast
    by_cases hapart : (last.getLast? = some '>' ∨ last.getLast? = some ' ') ∨
        normalized.head? = some ' '
    · have hseparator : s.separator normalized = [] := by
        rcases hapart with hapart | hspace
        · simp [separator, hlast, hapart]
        · simp [separator, hlast, hspace]
      have hdata : s.dataParts normalized = [escape normalized] := by
        simp [dataParts_of_ne_nil hparts hne, hseparator, escapedBehind, hlast, hlone, hescape.1]
      refine ⟨normalized, ?_, .inr (.inl ⟨hparts, rfl⟩), ?_⟩
      · rw [hdata, List.flatten_singleton]
      · simpa [hdata] using hescape
    · obtain ⟨hbehind, hhead⟩ := not_or.mp hapart
      have hbegins : beginsSpace normalized = false := by
        obtain ⟨c, rest, rfl⟩ := List.exists_cons_of_ne_nil hne
        by_contra hspace
        have hc : isSpace c = true := by simpa [beginsSpace] using hspace
        exact hhead (by rw [hspaces c List.mem_cons_self hc]; rfl)
      have hescaped : (escape normalized).head? ≠ some ' ' := by
        obtain ⟨c, rest, rfl⟩ := List.exists_cons_of_ne_nil hne
        obtain ⟨d, more, hd, hspace⟩ :=
          (escapeChar_of_not_isSpace (c := c) (by simpa [beginsSpace] using hbegins)).1
        have hcons : escape (c :: rest) = d :: (more ++ escape rest) := by
          rw [escape, List.flatMap_cons, hd]
          rfl
        rw [hcons, List.head?_cons, Ne, Option.some.injEq]
        rintro rfl
        exact absurd hspace (by decide)
      have hseparator : s.separator normalized = [[' ']] := by
        simp [separator, hlast, hbehind, hhead]
      have hdata : s.dataParts normalized = [[' '], escape normalized] := by
        simp [dataParts_of_ne_nil hparts hne, hseparator, escapedBehind, hescaped, hescape.1]
      have hflatten : s.parts.flatten.getLast? = last.getLast? := by
        obtain ⟨front, heq⟩ := List.getLast?_eq_some_iff.mp hlast
        rw [heq, List.flatten_append, List.flatten_singleton, List.getLast?_append,
          List.getLast?_eq_some_getLast hnonempty]
        rfl
      refine ⟨' ' :: normalized, ?_, .inr (.inr ⟨hparts, rfl, hbegins, ?_⟩), ?_⟩
      · rw [hdata]
        simp [escape, escapeChar]
      · rw [hflatten]
        exact fun hspace => hbehind (.inr hspace)
      · simpa [hdata] using hescape

theorem tokensApart_tags {others : List DisplayToken} (h : ∀ token ∈ others, token.isTag = true) :
    TokensApart others := by
  induction others with
  | nil => exact List.isChain_nil
  | cons token others ih =>
    unfold TokensApart
    rw [List.isChain_cons]
    refine ⟨fun next _ hblank => ?_, ih fun t ht => h t (List.mem_cons_of_mem _ ht)⟩
    rw [(isBlank_of_isTag (h token List.mem_cons_self)).1] at hblank
    cases hblank.1

theorem not_endsSpace_of_isTag {event : HtmlEvent} (h : event.isTag = true) :
    event.endsSpace = false ∧ event.beginsSpace = false := by
  cases event with
  | data data => cases h
  | startTag tag attrs => exact ⟨rfl, rfl⟩
  | startEndTag tag attrs => exact ⟨rfl, rfl⟩
  | endTag tag => exact ⟨rfl, rfl⟩

/-- Tags are written behind whatever was written. -/
theorem Kept.tags_append {s' : DisplayHTMLSanitizer} {others : List DisplayToken}
    {event : HtmlEvent} (h : Kept s tokens kept) (htag : event.isTag = true) (hne : others ≠ [])
    (hothers : ∀ token ∈ others, token.isTag = true)
    (hwritten : Written (tokens ++ others) s'.parts s'.openTags)
    (hends : ∀ last ∈ s'.parts.getLast?, last ≠ [] ∧ last ≠ [' ']) :
    Kept s' (tokens ++ others) (kept ++ [event]) where
  written := hwritten
  ends := hends
  tidy := by
    refine ⟨fun c hc => ?_, h.tidy.accompanied.append (accompanied_tags hothers)⟩
    rcases List.mem_append.mp hc with hmem | hmem
    · exact h.tidy.spaces c hmem
    · cases hothers _ hmem
  first := by
    intro token htoken
    rcases tokens with - | ⟨first, tokens⟩
    · exact (isBlank_of_isTag (hothers token (List.mem_of_mem_head? htoken))).1
    · exact h.first token htoken
  nil := by simp [hne]
  apart := by
    obtain ⟨first, others, rfl⟩ := List.exists_cons_of_ne_nil hne
    rw [tokensApart_append, eventsApart_concat, h.apart]
    simp [tokensApart_tags hothers, (not_endsSpace_of_isTag htag).2,
      (isBlank_of_isTag (hothers first List.mem_cons_self)).1]
  last := by
    obtain ⟨front, last, rfl⟩ := (List.eq_nil_or_concat others).resolve_left hne
    rw [List.concat_eq_append] at hothers ⊢
    rw [← List.append_assoc, List.getLast?_concat, List.getLast?_concat]
    exact (isBlank_of_isTag (hothers last (by simp))).1.trans (not_endsSpace_of_isTag htag).1.symm
  tags := by
    obtain ⟨first, others, rfl⟩ := List.exists_cons_of_ne_nil hne
    exact iff_of_true ⟨first, by simp, hothers first List.mem_cons_self⟩ ⟨event, by simp, htag⟩

/-- A text is written behind whatever was written. -/
theorem Kept.text_append {s' : DisplayHTMLSanitizer} {data : String} {text : List Char}
    (h : Kept s tokens kept) (hapart : Apart text)
    (hspaces : ∀ c ∈ text, isSpace c = true → c = ' ') (hwords : words isSpace text ≠ [])
    (hlast : endsSpace text = endsSpace data.toList)
    (hfirst : tokens = [] → beginsSpace text = false)
    (hseam : (tokens.getLast?.any DisplayToken.isBlank = true ∧ beginsSpace text = true) ↔
      tokens.getLast?.any DisplayToken.isBlank = true ∧ beginsSpace data.toList = true)
    (hwritten : Written (tokens ++ textTokens text) s'.parts s'.openTags)
    (hends : ∀ last ∈ s'.parts.getLast?, last ≠ [] ∧ last ≠ [' ']) :
    Kept s' (tokens ++ textTokens text) (kept ++ [.data data]) where
  written := hwritten
  ends := hends
  tidy := by
    refine ⟨fun c hc => ?_, h.tidy.accompanied.append (accompanied_text hapart hwords)⟩
    rcases List.mem_append.mp hc with hmem | hmem
    · exact h.tidy.spaces c hmem
    · obtain ⟨d, hd, heq⟩ := List.mem_map.mp hmem
      cases heq
      exact hspaces c hd
  first := by
    intro token htoken
    rcases tokens with - | ⟨first, tokens⟩
    · have hbegins := (head?_textTokens text).1
      rw [hfirst rfl, ← List.nil_append (textTokens text), Option.mem_def.mp htoken] at hbegins
      exact hbegins
    · exact h.first token htoken
  nil := by
    have hne : text ≠ [] := by
      rintro rfl
      exact hwords (words_nil _)
    simp [textTokens, hne]
  apart := by
    rw [tokensApart_append, eventsApart_concat, h.apart, tokensApart_text, ← h.last,
      (head?_textTokens text).1, hseam]
    simp [hapart, HtmlEvent.beginsSpace]
  last := by
    have hne : (textTokens text).getLast? ≠ none := by
      rw [Ne, List.getLast?_eq_none_iff]
      intro hnil
      have htext : text = [] := by simpa [textTokens] using hnil
      rw [htext, words_nil] at hwords
      exact hwords rfl
    obtain ⟨last, heq⟩ := Option.ne_none_iff_exists'.mp hne
    have hends := (head?_textTokens text).2
    rw [List.getLast?_append, List.getLast?_concat, heq, Option.some_or, ← heq, hends, hlast]
    rfl
  tags := by
    have hnone : ¬ ∃ token ∈ textTokens text, token.isTag = true := by
      rintro ⟨token, htoken, htag⟩
      obtain ⟨c, -, rfl⟩ := List.mem_map.mp htoken
      cases htag
    simp only [List.mem_append, or_and_right, exists_or, h.tags, hnone, List.mem_singleton,
      or_false, exists_eq_left]
    simp [HtmlEvent.isTag]

/-- Behind a call that writes nothing everything stays as it was. -/
theorem Kept.same {s' : DisplayHTMLSanitizer} {others : List DisplayToken}
    (h : Kept s tokens kept) (hparts : s'.parts = s.parts)
    (hwritten : Written (tokens ++ others) s'.parts s'.openTags) : Kept s' tokens kept := by
  have hnil : others = [] := by
    have hrender := hwritten.parts
    rw [hparts, h.written.parts, renderTokens_append, List.self_eq_append_right,
      render_eq_nil_iff] at hrender
    exact hrender
  rw [hnil, List.append_nil] at hwritten
  refine ⟨hwritten, ?_, h.tidy, h.first, h.nil, h.apart, h.last, h.tags⟩
  rw [hparts]
  exact h.ends

theorem kept_tag (h : Kept s tokens kept) {event : HtmlEvent} (htag : event.isTag = true) :
    ∃ others, Kept (s.handle casefold event) (tokens ++ others)
      (kept ++ if (s.handle casefold event).parts = s.parts then [] else [event]) := by
  obtain ⟨others, hadds, hwritten⟩ : Steps casefold s tokens event := steps_handle h.written event
  cases hadds with
  | nothing hparts =>
    refine ⟨[], ?_⟩
    rw [if_pos hparts, List.append_nil, List.append_nil]
    exact h.same hparts hwritten
  | tags hne hnone hdata =>
    have hothers : ∀ token ∈ others, token.isTag = true := by
      intro token htoken
      rcases token with tag | tag | - | c
      · rfl
      · rfl
      · rfl
      · exact absurd htoken (hnone c)
    refine ⟨others, ?_⟩
    rw [if_neg (parts_ne_of_adds h.written hne hwritten)]
    refine h.tags_append htag hne hothers hwritten fun last hlast => ?_
    obtain ⟨more, hmore, hparts⟩ := handle_tag_parts casefold s htag
    rw [hmore, List.getLast?_append] at hlast
    cases hback : more.getLast? with
    | none => exact h.ends last (by simpa [hback] using hlast)
    | some part =>
      rw [hback, Option.some_or, Option.mem_some_iff] at hlast
      rw [← hlast]
      exact hparts part (List.mem_of_getLast? hback)
  | text hwords htext => cases htag

theorem endsSpace_lstrip {text : List Char} (h : words isSpace text ≠ []) :
    endsSpace (lstrip text) = endsSpace text := by
  have hne : lstrip text ≠ [] := by
    intro hnil
    rw [← words_lstrip, hnil, words_nil] at h
    exact h rfl
  unfold endsSpace
  conv_rhs => rw [← List.takeWhile_append_dropWhile (p := isSpace) (l := text)]
  unfold lstrip at hne ⊢
  rw [List.getLast?_append, List.getLast?_eq_some_getLast hne]
  rfl

/-- What is written for a text has single spaces, ends as the text does, and brings whitespace
    behind whitespace where the text does. -/
theorem Kept.text_facts {data normalized text : List Char} (h : Kept s tokens kept)
    (hapart : Apart normalized) (hspaces : ∀ c ∈ normalized, isSpace c = true → c = ' ')
    (hwords : words isSpace normalized ≠ []) (hlast : endsSpace normalized = endsSpace data)
    (hbegins : beginsSpace normalized = beginsSpace data)
    (hcases : (s.parts = [] ∧ text = lstrip normalized) ∨ (s.parts ≠ [] ∧ text = normalized) ∨
      (s.parts ≠ [] ∧ text = ' ' :: normalized ∧ beginsSpace normalized = false ∧
        s.parts.flatten.getLast? ≠ some ' ')) :
    Apart text ∧ (∀ c ∈ text, isSpace c = true → c = ' ') ∧ words isSpace text ≠ [] ∧
      endsSpace text = endsSpace data ∧ (tokens = [] → beginsSpace text = false) ∧
      ((tokens.getLast?.any DisplayToken.isBlank = true ∧ beginsSpace text = true) ↔
        tokens.getLast?.any DisplayToken.isBlank = true ∧ beginsSpace data = true) := by
  have hnone : tokens = [] → s.parts = [] := by
    rintro rfl
    by_contra hparts
    obtain ⟨last, hsome⟩ := Option.ne_none_iff_exists'.mp (List.getLast?_eq_none_iff.not.mpr hparts)
    have hflatten : s.parts.flatten = [] := h.written.parts
    have hmem := List.mem_of_getLast? hsome
    exact (h.ends last hsome).1 (List.flatten_eq_nil_iff.mp hflatten last hmem)
  rcases hcases with ⟨hparts, rfl⟩ | ⟨hparts, rfl⟩ | ⟨hparts, rfl, hhead, hspace⟩
  · have htokens : tokens = [] := by
      have hrender := h.written.parts
      rw [hparts, List.flatten_nil, eq_comm, render_eq_nil_iff] at hrender
      exact hrender
    have hsuffix : lstrip normalized <:+ normalized := List.dropWhile_suffix _
    refine ⟨hapart.suffix hsuffix, fun c hc => hspaces c (hsuffix.subset hc), ?_, ?_, fun _ => ?_,
      ?_⟩
    · rwa [words_lstrip]
    · rw [endsSpace_lstrip hwords, hlast]
    · have hhead := List.head?_dropWhile_not isSpace normalized
      unfold beginsSpace lstrip
      cases hfirst : (normalized.dropWhile isSpace).head? with
      | none => rfl
      | some c => simpa [hfirst] using hhead
    · simp [htokens]
  · exact ⟨hapart, hspaces, hwords, hlast, fun hnil => absurd (hnone hnil) hparts, by rw [hbegins]⟩
  · have hne : normalized ≠ [] := by
      rintro rfl
      exact hwords (words_nil _)
    have hseam : ¬ tokens.getLast?.any DisplayToken.isBlank = true := by
      intro hblank
      cases htoken : tokens.getLast? with
      | none => simp [htoken] at hblank
      | some token =>
        rw [htoken, Option.any_some] at hblank
        rcases token with tag | tag | - | c
        · cases hblank
        · cases hblank
        · cases hblank
        · have hc : c = ' ' := h.tidy.spaces c (List.mem_of_getLast? htoken) hblank
          obtain ⟨front, rfl⟩ := List.getLast?_eq_some_iff.mp htoken
          refine hspace ?_
          rw [h.written.parts, renderTokens_append, List.getLast?_append, hc]
          rfl
    refine ⟨apart_cons.mpr ⟨fun _ => hhead, hapart⟩, ?_, ?_, ?_,
      fun hnil => absurd (hnone hnil) hparts,
      iff_of_false (fun hboth => hseam hboth.1) fun hboth => hseam hboth.1⟩
    · exact List.forall_mem_cons.mpr ⟨fun _ => rfl, hspaces⟩
    · rwa [words_space_cons]
    · obtain ⟨c, rest, rfl⟩ := List.exists_cons_of_ne_nil hne
      rw [← hlast]
      simp [endsSpace]

theorem kept_data (h : Kept s tokens kept) (data : String) :
    ∃ others, Kept (s.handle casefold (.data data)) (tokens ++ others)
      (kept ++ if (s.handle casefold (.data data)).parts = s.parts then [] else [.data data]) := by
  have hsame : s.handle casefold (.data data) = s → ∃ others,
      Kept (s.handle casefold (.data data)) (tokens ++ others) (kept ++
        if (s.handle casefold (.data data)).parts = s.parts then [] else [.data data]) := by
    intro hsame
    refine ⟨[], ?_⟩
    rw [hsame, if_pos rfl, List.append_nil, List.append_nil]
    exact h
  by_cases hdepth : s.dropDepth > 0
  · exact hsame (by rw [handle, handleData, if_pos hdepth])
  by_cases hblank : (collapseSpaces false data.toList).all isSpace = true
  · exact hsame (by rw [handle, handleData, if_neg hdepth, if_pos hblank])
  have hwords : words isSpace (collapseSpaces false data.toList) ≠ [] := by
    rwa [Ne, words_eq_nil_iff, ← List.all_eq_true]
  obtain ⟨hapart, hspaces, hbegins⟩ := collapseSpaces_apart false data.toList
  have hcollapsed := (endsSpace_collapseSpaces data.toList).1
  obtain ⟨text, hflatten, hcases, hends⟩ := dataParts_text h.ends hspaces hwords
  have hhandle : s.handle casefold (.data data)
      = { s with parts := s.parts ++ s.dataParts (collapseSpaces false data.toList) } := by
    rw [handle, handleData, if_neg hdepth, if_neg hblank]
  obtain ⟨htextapart, htextspaces, htextwords, htextlast, hfirst, hseam⟩ :=
    h.text_facts hapart hspaces hwords hcollapsed (by simpa using hbegins) hcases
  have hne : escape text ≠ [] := (escape_ne_space htextwords).1
  have hdata : s.dataParts (collapseSpaces false data.toList) ≠ [] := by
    intro hnil
    rw [hnil] at hflatten
    exact hne hflatten.symm
  refine ⟨textTokens text, ?_⟩
  rw [hhandle, if_neg (by simpa using hdata)]
  refine h.text_append htextapart htextspaces htextwords htextlast hfirst hseam ?_ ?_
  · have hleaves := h.written.leaves (text.map .char)
      (by rw [hflatten, List.map_map, ← renderTokens_textTokens]; rfl)
    rwa [List.map_map] at hleaves
  · intro last hlast
    rw [List.getLast?_append, List.getLast?_eq_some_getLast hdata, Option.some_or] at hlast
    exact hends last (by rw [List.getLast?_eq_some_getLast hdata]; exact hlast)

/-- A run writes what it keeps. -/
theorem kept_run (events : List HtmlEvent) (h : Kept s tokens kept) :
    ∃ others, Kept (s.run casefold events) (tokens ++ others)
      (kept ++ s.keptEvents casefold events) := by
  induction events generalizing s tokens kept with
  | nil =>
    refine ⟨[], ?_⟩
    rw [List.append_nil, keptEvents, List.append_nil]
    exact h
  | cons event events ih =>
    obtain ⟨first, hfirst⟩ : ∃ others, Kept (s.handle casefold event) (tokens ++ others)
        (kept ++ if (s.handle casefold event).parts = s.parts then [] else [event]) := by
      cases event with
      | data data => exact kept_data h data
      | startTag tag attrs => exact kept_tag h rfl
      | startEndTag tag attrs => exact kept_tag h rfl
      | endTag tag => exact kept_tag h rfl
    obtain ⟨others, hothers⟩ := ih hfirst
    refine ⟨first ++ others, ?_⟩
    rw [keptEvents, ← List.append_assoc, ← List.append_assoc]
    exact hothers

theorem kept_nil : Kept {} [] [] :=
  ⟨written_nil, by simp, ⟨by simp, by rintro front token back heq; simp at heq⟩, by simp, by simp,
    iff_of_true List.isChain_nil List.isChain_nil, rfl, by simp⟩

end DisplayHTMLSanitizer

/-! ### What is sanitized -/

section Sanitized

variable {tokens : List DisplayToken}

/-- Without its closing whitespace, tidy text is as tidy. -/
theorem Tidy.of_append {stripped : List DisplayToken} {back : List Char}
    (h : Tidy (stripped ++ textTokens back)) (hback : ∀ c ∈ back, isSpace c = true)
    (hlast : ∀ token ∈ stripped.getLast?, token.isBlank = false) :
    Tidy stripped ∧ (TokensApart (stripped ++ textTokens back) ↔ TokensApart stripped) := by
  have hseam : stripped.getLast?.any DisplayToken.isBlank = false := by
    cases hsome : stripped.getLast? with
    | none => rfl
    | some token => exact hlast token hsome
  refine ⟨⟨fun c hc => h.spaces c (List.mem_append_left _ hc), ?_⟩, ?_⟩
  · rintro front token rest rfl hblank
    rcases rest with - | ⟨next, rest⟩
    · rw [hlast token (by simp)] at hblank
      cases hblank
    · exact h.accompanied front token (next :: rest ++ textTokens back) (by simp) hblank
  · -- A space behind a space would stand alone.
    rw [tokensApart_append, tokensApart_text, hseam]
    simp only [Bool.false_eq_true, false_and, not_false_eq_true, and_true, and_iff_left_iff_imp]
    intro _
    rcases List.eq_nil_or_concat back with rfl | ⟨front, c, rfl⟩
    · exact List.isChain_nil
    · rw [List.concat_eq_append] at h hback ⊢
      have hc : isSpace c = true := hback c (by simp)
      rcases List.eq_nil_or_concat front with rfl | ⟨front, d, rfl⟩
      · exact List.isChain_singleton _
      · have hd : isSpace d = true := hback d (by simp)
        rcases h.accompanied (stripped ++ textTokens (front.concat d)) (.leaf (.char c)) []
          (by simp [textTokens]) hc with hfront | hnone
        · simp [textTokens, DisplayToken.isLetter, hd] at hfront
        · cases hnone

/-- Text leaves no tag open. -/
theorem openAfter_of_text (h : ¬ ∃ token ∈ tokens, token.isTag = true) :
    openAfter [] tokens = some [] := by
  induction tokens with
  | nil => simp
  | cons token tokens ih =>
    rcases token with tag | tag | - | c
    · exact absurd ⟨_, List.mem_cons_self, rfl⟩ h
    · exact absurd ⟨_, List.mem_cons_self, rfl⟩ h
    · exact absurd ⟨_, List.mem_cons_self, rfl⟩ h
    · rw [openAfter_leaf]
      exact ih fun ⟨token, htoken, htag⟩ => h ⟨token, List.mem_cons_of_mem _ htoken, htag⟩

/-- What is written for some calls, closed and without whitespace at its end. -/
structure Sanitized (tokens : List DisplayToken) (kept : List HtmlEvent) : Prop where
  tidy : Tidy tokens
  nested : WellNested tokens
  first : ∀ token ∈ tokens.head?, token.isBlank = false
  last : ∀ token ∈ tokens.getLast?, token.isBlank = false
  apart : TokensApart tokens ↔ EventsApart kept
  tags : (∃ token ∈ tokens, token.isTag = true) ↔ ∃ event ∈ kept, event.isTag = true

variable {s : DisplayHTMLSanitizer} {kept : List HtmlEvent} {stripped : List DisplayToken}
  {stack : List DisplayTag} {front back : List Char}

/-- Closing tags change nothing of what the calls brought. -/
theorem sanitized_of_kept (h : s.Kept tokens kept) (hopen : openAfter [] tokens = some stack)
    (hnested : WellNested stripped)
    (hsplit : tokens ++ stack.map .closing = textTokens front ++ (stripped ++ textTokens back))
    (hfront : ∀ c ∈ front, isSpace c = true) (hback : ∀ c ∈ back, isSpace c = true)
    (hlast : ∀ token ∈ stripped.getLast?, token.isBlank = false) :
    Sanitized stripped kept ∧ (stripped = [] → kept = []) := by
  have hclosings : ∀ token ∈ stack.map Token.closing, DisplayToken.isTag token = true := by
    intro token htoken
    obtain ⟨tag, -, rfl⟩ := List.mem_map.mp htoken
    rfl
  have hfirst : ∀ token ∈ (tokens ++ stack.map Token.closing).head?,
      DisplayToken.isBlank token = false := by
    intro token htoken
    rcases tokens with - | ⟨first, tokens⟩
    · exact (isBlank_of_isTag (hclosings token (List.mem_of_mem_head? htoken))).1
    · exact h.first token htoken
  have hnofront : front = [] := by
    rcases front with - | ⟨c, front⟩
    · rfl
    · have hc := hfirst (.leaf (.char c)) (by rw [hsplit]; rfl)
      exact absurd (hfront c List.mem_cons_self) (by simpa [DisplayToken.isBlank] using hc)
  subst hnofront
  rw [show textTokens [] ++ (stripped ++ textTokens back) = stripped ++ textTokens back from rfl]
    at hsplit
  have htidy : Tidy (tokens ++ stack.map Token.closing) := by
    refine ⟨fun c hc => ?_, h.tidy.accompanied.append (accompanied_tags hclosings)⟩
    rcases List.mem_append.mp hc with hmem | hmem
    · exact h.tidy.spaces c hmem
    · cases hclosings _ hmem
  have hapart : TokensApart (tokens ++ stack.map Token.closing) ↔ TokensApart tokens := by
    rw [tokensApart_append]
    cases stack with
    | nil => simp [TokensApart]
    | cons tag stack =>
      rw [List.map_cons] at hclosings ⊢
      simp [DisplayHTMLSanitizer.tokensApart_tags hclosings, DisplayToken.isBlank]
  have htags : (∃ token ∈ tokens ++ stack.map Token.closing, DisplayToken.isTag token = true) ↔
      ∃ token ∈ tokens, token.isTag = true := by
    constructor
    · rintro ⟨token, htoken, htag⟩
      by_contra hnone
      -- Without a tag nothing would be open.
      have hempty : stack = [] := by
        rw [openAfter_of_text hnone, Option.some.injEq] at hopen
        exact hopen.symm
      rw [hempty, List.map_nil, List.append_nil] at htoken
      exact hnone ⟨token, htoken, htag⟩
    · rintro ⟨token, htoken, htag⟩
      exact ⟨token, List.mem_append_left _ htoken, htag⟩
  have hstrippedtags : (∃ token ∈ stripped ++ textTokens back, token.isTag = true) ↔
      ∃ token ∈ stripped, token.isTag = true := by
    constructor
    · rintro ⟨token, htoken, htag⟩
      rcases List.mem_append.mp htoken with hmem | hmem
      · exact ⟨token, hmem, htag⟩
      · obtain ⟨c, -, rfl⟩ := List.mem_map.mp hmem
        cases htag
    · rintro ⟨token, htoken, htag⟩
      exact ⟨token, List.mem_append_left _ htoken, htag⟩
  rw [hsplit] at htidy hapart htags hfirst
  obtain ⟨hstripped, hstrippedapart⟩ := htidy.of_append hback hlast
  refine ⟨⟨hstripped, hnested, ?_, hlast, ?_, ?_⟩, ?_⟩
  · intro token htoken
    rcases stripped with - | ⟨first, stripped⟩
    · cases htoken
    · exact hfirst token htoken
  · rw [← hstrippedapart, hapart, h.apart]
  · rw [← hstrippedtags, htags, h.tags]
  · rintro rfl
    rw [← h.nil]
    rcases back with - | ⟨c, back⟩
    · exact (List.append_eq_nil_iff.mp hsplit).1
    · have hc := hfirst (.leaf (.char c)) rfl
      exact absurd (hback c List.mem_cons_self) (by simpa [DisplayToken.isBlank] using hc)

end Sanitized

/-! ### What is wrapped -/

section Again

variable {value html : String}

/-- Sanitizing returns nothing exactly if no call is kept. -/
theorem sanitizeDisplayHtml_kept (parser : HtmlParser) (hvalue : strip value ≠ "")
    {kept : List HtmlEvent}
    (hkept : DisplayHTMLSanitizer.keptEvents parser.casefold {} (parser.parse (strip value))
      = kept) :
    (kept = [] ∧ parser.sanitizeDisplayHtml value = none) ∨
      (kept ≠ [] ∧ ∃ tokens, Sanitized tokens kept ∧
        parser.sanitizeDisplayHtml value = some (String.ofList (renderTokens tokens))) := by
  obtain ⟨tokens, htokens⟩ : ∃ tokens, DisplayHTMLSanitizer.Kept
      (DisplayHTMLSanitizer.run parser.casefold {} (parser.parse (strip value))) ([] ++ tokens) _ :=
    DisplayHTMLSanitizer.kept_run (parser.parse (strip value)) DisplayHTMLSanitizer.kept_nil
  rw [List.nil_append, List.nil_append, hkept] at htokens
  obtain ⟨stack, stripped, hopen, hsanitized, hnested, -, hblank, hlast, front, back, hsplit,
    hfront, hback⟩ := sanitizeDisplayHtml_of_written hvalue htokens.written
  obtain ⟨hstripped, hnil⟩ := sanitized_of_kept htokens hopen hnested hsplit hfront hback hlast
  by_cases hnone : kept = []
  · refine .inl ⟨hnone, ?_⟩
    rw [hsanitized, if_pos (hblank ?_)]
    rw [htokens.nil.mpr hnone]
    simp
  · refine .inr ⟨hnone, stripped, hstripped, ?_⟩
    rw [hsanitized, if_neg fun h => hnone (hnil h)]

/-- A clean text is not blank, and has single spaces only between its words. -/
theorem apart_of_cleanText {text : String} (h : cleanText value = some text) :
    Apart text.toList ∧ (∀ c ∈ text.toList, isSpace c = true → c = ' ') ∧
      words isSpace text.toList ≠ [] := by
  unfold cleanText at h
  dsimp only at h
  split at h
  · cases h
  · next hne =>
    rw [Option.some.injEq] at h
    subst h
    obtain ⟨front, back, hsplit, -, -⟩ :=
      exists_stripped isSpace (collapseSpaces false value.toList)
    obtain ⟨hapart, hspaces, -⟩ := collapseSpaces_apart false value.toList
    have hlist : (normalizeText value).toList
        = ((collapseSpaces false value.toList).dropWhile isSpace).rdropWhile isSpace := by
      unfold normalizeText strip
      rw [String.toList_ofList, String.toList_ofList]
      rfl
    have hwithin : (normalizeText value).toList <:+: collapseSpaces false value.toList := by
      refine ⟨front, back, ?_⟩
      rw [hlist, List.append_assoc]
      exact hsplit.symm
    have htext : Apart (normalizeText value).toList := hapart.infix hwithin
    refine ⟨htext, fun c hc => hspaces c (hwithin.subset hc), ?_⟩
    rw [words_normalizeText, Ne, words_eq_nil_iff, ← normalizeText_eq_empty_iff]
    exact hne

theorem Tidy.append {tokens others : List DisplayToken} (h : Tidy tokens) (hothers : Tidy others) :
    Tidy (tokens ++ others) := by
  refine ⟨fun c hc => ?_, h.accompanied.append hothers.accompanied⟩
  rcases List.mem_append.mp hc with hmem | hmem
  · exact h.spaces c hmem
  · exact hothers.spaces c hmem

theorem tidy_tags {tokens : List DisplayToken} (h : ∀ token ∈ tokens, token.isTag = true) :
    Tidy tokens := by
  refine ⟨fun c hc => ?_, accompanied_tags h⟩
  cases h _ hc

/-- The text of an item or a paragraph is tidy. -/
theorem tidy_text {text : String} (h : cleanText value = some text) :
    Tidy (textTokens text.toList) ∧ TokensApart (textTokens text.toList) := by
  obtain ⟨hapart, hspaces, hwords⟩ := apart_of_cleanText h
  refine ⟨⟨fun c hc => ?_, accompanied_text hapart hwords⟩, tokensApart_text.mpr hapart⟩
  obtain ⟨d, hd, heq⟩ := List.mem_map.mp hc
  cases heq
  exact hspaces c hd

theorem tidy_element (tag : DisplayTag) {inner : List DisplayToken} (h : Tidy inner) :
    Tidy (elementTokens tag inner) := by
  have htags : Tidy ([.opening tag] ++ (inner ++ [.closing tag])) :=
    (tidy_tags (by simp [DisplayToken.isTag])).append
      (h.append (tidy_tags (by simp [DisplayToken.isTag])))
  exact htags

theorem tokensApart_element (tag : DisplayTag) {inner rest : List DisplayToken} :
    TokensApart (elementTokens tag inner ++ rest) ↔ TokensApart inner ∧ TokensApart rest := by
  have hone : ∀ token : DisplayToken, TokensApart [token] := List.isChain_singleton
  have hsplit : elementTokens tag inner ++ rest
      = [.opening tag] ++ (inner ++ ([.closing tag] ++ rest)) := by
    simp [elementTokens]
  rw [hsplit, tokensApart_append, tokensApart_append, tokensApart_append]
  simp only [hone, true_and, List.getLast?_singleton, Option.any_some, DisplayToken.isBlank,
    List.singleton_append, List.head?_cons, Bool.false_eq_true, false_and, and_false,
    not_false_eq_true, and_true]

/-- Items are tidy between their tags. -/
theorem tidy_items {items : List String}
    (h : ∀ item ∈ items, ∃ value, cleanText value = some item) :
    Tidy (itemTokens items) ∧ TokensApart (itemTokens items) := by
  induction items with
  | nil => exact ⟨tidy_tags (by simp [itemTokens]), List.isChain_nil⟩
  | cons item items ih =>
    obtain ⟨value, hvalue⟩ := h item List.mem_cons_self
    obtain ⟨hitem, hitemapart⟩ := tidy_text hvalue
    obtain ⟨hitems, hitemsapart⟩ := ih fun other hother => h other (List.mem_cons_of_mem _ hother)
    exact ⟨(tidy_element .li hitem).append hitems,
      (tokensApart_element .li).mpr ⟨hitemapart, hitemsapart⟩⟩

/-- What is wrapped in an element is left as it is. -/
theorem ensureDisplayHtml_element (parser : DisplayParser) (tag : DisplayTag)
    {inner : List DisplayToken} (htidy : Tidy inner) (hnested : WellNested inner)
    (hapart : TokensApart inner) :
    parser.ensureDisplayHtml (String.ofList (element tag.name (renderTokens inner)))
      = some (String.ofList (element tag.name (renderTokens inner))) := by
  rw [← renderTokens_element]
  refine (ensureDisplayHtml_again parser (tidy_element tag htidy) ?_ ?_ ?_
    ⟨.opening tag, List.mem_cons_self, rfl⟩).mpr ?_
  · simpa using wellNested_element hnested .nil
  · intro token htoken
    cases htoken
    rfl
  · intro token htoken
    have hsplit : elementTokens tag inner = (.opening tag :: inner) ++ [.closing tag] := rfl
    rw [hsplit, List.getLast?_concat, Option.mem_some_iff] at htoken
    rw [← htoken]
    rfl
  · rw [← List.append_nil (elementTokens tag inner)]
    exact (tokensApart_element tag).mpr ⟨hapart, List.isChain_nil⟩

/-- What is wrapped is left as it is from then on. -/
theorem textToDisplayHtml_again (parser : DisplayParser) (h : textToDisplayHtml value = some html) :
    parser.ensureDisplayHtml html = some html := by
  unfold textToDisplayHtml at h
  obtain ⟨text, htext, rfl⟩ := Option.map_eq_some_iff.mp h
  split
  · have hitems : ∀ item ∈ bulletItems value, ∃ value, cleanText value = some item := by
      intro item hitem
      obtain ⟨line, -, hline⟩ := List.mem_filterMap.mp hitem
      obtain ⟨behind, -, hbehind⟩ := Option.bind_eq_some_iff.mp hline
      exact ⟨behind, hbehind⟩
    obtain ⟨htidy, hapart⟩ := tidy_items hitems
    rw [← renderTokens_itemTokens]
    exact ensureDisplayHtml_element parser .ul htidy (wellNested_itemTokens _) hapart
  · obtain ⟨htidy, hapart⟩ := tidy_text htext
    rw [← renderTokens_textTokens]
    exact ensureDisplayHtml_element parser .p htidy (wellNested_text _) hapart

/-- Text without a tag is wrapped. -/
theorem ensureDisplayHtml_text (parser : HtmlParser) (h : '<' ∉ html.toList) :
    parser.ensureDisplayHtml html ≠ some html := by
  have hnone : hasHtmlTag html.toList = false := by
    by_contra htag
    exact h (lt_mem_of_hasHtmlTag (by simpa using htag))
  unfold HtmlParser.ensureDisplayHtml
  rw [if_neg (by simp [hnone])]
  intro heq
  unfold textToDisplayHtml at heq
  obtain ⟨text, -, htext⟩ := Option.map_eq_some_iff.mp heq
  have hopens : ∀ (tag : String) (inner : List Char), '<' ∈ element tag inner := fun tag inner => by
    simp [element, openingText]
  rw [← htext, String.toList_ofList] at h
  split at h
  · exact h (hopens _ _)
  · exact h (hopens _ _)

/-- The calls of a value that make the sanitizer write. -/
def HtmlParser.keptCalls (parser : HtmlParser) (value : String) : List HtmlEvent :=
  DisplayHTMLSanitizer.keptEvents parser.casefold {} (parser.parse (strip value))

/-- Display HTML is left as it is exactly in these cases: it was wrapped and not sanitized, or a tag
    was kept and no two texts that meet bring whitespace both. -/
theorem display_again_iff (parser : DisplayParser) (value : String) :
    (∀ html, parser.ensureDisplayHtml value = some html →
      parser.ensureDisplayHtml html = some html) ↔
      hasHtmlTag value.toList = false ∨ parser.keptCalls value = [] ∨
        ((∃ event ∈ parser.keptCalls value, event.isTag = true) ∧
          EventsApart (parser.keptCalls value)) := by
  have hwrapped : parser.ensureDisplayHtml value = textToDisplayHtml value →
      ∀ html, parser.ensureDisplayHtml value = some html →
        parser.ensureDisplayHtml html = some html := by
    intro heq html hhtml
    exact textToDisplayHtml_again parser (heq.symm.trans hhtml)
  by_cases htag : hasHtmlTag value.toList = true
  · have hvalue := strip_ne_empty (lt_mem_of_hasHtmlTag htag) (by decide)
    rcases sanitizeDisplayHtml_kept parser.toHtmlParser hvalue rfl with
      ⟨hnone, hsanitized⟩ | ⟨hkept, tokens, htokens, hsanitized⟩
    · refine iff_of_true (hwrapped ?_) (.inr (.inl hnone))
      unfold HtmlParser.ensureDisplayHtml
      rw [if_pos htag, hsanitized]
    · have hensured : parser.ensureDisplayHtml value
          = some (String.ofList (renderTokens tokens)) := by
        unfold HtmlParser.ensureDisplayHtml
        rw [if_pos htag, hsanitized]
      have hcond : (hasHtmlTag value.toList = false ∨ parser.keptCalls value = [] ∨
          ((∃ event ∈ parser.keptCalls value, event.isTag = true) ∧
            EventsApart (parser.keptCalls value))) ↔
          (∃ token ∈ tokens, token.isTag = true) ∧ TokensApart tokens := by
        rw [htokens.tags, htokens.apart]
        simp [htag, hkept, HtmlParser.keptCalls]
      rw [hcond, hensured]
      simp only [Option.some.injEq, forall_eq']
      by_cases htags : ∃ token ∈ tokens, token.isTag = true
      · rw [ensureDisplayHtml_again parser htokens.tidy htokens.nested htokens.first htokens.last
          htags, and_iff_right htags]
      · refine iff_of_false (ensureDisplayHtml_text parser.toHtmlParser ?_) fun h => htags h.1
        rw [String.toList_ofList]
        intro hlt
        obtain ⟨token, htoken, hmem⟩ := List.mem_flatMap.mp hlt
        rcases token with tag | tag | - | c
        · exact htags ⟨_, htoken, rfl⟩
        · exact htags ⟨_, htoken, rfl⟩
        · exact htags ⟨_, htoken, rfl⟩
        · obtain ⟨before, after, heq⟩ := List.append_of_mem hmem
          exact (escapeChar_occurrence heq).1 rfl
  · refine iff_of_true (hwrapped ?_) (.inl (by simpa using htag))
    unfold HtmlParser.ensureDisplayHtml
    rw [if_neg htag]

/-- A parser of tags without attributes reads display HTML. -/
def bareDisplayParser : DisplayParser where
  toHtmlParser := bareParser
  reads := by
    intro tokens hnested
    show readFrom [] none (String.ofList (renderTokens tokens)).toList = _
    rw [String.toList_ofList]
    exact readFrom_render tokens []
  folds := fun _ _ => rfl

/-- A text that lost its tags is wrapped the next time, and two spaces that met collapse. -/
theorem wrapped_and_collapsed_again :
    bareDisplayParser.ensureDisplayHtml "<div>a</div>" = some "a" ∧
      bareDisplayParser.ensureDisplayHtml "a" = some "<p>a</p>" ∧
      bareDisplayParser.ensureDisplayHtml "<p>a <b> c</b></p>" = some "<p>a  c</p>" ∧
      bareDisplayParser.ensureDisplayHtml "<p>a  c</p>" = some "<p>a c</p>" := by
  refine ⟨?_, ?_, ?_, ?_⟩
  · rfl
  · rfl
  · rfl
  · rfl

end Again

end Bisakerja
