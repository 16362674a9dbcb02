import BisakerjaScraper.Python.Patterns
import BisakerjaScraper.Shared.Html

/-! Descriptions as display HTML.

    `ensure_display_html` sanitizes what looks like HTML and wraps any other text in a paragraph or
    a list. Tags shown as a lone `<`, what it returns has the words of the text it kept. -/

namespace Bisakerja
open Schemes

/-! ### The functions -/

/-- `html.parser.HTMLParser`, by the handler methods it calls, and `str.casefold`. -/
structure HtmlParser where
  parse : String → List HtmlEvent
  casefold : String → String

/-- `_HTML_TAG_PATTERN.search`: `<[^>]+>`. -/
def hasHtmlTag : List Char → Bool
  | [] => false
  | c :: rest =>
    (c = '<' && !(rest.takeWhile (· ≠ '>')).isEmpty && !(rest.dropWhile (· ≠ '>')).isEmpty) ||
      hasHtmlTag rest

/-- The characters `str.splitlines` splits at. -/
def isLineBreak (c : Char) : Bool :=
  c.toNat ∈ [10, 11, 12, 13, 28, 29, 30, 0x85, 0x2028, 0x2029]

/-- `str.splitlines`, behind the beginning of a line. -/
def splitlinesFrom (line : List Char) : List Char → List (List Char)
  | [] => if line = [] then [] else [line]
  | '\r' :: '\n' :: rest => line :: splitlinesFrom [] rest
  | c :: rest =>
    if isLineBreak c then line :: splitlinesFrom [] rest else splitlinesFrom (line ++ [c]) rest

/-- `value.splitlines()`, each line stripped. -/
def strippedLines (value : String) : List String :=
  (splitlinesFrom [] value.toList).map fun line => strip (String.ofList line)

/-- What is behind `(?:[-*•]|[0-9]{1,3}[.)])`. -/
def behindMark (line : List Char) : Option (List Char) :=
  match line with
  | [] => none
  | c :: rest =>
    if c = '-' ∨ c = '*' ∨ c = '•' then some rest
    else
      let digits := line.takeWhile Char.isDigit
      if 1 ≤ digits.length ∧ digits.length ≤ 3 then
        match line.dropWhile Char.isDigit with
        | [] => none
        | d :: rest => if d = '.' ∨ d = ')' then some rest else none
      else none

/-- What is behind `_BULLET_LINE_PATTERN`. -/
def behindBullet (line : String) : Option String :=
  (behindMark (lstrip line.toList)).bind fun rest =>
    if rest.head?.any isSpace then some (String.ofList (lstrip rest)) else none

/-- `bullet_lines`. -/
def bulletLines (value : String) : List String :=
  (strippedLines value).filter fun line => (behindBullet line).isSome

/-- `filtered_items`. -/
def bulletItems (value : String) : List String :=
  ((bulletLines value).filter (strip · ≠ "")).filterMap fun line =>
    (behindBullet line).bind cleanText

/-- `f"<{tag}>{escape(text, quote=False)}</{tag}>"`. -/
def element (tag : String) (inner : List Char) : List Char :=
  openingText tag ++ inner ++ closingText tag

/-- `text_to_display_html`. -/
def textToDisplayHtml (value : String) : Option String :=
  (cleanText value).map fun text =>
    String.ofList <|
      if 2 ≤ (bulletLines value).length ∧ bulletItems value ≠ [] then
        element "ul" ((bulletItems value).flatMap fun item => element "li" (escape item.toList))
      else element "p" (escape text.toList)

namespace HtmlParser

variable (parser : HtmlParser)

/-- `sanitize_display_html`. -/
def sanitizeDisplayHtml (value : String) : Option String :=
  let text := strip value
  if text = "" then none
  else
    let sanitized := strip
      (DisplayHTMLSanitizer.feed parser.casefold (parser.parse text)).getSanitizedHtml
    if sanitized = "" then none else some sanitized

/-- `ensure_display_html`. -/
def ensureDisplayHtml (value : String) : Option String :=
  match if hasHtmlTag value.toList then parser.sanitizeDisplayHtml value else none with
  | some sanitized => some sanitized
  | none => textToDisplayHtml value

end HtmlParser

/-! ### The text that is kept -/

/-- A call of the parser: its data between spaces, or a lone `<` for a tag. -/
def HtmlEvent.shown : HtmlEvent → List Char
  | .data text => ' ' :: (text.toList ++ [' '])
  | .startTag _ _ | .startEndTag _ _ | .endTag _ => tagMark

/-- The calls that make the sanitizer write. -/
def DisplayHTMLSanitizer.keptEvents (casefold : String → String) (s : DisplayHTMLSanitizer) :
    List HtmlEvent → List HtmlEvent
  | [] => []
  | event :: rest =>
    let written := s.handle casefold event
    (if written.parts = s.parts then [] else [event]) ++ keptEvents casefold written rest

namespace HtmlParser

variable (parser : HtmlParser)

/-- The text the sanitizer keeps of a value. -/
def keptText (value : String) : List Char :=
  (DisplayHTMLSanitizer.keptEvents parser.casefold {} (parser.parse (strip value))).flatMap
    HtmlEvent.shown

/-- The text of a value that is no HTML: its items, or all of it. -/
def plainText (value : String) : List Char :=
  if 2 ≤ (bulletLines value).length ∧ bulletItems value ≠ [] then
    (bulletItems value).flatMap fun item => tagMark ++ (item.toList ++ tagMark)
  else value.toList

/-- The text of a value. -/
def displayText (value : String) : List Char :=
  if hasHtmlTag value.toList ∧ (parser.keptText value).any (¬ isSpace ·) then parser.keptText value
  else plainText value

end HtmlParser

/-- A token with its tag shown as a lone `<`. -/
def DisplayToken.plain : DisplayToken → List Char
  | .leaf (.char c) => [c]
  | .opening _ | .closing _ | .leaf .br => tagMark

/-- The text of some tokens, without escapes. -/
def plainTokens (tokens : List DisplayToken) : List Char := tokens.flatMap DisplayToken.plain

theorem plainTokens_append (tokens others : List DisplayToken) :
    plainTokens (tokens ++ others) = plainTokens tokens ++ plainTokens others :=
  List.flatMap_append

theorem plainTokens_textTokens (text : List Char) : plainTokens (textTokens text) = text := by
  unfold plainTokens textTokens
  rw [List.flatMap_map]
  exact List.flatMap_singleton' text

/-! ### Stripping display HTML -/

/-- A whitespace character. -/
def DisplayToken.isBlank : DisplayToken → Bool
  | .leaf (.char c) => isSpace c
  | .opening _ | .closing _ | .leaf .br => false

theorem eq_textTokens {tokens : List DisplayToken} (h : ∀ token ∈ tokens, token.isBlank = true) :
    ∃ text, tokens = textTokens text ∧ ∀ c ∈ text, isSpace c = true := by
  induction tokens with
  | nil => exact ⟨[], rfl, by simp⟩
  | cons token tokens ih =>
    obtain ⟨text, rfl, htext⟩ := ih fun t ht => h t (List.mem_cons_of_mem _ ht)
    have hblank := h token List.mem_cons_self
    rcases token with tag | tag | - | c
    · cases hblank
    · cases hblank
    · cases hblank
    · exact ⟨c :: text, rfl, List.forall_mem_cons.mpr ⟨hblank, htext⟩⟩

theorem render_of_isBlank {token : DisplayToken} (h : token.isBlank = true) :
    ∀ c ∈ token.render, isSpace c = true := by
  rcases token with tag | tag | - | c
  · cases h
  · cases h
  · cases h
  · intro d hd
    rw [DisplayToken.render, escapeChar_of_isSpace h, List.mem_singleton] at hd
    rwa [hd]

theorem render_of_not_isBlank {token : DisplayToken} (h : token.isBlank = false) :
    (∃ c rest, token.render = c :: rest ∧ isSpace c = false) ∧
      ∃ front c, token.render = front ++ [c] ∧ isSpace c = false := by
  rcases render_cases token with ⟨c, rfl⟩ | htag
  · exact escapeChar_of_not_isSpace h
  · obtain ⟨name, heq, -⟩ := displayTagTexts_facts _ htag
    exact ⟨⟨'<', _, heq, by decide⟩, '<' :: name, '>', heq, by decide⟩

/-- Stripping display HTML strips whitespace characters: tags stay nested, words stay the same. -/
theorem strip_render (tokens : List DisplayToken) :
    ∃ stripped, strip (String.ofList (renderTokens tokens)) = String.ofList (renderTokens stripped) ∧
      (WellNested tokens → WellNested stripped) ∧
      words isSpace (plainTokens stripped) = words isSpace (plainTokens tokens) ∧
      ((∀ token ∈ tokens, token.isBlank = true) → stripped = []) ∧
      (∀ token ∈ stripped.getLast?, token.isBlank = false) ∧
      ∃ front back, tokens = textTokens front ++ (stripped ++ textTokens back) ∧
        (∀ c ∈ front, isSpace c = true) ∧ ∀ c ∈ back, isSpace c = true := by
  have hpos : ∀ token : DisplayToken, token.isBlank = true → ∀ c ∈ token.render, isSpace c = true :=
    fun _ => render_of_isBlank
  obtain ⟨front, back, hsplit, hfront, hback⟩ := exists_stripped DisplayToken.isBlank tokens
  obtain ⟨front, rfl, hfrontspace⟩ := eq_textTokens hfront
  obtain ⟨back, rfl, hbackspace⟩ := eq_textTokens hback
  refine ⟨(tokens.dropWhile DisplayToken.isBlank).rdropWhile DisplayToken.isBlank, ?_, ?_, ?_, ?_,
    ?_, front, back, hsplit, hfrontspace, hbackspace⟩
  · unfold strip renderTokens
    rw [String.toList_ofList, dropWhile_flatMap hpos fun _ h => (render_of_not_isBlank h).1]
    exact congrArg String.ofList
      (rdropWhile_flatMap hpos (fun _ h => (render_of_not_isBlank h).2) _)
  · intro hnested
    have hleaves : ∀ text, textTokens text = (text.map DisplayItem.char).map .leaf := by
      intro text
      rw [List.map_map]
      rfl
    rw [hsplit, hleaves, hleaves] at hnested
    exact hnested.of_leaves
  · conv_rhs => rw [hsplit]
    rw [plainTokens_append, plainTokens_append, plainTokens_textTokens, plainTokens_textTokens,
      words_breaks_append hfrontspace, words_append_of_head, words_eq_nil hbackspace, List.append_nil]
    exact fun c hc => hbackspace c (List.mem_of_mem_head? hc)
  · intro hall
    rw [List.dropWhile_eq_nil_iff.mpr hall]
    rfl
  · intro token htoken
    have hne : (tokens.dropWhile DisplayToken.isBlank).rdropWhile DisplayToken.isBlank ≠ [] := by
      rintro hnil
      rw [hnil] at htoken
      cases htoken
    rw [List.getLast?_eq_some_getLast hne, Option.mem_some_iff] at htoken
    rw [← htoken]
    simpa using List.rdropWhile_last_not _ _ hne

/-! ### What the sanitizer keeps -/

section Kept

variable {alphabet : Alphabet} {a b : List Char} {others : List DisplayToken}

theorem saysScript_nil : ¬ alphabet.SaysScript [] := nofun

theorem plain_of_not_char {token : DisplayToken} (h : ∀ c, token ≠ .leaf (.char c)) :
    token.plain = tagMark := by
  rcases token with tag | tag | - | c
  · rfl
  · rfl
  · rfl
  · exact absurd rfl (h c)

/-- Some tags separate what stands before them from what stands behind. -/
theorem saysScript_tags (hne : others ≠ []) (hnone : ∀ c, .leaf (.char c) ∉ others) :
    alphabet.SaysScript (a ++ (plainTokens others ++ b)) ↔
      alphabet.SaysScript a ∨ alphabet.SaysScript b := by
  induction others generalizing a with
  | nil => exact absurd rfl hne
  | cons token others ih =>
    have htoken : token.plain = tagMark :=
      plain_of_not_char fun c hc => hnone c (hc ▸ List.mem_cons_self)
    have hplain : plainTokens (token :: others) = tagMark ++ plainTokens others := by
      unfold plainTokens
      rw [List.flatMap_cons, htoken]
    rw [hplain, List.append_assoc, Alphabet.saysScript_mark]
    by_cases hothers : others = []
    · rw [hothers]
      rfl
    · have hrest := ih (a := []) hothers fun c hc => hnone c (List.mem_cons_of_mem _ hc)
      rw [List.nil_append] at hrest
      rw [hrest, or_iff_right saysScript_nil]

/-- What was written reads like some text: they say the same, whatever goes on behind a space. -/
structure ReadsAs (alphabet : Alphabet) (tokens : List DisplayToken) (shown : List Char) : Prop where
  script : ∀ rest, alphabet.SaysScript (plainTokens tokens ++ ' ' :: rest) ↔
    alphabet.SaysScript (shown ++ ' ' :: rest)
  blank : (∀ c ∈ plainTokens tokens, isSpace c = true) ↔ ∀ c ∈ shown, isSpace c = true

theorem readsAs_nil : ReadsAs alphabet [] [] := ⟨fun _ => Iff.rfl, Iff.rfl⟩

theorem ReadsAs.saysScript_iff {tokens : List DisplayToken} {shown : List Char}
    (h : ReadsAs alphabet tokens shown) :
    alphabet.SaysScript (plainTokens tokens) ↔ alphabet.SaysScript shown := by
  have hend : ∀ text : List Char, alphabet.SaysScript (text ++ [' ']) ↔ alphabet.SaysScript text := by
    intro text
    refine Alphabet.saysScript_congr ?_
    rw [words_append_break (by decide), words_nil, List.append_nil]
  rw [← hend, h.script [], hend]

/-- Tags on both sides keep two texts alike. -/
theorem ReadsAs.tags {tokens : List DisplayToken} {shown : List Char}
    (h : ReadsAs alphabet tokens shown) (hne : others ≠ []) (hnone : ∀ c, .leaf (.char c) ∉ others) :
    ReadsAs alphabet (tokens ++ others) (shown ++ tagMark) where
  script := by
    intro rest
    rw [plainTokens_append, List.append_assoc, saysScript_tags hne hnone, List.append_assoc,
      Alphabet.saysScript_mark, h.saysScript_iff]
  blank := by
    have hlt : ∀ text : List Char, ¬ ∀ c ∈ text ++ tagMark, isSpace c = true := fun text hall =>
      absurd (hall '<' (List.mem_append_right _ (by decide))) (by decide)
    refine iff_of_false (fun hall => ?_) (hlt shown)
    obtain ⟨token, others, rfl⟩ := List.exists_cons_of_ne_nil hne
    have htoken : token.plain = tagMark :=
      plain_of_not_char fun c hc => hnone c (hc ▸ List.mem_cons_self)
    have hmem : '<' ∈ plainTokens (tokens ++ token :: others) := by
      refine List.mem_flatMap.mpr ⟨token, List.mem_append_right _ List.mem_cons_self, ?_⟩
      rw [htoken]
      decide
    exact absurd (hall '<' hmem) (by decide)

/-- A text that stands apart reads like its data. -/
theorem ReadsAs.text {tokens : List DisplayToken} {shown text data : List Char}
    (h : ReadsAs alphabet tokens shown) (hwords : words isSpace text = words isSpace data)
    (hne : words isSpace text ≠ [])
    (hapart : ∀ rest, words isSpace (plainTokens tokens ++ (text ++ rest))
      = words isSpace (plainTokens tokens) ++ words isSpace (text ++ rest)) :
    ReadsAs alphabet (tokens ++ textTokens text) (shown ++ ' ' :: (data ++ [' '])) where
  script := by
    intro rest
    have hspace : isSpace ' ' = true := by decide
    have hwritten : alphabet.SaysScript (plainTokens (tokens ++ textTokens text) ++ ' ' :: rest) ↔
        alphabet.SaysScript (plainTokens tokens ++ ' ' :: (data ++ ' ' :: rest)) := by
      refine Alphabet.saysScript_congr ?_
      rw [plainTokens_append, plainTokens_textTokens, List.append_assoc, hapart,
        words_append_break hspace, words_append_break hspace, words_append_break hspace, hwords]
    rw [hwritten, h.script, List.append_assoc, List.cons_append, List.append_assoc]
    refine Alphabet.saysScript_congr ?_
    rw [words_append_break hspace, words_append_break hspace, List.singleton_append,
      words_append_break hspace, words_append_break hspace, words_cons_break hspace]
  blank := by
    rw [← words_eq_nil_iff, ← words_eq_nil_iff, plainTokens_append, plainTokens_textTokens]
    refine iff_of_false (fun hnil => ?_) fun hnil => ?_
    · have hall := words_eq_nil_iff.mp hnil
      exact hne (words_eq_nil fun c hc => hall c (List.mem_append_right _ hc))
    · have hall := words_eq_nil_iff.mp hnil
      refine hne (hwords.trans (words_eq_nil fun c hc => hall c ?_))
      simp [hc]

/-- Behind a tag or a space, what was written ends in a space once tags are shown. -/
theorem getLast?_plainTokens {tokens : List DisplayToken} {d : Char} (hd : d = '>' ∨ d = ' ')
    (h : (renderTokens tokens).getLast? = some d) : (plainTokens tokens).getLast? = some ' ' := by
  rcases List.eq_nil_or_concat tokens with rfl | ⟨front, token, rfl⟩
  · cases h
  · rw [List.concat_eq_append] at h ⊢
    have hplain : ∀ c, token.plain.getLast? = some c →
        (plainTokens (front ++ [token])).getLast? = some c := by
      intro c hc
      unfold plainTokens
      rw [List.flatMap_append, List.flatMap_singleton, List.getLast?_append, hc]
      rfl
    rcases token with tag | tag | - | c
    · exact hplain ' ' rfl
    · exact hplain ' ' rfl
    · exact hplain ' ' rfl
    · have hlast : (escapeChar c).getLast? = some d := by
        unfold renderTokens at h
        rw [List.flatMap_append, List.flatMap_singleton, List.getLast?_append] at h
        cases hc : (escapeChar c).getLast? with
        | none => exact absurd (List.getLast?_eq_none_iff.mp hc) (escapeChar_ne_nil c)
        | some e =>
          rw [DisplayToken.render, hc] at h
          exact h
      rcases escapeChar_cases c with rfl | rfl | rfl | ⟨hplainchar, heq⟩
      · rcases hd with rfl | rfl <;> simp [escapeChar] at hlast
      · rcases hd with rfl | rfl <;> simp [escapeChar] at hlast
      · rcases hd with rfl | rfl <;> simp [escapeChar] at hlast
      · rw [heq, List.getLast?_singleton, Option.some.injEq] at hlast
        subst hlast
        rcases hd with rfl | rfl
        · simp at hplainchar
        · exact hplain ' ' rfl

end Kept

/-! ### The sanitizer, event by event -/

namespace DisplayHTMLSanitizer

variable {alphabet : Alphabet} {casefold : String → String} {s : DisplayHTMLSanitizer}
  {tokens others : List DisplayToken} {shown : List Char}

theorem render_eq_nil_iff : renderTokens tokens = [] ↔ tokens = [] := by
  unfold renderTokens
  rw [List.flatMap_eq_nil_iff]
  constructor
  · intro h
    refine List.eq_nil_iff_forall_not_mem.mpr fun token htoken => ?_
    have hnil := h token htoken
    rcases render_cases token with ⟨c, rfl⟩ | htag
    · exact escapeChar_ne_nil c hnil
    · obtain ⟨name, heq, -⟩ := displayTagTexts_facts _ htag
      rw [hnil] at heq
      cases heq
  · rintro rfl
    simp

/-- An event that adds something writes. -/
theorem parts_ne_of_adds {event : HtmlEvent} (h : Written tokens s.parts s.openTags)
    (hne : others ≠ []) (hothers : Written (tokens ++ others) (s.handle casefold event).parts
      (s.handle casefold event).openTags) : (s.handle casefold event).parts ≠ s.parts := by
  intro hsame
  have hparts := hothers.parts
  rw [hsame, h.parts, renderTokens_append, List.self_eq_append_right, render_eq_nil_iff] at hparts
  exact hne hparts

/-- A text that `handle_data` writes stands apart from what was written. -/
theorem words_apart {data text : List Char} (h : Written tokens s.parts s.openTags)
    (hadds : s.AddsText data text) (rest : List Char) :
    words isSpace (plainTokens tokens ++ (text ++ rest))
      = words isSpace (plainTokens tokens) ++ words isSpace (text ++ rest) := by
  have hlast : (plainTokens tokens).getLast? = some ' ' →
      words isSpace (plainTokens tokens ++ (text ++ rest))
        = words isSpace (plainTokens tokens) ++ words isSpace (text ++ rest) := by
    intro hspace
    refine words_append_of_getLast (fun c hc => ?_) _
    rw [hspace, Option.mem_some_iff] at hc
    rw [← hc]
    decide
  rcases hadds.apart with hparts | hlt | hspace | hhead
  · have htokens : tokens = [] := by
      rw [← render_eq_nil_iff, ← h.parts, hparts, List.flatten_nil]
    rw [htokens]
    rfl
  · rw [h.parts] at hlt
    exact hlast (getLast?_plainTokens (.inl rfl) hlt)
  · rw [h.parts] at hspace
    exact hlast (getLast?_plainTokens (.inr rfl) hspace)
  · refine words_append_of_head (fun c hc => ?_) _
    rw [List.head?_append, hhead, Option.some_or, Option.mem_some_iff] at hc
    rw [← hc]
    decide

/-- What is written reads as what is kept, after every event. -/
theorem readsAs_step {event : HtmlEvent} (h : Written tokens s.parts s.openTags)
    (hreads : ReadsAs alphabet tokens shown) (hadds : Adds casefold s event others)
    (hothers : Written (tokens ++ others) (s.handle casefold event).parts
      (s.handle casefold event).openTags) :
    ReadsAs alphabet (tokens ++ others) (shown ++
      (if (s.handle casefold event).parts = s.parts then [] else [event]).flatMap
        HtmlEvent.shown) := by
  cases hadds with
  | nothing hparts =>
    rw [if_pos hparts, List.append_nil]
    simpa using hreads
  | tags hne hnone hdata =>
    rw [if_neg (parts_ne_of_adds h hne hothers), List.flatMap_singleton]
    have hshown : event.shown = tagMark := by
      cases event with
      | startTag tag attrs => rfl
      | startEndTag tag attrs => rfl
      | endTag tag => rfl
      | data data => exact absurd rfl (hdata data)
    rw [hshown]
    exact hreads.tags hne hnone
  | @text data text hwords htext =>
    have hne : text ≠ [] := by
      rintro rfl
      exact hwords (words_nil _)
    have htokens : textTokens text ≠ [] := by simpa [textTokens] using hne
    rw [if_neg (parts_ne_of_adds h htokens hothers), List.flatMap_singleton]
    exact hreads.text htext.words hwords (words_apart h htext)

theorem readsAs_foldl (events : List HtmlEvent) (h : Written tokens s.parts s.openTags)
    (hreads : ReadsAs alphabet tokens shown) :
    ∃ written, Written written
        (events.foldl (fun s event => s.handle casefold event) s).parts
        (events.foldl (fun s event => s.handle casefold event) s).openTags ∧
      ReadsAs alphabet written (shown ++ (s.keptEvents casefold events).flatMap HtmlEvent.shown) := by
  induction events generalizing s tokens shown with
  | nil =>
    refine ⟨tokens, h, ?_⟩
    simpa [keptEvents] using hreads
  | cons event events ih =>
    obtain ⟨others, hadds, hothers⟩ : Steps casefold s tokens event := steps_handle h event
    obtain ⟨written, hwritten, hrest⟩ := ih hothers (readsAs_step h hreads hadds hothers)
    refine ⟨written, hwritten, ?_⟩
    rw [keptEvents, List.flatMap_append, ← List.append_assoc]
    exact hrest

end DisplayHTMLSanitizer

/-! ### What the functions return -/

section Returned

variable {alphabet : Alphabet} {parser : HtmlParser} {value : String}

/-- Display HTML whose text says what some text says. -/
def DisplaysAs (alphabet : Alphabet) (html : String) (shown : List Char) : Prop :=
  ∃ tokens, WellNested tokens ∧ html = String.ofList (renderTokens tokens) ∧
    (alphabet.SaysScript (plainTokens tokens) ↔ alphabet.SaysScript shown)

/-- Some tokens without a character that is not whitespace are whitespace characters. -/
theorem isBlank_of_plain {tokens : List DisplayToken}
    (h : ∀ c ∈ plainTokens tokens, isSpace c = true) : ∀ token ∈ tokens, token.isBlank = true := by
  intro token htoken
  have hplain : ∀ c ∈ token.plain, isSpace c = true := fun c hc =>
    h c (List.mem_flatMap.mpr ⟨token, htoken, hc⟩)
  rcases token with tag | tag | - | c
  · exact absurd (hplain '<' (show '<' ∈ tagMark by decide)) (by decide)
  · exact absurd (hplain '<' (show '<' ∈ tagMark by decide)) (by decide)
  · exact absurd (hplain '<' (show '<' ∈ tagMark by decide)) (by decide)
  · exact hplain c (List.mem_singleton_self c)

/-- Closing tags at the end say nothing. -/
theorem saysScript_closings (tokens : List DisplayToken) (stack : List DisplayTag) :
    alphabet.SaysScript (plainTokens (tokens ++ stack.map .closing)) ↔
      alphabet.SaysScript (plainTokens tokens) := by
  by_cases hstack : stack = []
  · rw [hstack, List.map_nil, List.append_nil]
  · have h : alphabet.SaysScript (plainTokens tokens ++ (plainTokens (stack.map .closing) ++ [])) ↔
        alphabet.SaysScript (plainTokens tokens) ∨ alphabet.SaysScript [] :=
      saysScript_tags (by simpa using hstack) (by simp)
    rw [List.append_nil, or_iff_left saysScript_nil] at h
    rw [plainTokens_append, h]

/-- `sanitize_display_html` strips what was written, behind which it closes the tags still open. -/
theorem sanitizeDisplayHtml_of_written {tokens : List DisplayToken} (hvalue : strip value ≠ "")
    (hwritten : Written tokens
      (DisplayHTMLSanitizer.feed parser.casefold (parser.parse (strip value))).parts
      (DisplayHTMLSanitizer.feed parser.casefold (parser.parse (strip value))).openTags) :
    ∃ (stack : List DisplayTag) (stripped : List DisplayToken),
      openAfter [] tokens = some stack ∧
      parser.sanitizeDisplayHtml value
        = (if stripped = [] then none else some (String.ofList (renderTokens stripped))) ∧
      WellNested stripped ∧
      words isSpace (plainTokens stripped)
        = words isSpace (plainTokens (tokens ++ stack.map .closing)) ∧
      ((∀ token ∈ tokens, token.isBlank = true) → stripped = []) ∧
      (∀ token ∈ stripped.getLast?, token.isBlank = false) ∧
      ∃ front back, tokens ++ stack.map .closing = textTokens front ++ (stripped ++ textTokens back) ∧
        (∀ c ∈ front, isSpace c = true) ∧ ∀ c ∈ back, isSpace c = true := by
  obtain ⟨stack, hnested, hopen, hhtml⟩ := DisplayHTMLSanitizer.getSanitizedHtml_eq hwritten
  obtain ⟨stripped, hstrip, hstrippednested, hwords, hblank, hsplit⟩ :=
    strip_render (tokens ++ stack.map .closing)
  refine ⟨stack, stripped, hopen, ?_, hstrippednested hnested, hwords, fun hall => ?_, hsplit⟩
  · unfold HtmlParser.sanitizeDisplayHtml
    dsimp only
    rw [if_neg hvalue, hhtml, hstrip]
    simp only [String.ofList_eq_empty_iff, DisplayHTMLSanitizer.render_eq_nil_iff]
  · obtain ⟨text, rfl, -⟩ := eq_textTokens hall
    have hstack : stack = [] := by
      have hleaves := openAfter_leaves ([] : List DisplayTag) (text.map DisplayItem.char)
      rw [List.map_map] at hleaves
      rw [show openAfter [] (textTokens text) = some [] from hleaves, Option.some.injEq] at hopen
      exact hopen.symm
    exact hblank (by rw [hstack]; simpa using hall)

/-- `sanitize_display_html` returns the text it keeps as display HTML, or nothing if it keeps
    none. -/
theorem sanitizeDisplayHtml_spec (alphabet : Alphabet) (parser : HtmlParser) (hvalue : strip value ≠ "") :
    ((∀ c ∈ parser.keptText value, isSpace c = true) ∧ parser.sanitizeDisplayHtml value = none) ∨
      ((¬ ∀ c ∈ parser.keptText value, isSpace c = true) ∧
        ∃ html, parser.sanitizeDisplayHtml value = some html ∧
          DisplaysAs alphabet html (parser.keptText value)) := by
  obtain ⟨tokens, hwritten, hreads⟩ : ∃ tokens, Written tokens
      (DisplayHTMLSanitizer.feed parser.casefold (parser.parse (strip value))).parts
      (DisplayHTMLSanitizer.feed parser.casefold (parser.parse (strip value))).openTags ∧
      ReadsAs alphabet tokens (parser.keptText value) :=
    DisplayHTMLSanitizer.readsAs_foldl (parser.parse (strip value)) written_nil readsAs_nil
  obtain ⟨stack, stripped, -, hsanitized, hnested, hwords, hblank, -⟩ :=
    sanitizeDisplayHtml_of_written hvalue hwritten
  by_cases hkept : ∀ c ∈ parser.keptText value, isSpace c = true
  · refine .inl ⟨hkept, ?_⟩
    rw [hsanitized, if_pos (hblank (isBlank_of_plain (hreads.blank.mpr hkept)))]
  · refine .inr ⟨hkept, String.ofList (renderTokens stripped), ?_, stripped, hnested, rfl, ?_⟩
    · rw [hsanitized, if_neg]
      rintro rfl
      refine hkept (hreads.blank.mp fun c hc => ?_)
      refine words_eq_nil_iff.mp (hwords.symm.trans (words_nil _)) c ?_
      rw [plainTokens_append]
      exact List.mem_append_left _ hc
    · rw [Alphabet.saysScript_congr hwords, saysScript_closings, hreads.saysScript_iff]

/-! A text that is no HTML. -/

theorem wellNested_textTokens (text : List Char) {rest : List DisplayToken} (h : WellNested rest) :
    WellNested (textTokens text ++ rest) := by
  induction text with
  | nil => exact h
  | cons c text ih => exact ih.leaf (.char c)

/-- A tag around a text says what the text says. -/
theorem saysScript_element (text : List Char) :
    alphabet.SaysScript (tagMark ++ (text ++ tagMark)) ↔ alphabet.SaysScript text := by
  have hback := alphabet.saysScript_mark text []
  rw [List.append_nil, or_iff_left saysScript_nil] at hback
  have hfront := alphabet.saysScript_mark [] (text ++ tagMark)
  rw [List.nil_append, or_iff_right saysScript_nil] at hfront
  rw [hfront, hback]

/-- An element with some tokens in it. -/
def elementTokens (tag : DisplayTag) (inner : List DisplayToken) : List DisplayToken :=
  .opening tag :: (inner ++ [.closing tag])

theorem renderTokens_element (tag : DisplayTag) (inner : List DisplayToken) :
    renderTokens (elementTokens tag inner) = element tag.name (renderTokens inner) := by
  unfold elementTokens renderTokens element
  rw [List.flatMap_cons, List.flatMap_append, List.flatMap_singleton, List.append_assoc]
  rfl

theorem plainTokens_element (tag : DisplayTag) (inner : List DisplayToken) :
    plainTokens (elementTokens tag inner) = tagMark ++ (plainTokens inner ++ tagMark) := by
  unfold elementTokens plainTokens
  rw [List.flatMap_cons, List.flatMap_append, List.flatMap_singleton]
  rfl

/-- The items of a list. -/
def itemTokens (items : List String) : List DisplayToken :=
  items.flatMap fun item => elementTokens .li (textTokens item.toList)

theorem wellNested_element {tag : DisplayTag} {inner rest : List DisplayToken}
    (hinner : WellNested inner) (hrest : WellNested rest) :
    WellNested (elementTokens tag inner ++ rest) := by
  unfold elementTokens
  rw [List.cons_append, List.append_assoc, List.singleton_append]
  exact .element tag hinner hrest

theorem wellNested_text (text : List Char) : WellNested (textTokens text) := by
  simpa using wellNested_textTokens text .nil

theorem wellNested_itemTokens (items : List String) : WellNested (itemTokens items) := by
  induction items with
  | nil => exact .nil
  | cons item items ih => exact wellNested_element (wellNested_text item.toList) ih

theorem renderTokens_itemTokens (items : List String) :
    renderTokens (itemTokens items) = items.flatMap fun item => element "li" (escape item.toList) := by
  induction items with
  | nil => rfl
  | cons item items ih =>
    rw [List.flatMap_cons, ← ih, itemTokens, List.flatMap_cons, renderTokens_append,
      renderTokens_element, renderTokens_textTokens]
    rfl

theorem plainTokens_itemTokens (items : List String) :
    plainTokens (itemTokens items)
      = items.flatMap fun item => tagMark ++ (item.toList ++ tagMark) := by
  induction items with
  | nil => rfl
  | cons item items ih =>
    rw [List.flatMap_cons, ← ih, itemTokens, List.flatMap_cons, plainTokens_append,
      plainTokens_element, plainTokens_textTokens]
    rfl

/-- An element displays the text of what is in it. -/
theorem displaysAs_element (tag : DisplayTag) {inner : List DisplayToken} (h : WellNested inner)
    {shown : List Char}
    (hshown : alphabet.SaysScript (plainTokens inner) ↔ alphabet.SaysScript shown) :
    DisplaysAs alphabet (String.ofList (element tag.name (renderTokens inner))) shown := by
  refine ⟨elementTokens tag inner, by simpa using wellNested_element h .nil, ?_, ?_⟩
  · rw [renderTokens_element]
  · rw [plainTokens_element, saysScript_element, hshown]

/-- `text_to_display_html` returns the text as display HTML, if there is any. -/
theorem textToDisplayHtml_spec (alphabet : Alphabet) (value : String) :
    ((∀ c ∈ value.toList, isSpace c = true) ∧ textToDisplayHtml value = none) ∨
      ∃ html, textToDisplayHtml value = some html ∧
        DisplaysAs alphabet html (HtmlParser.plainText value) := by
  have hwords := words_normalizeText value
  unfold textToDisplayHtml cleanText HtmlParser.plainText
  by_cases hblank : normalizeText value = ""
  · rw [hblank, show "".toList = [] from rfl, words_nil] at hwords
    exact .inl ⟨words_eq_nil_iff.mp hwords.symm, by simp [hblank]⟩
  · refine .inr ⟨_, by simp only [hblank, if_false, Option.map_some]; rfl, ?_⟩
    by_cases hitems : 2 ≤ (bulletLines value).length ∧ bulletItems value ≠ []
    · rw [if_pos hitems, if_pos hitems, ← renderTokens_itemTokens, ← plainTokens_itemTokens]
      exact displaysAs_element .ul (wellNested_itemTokens _) Iff.rfl
    · rw [if_neg hitems, if_neg hitems, ← renderTokens_textTokens]
      refine displaysAs_element .p (wellNested_text _) ?_
      rw [plainTokens_textTokens]
      exact Alphabet.saysScript_congr hwords

/-- The characters of a line are characters of the text. -/
theorem mem_of_mem_splitlinesFrom (line text : List Char) :
    ∀ l ∈ splitlinesFrom line text, ∀ c ∈ l, c ∈ line ∨ c ∈ text := by
  fun_induction splitlinesFrom line text with
  | case1 => simp
  | case2 line hline =>
    intro l hl c hc
    rw [List.mem_singleton.mp hl] at hc
    exact .inl hc
  | case3 line rest ih =>
    intro l hl c hc
    rcases List.mem_cons.mp hl with rfl | hl
    · exact .inl hc
    · exact .inr (List.mem_cons_of_mem _ (List.mem_cons_of_mem _ (by simpa using ih l hl c hc)))
  | case4 line c' rest hno hbreak ih =>
    intro l hl c hc
    rcases List.mem_cons.mp hl with rfl | hl
    · exact .inl hc
    · exact .inr (List.mem_cons_of_mem _ (by simpa using ih l hl c hc))
  | case5 line c' rest hno hbreak ih =>
    intro l hl c hc
    rcases ih l hl c hc with hc | hc
    · simp only [List.mem_append, List.mem_singleton] at hc
      rcases hc with hc | rfl
      · exact .inl hc
      · exact .inr List.mem_cons_self
    · exact .inr (List.mem_cons_of_mem _ hc)

/-- A blank text has no items. -/
theorem bulletLines_of_blank (h : ∀ c ∈ value.toList, isSpace c = true) : bulletLines value = [] := by
  unfold bulletLines strippedLines
  rw [List.filter_eq_nil_iff]
  intro line hline
  obtain ⟨l, hl, rfl⟩ := List.mem_map.mp hline
  have hblank : strip (String.ofList l) = "" := by
    have hall : ∀ c ∈ l, isSpace c = true := fun c hc =>
      h c (by simpa using mem_of_mem_splitlinesFrom [] value.toList l hl c hc)
    rw [strip, String.toList_ofList, List.dropWhile_eq_nil_iff.mpr hall]
    rfl
  rw [hblank]
  decide

theorem lt_mem_of_hasHtmlTag {text : List Char} (h : hasHtmlTag text = true) : '<' ∈ text := by
  induction text with
  | nil => cases h
  | cons c text ih =>
    simp only [hasHtmlTag, Bool.or_eq_true, Bool.and_eq_true, decide_eq_true_eq] at h
    rcases h with ⟨⟨rfl, -⟩, -⟩ | h
    · exact List.mem_cons_self
    · exact List.mem_cons_of_mem _ (ih h)

/-- A text with a character that is no whitespace is not blank. -/
theorem strip_ne_empty {value : String} {c : Char} (hc : c ∈ value.toList)
    (hspace : isSpace c = false) : strip value ≠ "" := by
  intro hempty
  have hwords := words_strip value
  rw [hempty, show "".toList = [] from rfl, words_nil] at hwords
  exact absurd (words_eq_nil_iff.mp hwords.symm c hc) (by simp [hspace])

/-- `ensure_display_html` returns the text of a value as display HTML, if there is any. -/
theorem ensureDisplayHtml_spec (alphabet : Alphabet) (parser : HtmlParser) (value : String) :
    (parser.ensureDisplayHtml value = none ∧ ¬ alphabet.SaysScript (parser.displayText value)) ∨
      ∃ html, parser.ensureDisplayHtml value = some html ∧
        DisplaysAs alphabet html (parser.displayText value) := by
  have hplain : (if hasHtmlTag value.toList then parser.sanitizeDisplayHtml value else none) = none →
      parser.displayText value = HtmlParser.plainText value →
      (parser.ensureDisplayHtml value = none ∧ ¬ alphabet.SaysScript (parser.displayText value)) ∨
        ∃ html, parser.ensureDisplayHtml value = some html ∧
          DisplaysAs alphabet html (parser.displayText value) := by
    intro hnone htext
    unfold HtmlParser.ensureDisplayHtml
    rw [hnone, htext]
    rcases textToDisplayHtml_spec alphabet value with ⟨hblank, heq⟩ | hsome
    · refine .inl ⟨heq, ?_⟩
      unfold HtmlParser.plainText
      rw [if_neg fun h => by simp [bulletLines_of_blank hblank] at h,
        Alphabet.saysScript_congr ((words_eq_nil hblank).trans (words_nil _).symm)]
      exact saysScript_nil
    · exact .inr hsome
  by_cases htag : hasHtmlTag value.toList = true
  · have hvalue := strip_ne_empty (lt_mem_of_hasHtmlTag htag) (by decide)
    rcases sanitizeDisplayHtml_spec alphabet parser hvalue with
      ⟨hblank, hnone⟩ | ⟨hkept, html, hsome, hdisplays⟩
    · refine hplain (by rw [if_pos htag, hnone]) ?_
      unfold HtmlParser.displayText
      rw [if_neg]
      rintro ⟨-, hany⟩
      simp only [List.any_eq_true, decide_eq_true_eq] at hany
      obtain ⟨c, hc, hne⟩ := hany
      exact hne (hblank c hc)
    · refine .inr ⟨html, ?_, ?_⟩
      · unfold HtmlParser.ensureDisplayHtml
        rw [if_pos htag, hsome]
      · unfold HtmlParser.displayText
        rw [if_pos ⟨htag, by simpa using hkept⟩]
        exact hdisplays
  · refine hplain (by rw [if_neg htag]) ?_
    unfold HtmlParser.displayText
    rw [if_neg fun h => htag h.1]

end Returned

end Bisakerja
