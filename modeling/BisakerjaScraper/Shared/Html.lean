import BisakerjaScraper.Schemes.Blocks
import BisakerjaScraper.Schemes.Nesting
import BisakerjaScraper.Shared.Text

/-! Display HTML.

    The sanitizer is called back by a parser it does not trust: it keeps a few tags, without their
    attributes, escapes what is text, and drops what stands inside the tags of scripts. What it has
    written so far is well nested up to the tags that are open, and `get_sanitized_html` closes
    those. -/

namespace Bisakerja
open Schemes

/-! ### The sanitizer -/

/-- `_ALLOWED_DISPLAY_TAGS`. -/
def allowedDisplayTags : List String := ["p", "ul", "ol", "li", "strong", "em", "br"]

/-- `_DROP_CONTENT_TAGS`. -/
def dropContentTags : List String :=
  ["script", "style", "noscript", "template", "iframe", "object", "embed", "svg"]

/-- `html.escape(_, quote=False)` of a character. -/
def escapeChar (c : Char) : List Char :=
  if c = '&' then "&amp;".toList
  else if c = '<' then "&lt;".toList
  else if c = '>' then "&gt;".toList
  else [c]

/-- `html.escape(text, quote=False)`. -/
def escape (text : List Char) : List Char := text.flatMap escapeChar

/-- `<tag>`. -/
def openingText (tag : String) : List Char := '<' :: tag.toList ++ ['>']

/-- `</tag>`. -/
def closingText (tag : String) : List Char := '<' :: '/' :: tag.toList ++ ['>']

/-- The handler methods `HTMLParser` calls. -/
inductive HtmlEvent where
  | startTag (tag : String) (attrs : List (String × Option String))
  | startEndTag (tag : String) (attrs : List (String × Option String))
  | endTag (tag : String)
  | data (data : String)

/-- `_DisplayHTMLSanitizer`; the innermost of the open tags comes first. -/
structure DisplayHTMLSanitizer where
  parts : List (List Char) := []
  openTags : List String := []
  dropDepth : ℕ := 0

/-- The `while` loop of `handle_endtag`: it closes tags up to the one it looks for. -/
def closeThrough (lowered : String) : List (List Char) → List String →
    List (List Char) × List String
  | parts, [] => (parts, [])
  | parts, top :: openTags =>
    if top = lowered then (parts ++ [closingText top], openTags)
    else closeThrough lowered (parts ++ [closingText top]) openTags

namespace DisplayHTMLSanitizer

-- `str.casefold` is a parameter.
variable (casefold : String → String) (s : DisplayHTMLSanitizer)

/-- `handle_starttag`. -/
def handleStarttag (tag : String) : DisplayHTMLSanitizer :=
  let lowered := casefold tag
  if lowered ∈ dropContentTags then { s with dropDepth := s.dropDepth + 1 }
  else if s.dropDepth > 0 then s
  else if lowered ∉ allowedDisplayTags then s
  else if lowered = "br" then { s with parts := s.parts ++ [openingText "br"] }
  else { s with parts := s.parts ++ [openingText lowered], openTags := lowered :: s.openTags }

/-- `handle_endtag`. -/
def handleEndtag (tag : String) : DisplayHTMLSanitizer :=
  let lowered := casefold tag
  if lowered ∈ dropContentTags then
    if s.dropDepth > 0 then { s with dropDepth := s.dropDepth - 1 } else s
  else if s.dropDepth > 0 then s
  else if lowered ∉ allowedDisplayTags ∨ lowered = "br" then s
  else if lowered ∉ s.openTags then s
  else
    let closed := closeThrough lowered s.parts s.openTags
    { s with parts := closed.1, openTags := closed.2 }

/-- The space `handle_data` puts between a text and the text before it. -/
def separator (normalized : List Char) : List (List Char) :=
  match s.parts.getLast? with
  | none => []
  | some last =>
    if last.getLast? = some '>' ∨ last.getLast? = some ' ' then []
    else if normalized.head? = some ' ' then []
    else [[' ']]

/-- The text escaped; a space is not put behind a space. -/
def escapedBehind (parts : List (List Char)) (normalized : List Char) : List Char :=
  let escaped := escape normalized
  if parts.getLast? = some [' '] ∧ escaped.head? = some ' ' then lstrip escaped else escaped

/-- The parts `handle_data` appends for a text whose whitespace is collapsed. -/
def dataParts (normalized : List Char) : List (List Char) :=
  let separator := s.separator normalized
  let normalized := if s.parts = [] then lstrip normalized else normalized
  if normalized = [] then separator
  else
    let escaped := escapedBehind (s.parts ++ separator) normalized
    separator ++ [if escaped = [] then [' '] else escaped]

/-- `handle_data`. -/
def handleData (data : String) : DisplayHTMLSanitizer :=
  if s.dropDepth > 0 then s
  else
    let normalized := collapseSpaces false data.toList
    if normalized.all isSpace then s
    else { s with parts := s.parts ++ s.dataParts normalized }

/-- What an event calls. -/
def handle : HtmlEvent → DisplayHTMLSanitizer
  | .startTag tag _ => s.handleStarttag casefold tag
  | .startEndTag tag _ => s.handleStarttag casefold tag
  | .endTag tag => s.handleEndtag casefold tag
  | .data data => s.handleData data

/-- `feed` and `close` of a new sanitizer, by the events they bring. -/
def feed (events : List HtmlEvent) : DisplayHTMLSanitizer :=
  events.foldl (fun s event => s.handle casefold event) {}

/-- `get_sanitized_html`. -/
def getSanitizedHtml : String :=
  String.ofList (s.parts ++ s.openTags.map closingText).flatten

end DisplayHTMLSanitizer

/-! ### What display HTML is -/

/-- The tags that hold something. -/
inductive DisplayTag where
  | p | ul | ol | li | strong | em
  deriving DecidableEq

/-- The name of a tag. -/
def DisplayTag.name : DisplayTag → String
  | .p => "p"
  | .ul => "ul"
  | .ol => "ol"
  | .li => "li"
  | .strong => "strong"
  | .em => "em"

/-- What stands between tags: a line break, or a character of the text. -/
inductive DisplayItem where
  | br
  | char (c : Char)

/-- A tag, a line break or a character of display HTML. -/
abbrev DisplayToken := Token DisplayTag DisplayItem

/-- A token as it is written: tags have no attributes, text is escaped. -/
def DisplayToken.render : DisplayToken → List Char
  | .opening tag => openingText tag.name
  | .closing tag => closingText tag.name
  | .leaf .br => openingText "br"
  | .leaf (.char c) => escapeChar c

/-- Some tokens as they are written. -/
def renderTokens (tokens : List DisplayToken) : List Char := tokens.flatMap DisplayToken.render

/-- The tags of display HTML, as they are written. -/
def displayTagTexts : List (List Char) :=
  allowedDisplayTags.map openingText ++
    (allowedDisplayTags.filter (· ≠ "br")).map closingText

/-- Display HTML: well-nested tags without attributes, and text in which `&`, `<` and `>` are
    escaped. No other `<`, `>` or `&` is in it. -/
structure IsDisplayHtml (html : String) : Prop where
  nested : ∃ tokens, WellNested tokens ∧ html.toList = renderTokens tokens
  opens : ∀ before rest, html.toList = before ++ '<' :: rest →
    ∃ tag ∈ displayTagTexts, tag <+: '<' :: rest
  ends : ∀ before rest, html.toList = before ++ '>' :: rest →
    ∃ tag ∈ displayTagTexts, tag <:+ before ++ ['>']
  escaped : ∀ before rest, html.toList = before ++ '&' :: rest →
    ∃ c ∈ ['&', '<', '>'], escapeChar c <+: '&' :: rest

/-! ### Escaped text -/

theorem escapeChar_cases (c : Char) :
    c = '&' ∨ c = '<' ∨ c = '>' ∨ (c ∉ ['&', '<', '>'] ∧ escapeChar c = [c]) := by
  by_cases hamp : c = '&'
  · exact .inl hamp
  · by_cases hlt : c = '<'
    · exact .inr (.inl hlt)
    · by_cases hgt : c = '>'
      · exact .inr (.inr (.inl hgt))
      · exact .inr (.inr (.inr (by simp [escapeChar, hamp, hlt, hgt])))

theorem escapeChar_of_isSpace {c : Char} (h : isSpace c = true) : escapeChar c = [c] := by
  rcases escapeChar_cases c with rfl | rfl | rfl | ⟨-, heq⟩
  · cases h
  · cases h
  · cases h
  · exact heq

/-- An escaped character begins and ends with no whitespace, if it is none. -/
theorem escapeChar_of_not_isSpace {c : Char} (h : isSpace c = false) :
    (∃ d rest, escapeChar c = d :: rest ∧ isSpace d = false) ∧
      ∃ front d, escapeChar c = front ++ [d] ∧ isSpace d = false := by
  rcases escapeChar_cases c with rfl | rfl | rfl | ⟨-, heq⟩
  · exact ⟨⟨'&', "amp;".toList, rfl, by decide⟩, ⟨"&amp".toList, ';', rfl, by decide⟩⟩
  · exact ⟨⟨'&', "lt;".toList, rfl, by decide⟩, ⟨"&lt".toList, ';', rfl, by decide⟩⟩
  · exact ⟨⟨'&', "gt;".toList, rfl, by decide⟩, ⟨"&gt".toList, ';', rfl, by decide⟩⟩
  · exact ⟨⟨c, [], heq, h⟩, ⟨[], c, heq, h⟩⟩

theorem escapeChar_ne_nil (c : Char) : escapeChar c ≠ [] := by
  rcases escapeChar_cases c with rfl | rfl | rfl | ⟨-, heq⟩
  · decide
  · decide
  · decide
  · simp [heq]

theorem escape_eq_nil_iff {text : List Char} : escape text = [] ↔ text = [] := by
  unfold escape
  rw [List.flatMap_eq_nil_iff]
  constructor
  · intro h
    exact List.eq_nil_iff_forall_not_mem.mpr fun c hc => escapeChar_ne_nil c (h c hc)
  · rintro rfl
    simp

/-- Whitespace at the front of a text is whitespace at the front of the escaped text. -/
theorem lstrip_escape (text : List Char) : lstrip (escape text) = escape (lstrip text) := by
  refine dropWhile_flatMap (fun c hc d hd => ?_) (fun c hc => (escapeChar_of_not_isSpace hc).1) text
  rw [escapeChar_of_isSpace hc, List.mem_singleton] at hd
  rwa [hd]

/-- In an escaped character there is no `<` and no `>`, and `&` begins it. -/
theorem escapeChar_occurrence {c d : Char} {front back : List Char}
    (h : escapeChar c = front ++ d :: back) :
    d ≠ '<' ∧ d ≠ '>' ∧ (d = '&' → front = [] ∧ c ∈ ['&', '<', '>']) := by
  have hentity : ∀ {e : Char} {text : List Char}, (c = '&' ∨ c = '<' ∨ c = '>') →
      escapeChar c = e :: text → (∀ x ∈ e :: text, x ≠ '<' ∧ x ≠ '>') → '&' ∉ text →
      d ≠ '<' ∧ d ≠ '>' ∧ (d = '&' → front = [] ∧ c ∈ ['&', '<', '>']) := by
    intro e text hc heq hplain hamp
    rw [h] at heq
    obtain ⟨hlt, hgt⟩ := hplain d (by rw [← heq]; simp)
    refine ⟨hlt, hgt, fun hd => ⟨?_, by simpa using hc⟩⟩
    subst hd
    exact front_eq_nil heq.symm hamp
  rcases escapeChar_cases c with rfl | rfl | rfl | ⟨hc, heq⟩
  · exact hentity (.inl rfl) rfl (forall_mem_of_all (by decide)) (by decide)
  · exact hentity (.inr (.inl rfl)) rfl (forall_mem_of_all (by decide)) (by decide)
  · exact hentity (.inr (.inr rfl)) rfl (forall_mem_of_all (by decide)) (by decide)
  · rw [heq] at h
    have hd : c = d := by
      rcases front with - | ⟨e, front⟩
      · exact (List.cons.inj h).1
      · have hlen := congrArg List.length h
        simp at hlen
    subst hd
    simp only [List.mem_cons, List.not_mem_nil, or_false, not_or] at hc
    exact ⟨hc.2.1, hc.2.2, fun hamp => absurd hamp hc.1⟩

/-! ### Where tags stand -/

/-- A token is a character, or a tag as it is written. -/
theorem render_cases (token : DisplayToken) :
    (∃ c, token = .leaf (.char c)) ∨ token.render ∈ displayTagTexts := by
  rcases token with tag | tag | - | c
  · exact .inr (by cases tag <;> decide)
  · exact .inr (by cases tag <;> decide)
  · exact .inr (by decide)
  · exact .inl ⟨c, rfl⟩

/-- A tag is enclosed in the only angle brackets it has. -/
theorem displayTagTexts_facts : ∀ tag ∈ displayTagTexts, ∃ name,
    tag = '<' :: (name ++ ['>']) ∧ '<' ∉ name ∧ '>' ∉ name ∧ '&' ∉ name := by
  intro tag htag
  have hinner : tag = '<' :: (tag.tail.dropLast ++ ['>']) ∧ '<' ∉ tag.tail.dropLast ∧
      '>' ∉ tag.tail.dropLast ∧ '&' ∉ tag.tail.dropLast := by
    revert tag
    decide
  exact ⟨_, hinner⟩

variable {tokens : List DisplayToken} {before rest : List Char}

theorem opens_of_render (h : renderTokens tokens = before ++ '<' :: rest) :
    ∃ tag ∈ displayTagTexts, tag <+: '<' :: rest := by
  obtain ⟨token, -, front, back, hwrite, -, hback⟩ := occurrence_flatMap h
  rcases render_cases token with ⟨c, rfl⟩ | htag
  · exact absurd rfl (escapeChar_occurrence hwrite).1
  · obtain ⟨name, heq, hlt, -, -⟩ := displayTagTexts_facts _ htag
    have hfront : front = [] := front_eq_nil (heq ▸ hwrite) (by simpa using hlt)
    refine ⟨_, htag, ?_⟩
    rw [hwrite, hfront, List.nil_append]
    exact (List.prefix_cons_inj _).mpr hback

theorem ends_of_render (h : renderTokens tokens = before ++ '>' :: rest) :
    ∃ tag ∈ displayTagTexts, tag <:+ before ++ ['>'] := by
  obtain ⟨token, -, front, back, hwrite, hfront, -⟩ := occurrence_flatMap h
  rcases render_cases token with ⟨c, rfl⟩ | htag
  · exact absurd rfl (escapeChar_occurrence hwrite).2.1
  · obtain ⟨name, heq, -, hgt, -⟩ := displayTagTexts_facts _ htag
    have hwhole : '<' :: name ++ ['>'] = front ++ '>' :: back := heq.symm.trans hwrite
    have hback : back = [] := back_eq_nil hwhole (by simpa using hgt)
    refine ⟨_, htag, ?_⟩
    rw [hwrite, hback]
    exact List.suffix_append_inj_of_length_eq rfl |>.mpr ⟨hfront, rfl⟩

theorem escaped_of_render (h : renderTokens tokens = before ++ '&' :: rest) :
    ∃ c ∈ ['&', '<', '>'], escapeChar c <+: '&' :: rest := by
  obtain ⟨token, -, front, back, hwrite, -, hback⟩ := occurrence_flatMap h
  rcases render_cases token with ⟨c, rfl⟩ | htag
  · obtain ⟨hfront, hc⟩ := (escapeChar_occurrence hwrite).2.2 rfl
    refine ⟨c, hc, ?_⟩
    rw [show escapeChar c = front ++ '&' :: back from hwrite, hfront, List.nil_append]
    exact (List.prefix_cons_inj _).mpr hback
  · obtain ⟨name, heq, -, -, hamp⟩ := displayTagTexts_facts _ htag
    have hmem : '&' ∈ '<' :: (name ++ ['>']) := by
      rw [← heq, hwrite]
      simp
    simp [hamp] at hmem

/-- Well-nested tokens are written as display HTML. -/
theorem isDisplayHtml_render (h : WellNested tokens) :
    IsDisplayHtml (String.ofList (renderTokens tokens)) where
  nested := ⟨tokens, h, String.toList_ofList⟩
  opens := by
    intro before rest hhtml
    exact opens_of_render (String.toList_ofList.symm.trans hhtml)
  ends := by
    intro before rest hhtml
    exact ends_of_render (String.toList_ofList.symm.trans hhtml)
  escaped := by
    intro before rest hhtml
    exact escaped_of_render (String.toList_ofList.symm.trans hhtml)

/-! ### What the sanitizer has written -/

/-- Some text, character by character. -/
def textTokens (text : List Char) : List DisplayToken := text.map fun c => .leaf (.char c)

theorem renderTokens_append (tokens others : List DisplayToken) :
    renderTokens (tokens ++ others) = renderTokens tokens ++ renderTokens others :=
  List.flatMap_append

theorem renderTokens_textTokens (text : List Char) : renderTokens (textTokens text) = escape text := by
  unfold renderTokens textTokens escape
  rw [List.flatMap_map]
  rfl

/-- What was written as tokens, and the tags still open: the scan of the one ends in the other. -/
structure Written (tokens : List DisplayToken) (parts : List (List Char)) (openTags : List String) :
    Prop where
  parts : parts.flatten = renderTokens tokens
  tags : ∃ stack : List DisplayTag,
    openAfter [] tokens = some stack ∧ openTags = stack.map DisplayTag.name

theorem written_nil : Written [] [] [] := ⟨rfl, [], rfl, rfl⟩

section Written

variable {tokens : List DisplayToken} {parts more : List (List Char)} {openTags : List String}

/-- Writing some tokens moves the scan on. -/
theorem Written.append (h : Written tokens parts openTags) (others : List DisplayToken)
    (hmore : more.flatten = renderTokens others) {openTags' : List String}
    (hscan : ∀ stack : List DisplayTag, openTags = stack.map DisplayTag.name →
      ∃ stack', openAfter stack others = some stack' ∧ openTags' = stack'.map DisplayTag.name) :
    Written (tokens ++ others) (parts ++ more) openTags' where
  parts := by rw [List.flatten_append, h.parts, hmore, renderTokens_append]
  tags := by
    obtain ⟨stack, hopen, htags⟩ := h.tags
    obtain ⟨stack', hopen', htags'⟩ := hscan stack htags
    refine ⟨stack', ?_, htags'⟩
    rw [openAfter_append, hopen, Option.bind_some, hopen']

/-- Writing some leaves leaves the open tags alone. -/
theorem Written.leaves (h : Written tokens parts openTags) (items : List DisplayItem)
    (hmore : more.flatten = renderTokens (items.map .leaf)) :
    Written (tokens ++ items.map .leaf) (parts ++ more) openTags :=
  h.append (items.map .leaf) hmore fun stack htags => ⟨stack, openAfter_leaves stack items, htags⟩

/-- Closing the innermost tag writes its closing tag. -/
theorem Written.close {top : String} (h : Written tokens parts (top :: openTags)) :
    ∃ tag, Written (tokens ++ [.closing tag]) (parts ++ [closingText top]) openTags := by
  obtain ⟨stack, hopen, htags⟩ := h.tags
  rcases stack with - | ⟨tag, stack⟩
  · cases htags
  · rw [List.map_cons, List.cons.injEq] at htags
    obtain ⟨rfl, rfl⟩ := htags
    refine ⟨tag, ?_, stack, ?_, rfl⟩
    · rw [List.flatten_append, h.parts, renderTokens_append]
      rfl
    · rw [openAfter_append, hopen]
      simp

/-- The loop of `handle_endtag` writes closing tags. -/
theorem Written.closeThrough (h : Written tokens parts openTags) (lowered : String) :
    ∃ tags : List DisplayTag, (openTags ≠ [] → tags ≠ []) ∧
      Written (tokens ++ tags.map .closing) (Bisakerja.closeThrough lowered parts openTags).1
        (Bisakerja.closeThrough lowered parts openTags).2 := by
  induction openTags generalizing tokens parts with
  | nil =>
    refine ⟨[], by simp, ?_⟩
    rw [List.map_nil, List.append_nil]
    exact h
  | cons top openTags ih =>
    obtain ⟨tag, hclosed⟩ := h.close
    rw [Bisakerja.closeThrough]
    split
    · exact ⟨[tag], by simp, hclosed⟩
    · obtain ⟨tags, -, hrest⟩ := ih hclosed
      refine ⟨tag :: tags, by simp, ?_⟩
      rw [List.append_assoc] at hrest
      exact hrest

end Written

/-- An allowed tag that is no line break holds something. -/
theorem exists_displayTag {lowered : String} (h : lowered ∈ allowedDisplayTags)
    (hbr : lowered ≠ "br") : ∃ tag : DisplayTag, tag.name = lowered := by
  simp only [allowedDisplayTags, List.mem_cons, List.not_mem_nil, or_false] at h
  rcases h with rfl | rfl | rfl | rfl | rfl | rfl | rfl
  · exact ⟨.p, rfl⟩
  · exact ⟨.ul, rfl⟩
  · exact ⟨.ol, rfl⟩
  · exact ⟨.li, rfl⟩
  · exact ⟨.strong, rfl⟩
  · exact ⟨.em, rfl⟩
  · exact absurd rfl hbr

namespace DisplayHTMLSanitizer

variable {casefold : String → String} {s : DisplayHTMLSanitizer} {tokens : List DisplayToken}

/-- The text `handle_data` writes for some data: it has its words, and stands apart from the text
    before it. -/
structure AddsText (s : DisplayHTMLSanitizer) (data text : List Char) : Prop where
  words : words isSpace text = words isSpace data
  apart : s.parts = [] ∨ s.parts.flatten.getLast? = some '>' ∨
    s.parts.flatten.getLast? = some ' ' ∨ text.head? = some ' '

/-- The tokens an event makes the sanitizer write. -/
inductive Adds (casefold : String → String) (s : DisplayHTMLSanitizer) :
    HtmlEvent → List DisplayToken → Prop
  | nothing {event : HtmlEvent} : (s.handle casefold event).parts = s.parts →
    Adds casefold s event []
  | tags {event : HtmlEvent} {others : List DisplayToken} : others ≠ [] →
    (∀ c, .leaf (.char c) ∉ others) → (∀ data, event ≠ .data data) → Adds casefold s event others
  | text {data : String} {text : List Char} : words isSpace text ≠ [] →
    s.AddsText data.toList text → Adds casefold s (.data data) (textTokens text)

theorem escapedBehind_eq (parts : List (List Char)) (normalized : List Char) :
    ∃ text, escapedBehind parts normalized = escape text ∧
      words isSpace text = words isSpace normalized := by
  unfold escapedBehind
  dsimp only
  split
  · exact ⟨_, lstrip_escape normalized, words_lstrip normalized⟩
  · exact ⟨normalized, rfl, rfl⟩

/-- The last part of a text with words is the text, escaped. -/
theorem dataPart_eq (parts : List (List Char)) {normalized : List Char}
    (h : words isSpace normalized ≠ []) :
    ∃ text, (if escapedBehind parts normalized = [] then [' '] else escapedBehind parts normalized)
      = escape text ∧ words isSpace text = words isSpace normalized := by
  obtain ⟨text, htext, hwords⟩ := escapedBehind_eq parts normalized
  refine ⟨text, ?_, hwords⟩
  rw [htext, if_neg]
  rw [escape_eq_nil_iff]
  rintro rfl
  exact h (by rw [← hwords, words_nil])

theorem words_space_cons (text : List Char) : words isSpace (' ' :: text) = words isSpace text :=
  words_cons_break (by decide) text

theorem dataParts_of_ne_nil {normalized : List Char} (hparts : s.parts ≠ []) (hne : normalized ≠ []) :
    s.dataParts normalized = s.separator normalized ++
      [if escapedBehind (s.parts ++ s.separator normalized) normalized = [] then [' ']
        else escapedBehind (s.parts ++ s.separator normalized) normalized] := by
  simp [dataParts, hparts, hne]

/-- The parts `handle_data` appends are escaped text, apart from the text before it. -/
theorem dataParts_eq (s : DisplayHTMLSanitizer) {normalized : List Char}
    (h : words isSpace normalized ≠ []) :
    ∃ text, (s.dataParts normalized).flatten = escape text ∧ s.AddsText normalized text := by
  have hne : normalized ≠ [] := by
    rintro rfl
    exact h (words_nil _)
  rcases List.eq_nil_or_concat s.parts with hparts | ⟨front, last, hparts⟩
  · -- The first text is stripped at its front.
    have hstripped : words isSpace (lstrip normalized) ≠ [] := by rwa [words_lstrip]
    have hnonempty : lstrip normalized ≠ [] := by
      intro hnil
      rw [hnil, words_nil] at hstripped
      exact hstripped rfl
    obtain ⟨text, htext, hwords⟩ := dataPart_eq [] hstripped
    refine ⟨text, ?_, hwords.trans (words_lstrip normalized), .inl hparts⟩
    simp only [dataParts, separator, hparts, List.getLast?_nil, if_true, hnonempty, if_false,
      List.append_nil, List.nil_append, htext, List.flatten_singleton]
  · rw [List.concat_eq_append] at hparts
    have hnonempty : s.parts ≠ [] := by simp [hparts]
    have hlast : s.parts.getLast? = some last := by simp [hparts]
    have hflatten : ∀ c, last.getLast? = some c → s.parts.flatten.getLast? = some c := by
      intro c hc
      rw [hparts, List.flatten_append, List.flatten_singleton, List.getLast?_append, hc]
      rfl
    rw [dataParts_of_ne_nil hnonempty hne, List.flatten_append, List.flatten_singleton]
    by_cases hapart : last.getLast? = some '>' ∨ last.getLast? = some ' '
    · have hseparator : s.separator normalized = [] := by simp [separator, hlast, hapart]
      obtain ⟨text, htext, hwords⟩ := dataPart_eq s.parts h
      rw [hseparator, List.append_nil, htext]
      refine ⟨text, rfl, hwords, .inr ?_⟩
      rcases hapart with hc | hc
      · exact .inl (hflatten _ hc)
      · exact .inr (.inl (hflatten _ hc))
    · by_cases hspace : normalized.head? = some ' '
      · -- A text that begins with a space is written as it is.
        have hseparator : s.separator normalized = [] := by simp [separator, hlast, hspace]
        have hbehind : escapedBehind s.parts normalized = escape normalized := by
          unfold escapedBehind
          dsimp only
          rw [if_neg]
          rintro ⟨hlone, -⟩
          rw [hlast, Option.some.injEq] at hlone
          exact hapart (.inr (by rw [hlone]; rfl))
        rw [hseparator, List.append_nil, hbehind, if_neg (escape_eq_nil_iff.not.mpr hne)]
        exact ⟨normalized, rfl, rfl, .inr (.inr (.inr hspace))⟩
      · have hseparator : s.separator normalized = [[' ']] := by
          simp [separator, hlast, hapart, hspace]
        obtain ⟨text, htext, hwords⟩ := dataPart_eq (s.parts ++ [[' ']]) h
        rw [hseparator, htext]
        exact ⟨' ' :: text, rfl, (words_space_cons text).trans hwords, .inr (.inr (.inr rfl))⟩

/-- What an event adds goes on with what was written. -/
def Steps (casefold : String → String) (s : DisplayHTMLSanitizer) (tokens : List DisplayToken)
    (event : HtmlEvent) : Prop :=
  ∃ others, Adds casefold s event others ∧ Written (tokens ++ others)
    (s.handle casefold event).parts (s.handle casefold event).openTags

theorem steps_of_same (h : Written tokens s.parts s.openTags) {event : HtmlEvent}
    (hparts : (s.handle casefold event).parts = s.parts)
    (htags : (s.handle casefold event).openTags = s.openTags) : Steps casefold s tokens event := by
  refine ⟨[], .nothing hparts, ?_⟩
  rw [List.append_nil, hparts, htags]
  exact h

theorem steps_handleStarttag (h : Written tokens s.parts s.openTags) (tag : String)
    {event : HtmlEvent} (hevent : s.handle casefold event = s.handleStarttag casefold tag)
    (hdata : ∀ data, event ≠ .data data) : Steps casefold s tokens event := by
  by_cases hdrop : casefold tag ∈ dropContentTags
  · exact steps_of_same h (by simp [hevent, handleStarttag, hdrop])
      (by simp [hevent, handleStarttag, hdrop])
  by_cases hdepth : s.dropDepth > 0
  · exact steps_of_same h (by simp [hevent, handleStarttag, hdrop, hdepth])
      (by simp [hevent, handleStarttag, hdrop, hdepth])
  by_cases hallowed : casefold tag ∈ allowedDisplayTags
  · by_cases hbr : casefold tag = "br"
    · have hhandle : s.handle casefold event
          = { s with parts := s.parts ++ [openingText "br"] } := by
        rw [hevent, handleStarttag, if_neg hdrop, if_neg hdepth, if_neg (not_not.mpr hallowed),
          if_pos hbr]
      refine ⟨[.leaf .br], .tags (by simp) (by simp) hdata, ?_⟩
      rw [hhandle]
      exact h.leaves [.br] rfl
    · obtain ⟨inner, hname⟩ := exists_displayTag hallowed hbr
      have hhandle : s.handle casefold event
          = { s with parts := s.parts ++ [openingText inner.name], openTags := inner.name :: s.openTags } := by
        rw [hevent, handleStarttag, if_neg hdrop, if_neg hdepth, if_neg (not_not.mpr hallowed),
          if_neg hbr, hname]
      refine ⟨[.opening inner], .tags (by simp) (by simp) hdata, ?_⟩
      rw [hhandle]
      refine h.append [.opening inner] rfl fun stack htags => ⟨inner :: stack, by simp, ?_⟩
      rw [htags, List.map_cons]
  · exact steps_of_same h (by simp [hevent, handleStarttag, hdrop, hallowed])
      (by simp [hevent, handleStarttag, hdrop, hallowed])

theorem steps_handleEndtag (h : Written tokens s.parts s.openTags) (tag : String) :
    Steps casefold s tokens (.endTag tag) := by
  by_cases hdrop : casefold tag ∈ dropContentTags
  · by_cases hdepth : s.dropDepth > 0
    · exact steps_of_same h (by simp [handle, handleEndtag, hdrop, hdepth])
        (by simp [handle, handleEndtag, hdrop, hdepth])
    · exact steps_of_same h (by simp [handle, handleEndtag, hdrop, hdepth])
        (by simp [handle, handleEndtag, hdrop, hdepth])
  by_cases hdepth : s.dropDepth > 0
  · exact steps_of_same h (by simp [handle, handleEndtag, hdrop, hdepth])
      (by simp [handle, handleEndtag, hdrop, hdepth])
  by_cases hignored : casefold tag ∉ allowedDisplayTags ∨ casefold tag = "br"
  · exact steps_of_same h (by simp [handle, handleEndtag, hdrop, hdepth, hignored])
      (by simp [handle, handleEndtag, hdrop, hdepth, hignored])
  by_cases hopen : casefold tag ∈ s.openTags
  · obtain ⟨tags, hne, hclosed⟩ := h.closeThrough (casefold tag)
    have hhandle : s.handle casefold (.endTag tag) = { s with
        parts := (closeThrough (casefold tag) s.parts s.openTags).1
        openTags := (closeThrough (casefold tag) s.parts s.openTags).2 } := by
      rw [handle, handleEndtag, if_neg hdrop, if_neg hdepth, if_neg hignored,
        if_neg (not_not.mpr hopen)]
    have htags : tags ≠ [] := hne (List.ne_nil_of_mem hopen)
    refine ⟨tags.map .closing, .tags (by simpa using htags) (by simp) nofun, ?_⟩
    rw [hhandle]
    exact hclosed
  · exact steps_of_same h (by simp [handle, handleEndtag, hdrop, hdepth, hignored, hopen])
      (by simp [handle, handleEndtag, hdrop, hdepth, hignored, hopen])

theorem steps_handleData (h : Written tokens s.parts s.openTags) (data : String) :
    Steps casefold s tokens (.data data) := by
  by_cases hdepth : s.dropDepth > 0
  · exact steps_of_same h (by simp [handle, handleData, hdepth])
      (by simp [handle, handleData, hdepth])
  by_cases hblank : (collapseSpaces false data.toList).all isSpace
  · exact steps_of_same h (by simp [handle, handleData, hdepth, hblank])
      (by simp [handle, handleData, hdepth, hblank])
  · have hdata : words isSpace (collapseSpaces false data.toList) = words isSpace data.toList :=
      (words_collapseSpaces data.toList).2 []
    have hwords : words isSpace (collapseSpaces false data.toList) ≠ [] := by
      rw [Ne, words_eq_nil_iff, ← List.all_eq_true]
      exact hblank
    obtain ⟨text, htext, hadds⟩ := s.dataParts_eq hwords
    have hhandle : s.handle casefold (.data data)
        = { s with parts := s.parts ++ s.dataParts (collapseSpaces false data.toList) } := by
      rw [handle, handleData, if_neg hdepth, if_neg hblank]
    have hnonblank : words isSpace text ≠ [] := by rwa [hadds.words]
    refine ⟨textTokens text, .text hnonblank ⟨hadds.words.trans hdata, hadds.apart⟩, ?_⟩
    rw [hhandle]
    have hleaves := h.leaves (text.map .char)
      (by rw [htext, List.map_map, ← renderTokens_textTokens]; rfl)
    rwa [List.map_map] at hleaves

/-- Whatever the parser calls, what is written stays well nested up to the open tags. -/
theorem steps_handle (h : Written tokens s.parts s.openTags) (event : HtmlEvent) :
    Steps casefold s tokens event := by
  cases event with
  | startTag tag attrs => exact steps_handleStarttag h tag rfl nofun
  | startEndTag tag attrs => exact steps_handleStarttag h tag rfl nofun
  | endTag tag => exact steps_handleEndtag h tag
  | data data => exact steps_handleData h data

theorem written_feed (casefold : String → String) (events : List HtmlEvent) :
    ∃ tokens, Written tokens (feed casefold events).parts (feed casefold events).openTags := by
  unfold feed
  induction events using List.reverseRecOn with
  | nil => exact ⟨[], written_nil⟩
  | append_singleton events event ih =>
    obtain ⟨tokens, htokens⟩ := ih
    obtain ⟨others, -, hothers⟩ : Steps casefold _ tokens event := steps_handle htokens event
    rw [List.foldl_append]
    exact ⟨_, hothers⟩

/-- What is returned closes the tags still open. -/
theorem getSanitizedHtml_eq (h : Written tokens s.parts s.openTags) :
    ∃ stack : List DisplayTag, WellNested (tokens ++ stack.map .closing) ∧
      openAfter [] tokens = some stack ∧
      s.getSanitizedHtml = String.ofList (renderTokens (tokens ++ stack.map .closing)) := by
  obtain ⟨stack, hopen, htags⟩ := h.tags
  refine ⟨stack, ?_, hopen, ?_⟩
  · rw [wellNested_iff, openAfter_append, hopen, Option.bind_some, openAfter_closings]
  · unfold getSanitizedHtml
    rw [List.flatten_append, h.parts, htags, renderTokens_append]
    unfold renderTokens
    rw [List.flatMap_map, List.flatten_eq_flatMap, List.flatMap_map, List.flatMap_map]
    rfl

/-- Whatever the parser calls, display HTML is returned. -/
theorem getSanitizedHtml_isDisplayHtml (casefold : String → String) (events : List HtmlEvent) :
    IsDisplayHtml (feed casefold events).getSanitizedHtml := by
  obtain ⟨tokens, hwritten⟩ := written_feed casefold events
  obtain ⟨stack, hnested, -, heq⟩ := getSanitizedHtml_eq hwritten
  rw [heq]
  exact isDisplayHtml_render hnested

end DisplayHTMLSanitizer

end Bisakerja
