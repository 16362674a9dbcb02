import BisakerjaScraper.Shared.DisplayHtml

/-! Display HTML, read again.

    What the sanitizer writes is simple enough to be read back: tags without attributes, and text in
    which three characters are escaped. The calls a parser makes on it are those of its tokens, each
    stretch of text in one call. -/

namespace Bisakerja
open Schemes

/-! ### Runs of the sanitizer -/

namespace DisplayHTMLSanitizer

variable {casefold : String → String}

/-- The sanitizer behind some calls. -/
def run (casefold : String → String) (s : DisplayHTMLSanitizer) (events : List HtmlEvent) :
    DisplayHTMLSanitizer :=
  events.foldl (fun s event => s.handle casefold event) s

theorem run_cons (s : DisplayHTMLSanitizer) (event : HtmlEvent) (events : List HtmlEvent) :
    s.run casefold (event :: events) = (s.handle casefold event).run casefold events := rfl

theorem run_append (s : DisplayHTMLSanitizer) (events others : List HtmlEvent) :
    s.run casefold (events ++ others) = (s.run casefold events).run casefold others :=
  List.foldl_append

end DisplayHTMLSanitizer

/-! ### Escaped text -/

/-- The three characters `html.escape` writes, read back. -/
def unescape : List Char → List Char
  | '&' :: 'a' :: 'm' :: 'p' :: ';' :: rest => '&' :: unescape rest
  | '&' :: 'l' :: 't' :: ';' :: rest => '<' :: unescape rest
  | '&' :: 'g' :: 't' :: ';' :: rest => '>' :: unescape rest
  | c :: rest => c :: unescape rest
  | [] => []

theorem unescape_cons {c : Char} (h : c ≠ '&') (rest : List Char) :
    unescape (c :: rest) = c :: unescape rest := by
  conv_lhs => unfold unescape
  split
  · next heq => exact absurd (List.cons.inj heq).1 h
  · next heq => exact absurd (List.cons.inj heq).1 h
  · next heq => exact absurd (List.cons.inj heq).1 h
  · next heq =>
    obtain ⟨rfl, rfl⟩ := List.cons.inj heq
    rfl
  · next heq => cases heq

theorem unescape_escape (text : List Char) : unescape (escape text) = text := by
  induction text with
  | nil => rfl
  | cons c text ih =>
    unfold escape at ih ⊢
    rw [List.flatMap_cons]
    rcases escapeChar_cases c with rfl | rfl | rfl | ⟨hc, heq⟩
    · exact congrArg ('&' :: ·) ih
    · exact congrArg ('<' :: ·) ih
    · exact congrArg ('>' :: ·) ih
    · have hamp : c ≠ '&' := by
        rintro rfl
        exact hc (by decide)
      rw [heq, List.singleton_append, unescape_cons hamp, ih]

/-! ### The calls -/

/-- The call for a stretch of text, if there is any. -/
def dataCall (text : List Char) : List HtmlEvent :=
  if text = [] then [] else [.data (String.ofList text)]

/-- The calls for some tokens behind a stretch of text. -/
def callsFrom : List Char → List DisplayToken → List HtmlEvent
  | text, [] => dataCall text
  | text, .leaf (.char c) :: rest => callsFrom (text ++ [c]) rest
  | text, .leaf .br :: rest => dataCall text ++ .startTag "br" [] :: callsFrom [] rest
  | text, .opening tag :: rest => dataCall text ++ .startTag tag.name [] :: callsFrom [] rest
  | text, .closing tag :: rest => dataCall text ++ .endTag tag.name :: callsFrom [] rest

/-- The call for a tag by what stands between its brackets. -/
def tagCall : List Char → HtmlEvent
  | '/' :: name => .endTag (String.ofList name)
  | name => .startTag (String.ofList name) []

/-- Reads display HTML: behind a stretch of text, or behind the front of a tag. -/
def readFrom : List Char → Option (List Char) → List Char → List HtmlEvent
  | text, none, [] => dataCall (unescape text)
  | _, some _, [] => []
  | text, none, c :: rest =>
    if c = '<' then dataCall (unescape text) ++ readFrom [] (some []) rest
    else readFrom (text ++ [c]) none rest
  | _, some name, c :: rest =>
    if c = '>' then tagCall name :: readFrom [] none rest
    else readFrom [] (some (name ++ [c])) rest

theorem readFrom_text {more : List Char} (h : '<' ∉ more) (text rest : List Char) :
    readFrom text none (more ++ rest) = readFrom (text ++ more) none rest := by
  induction more generalizing text with
  | nil => simp
  | cons c more ih =>
    simp only [List.mem_cons, not_or] at h
    rw [List.cons_append, readFrom, if_neg (Ne.symm h.1), ih h.2]
    simp

theorem readFrom_name {more : List Char} (h : '>' ∉ more) (name rest : List Char) :
    readFrom [] (some name) (more ++ '>' :: rest)
      = tagCall (name ++ more) :: readFrom [] none rest := by
  induction more generalizing name with
  | nil => simp [readFrom]
  | cons c more ih =>
    simp only [List.mem_cons, not_or] at h
    rw [List.cons_append, readFrom, if_neg (Ne.symm h.1), ih h.2]
    simp

/-- A tag is read behind the text before it. -/
theorem readFrom_tag {name : List Char} (h : '>' ∉ name) (text rest : List Char) :
    readFrom (escape text) none ('<' :: (name ++ '>' :: rest))
      = dataCall text ++ tagCall name :: readFrom [] none rest := by
  rw [readFrom, if_pos rfl, unescape_escape, readFrom_name h, List.nil_append]

/-- Tokens are read as they are written. -/
theorem readFrom_render (tokens : List DisplayToken) (text : List Char) :
    readFrom (escape text) none (renderTokens tokens) = callsFrom text tokens := by
  have hbr : '>' ∉ ['b', 'r'] := by decide
  induction tokens generalizing text with
  | nil =>
    show dataCall (unescape (escape text)) = dataCall text
    rw [unescape_escape]
  | cons token tokens ih =>
    have hempty : readFrom [] none (renderTokens tokens) = callsFrom [] tokens := ih []
    unfold renderTokens at ih hempty ⊢
    rw [List.flatMap_cons]
    rcases token with tag | tag | - | c
    · have hname : '>' ∉ tag.name.toList := by cases tag <;> decide
      have hcall : tagCall tag.name.toList = .startTag tag.name [] := by cases tag <;> rfl
      have htext : DisplayToken.render (.opening tag) = '<' :: (tag.name.toList ++ ['>']) := rfl
      rw [htext, List.cons_append, List.append_assoc, List.singleton_append, readFrom_tag hname,
        hcall, hempty, callsFrom]
    · have hname : '>' ∉ '/' :: tag.name.toList := by cases tag <;> decide
      have hcall : tagCall ('/' :: tag.name.toList) = .endTag tag.name := by cases tag <;> rfl
      have htext : DisplayToken.render (.closing tag) = '<' :: ('/' :: tag.name.toList ++ ['>']) :=
        rfl
      rw [htext, List.cons_append, List.append_assoc, List.singleton_append, readFrom_tag hname,
        hcall, hempty, callsFrom]
    · have htext : DisplayToken.render (.leaf .br) = '<' :: (['b', 'r'] ++ ['>']) := rfl
      have hcall : tagCall ['b', 'r'] = .startTag "br" [] := rfl
      rw [htext, List.cons_append, List.append_assoc, List.singleton_append, readFrom_tag hbr,
        hcall, hempty, callsFrom]
    · have hplain : '<' ∉ escapeChar c := by
        intro hmem
        obtain ⟨front, back, heq⟩ := List.append_of_mem hmem
        exact (escapeChar_occurrence heq).1 rfl
      have hescape : escape text ++ escapeChar c = escape (text ++ [c]) := by
        simp [escape]
      have hrender : DisplayToken.render (.leaf (.char c)) = escapeChar c := rfl
      rw [hrender, readFrom_text hplain, hescape, ih, callsFrom]

/-- A parser of tags without attributes. -/
def bareParser : HtmlParser where
  parse := fun text => readFrom [] none text.toList
  casefold := id

/-! ### The text -/

/-- The text of a call. -/
def HtmlEvent.text : HtmlEvent → List Char
  | .data text => text.toList
  | .startTag _ _ | .startEndTag _ _ | .endTag _ => []

/-- The text content of display HTML. -/
def textContent (html : List Char) : List Char := (readFrom [] none html).flatMap HtmlEvent.text

/-- The character a token shows, if it shows one. -/
def DisplayToken.chars : DisplayToken → List Char
  | .leaf (.char c) => [c]
  | _ => []

/-- The text some tokens show. -/
def charsOf (tokens : List DisplayToken) : List Char := tokens.flatMap DisplayToken.chars

theorem charsOf_append (tokens others : List DisplayToken) :
    charsOf (tokens ++ others) = charsOf tokens ++ charsOf others := List.flatMap_append

theorem charsOf_textTokens (text : List Char) : charsOf (textTokens text) = text := by
  unfold charsOf textTokens
  rw [List.flatMap_map]
  exact List.flatMap_singleton' text

theorem text_dataCall (text : List Char) : (dataCall text).flatMap HtmlEvent.text = text := by
  unfold dataCall
  split
  · next h => rw [h, List.flatMap_nil]
  · simp [HtmlEvent.text]

theorem textContent_render (tokens : List DisplayToken) :
    textContent (renderTokens tokens) = charsOf tokens := by
  have hcalls : ∀ text,
      (callsFrom text tokens).flatMap HtmlEvent.text = text ++ charsOf tokens := by
    induction tokens with
    | nil =>
      intro text
      rw [callsFrom, text_dataCall]
      exact (List.append_nil _).symm
    | cons token tokens ih =>
      intro text
      rcases token with tag | tag | - | c
      · rw [callsFrom, List.flatMap_append, text_dataCall, List.flatMap_cons, ih]
        rfl
      · rw [callsFrom, List.flatMap_append, text_dataCall, List.flatMap_cons, ih]
        rfl
      · rw [callsFrom, List.flatMap_append, text_dataCall, List.flatMap_cons, ih]
        rfl
      · rw [callsFrom, ih, List.append_assoc]
        rfl
  have hread := readFrom_render tokens []
  unfold textContent
  rw [show ([] : List Char) = escape [] from rfl, hread, hcalls, List.nil_append]

theorem textContent_ofList (tokens : List DisplayToken) :
    textContent (String.ofList (renderTokens tokens)).toList = charsOf tokens := by
  rw [String.toList_ofList, textContent_render]

/-- The characters of tokens around which whitespace was stripped. -/
theorem charsOf_of_padded {tokens stripped : List DisplayToken} {stack : List DisplayTag}
    {front back : List Char}
    (h : tokens ++ stack.map .closing = textTokens front ++ (stripped ++ textTokens back)) :
    charsOf tokens = front ++ (charsOf stripped ++ back) := by
  have hclosings : charsOf (stack.map .closing) = [] := by
    simp [charsOf, List.flatMap_map, DisplayToken.chars]
  have hchars := congrArg charsOf h
  simpa only [charsOf_append, charsOf_textTokens, hclosings, List.append_nil] using hchars

end Bisakerja
