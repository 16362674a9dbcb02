import BisakerjaScraper.Schemes.Scan
import BisakerjaScraper.Shared.DisplayHtml

/-! The gates that check display HTML.

    Two commands check stored descriptions, each with its own reading of the same two patterns: one
    finds tags, the other what may run a script. The second pattern is searched in the whole text,
    so a description that only talks of `onsite = ya` is refused. -/

namespace Bisakerja
open Schemes

/-! ### The patterns -/

/-- What is behind `<\s*/?\s*`. -/
def tagStart : List Char → Option (List Char)
  | '<' :: rest =>
    match lstrip rest with
    | '/' :: behind => some (lstrip behind)
    | behind => some behind
  | _ => none

/-- The tags of `DISPLAY_HTML_UNSAFE_TOKEN_PATTERN`. -/
def unsafeTagNames : List String := ["script", "style", "iframe", "object", "embed", "svg"]

namespace Alphabet

variable (alphabet : Alphabet)

/-- `<\s*/?\s*(?:script|style|iframe|object|embed|svg)\b`. -/
def unsafeTagAt (text : List Char) : Bool :=
  (tagStart text).any fun rest => unsafeTagNames.any fun name =>
    (literal name.toList rest).any fun behind => !behind.head?.any alphabet.isWord

/-- `DISPLAY_HTML_UNSAFE_TOKEN_PATTERN`, at a place of a text. -/
def unsafeAt (afterWord : Bool) (text : List Char) : Bool :=
  alphabet.unsafeTagAt text || scriptAt afterWord text

/-- `DISPLAY_HTML_UNSAFE_TOKEN_PATTERN.search`. -/
def unsafeToken (text : List Char) : Bool := alphabet.search alphabet.unsafeAt false text

end Alphabet

/-- `DISPLAY_HTML_TAG_PATTERN`, at a place of a text: `<\s*/?\s*([a-zA-Z0-9]+)([^>]*)>`. -/
def displayTagAt (text : List Char) : Option ((List Char × List Char) × ℕ) :=
  (tagStart text).bind fun rest =>
    let name := rest.takeWhile Char.isAlphanum
    let tail := rest.dropWhile Char.isAlphanum
    if name = [] then none
    else
      match tail.dropWhile (· ≠ '>') with
      | [] => none
      | _ :: behind => some ((name, tail.takeWhile (· ≠ '>')), text.length - behind.length)

/-- The tags of a text: their names and their attributes. -/
def displayTags (text : List Char) : List (List Char × List Char) := scan displayTagAt text

/-- `tag_name.lower() in DISPLAY_HTML_ALLOWLIST`; the name is ASCII. -/
def isAllowedName (name : List Char) : Bool :=
  String.ofList (name.map Char.toLower) ∈ allowedDisplayTags

/-! ### The checkers -/

/-- `attrs.strip()`. -/
def strippedAttrs (attrs : List Char) : List Char := (strip (String.ofList attrs)).toList

/-- `not attrs or attrs.strip().strip("/") in {"", "/"}`. -/
def areSlashes (attrs : List Char) : Bool :=
  attrs = [] ||
    ((strippedAttrs attrs).dropWhile (· = '/')).rdropWhile (· = '/') ∈ [[], ['/']]

namespace Alphabet

variable (alphabet : Alphabet)

/-- `_is_safe_display_html_value`, on a string. -/
def isSafeDisplayHtmlValue (value : String) : Bool :=
  let text := strip value
  text = "" || (!alphabet.unsafeToken text.toList &&
    (displayTags text.toList).all fun tag => isAllowedName tag.1 && areSlashes tag.2)

/-- `unsafe_html` of `_display_html_quality_summary`: the rows whose description or requirement
    summary is not safe. -/
def unsafeHtml (rows : List (Option String × Option String)) : ℕ :=
  rows.countP fun row =>
    !(row.1.all alphabet.isSafeDisplayHtmlValue && row.2.all alphabet.isSafeDisplayHtmlValue)

/-- `html_safety`. -/
def htmlSafety (description requirementSummary : String) : Bool × Bool :=
  let combined := description ++ "\n" ++ requirementSummary
  if strip combined = "" then (true, false)
  else
    let safe := (displayTags combined.toList).all fun tag =>
      isAllowedName tag.1 && (tag.2 = [] || strippedAttrs tag.2 = [])
    (safe, alphabet.unsafeToken combined.toList || !safe)

/-- The gates accept what is stored of a value, and give a string the same verdict. -/
structure GatesHold (parser : HtmlParser) (value s : String) : Prop where
  accepted : ∀ html, parser.ensureDisplayHtml value = some html →
    alphabet.isSafeDisplayHtmlValue html = true ∧ alphabet.htmlSafety html "" = (true, false)
  stored : alphabet.unsafeHtml [(parser.ensureDisplayHtml value, none)] = 0
  same : alphabet.isSafeDisplayHtmlValue s = true ↔ alphabet.htmlSafety s "" = (true, false)

/-- Nothing is wrong with a text but slashes where a tag has attributes, as in `<br/>`. -/
structure SlashedTags (text : List Char) : Prop where
  token : alphabet.unsafeToken text = false
  allowed : ∀ tag ∈ displayTags text, isAllowedName tag.1 = true
  slashes : ∀ tag ∈ displayTags text, ∀ c ∈ strippedAttrs tag.2, c = '/'
  slashed : ∃ tag ∈ displayTags text, strippedAttrs tag.2 ≠ []

end Alphabet

/-! ### Display HTML under the patterns -/

/-- A tag begins with `<`. -/
theorem tagStart_of_ne {c : Char} (h : c ≠ '<') (rest : List Char) : tagStart (c :: rest) = none := by
  unfold tagStart
  split
  · next heq =>
    rw [List.cons.injEq] at heq
    exact absurd heq.1 h
  · rfl

theorem tagStart_of_isSpace {c : Char} (h : isSpace c = true) (rest : List Char) :
    tagStart (c :: rest) = none := by
  refine tagStart_of_ne ?_ rest
  rintro rfl
  cases h

section Rendered

variable {alphabet : Alphabet}

/-- The front of written tokens: a character written as it is, or one that is no letter, no
    whitespace and closes no pattern, in both readings. -/
theorem front_cases (token : DisplayToken) (tokens : List DisplayToken) :
    (∃ c, token = .leaf (.char c) ∧ c ∉ ['&', '<', '>'] ∧
      renderTokens (token :: tokens) = c :: renderTokens tokens ∧
      plainTokens (token :: tokens) = c :: plainTokens tokens) ∨
    ∃ rest rest', ∃ c ∈ ['&', '<'], ∃ d ∈ ['&', '<', '>', ' '],
      renderTokens (token :: tokens) = c :: rest ∧ plainTokens (token :: tokens) = d :: rest' ∧
        (d = ' ' → rest' = '<' :: ' ' :: plainTokens tokens) := by
  have hrender : renderTokens (token :: tokens) = token.render ++ renderTokens tokens :=
    List.flatMap_cons
  have hplain : plainTokens (token :: tokens) = token.plain ++ plainTokens tokens :=
    List.flatMap_cons
  rw [hrender, hplain]
  rcases token with tag | tag | - | c
  · exact .inr ⟨_, _, '<', by decide, ' ', by decide, rfl, rfl, fun _ => rfl⟩
  · exact .inr ⟨_, _, '<', by decide, ' ', by decide, rfl, rfl, fun _ => rfl⟩
  · exact .inr ⟨_, _, '<', by decide, ' ', by decide, rfl, rfl, fun _ => rfl⟩
  · rcases escapeChar_cases c with rfl | rfl | rfl | ⟨hc, heq⟩
    · exact .inr ⟨_, _, '&', by decide, '&', by decide, rfl, rfl,
        fun h => absurd h (by decide)⟩
    · exact .inr ⟨_, _, '&', by decide, '<', by decide, rfl, rfl,
        fun h => absurd h (by decide)⟩
    · exact .inr ⟨_, _, '&', by decide, '>', by decide, rfl, rfl,
        fun h => absurd h (by decide)⟩
    · refine .inl ⟨c, rfl, hc, ?_, rfl⟩
      rw [DisplayToken.render, heq]
      rfl

theorem not_isLetter_front {c : Char} (h : c ∈ ['&', '<', '>', ' ']) : isLetter c = false := by
  simp only [List.mem_cons, List.not_mem_nil, or_false] at h
  rcases h with rfl | rfl | rfl | rfl <;> decide

/-- A letter of a pattern is no escaped character and no tag. -/
theorem literal_render {letters : List Char} (hletters : ∀ l ∈ letters, l.isLower = true)
    (tokens : List DisplayToken) : ∃ rest : Option (List DisplayToken),
      literal letters (renderTokens tokens) = rest.map renderTokens ∧
        literal letters (plainTokens tokens) = rest.map plainTokens := by
  induction letters generalizing tokens with
  | nil => exact ⟨some tokens, rfl, rfl⟩
  | cons l letters ih =>
    have hnone : ∀ {c rest}, isLetter c = false → literal (l :: letters) (c :: rest) = none := by
      intro c rest hc
      have ht : ∀ d ∈ (c :: rest).head?, isLetter d = false := by
        rintro d ⟨⟩
        exact hc
      exact literal_append hletters ht []
    rcases tokens with - | ⟨token, tokens⟩
    · exact ⟨none, rfl, rfl⟩
    · rcases front_cases token tokens with
        ⟨c, -, -, hrender, hplain⟩ | ⟨_, _, c, hc, d, hd, hrender, hplain, -⟩
      · obtain ⟨rest, hrest, hrest'⟩ := ih (fun l hl => hletters l (List.mem_cons_of_mem _ hl)) tokens
        rw [hrender, hplain, literal, literal]
        by_cases hl : foldLetter c = l
        · exact ⟨rest, by rw [if_pos hl, hrest], by rw [if_pos hl, hrest']⟩
        · exact ⟨none, by rw [if_neg hl]; rfl, by rw [if_neg hl]; rfl⟩
      · have hc' : isLetter c = false :=
          not_isLetter_front (List.mem_append_left ['>', ' '] hc)
        rw [hrender, hplain, hnone hc', hnone (not_isLetter_front hd)]
        exact ⟨none, rfl, rfl⟩

/-- The letters at the front are the same in both readings. -/
theorem letters_render (tokens : List DisplayToken) : ∃ rest,
    (renderTokens tokens).takeWhile isLetter = (plainTokens tokens).takeWhile isLetter ∧
      (renderTokens tokens).dropWhile isLetter = renderTokens rest ∧
        (plainTokens tokens).dropWhile isLetter = plainTokens rest := by
  induction tokens with
  | nil => exact ⟨[], rfl, rfl, rfl⟩
  | cons token tokens ih =>
    rcases front_cases token tokens with
      ⟨c, -, -, hrender, hplain⟩ | ⟨_, _, c, hc, d, hd, hrender, hplain, -⟩
    · by_cases hletter : isLetter c = true
      · obtain ⟨rest, htake, hdrop, hdrop'⟩ := ih
        refine ⟨rest, ?_, ?_, ?_⟩
        · rw [hrender, hplain, List.takeWhile_cons_of_pos hletter,
            List.takeWhile_cons_of_pos hletter, htake]
        · rw [hrender, List.dropWhile_cons_of_pos hletter, hdrop]
        · rw [hplain, List.dropWhile_cons_of_pos hletter, hdrop']
      · refine ⟨token :: tokens, ?_, ?_, ?_⟩
        · rw [hrender, hplain, List.takeWhile_cons_of_neg hletter,
            List.takeWhile_cons_of_neg hletter]
        · rw [hrender, List.dropWhile_cons_of_neg hletter]
        · rw [hplain, List.dropWhile_cons_of_neg hletter]
    · have hc' : ¬ isLetter c = true := by
        rw [not_isLetter_front (List.mem_append_left ['>', ' '] hc)]
        nofun
      have hd' : ¬ isLetter d = true := by
        rw [not_isLetter_front hd]
        nofun
      refine ⟨token :: tokens, ?_, ?_, ?_⟩
      · rw [hrender, hplain, List.takeWhile_cons_of_neg hc', List.takeWhile_cons_of_neg hd']
      · rw [hrender, List.dropWhile_cons_of_neg hc']
      · rw [hplain, List.dropWhile_cons_of_neg hd']

/-- The closing character is the same in both readings. -/
theorem closedBy_render {closing : Char} (hclosing : closing ∈ ['=', ':'])
    (rest : Option (List DisplayToken)) :
    closedBy closing (rest.map renderTokens) = closedBy closing (rest.map plainTokens) := by
  cases rest with
  | none => rfl
  | some tokens =>
    simp only [Option.map_some, closedBy]
    rw [decide_eq_decide]
    induction tokens with
    | nil => exact Iff.rfl
    | cons token tokens ih =>
      have hne : ∀ c ∈ ['&', '<', '>'], c ≠ closing ∧ isSpace c = false := by
        intro c hc
        simp only [List.mem_cons, List.not_mem_nil, or_false] at hc hclosing
        rcases hc with rfl | rfl | rfl <;> rcases hclosing with rfl | rfl <;> decide
      have hstop : ∀ {c rest}, c ∈ ['&', '<', '>'] →
          ¬ (lstrip (c :: rest)).head? = some closing := by
        intro c rest hc
        obtain ⟨hclose, hspace⟩ := hne c hc
        rw [lstrip, List.dropWhile_cons_of_neg (by rw [hspace]; exact Bool.false_ne_true), List.head?_cons,
          Option.some.injEq]
        exact hclose
      rcases front_cases token tokens with
        ⟨c, -, -, hrender, hplain⟩ | ⟨_, rest', c, hc, d, hd, hrender, hplain, hspace⟩
      · rw [hrender, hplain]
        unfold lstrip at ih ⊢
        by_cases hc : isSpace c = true
        · rwa [List.dropWhile_cons_of_pos hc, List.dropWhile_cons_of_pos hc]
        · rw [List.dropWhile_cons_of_neg hc, List.dropWhile_cons_of_neg hc]
          exact Iff.rfl
      · rw [hrender, hplain]
        refine iff_of_false (hstop (List.mem_append_left ['>'] hc)) ?_
        rcases List.mem_append.mp (show d ∈ ['&', '<', '>'] ++ [' '] from hd) with hd | hd
        · exact hstop hd
        · rw [List.mem_singleton] at hd
          rw [hd, hspace hd]
          exact hstop (c := '<') (by decide)

theorem scriptAt_render (afterWord : Bool) (tokens : List DisplayToken) :
    scriptAt afterWord (renderTokens tokens) = scriptAt afterWord (plainTokens tokens) := by
  have hon : ∀ l ∈ "on".toList, l.isLower = true := forall_mem_of_all (by decide)
  have hjavascript : ∀ l ∈ "javascript".toList, l.isLower = true := forall_mem_of_all (by decide)
  obtain ⟨rest, hrest, hrest'⟩ := literal_render hjavascript tokens
  have hevent : ∃ rest : Option (List DisplayToken),
      eventName afterWord (renderTokens tokens) = rest.map renderTokens ∧
        eventName afterWord (plainTokens tokens) = rest.map plainTokens := by
    obtain ⟨name, hname, hname'⟩ := literal_render hon tokens
    unfold eventName
    rw [hname, hname']
    cases afterWord with
    | true => exact ⟨none, rfl, rfl⟩
    | false =>
      cases name with
      | none => exact ⟨none, rfl, rfl⟩
      | some name =>
        obtain ⟨behind, htake, hdrop, hdrop'⟩ := letters_render name
        simp only [Bool.false_eq_true, if_false, Option.map_some, Option.bind_some, htake, hdrop,
          hdrop']
        split
        · exact ⟨none, rfl, rfl⟩
        · exact ⟨some behind, rfl, rfl⟩
  obtain ⟨name, hname, hname'⟩ := hevent
  unfold scriptAt
  rw [hrest, hrest', hname, hname', closedBy_render (by simp), closedBy_render (by simp)]

/-- No unsafe token begins in a tag that is written. -/
theorem Alphabet.search_tag (alphabet : Alphabet) (afterWord : Bool) (rest : List Char) :
    (∀ tag : DisplayTag, alphabet.search alphabet.unsafeAt afterWord (openingText tag.name ++ rest)
      = alphabet.search alphabet.unsafeAt false rest) ∧
    (∀ tag : DisplayTag, alphabet.search alphabet.unsafeAt afterWord (closingText tag.name ++ rest)
      = alphabet.search alphabet.unsafeAt false rest) ∧
    alphabet.search alphabet.unsafeAt afterWord (openingText "br" ++ rest)
      = alphabet.search alphabet.unsafeAt false rest := by
  refine ⟨fun tag => ?_, fun tag => ?_, ?_⟩
  · cases tag <;> cases afterWord <;> rfl
  · cases tag <;> cases afterWord <;> rfl
  · cases afterWord <;> rfl

/-- No unsafe token begins in an escaped character, or in the character. -/
theorem Alphabet.search_entity (alphabet : Alphabet) {c : Char} (h : c ∈ ['&', '<', '>']) (afterWord : Bool) :
    (∀ rest, alphabet.search alphabet.unsafeAt afterWord (escapeChar c ++ rest)
      = alphabet.search alphabet.unsafeAt false rest) ∧
    ∀ rest, alphabet.search scriptAt afterWord (c :: rest) = alphabet.search scriptAt false rest := by
  simp only [List.mem_cons, List.not_mem_nil, or_false] at h
  rcases h with rfl | rfl | rfl <;> cases afterWord <;> exact ⟨fun _ => rfl, fun _ => rfl⟩

/-- The unsafe tokens of written tokens are those of their text. -/
theorem search_render (afterWord : Bool) (tokens : List DisplayToken) :
    alphabet.search alphabet.unsafeAt afterWord (renderTokens tokens)
      = alphabet.search scriptAt afterWord (plainTokens tokens) := by
  induction tokens generalizing afterWord with
  | nil => rfl
  | cons token tokens ih =>
    have hrender : renderTokens (token :: tokens) = token.render ++ renderTokens tokens :=
      List.flatMap_cons
    have hmark : ∀ rest, alphabet.search scriptAt afterWord (tagMark ++ rest)
        = alphabet.search scriptAt false rest := by
      intro rest
      cases afterWord <;> rfl
    have hat := scriptAt_render afterWord (token :: tokens)
    obtain ⟨hopening, hclosing, hbr⟩ := alphabet.search_tag afterWord (renderTokens tokens)
    rcases token with tag | tag | - | c
    · rw [hrender, DisplayToken.render, hopening, ih]
      exact (hmark _).symm
    · rw [hrender, DisplayToken.render, hclosing, ih]
      exact (hmark _).symm
    · rw [hrender, DisplayToken.render, hbr, ih]
      exact (hmark _).symm
    · have hentity : c ∈ ['&', '<', '>'] →
          alphabet.search alphabet.unsafeAt afterWord (renderTokens (.leaf (.char c) :: tokens))
            = alphabet.search scriptAt afterWord (plainTokens (.leaf (.char c) :: tokens)) := by
        intro hc
        obtain ⟨hescaped, hplain⟩ := alphabet.search_entity hc afterWord
        rw [hrender, DisplayToken.render, hescaped, ih]
        exact (hplain _).symm
      rcases escapeChar_cases c with rfl | rfl | rfl | ⟨hc, heq⟩
      · exact hentity (by decide)
      · exact hentity (by decide)
      · exact hentity (by decide)
      · have hwritten : renderTokens (.leaf (.char c) :: tokens) = c :: renderTokens tokens := by
          rw [hrender, DisplayToken.render, heq]
          rfl
        have htag : alphabet.unsafeTagAt (c :: renderTokens tokens) = false := by
          have hlt : c ≠ '<' := by
            rintro rfl
            simp at hc
          unfold Alphabet.unsafeTagAt
          rw [tagStart_of_ne hlt]
          rfl
        have hplain : plainTokens (.leaf (.char c) :: tokens) = c :: plainTokens tokens := rfl
        rw [hwritten, hplain] at hat ⊢
        rw [Alphabet.search, Alphabet.search, Alphabet.unsafeAt, htag, hat, ih, Bool.false_or]

/-- A tag that is written is found with its name and without attributes. -/
theorem displayTagAt_render (rest : List Char) :
    (∀ tag : DisplayTag, displayTagAt (openingText tag.name ++ rest)
      = some ((tag.name.toList, []), (openingText tag.name).length)) ∧
    (∀ tag : DisplayTag, displayTagAt (closingText tag.name ++ rest)
      = some ((tag.name.toList, []), (closingText tag.name).length)) ∧
    displayTagAt (openingText "br" ++ rest)
      = some (("br".toList, []), (openingText "br").length) := by
  refine ⟨fun tag => ?_, fun tag => ?_, ?_⟩
  · cases tag <;> simp [displayTagAt, openingText, DisplayTag.name, tagStart, lstrip, isSpace] <;> omega
  · cases tag <;> simp [displayTagAt, closingText, DisplayTag.name, tagStart, lstrip, isSpace] <;> omega
  · simp [displayTagAt, openingText, tagStart, lstrip, isSpace]
    omega

/-- The tags of written tokens are allowed, and have no attributes. -/
theorem displayTags_render (tokens : List DisplayToken) :
    ∀ tag ∈ displayTags (renderTokens tokens), isAllowedName tag.1 = true ∧ tag.2 = [] := by
  induction tokens with
  | nil => simp [displayTags, renderTokens]
  | cons token tokens ih =>
    have hrender : renderTokens (token :: tokens) = token.render ++ renderTokens tokens :=
      List.flatMap_cons
    have hskip : ∀ name : List Char, token.render ≠ [] → isAllowedName name = true →
        displayTagAt (token.render ++ renderTokens tokens)
          = some ((name, []), token.render.length) →
        ∀ tag ∈ displayTags (renderTokens (token :: tokens)),
          isAllowedName tag.1 = true ∧ tag.2 = [] := by
      intro name hne hallowed hat tag htag
      unfold displayTags at htag ih
      rw [hrender, scan_of_match (List.length_pos_of_ne_nil hne) (by simp [hne]) hat,
        List.drop_left] at htag
      rcases List.mem_cons.mp htag with rfl | htag
      · exact ⟨hallowed, rfl⟩
      · exact ih tag htag
    obtain ⟨hopening, hclosing, hbr⟩ := displayTagAt_render (renderTokens tokens)
    rcases token with tag | tag | - | c
    · exact hskip tag.name.toList (by cases tag <;> decide) (by cases tag <;> decide) (hopening tag)
    · exact hskip tag.name.toList (by cases tag <;> decide) (by cases tag <;> decide) (hclosing tag)
    · exact hskip "br".toList (by decide) (by decide) hbr
    · have hnone : ∀ d ∈ escapeChar c, ∀ rest, displayTagAt (d :: rest) = none := by
        intro d hd rest
        obtain ⟨front, back, hsplit⟩ := List.append_of_mem hd
        unfold displayTagAt
        rw [tagStart_of_ne (escapeChar_occurrence hsplit).1]
        rfl
      unfold displayTags
      rw [hrender, DisplayToken.render, scan_append_of_none hnone]
      exact ih

end Rendered

/-! ### Whitespace around a text -/

section Stripped

variable {alphabet : Alphabet} {spaces : List Char}

theorem lstrip_append_spaces (h : ∀ c ∈ spaces, isSpace c = true) (w : List Char) :
    lstrip (w ++ spaces) = if lstrip w = [] then [] else lstrip w ++ spaces := by
  unfold lstrip
  rw [List.dropWhile_append, List.dropWhile_eq_nil_iff.mpr h]
  simp only [List.isEmpty_iff]

theorem tagStart_append_spaces (h : ∀ c ∈ spaces, isSpace c = true) (w : List Char) :
    tagStart (w ++ spaces)
      = (tagStart w).map fun rest => if rest = [] then [] else rest ++ spaces := by
  rcases w with - | ⟨c, w⟩
  · rcases spaces with - | ⟨d, spaces⟩
    · rfl
    · have hne : d ≠ '<' := by
        rintro rfl
        exact absurd (h _ List.mem_cons_self) (by decide)
      simp [tagStart, hne]
  · by_cases hc : c = '<'
    · subst hc
      simp only [List.cons_append, tagStart, lstrip_append_spaces h]
      rcases hw : lstrip w with - | ⟨d, rest⟩
      · rfl
      · by_cases hd : d = '/'
        · subst hd
          simp [lstrip_append_spaces h]
        · simp [hd]
    · simp [tagStart, hc]

theorem unsafeTagAt_append_spaces (h : ∀ c ∈ spaces, isSpace c = true) (w : List Char) :
    alphabet.unsafeTagAt (w ++ spaces) = alphabet.unsafeTagAt w := by
  have hletter : ∀ c ∈ spaces.head?, isLetter c = false := fun c hc =>
    isLetter_of_isSpace (h c (List.mem_of_mem_head? hc))
  have hword : ∀ behind : List Char, (behind ++ spaces).head?.any alphabet.isWord
      = behind.head?.any alphabet.isWord := by
    intro behind
    rcases behind with - | ⟨c, behind⟩
    · rcases spaces with - | ⟨d, spaces⟩
      · rfl
      · simp [alphabet.isWord_of_isSpace (h d List.mem_cons_self)]
    · rfl
  have hnames : ∀ name ∈ unsafeTagNames, ∀ l ∈ name.toList, l.isLower = true := by
    intro name hname
    simp only [unsafeTagNames, List.mem_cons, List.not_mem_nil, or_false] at hname
    rcases hname with rfl | rfl | rfl | rfl | rfl | rfl <;> exact forall_mem_of_all (by decide)
  unfold Alphabet.unsafeTagAt
  rw [tagStart_append_spaces h, Option.any_map]
  congr 1
  funext rest
  by_cases hrest : rest = []
  · rw [if_pos hrest, hrest]
  · rw [if_neg hrest, Bool.eq_iff_iff, List.any_eq_true, List.any_eq_true]
    refine exists_congr fun name => and_congr_right fun hname => ?_
    rw [literal_append (hnames name hname) hletter, Option.any_map]
    simp only [hword]

theorem scriptAt_append_spaces (h : ∀ c ∈ spaces, isSpace c = true) (afterWord : Bool)
    (w : List Char) : scriptAt afterWord (w ++ spaces) = scriptAt afterWord w := by
  have hletter : ∀ c ∈ spaces.head?, isLetter c = false := fun c hc =>
    isLetter_of_isSpace (h c (List.mem_of_mem_head? hc))
  have hcloses : ClosesAlike spaces [] := by
    intro closing _
    unfold lstrip
    rw [List.dropWhile_eq_nil_iff.mpr h]
    rfl
  have hat := scriptAt_append hletter (fun d hd => by cases hd) hcloses afterWord w
  rwa [List.append_nil] at hat

theorem unsafeAt_of_isSpace {c : Char} (h : isSpace c = true) (afterWord : Bool) (rest : List Char) :
    alphabet.unsafeAt afterWord (c :: rest) = false := by
  unfold Alphabet.unsafeAt Alphabet.unsafeTagAt
  rw [tagStart_of_isSpace h, Alphabet.scriptAt_of_not_isLetter (isLetter_of_isSpace h)]
  rfl

theorem search_spaces (h : ∀ c ∈ spaces, isSpace c = true) (afterWord : Bool) :
    alphabet.search alphabet.unsafeAt afterWord spaces = false := by
  induction spaces generalizing afterWord with
  | nil => rfl
  | cons c spaces ih =>
    rw [Alphabet.search, unsafeAt_of_isSpace (h c List.mem_cons_self),
      ih fun d hd => h d (List.mem_cons_of_mem _ hd)]
    rfl

/-- Whitespace around a text is no unsafe token. -/
theorem unsafeToken_around {front back : List Char} (hfront : ∀ c ∈ front, isSpace c = true)
    (hback : ∀ c ∈ back, isSpace c = true) (text : List Char) :
    alphabet.unsafeToken (front ++ (text ++ back)) = alphabet.unsafeToken text := by
  have hend : ∀ afterWord, alphabet.search alphabet.unsafeAt afterWord (text ++ back)
      = alphabet.search alphabet.unsafeAt afterWord text := by
    induction text with
    | nil =>
      intro afterWord
      exact search_spaces hback afterWord
    | cons c text ih =>
      intro afterWord
      have htag : alphabet.unsafeTagAt (c :: text ++ back) = alphabet.unsafeTagAt (c :: text) :=
        unsafeTagAt_append_spaces hback (c :: text)
      have hscript := scriptAt_append_spaces hback afterWord (c :: text)
      rw [List.cons_append] at htag hscript ⊢
      rw [Alphabet.search, Alphabet.search, Alphabet.unsafeAt, Alphabet.unsafeAt, htag, hscript, ih]
  unfold Alphabet.unsafeToken
  induction front with
  | nil => exact hend false
  | cons c front ih =>
    have hc := hfront c List.mem_cons_self
    rw [List.cons_append, Alphabet.search, unsafeAt_of_isSpace hc, alphabet.isWord_of_isSpace hc,
      Bool.false_or, ih fun d hd => hfront d (List.mem_cons_of_mem _ hd)]

theorem displayTagAt_append_spaces (h : ∀ c ∈ spaces, isSpace c = true) (w : List Char) :
    displayTagAt (w ++ spaces) = displayTagAt w := by
  have halnum : ∀ c ∈ spaces.head?, c.isAlphanum = false := fun c hc =>
    isAlphanum_of_isSpace (h c (List.mem_of_mem_head? hc))
  have hgt : ∀ c ∈ spaces, decide (c ≠ '>') = true := by
    intro c hc
    rw [decide_eq_true_eq]
    rintro rfl
    exact absurd (h _ hc) (by decide)
  unfold displayTagAt
  rw [tagStart_append_spaces h]
  cases hstart : tagStart w with
  | none => rfl
  | some rest =>
    simp only [Option.map_some, Option.bind_some]
    by_cases hrest : rest = []
    · rw [if_pos hrest, hrest]
      rfl
    · obtain ⟨hname, htail⟩ := span_append halnum rest
      rw [if_neg hrest, hname, htail]
      generalize rest.takeWhile Char.isAlphanum = name
      generalize rest.dropWhile Char.isAlphanum = tail
      by_cases hempty : name = []
      · rw [if_pos hempty, if_pos hempty]
      · rw [if_neg hempty, if_neg hempty, List.dropWhile_append, List.takeWhile_append,
          List.dropWhile_eq_nil_iff.mpr hgt]
        have hlength := congrArg List.length
          (List.takeWhile_append_dropWhile (p := fun c => decide (c ≠ '>')) (l := tail))
        rcases hdrop : tail.dropWhile (· ≠ '>') with - | ⟨c, behind⟩
        · rfl
        · rw [hdrop, List.length_append, List.length_cons] at hlength
          have hne : (tail.takeWhile (· ≠ '>')).length ≠ tail.length := by omega
          simp only [List.isEmpty_cons, Bool.false_eq_true, if_false, List.cons_append, if_neg hne,
            List.length_append, Nat.add_sub_add_right]

/-- Whitespace around a text is no tag. -/
theorem displayTags_around {front back : List Char} (hfront : ∀ c ∈ front, isSpace c = true)
    (hback : ∀ c ∈ back, isSpace c = true) (text : List Char) :
    displayTags (front ++ (text ++ back)) = displayTags text := by
  have hnone : ∀ c, isSpace c = true → ∀ rest, displayTagAt (c :: rest) = none := by
    intro c hc rest
    unfold displayTagAt
    rw [tagStart_of_isSpace hc]
    rfl
  unfold displayTags
  rw [scan_append_of_none fun c hc => hnone c (hfront c hc),
    scan_append_of_same (fun c hc => hnone c (hback c hc)) (displayTagAt_append_spaces hback)]

end Stripped

/-! ### When the gates hold -/

namespace Alphabet

variable {alphabet : Alphabet} {parser : HtmlParser}

/-- A text is its stripped text between whitespace. -/
theorem strip_around (s : String) : ∃ front back, s.toList = front ++ ((strip s).toList ++ back) ∧
    (∀ c ∈ front, isSpace c = true) ∧ ∀ c ∈ back, isSpace c = true := by
  have h := exists_stripped isSpace s.toList
  unfold strip
  rw [String.toList_ofList]
  exact h

/-- The first checker looks at the stripped text, which is the text to both patterns. -/
theorem isSafe_iff (s : String) : alphabet.isSafeDisplayHtmlValue s = true ↔
    alphabet.unsafeToken s.toList = false ∧
      ∀ tag ∈ displayTags s.toList, isAllowedName tag.1 = true ∧ areSlashes tag.2 = true := by
  obtain ⟨front, back, hsplit, hfront, hback⟩ := strip_around s
  rw [hsplit, unsafeToken_around hfront hback, displayTags_around hfront hback]
  unfold isSafeDisplayHtmlValue
  dsimp only
  by_cases hblank : strip s = ""
  · have htoken : alphabet.unsafeToken "".toList = false := rfl
    have htags : displayTags "".toList = [] := rfl
    simp only [hblank, decide_true, Bool.true_or, htoken, htags, true_and, true_iff]
    simp
  · simp [hblank, List.all_eq_true]

/-- The second checker looks at the text and a line break. -/
theorem htmlSafety_iff (s : String) : alphabet.htmlSafety s "" = (true, false) ↔
    alphabet.unsafeToken s.toList = false ∧
      ∀ tag ∈ displayTags s.toList, isAllowedName tag.1 = true ∧ strippedAttrs tag.2 = [] := by
  have hbreak : ∀ c ∈ ['\n'], isSpace c = true := forall_mem_of_all (by decide)
  have hcombined : (s ++ "\n" ++ "").toList = [] ++ (s.toList ++ ['\n']) := by simp
  have hattrs : ∀ attrs, (attrs = [] ∨ strippedAttrs attrs = []) ↔ strippedAttrs attrs = [] := by
    intro attrs
    refine or_iff_right_of_imp ?_
    rintro rfl
    rfl
  unfold htmlSafety
  dsimp only
  rw [hcombined, unsafeToken_around (by simp) hbreak, displayTags_around (by simp) hbreak]
  by_cases hblank : strip (s ++ "\n" ++ "") = ""
  · have hspaces : ∀ c ∈ s.toList, isSpace c = true := by
      have hwords := words_strip (s ++ "\n" ++ "")
      rw [hblank, hcombined, show "".toList = [] from rfl, words_nil, eq_comm, words_eq_nil_iff]
        at hwords
      exact fun c hc => hwords c (by simp [hc])
    have htoken : alphabet.unsafeToken (s.toList ++ ([] ++ [])) = false :=
      unsafeToken_around hspaces (by simp) []
    have htags : displayTags (s.toList ++ ([] ++ [])) = [] :=
      displayTags_around hspaces (by simp) []
    rw [List.nil_append, List.append_nil] at htoken htags
    rw [if_pos hblank, htoken, htags]
    exact iff_of_true rfl ⟨rfl, by simp⟩
  · rw [if_neg hblank]
    simp only [Prod.mk.injEq, Bool.or_eq_false_iff, Bool.not_eq_false', List.all_eq_true,
      Bool.and_eq_true, Bool.or_eq_true, decide_eq_true_eq, hattrs]
    exact ⟨fun h => ⟨h.2.1, h.1⟩, fun h => ⟨h.2, h.1, h.2⟩⟩

theorem areSlashes_iff (attrs : List Char) :
    areSlashes attrs = true ↔ ∀ c ∈ strippedAttrs attrs, c = '/' := by
  unfold areSlashes
  by_cases hnil : attrs = []
  · have hnone : strippedAttrs [] = [] := rfl
    rw [hnil, hnone]
    simp
  · simp only [hnil, decide_false, Bool.false_or, List.mem_cons, List.not_mem_nil, or_false,
      decide_eq_true_eq]
    generalize strippedAttrs attrs = inner
    have hhead : ∀ c ∈ (inner.dropWhile (· = '/')).head?, ¬ decide (c = '/') = true := by
      intro c hc
      have h := List.head?_dropWhile_not (fun c => decide (c = '/')) inner
      rw [Option.mem_def.mp hc] at h
      simpa using h
    constructor
    · rintro (hempty | hlone)
      · rcases hfront : inner.dropWhile (· = '/') with - | ⟨c, front⟩
        · simpa using List.dropWhile_eq_nil_iff.mp hfront
        · rw [hfront] at hempty hhead
          exact absurd (List.rdropWhile_eq_nil_iff.mp hempty c List.mem_cons_self) (hhead c rfl)
      · have hlast := List.rdropWhile_last_not (fun c => decide (c = '/')) (inner.dropWhile (· = '/'))
          (by simp [hlone])
        simp [hlone] at hlast
    · intro hall
      left
      rw [List.dropWhile_eq_nil_iff.mpr (by simpa using hall)]
      rfl

theorem unsafeToken_render (tokens : List DisplayToken) :
    alphabet.unsafeToken (renderTokens tokens) = true ↔ alphabet.SaysScript (plainTokens tokens) := by
  unfold unsafeToken SaysScript
  rw [search_render]

/-- Display HTML is accepted when its text says no script. -/
theorem accepted_iff {html : String} {shown : List Char} (h : DisplaysAs alphabet html shown) :
    (alphabet.isSafeDisplayHtmlValue html = true ↔ ¬ alphabet.SaysScript shown) ∧
      (alphabet.htmlSafety html "" = (true, false) ↔ ¬ alphabet.SaysScript shown) := by
  obtain ⟨tokens, -, rfl, hscript⟩ := h
  have htags := displayTags_render tokens
  rw [isSafe_iff, htmlSafety_iff, String.toList_ofList, ← hscript, ← unsafeToken_render,
    Bool.not_eq_true]
  refine ⟨and_iff_left fun tag htag => ?_, and_iff_left fun tag htag => ?_⟩
  · obtain ⟨hname, hattrs⟩ := htags tag htag
    exact ⟨hname, by rw [hattrs]; rfl⟩
  · obtain ⟨hname, hattrs⟩ := htags tag htag
    exact ⟨hname, by rw [hattrs]; rfl⟩

/-- The checkers disagree on slashed tags only. -/
theorem same_iff (s : String) :
    (alphabet.isSafeDisplayHtmlValue s = true ↔ alphabet.htmlSafety s "" = (true, false)) ↔
      ¬ alphabet.SlashedTags s.toList := by
  rw [isSafe_iff, htmlSafety_iff]
  simp only [areSlashes_iff]
  constructor
  · rintro hsame ⟨htoken, hallowed, hslashes, tag, htag, hslashed⟩
    have hsafe := hsame.mp ⟨htoken, fun tag htag => ⟨hallowed tag htag, hslashes tag htag⟩⟩
    exact hslashed (hsafe.2 tag htag).2
  · intro hnone
    refine and_congr_right fun htoken => ⟨fun hall => ?_, fun hall tag htag => ?_⟩
    · by_contra hnot
      refine hnone ⟨htoken, fun tag htag => (hall tag htag).1, fun tag htag => (hall tag htag).2, ?_⟩
      by_contra hslashed
      refine hnot fun tag htag => ⟨(hall tag htag).1, ?_⟩
      by_contra hne
      exact hslashed ⟨tag, htag, hne⟩
    · obtain ⟨hname, hattrs⟩ := hall tag htag
      refine ⟨hname, ?_⟩
      simp [hattrs]

/-- The gates hold of a value that says no script, and of a string without slashed tags. -/
theorem gatesHold_iff (alphabet : Alphabet) (parser : HtmlParser) (value s : String) :
    alphabet.GatesHold parser value s ↔
      ¬ alphabet.SaysScript (parser.displayText value) ∧ ¬ alphabet.SlashedTags s.toList := by
  rw [← same_iff]
  rcases ensureDisplayHtml_spec alphabet parser value with ⟨hnone, hquiet⟩ | ⟨html, hsome, hdisplays⟩
  · constructor
    · intro h
      exact ⟨hquiet, h.same⟩
    · rintro ⟨-, hsame⟩
      refine ⟨fun html hhtml => ?_, ?_, hsame⟩
      · rw [hnone] at hhtml
        cases hhtml
      · rw [hnone]
        rfl
  · obtain ⟨hsafe, hsafety⟩ := accepted_iff hdisplays
    constructor
    · intro h
      exact ⟨hsafe.mp (h.accepted html hsome).1, h.same⟩
    · rintro ⟨hquiet, hsame⟩
      refine ⟨fun html' hhtml => ?_, ?_, hsame⟩
      · rw [hsome, Option.some.injEq] at hhtml
        rw [← hhtml]
        exact ⟨hsafe.mpr hquiet, hsafety.mpr hquiet⟩
      · rw [hsome]
        simp [unsafeHtml, hsafe.mpr hquiet]

end Alphabet

/-! ### A description that talks of code -/

/-- An alphabet for ASCII texts. -/
def asciiAlphabet : Alphabet where
  isAlnum _ := false
  isAlnum_space _ _ := rfl

/-- A parser for texts without tags: all of it is data. -/
def plainParser : HtmlParser where
  parse text := [.data text]
  casefold := id

/-- A plain text is stored as a paragraph that both gates refuse, and a line break with a slash
    passes the first gate only. -/
theorem not_gatesHold_onsite :
    ¬ asciiAlphabet.GatesHold plainParser "onsite = ya" "" ∧
      ¬ asciiAlphabet.GatesHold plainParser "" "<br/>" := by
  constructor
  · intro h
    have haccepted := h.accepted "<p>onsite = ya</p>" (by decide +kernel)
    have hrefused : asciiAlphabet.isSafeDisplayHtmlValue "<p>onsite = ya</p>" = false := by
      decide +kernel
    rw [hrefused] at haccepted
    cases haccepted.1
  · intro h
    have hpasses : asciiAlphabet.isSafeDisplayHtmlValue "<br/>" = true := by decide +kernel
    have hrefused : asciiAlphabet.htmlSafety "<br/>" "" = (false, true) := by decide +kernel
    have hsafety := h.same.mp hpasses
    rw [hrefused] at hsafety
    cases hsafety

end Bisakerja
