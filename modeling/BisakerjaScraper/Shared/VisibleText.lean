import BisakerjaScraper.Shared.DisplayCalls

/-! The visible text of a fragment.

    Outside the dropped elements the sanitizer keeps the text of a well-formed fragment, up to the
    first dropped tag that has no end tag: that one is counted as open, and whatever stands behind
    it is swallowed. A fragment of which nothing is kept is shown as it is written, tags and all. -/

namespace Bisakerja
open Schemes

/-! ### Fragments -/

/-- A well-formed fragment: text, elements with their end tags, and tags without one. -/
inductive Fragment where
  | nil
  | text (data : String) (rest : Fragment)
  | element (tag : String) (attrs : List (String × Option String)) (inner rest : Fragment)
  | single (tag : String) (attrs : List (String × Option String)) (selfClosing : Bool)
      (rest : Fragment)

namespace Fragment

/-- The calls the parser makes on a fragment. -/
def events : Fragment → List HtmlEvent
  | nil => []
  | text data rest => .data data :: rest.events
  | element tag attrs inner rest =>
    .startTag tag attrs :: (inner.events ++ .endTag tag :: rest.events)
  | single tag attrs selfClosing rest =>
    (if selfClosing then .startEndTag tag attrs else .startTag tag attrs) :: rest.events

-- `str.casefold` is a parameter.
variable (casefold : String → String)

/-- The text outside the dropped elements. -/
def visible : Fragment → List Char
  | nil => []
  | text data rest => data.toList ++ rest.visible
  | element tag _ inner rest =>
    (if casefold tag ∈ dropContentTags then [] else inner.visible) ++ rest.visible
  | single _ _ _ rest => rest.visible

/-- How many dropped tags have no end tag. -/
def drops : Fragment → ℕ
  | nil => 0
  | text _ rest => rest.drops
  | element _ _ inner rest => inner.drops + rest.drops
  | single tag _ _ rest => (if casefold tag ∈ dropContentTags then 1 else 0) + rest.drops

/-- The visible text before the first dropped tag without an end tag. -/
def early : Fragment → List Char
  | nil => []
  | text data rest => data.toList ++ rest.early
  | element tag _ inner rest =>
    (if casefold tag ∈ dropContentTags then [] else inner.early) ++
      if inner.drops casefold = 0 then rest.early else []
  | single tag _ _ rest => if casefold tag ∈ dropContentTags then [] else rest.early

/-- The visible text behind the first dropped tag without an end tag. -/
def late : Fragment → List Char
  | nil => []
  | text _ rest => rest.late
  | element tag _ inner rest =>
    (if casefold tag ∈ dropContentTags then [] else inner.late) ++
      if inner.drops casefold = 0 then rest.late else rest.visible casefold
  | single tag _ _ rest =>
    if casefold tag ∈ dropContentTags then rest.visible casefold else rest.late

/-- There is an allowed tag or some text that the sanitizer keeps. -/
def Keeps : Fragment → Prop
  | nil => False
  | text data rest => (¬ ∀ c ∈ data.toList, isSpace c = true) ∨ rest.Keeps
  | element tag _ inner rest =>
    (casefold tag ∉ dropContentTags ∧ (casefold tag ∈ allowedDisplayTags ∨ inner.Keeps)) ∨
      (inner.drops casefold = 0 ∧ rest.Keeps)
  | single tag _ _ rest =>
    casefold tag ∉ dropContentTags ∧ (casefold tag ∈ allowedDisplayTags ∨ rest.Keeps)

instance decidableKeeps : ∀ nodes : Fragment, Decidable (nodes.Keeps casefold)
  | nil => inferInstanceAs (Decidable False)
  | text _ rest =>
    have := decidableKeeps rest
    inferInstanceAs (Decidable (_ ∨ _))
  | element _ _ inner rest =>
    have := decidableKeeps inner
    have := decidableKeeps rest
    inferInstanceAs (Decidable (_ ∨ _))
  | single _ _ _ rest =>
    have := decidableKeeps rest
    inferInstanceAs (Decidable (_ ∧ _))

/-- With no dropped tag without an end tag, no text is behind one. -/
theorem late_of_drops_eq_zero {nodes : Fragment} (h : nodes.drops casefold = 0) :
    nodes.late casefold = [] ∧ nodes.early casefold = nodes.visible casefold := by
  induction nodes with
  | nil => exact ⟨rfl, rfl⟩
  | text data rest ih =>
    obtain ⟨hlate, hearly⟩ := ih h
    exact ⟨hlate, congrArg (data.toList ++ ·) hearly⟩
  | element tag attrs inner rest ihinner ihrest =>
    simp only [drops, Nat.add_eq_zero_iff] at h
    obtain ⟨hinner, hrest⟩ := h
    simp [late, early, visible, hinner, ihinner hinner, ihrest hrest]
  | single tag attrs selfClosing rest ih =>
    by_cases htag : casefold tag ∈ dropContentTags
    · simp [drops, htag] at h
    · have hrest : rest.drops casefold = 0 := by simpa [drops, htag] using h
      simp [late, early, visible, htag, ih hrest]

/-- The visible text is what stands before and behind the first such tag. -/
theorem early_append_late (nodes : Fragment) :
    nodes.early casefold ++ nodes.late casefold = nodes.visible casefold := by
  induction nodes with
  | nil => rfl
  | text data rest ih => simp [early, late, visible, ← ih]
  | element tag attrs inner rest ihinner ihrest =>
    simp only [early, late, visible]
    by_cases hdrops : inner.drops casefold = 0
    · obtain ⟨hlate, hearly⟩ := late_of_drops_eq_zero casefold hdrops
      simp only [hdrops, if_true, hlate, hearly, ite_self, List.nil_append]
      rw [List.append_assoc, ihrest]
    · simp only [hdrops, if_false, List.append_nil]
      rw [← List.append_assoc, ← ihinner]
      split
      · rfl
      · rfl
  | single tag attrs selfClosing rest ih =>
    simp only [early, late, visible]
    split
    · rfl
    · exact ih

end Fragment

/-- A text without its whitespace. -/
def squeeze (text : List Char) : List Char := text.filter (¬ isSpace ·)

theorem squeeze_append (text rest : List Char) :
    squeeze (text ++ rest) = squeeze text ++ squeeze rest :=
  List.filter_append ..

theorem squeeze_eq_nil_iff {text : List Char} :
    squeeze text = [] ↔ ∀ c ∈ text, isSpace c = true := by
  simp [squeeze, List.filter_eq_nil_iff]

theorem squeeze_of_words {text rest : List Char} (h : words isSpace text = words isSpace rest) :
    squeeze text = squeeze rest := by
  unfold squeeze
  rw [← flatten_words, ← flatten_words, h]

/-! ### A run of the sanitizer -/

namespace DisplayHTMLSanitizer

variable {casefold : String → String} {s s' s'' : DisplayHTMLSanitizer} {tokens : List DisplayToken}

/-- What a run adds to what was written. Nothing is kept inside a dropped element; elsewhere some
    text is, and something that is not blank exactly where `keeps` holds. -/
structure Ran (s s' : DisplayHTMLSanitizer) (drops : ℕ) (shown : List Char) (keeps : Prop)
    (tokens more : List DisplayToken) : Prop where
  depth : s'.dropDepth = s.dropDepth + drops
  written : Written (tokens ++ more) s'.parts s'.openTags
  text : squeeze (charsOf more) = if s.dropDepth = 0 then squeeze shown else []
  kept : (∃ token ∈ more, token.isBlank = false) ↔ s.dropDepth = 0 ∧ keeps

/-- A run behind a run, which adds nothing if the first one left an element open. -/
theorem Ran.trans {drops drops' : ℕ} {shown shown' : List Char} {keeps keeps' : Prop}
    {more more' : List DisplayToken} (h : Ran s s' drops shown keeps tokens more)
    (h' : Ran s' s'' drops' shown' keeps' (tokens ++ more) more') :
    Ran s s'' (drops + drops') (shown ++ if drops = 0 then shown' else [])
      (keeps ∨ drops = 0 ∧ keeps') tokens (more ++ more') where
  depth := by rw [h'.depth, h.depth, Nat.add_assoc]
  written := by
    rw [← List.append_assoc]
    exact h'.written
  text := by
    rw [charsOf_append, squeeze_append, h.text, h'.text, h.depth]
    by_cases hdepth : s.dropDepth = 0
    · by_cases hdrops : drops = 0
      · simp [hdepth, hdrops, squeeze_append]
      · simp [hdepth, hdrops]
    · simp [hdepth]
  kept := by
    have hsplit : (∃ token ∈ more ++ more', token.isBlank = false) ↔
        (∃ token ∈ more, token.isBlank = false) ∨ ∃ token ∈ more', token.isBlank = false := by
      simp only [List.mem_append, or_and_right, exists_or]
    rw [hsplit, h.kept, h'.kept, h.depth, Nat.add_eq_zero_iff]
    tauto

/-- A step that leaves what was written alone. -/
theorem ran_of_same (h : Written tokens s.parts s.openTags) {drops : ℕ}
    (hdepth : s'.dropDepth = s.dropDepth + drops) (hparts : s'.parts = s.parts)
    (htags : s'.openTags = s.openTags) : Ran s s' drops [] False tokens [] where
  depth := hdepth
  written := by
    rw [List.append_nil, hparts, htags]
    exact h
  text := by simp [charsOf, squeeze]
  kept := by simp

theorem isBlank_of_not_char {token : DisplayToken} (h : ∀ c, token ≠ .leaf (.char c)) :
    token.isBlank = false ∧ token.chars = [] := by
  rcases token with tag | tag | - | c
  · exact ⟨rfl, rfl⟩
  · exact ⟨rfl, rfl⟩
  · exact ⟨rfl, rfl⟩
  · exact absurd rfl (h c)

/-- A call for a tag writes tags or nothing. -/
theorem ran_tag (h : Written tokens s.parts s.openTags) {event : HtmlEvent}
    (hdata : ∀ data, event ≠ .data data) {drops : ℕ} {keeps : Prop}
    (hdepth : (s.handle casefold event).dropDepth = s.dropDepth + drops)
    (hkeeps : (s.handle casefold event).parts ≠ s.parts ↔ s.dropDepth = 0 ∧ keeps) :
    ∃ more, Ran s (s.handle casefold event) drops [] keeps tokens more := by
  obtain ⟨more, hadds, hwritten⟩ : Steps casefold s tokens event := steps_handle h event
  refine ⟨more, hdepth, hwritten, ?_, ?_⟩
  · have hnil : charsOf more = [] := by
      cases hadds with
      | nothing hparts => rfl
      | tags hne hnone hdata =>
        refine List.flatMap_eq_nil_iff.mpr fun token htoken => ?_
        exact (isBlank_of_not_char fun c hc => hnone c (hc ▸ htoken)).2
      | text hwords htext => exact absurd rfl (hdata _)
    simp [hnil, squeeze]
  · rw [← hkeeps]
    cases hadds with
    | nothing hparts => simp [hparts]
    | tags hne hnone hdata =>
      obtain ⟨token, rest, rfl⟩ := List.exists_cons_of_ne_nil hne
      refine iff_of_true ⟨token, List.mem_cons_self, ?_⟩ (parts_ne_of_adds h hne hwritten)
      exact (isBlank_of_not_char fun c hc => hnone c (hc ▸ List.mem_cons_self)).1
    | text hwords htext => exact absurd rfl (hdata _)

/-- An allowed tag is kept, any other one is not. -/
theorem ran_startTag (h : Written tokens s.parts s.openTags) {event : HtmlEvent} {tag : String}
    (hevent : s.handle casefold event = s.handleStarttag casefold tag)
    (hdata : ∀ data, event ≠ .data data) (hdrop : casefold tag ∉ dropContentTags) :
    ∃ more,
      Ran s (s.handle casefold event) 0 [] (casefold tag ∈ allowedDisplayTags) tokens more := by
  refine ran_tag h hdata ?_ ?_
  · rw [hevent, handleStarttag, if_neg hdrop]
    split
    · rfl
    · split
      · rfl
      · split
        · rfl
        · rfl
  · rw [hevent, handleStarttag, if_neg hdrop]
    by_cases hdepth : s.dropDepth = 0
    · by_cases hallowed : casefold tag ∈ allowedDisplayTags
      · by_cases hbr : casefold tag = "br"
        · simp [hdepth, hbr, allowedDisplayTags]
        · simp [hdepth, hallowed, hbr]
      · simp [hdepth, hallowed]
    · simp [hdepth, Nat.pos_of_ne_zero hdepth]

/-- A dropped tag is counted. -/
theorem ran_dropped (h : Written tokens s.parts s.openTags) {event : HtmlEvent} {tag : String}
    (hevent : s.handle casefold event = s.handleStarttag casefold tag)
    (hdrop : casefold tag ∈ dropContentTags) :
    Ran s (s.handle casefold event) 1 [] False tokens [] := by
  rw [hevent, handleStarttag, if_pos hdrop]
  exact ran_of_same h rfl rfl rfl

/-- An end tag is kept only where its start tag is. -/
theorem ran_endTag (h : Written tokens s.parts s.openTags) {tag : String}
    (hdrop : casefold tag ∉ dropContentTags) :
    ∃ keeps, (keeps → casefold tag ∈ allowedDisplayTags) ∧
      ∃ more, Ran s (s.handle casefold (.endTag tag)) 0 [] keeps tokens more := by
  by_cases hdepth : s.dropDepth = 0
  · refine ⟨(s.handle casefold (.endTag tag)).parts ≠ s.parts, fun hparts => ?_,
      ran_tag h (by simp) ?_ ?_⟩
    · by_contra hallowed
      exact hparts (by simp [handle, handleEndtag, hdrop, hallowed, hdepth])
    · rw [handle, handleEndtag, if_neg hdrop, if_neg (by omega)]
      split
      · rfl
      · split
        · rfl
        · rfl
    · simp [hdepth]
  · have hsame : s.handle casefold (.endTag tag) = s := by
      rw [handle, handleEndtag, if_neg hdrop, if_pos (by omega)]
    refine ⟨False, False.elim, [], ?_⟩
    rw [hsame]
    exact ran_of_same h rfl rfl rfl

/-- A text is kept if it is not blank. -/
theorem ran_data (casefold : String → String) (h : Written tokens s.parts s.openTags)
    (data : String) :
    ∃ more, Ran s (s.handle casefold (.data data)) 0 data.toList
      (¬ ∀ c ∈ data.toList, isSpace c = true) tokens more := by
  have hwords : words isSpace (collapseSpaces false data.toList) = words isSpace data.toList :=
    (words_collapseSpaces data.toList).2 []
  by_cases hdepth : s.dropDepth = 0
  · by_cases hblank : ∀ c ∈ data.toList, isSpace c = true
    · have hall : (collapseSpaces false data.toList).all isSpace = true := by
        rw [List.all_eq_true, ← words_eq_nil_iff, hwords, words_eq_nil_iff]
        exact hblank
      have hsame : s.handle casefold (.data data) = s := by
        rw [handle, handleData, if_neg (by omega), if_pos hall]
      have hnil : squeeze data.toList = [] := squeeze_eq_nil_iff.mpr hblank
      refine ⟨[], ?_⟩
      rw [hsame]
      refine ⟨rfl, by simpa using h, ?_, by simpa [hdepth] using hblank⟩
      rw [if_pos hdepth, hnil]
      rfl
    · obtain ⟨more, hadds, hwritten⟩ : Steps casefold s tokens (.data data) := steps_handle h _
      have hne : words isSpace (collapseSpaces false data.toList) ≠ [] := by
        rwa [hwords, Ne, words_eq_nil_iff]
      have hhandle : s.handle casefold (.data data)
          = { s with parts := s.parts ++ s.dataParts (collapseSpaces false data.toList) } := by
        rw [handle, handleData, if_neg (by omega), if_neg]
        rwa [List.all_eq_true, ← words_eq_nil_iff]
      cases hadds with
      | nothing hparts =>
        obtain ⟨text, htext, hadded⟩ := s.dataParts_eq hne
        have hnone : s.dataParts (collapseSpaces false data.toList) = [] := by
          simpa [hhandle] using hparts
        rw [hnone, List.flatten_nil, eq_comm, escape_eq_nil_iff] at htext
        rw [← hadded.words, htext] at hne
        exact absurd (words_nil _) hne
      | tags htags hnone hdata => exact absurd rfl (hdata data)
      | @text _ text htext hadded =>
        refine ⟨textTokens text, by rw [hhandle]; rfl, hwritten, ?_, ?_⟩
        · rw [charsOf_textTokens, if_pos hdepth]
          exact squeeze_of_words hadded.words
        · refine iff_of_true ?_ ⟨hdepth, hblank⟩
          rw [Ne, words_eq_nil_iff] at htext
          push Not at htext
          obtain ⟨c, hc, hspace⟩ := htext
          refine ⟨.leaf (.char c), List.mem_map_of_mem hc, ?_⟩
          simpa [DisplayToken.isBlank] using hspace
  · have hsame : s.handle casefold (.data data) = s := by
      rw [handle, handleData, if_pos (by omega)]
    refine ⟨[], ?_⟩
    rw [hsame]
    exact ⟨rfl, by simpa using h, by simp [hdepth, charsOf, squeeze], by simp [hdepth]⟩

/-- A run reads a different text that is the same, and keeps what is the same. -/
theorem Ran.congr {drops drops' : ℕ} {shown shown' : List Char} {keeps keeps' : Prop}
    {more : List DisplayToken} (h : Ran s s' drops shown keeps tokens more)
    (hdrops : drops = drops') (hshown : shown = shown') (hkeeps : keeps ↔ keeps') :
    Ran s s' drops' shown' keeps' tokens more := by
  subst hdrops hshown
  exact ⟨h.depth, h.written, h.text, h.kept.trans (and_congr_right fun _ => hkeeps)⟩

/-- A dropped element adds nothing, whatever is in it. -/
theorem ran_dropped_element {inner : Fragment} {s₂ : DisplayHTMLSanitizer} {tag : String}
    {more : List DisplayToken} (hdrop : casefold tag ∈ dropContentTags)
    (hstart : Ran s s' 1 [] False tokens [])
    (hinner : Ran s' s₂ (inner.drops casefold) (inner.early casefold) (inner.Keeps casefold) tokens
      more) :
    Ran s (s₂.handle casefold (.endTag tag)) (inner.drops casefold) [] False tokens more := by
  have hdepth := hinner.depth
  have hdepth' := hstart.depth
  have hend : s₂.handle casefold (.endTag tag) = { s₂ with dropDepth := s₂.dropDepth - 1 } := by
    rw [handle, handleEndtag, if_pos hdrop, if_pos (by omega)]
  rw [hend]
  refine ⟨show s₂.dropDepth - 1 = _ by omega, hinner.written, ?_, ?_⟩
  · rw [hinner.text, if_neg (by omega)]
    simp [squeeze]
  · rw [hinner.kept]
    simp [hdepth']

/-- An element is kept with what is kept in it, unless it is dropped. -/
theorem ran_element {inner : Fragment} (h : Written tokens s.parts s.openTags) (tag : String)
    (attrs : List (String × Option String))
    (hinner : ∀ {s : DisplayHTMLSanitizer} {tokens}, Written tokens s.parts s.openTags → ∃ more,
      Ran s (s.run casefold inner.events) (inner.drops casefold) (inner.early casefold)
        (inner.Keeps casefold) tokens more) :
    ∃ more, Ran s (s.run casefold (.startTag tag attrs :: (inner.events ++ [.endTag tag])))
      (inner.drops casefold) (if casefold tag ∈ dropContentTags then [] else inner.early casefold)
      (casefold tag ∉ dropContentTags ∧
        (casefold tag ∈ allowedDisplayTags ∨ inner.Keeps casefold)) tokens more := by
  rw [run_cons, run_append]
  by_cases hdrop : casefold tag ∈ dropContentTags
  · have hstart : Ran s (s.handle casefold (.startTag tag attrs)) 1 [] False tokens [] :=
      ran_dropped h rfl hdrop
    have hwritten := hstart.written
    rw [List.append_nil] at hwritten
    obtain ⟨more, hmore⟩ := hinner hwritten
    exact ⟨more, (ran_dropped_element hdrop hstart hmore).congr rfl (if_pos hdrop).symm
      (by simp [hdrop])⟩
  · obtain ⟨first, hfirst⟩ := ran_startTag h
      (show s.handle casefold (.startTag tag attrs) = s.handleStarttag casefold tag from rfl)
      (by simp) hdrop
    obtain ⟨more, hmore⟩ := hinner hfirst.written
    obtain ⟨keeps, hkeeps, last, hlast⟩ := ran_endTag (hfirst.trans hmore).written hdrop
    refine ⟨_, ((hfirst.trans hmore).trans hlast).congr ?_ ?_ ?_⟩
    · simp
    · simp [hdrop]
    · simp only [hdrop, not_false_eq_true, true_and]
      tauto

/-- The sanitizer adds the early text of a fragment. -/
theorem ran_events (nodes : Fragment) (h : Written tokens s.parts s.openTags) :
    ∃ more, Ran s (s.run casefold nodes.events) (nodes.drops casefold) (nodes.early casefold)
      (nodes.Keeps casefold) tokens more := by
  induction nodes generalizing s tokens with
  | nil => exact ⟨[], ran_of_same h rfl rfl rfl⟩
  | text data rest ih =>
    obtain ⟨first, hfirst⟩ := ran_data casefold h data
    obtain ⟨more, hmore⟩ := ih hfirst.written
    refine ⟨first ++ more, (hfirst.trans hmore).congr (Nat.zero_add _) ?_ ?_⟩
    · rw [if_pos rfl]
      rfl
    · simp [Fragment.Keeps]
  | element tag attrs inner rest ihinner ihrest =>
    obtain ⟨first, hfirst⟩ := ran_element h tag attrs ihinner
    obtain ⟨more, hmore⟩ := ihrest hfirst.written
    have hrun : s.run casefold (Fragment.element tag attrs inner rest).events
        = (s.run casefold (.startTag tag attrs :: (inner.events ++ [.endTag tag]))).run casefold
          rest.events := by
      rw [← run_append]
      simp [Fragment.events]
    rw [hrun]
    exact ⟨first ++ more, hfirst.trans hmore⟩
  | single tag attrs selfClosing rest ih =>
    rw [Fragment.events, run_cons]
    generalize hevent : (if selfClosing then HtmlEvent.startEndTag tag attrs
      else .startTag tag attrs) = event
    have hhandle : s.handle casefold event = s.handleStarttag casefold tag := by
      rw [← hevent]
      cases selfClosing with
      | true => rfl
      | false => rfl
    have hdata : ∀ data, event ≠ .data data := by
      rw [← hevent]
      cases selfClosing with
      | true => simp
      | false => simp
    by_cases hdrop : casefold tag ∈ dropContentTags
    · have hstart := ran_dropped h hhandle hdrop
      obtain ⟨more, hmore⟩ := ih hstart.written
      refine ⟨_, (hstart.trans hmore).congr ?_ ?_ ?_⟩
      · simp [Fragment.drops, hdrop]
      · simp [Fragment.early, hdrop]
      · simp [Fragment.Keeps, hdrop]
    · obtain ⟨first, hfirst⟩ := ran_startTag h hhandle hdata hdrop
      obtain ⟨more, hmore⟩ := ih hfirst.written
      refine ⟨_, (hfirst.trans hmore).congr ?_ ?_ ?_⟩
      · simp [Fragment.drops, hdrop]
      · simp [Fragment.early, hdrop]
      · simp [Fragment.Keeps, hdrop]

end DisplayHTMLSanitizer

/-! ### What is shown -/

/-- A value that is a well-formed fragment, as the parser reads it. -/
structure HtmlFragment (parser : HtmlParser) where
  value : String
  nodes : Fragment
  parsed : parser.parse (strip value) = nodes.events

/-- The text content of what `ensure_display_html` returns. -/
def HtmlParser.shownText (parser : HtmlParser) (value : String) : List Char :=
  match parser.ensureDisplayHtml value with
  | some html => textContent html.toList
  | none => []

/-- The characters of a value that is shown as it is written: its items without their bullets, or
    all of it. -/
def writtenText (value : String) : List Char :=
  if 2 ≤ (bulletLines value).length ∧ bulletItems value ≠ [] then
    (bulletItems value).flatMap String.toList
  else value.toList

theorem charsOf_element (tag : DisplayTag) (inner : List DisplayToken) :
    charsOf (elementTokens tag inner) = charsOf inner := by
  unfold elementTokens charsOf
  rw [List.flatMap_cons, List.flatMap_append, List.flatMap_singleton]
  exact List.append_nil _

theorem charsOf_itemTokens (items : List String) :
    charsOf (itemTokens items) = items.flatMap String.toList := by
  induction items with
  | nil => rfl
  | cons item items ih =>
    rw [List.flatMap_cons, ← ih, itemTokens, List.flatMap_cons, charsOf_append, charsOf_element,
      charsOf_textTokens]
    rfl

section Shown

variable {parser : HtmlParser} {value : String}

/-- `text_to_display_html` shows a value as it is written. -/
theorem textToDisplayHtml_shows (value : String) :
    squeeze (match textToDisplayHtml value with
      | some html => textContent html.toList
      | none => []) = squeeze (writtenText value) := by
  have hwords := words_normalizeText value
  unfold textToDisplayHtml cleanText writtenText
  by_cases hblank : normalizeText value = ""
  · rw [hblank, show "".toList = [] from rfl, words_nil] at hwords
    have hall := words_eq_nil_iff.mp hwords.symm
    have hnone : ¬ (2 ≤ (bulletLines value).length ∧ bulletItems value ≠ []) := by
      rintro ⟨hlen, -⟩
      simp [bulletLines_of_blank hall] at hlen
    rw [if_neg hnone, squeeze_eq_nil_iff.mpr hall]
    simp [hblank, squeeze]
  · simp only [hblank, if_false, Option.map_some]
    by_cases hitems : 2 ≤ (bulletLines value).length ∧ bulletItems value ≠ []
    · rw [if_pos hitems, if_pos hitems, ← renderTokens_itemTokens,
        show "ul" = DisplayTag.ul.name from rfl, ← renderTokens_element, textContent_ofList,
        charsOf_element, charsOf_itemTokens]
    · rw [if_neg hitems, if_neg hitems, ← renderTokens_textTokens,
        show "p" = DisplayTag.p.name from rfl, ← renderTokens_element, textContent_ofList,
        charsOf_element, charsOf_textTokens]
      exact squeeze_of_words hwords

/-- `sanitize_display_html` shows the early text of a fragment, if it keeps something of it. -/
theorem sanitizeDisplayHtml_shows (fragment : HtmlFragment parser)
    (hvalue : strip fragment.value ≠ "") :
    (¬ fragment.nodes.Keeps parser.casefold ∧ parser.sanitizeDisplayHtml fragment.value = none) ∨
      (fragment.nodes.Keeps parser.casefold ∧
        ∃ html, parser.sanitizeDisplayHtml fragment.value = some html ∧
          squeeze (textContent html.toList) = squeeze (fragment.nodes.early parser.casefold)) := by
  obtain ⟨tokens, hran⟩ : ∃ tokens, DisplayHTMLSanitizer.Ran {}
      (DisplayHTMLSanitizer.feed parser.casefold (parser.parse (strip fragment.value)))
      (fragment.nodes.drops parser.casefold) (fragment.nodes.early parser.casefold)
      (fragment.nodes.Keeps parser.casefold) [] tokens := by
    rw [fragment.parsed]
    exact DisplayHTMLSanitizer.ran_events fragment.nodes written_nil
  obtain ⟨stack, stripped, -, hsanitized, -, -, hblank, -, front, back, hsplit, hfront, hback⟩ :=
    sanitizeDisplayHtml_of_written hvalue hran.written
  rw [List.nil_append] at hblank hsplit
  by_cases hkeeps : fragment.nodes.Keeps parser.casefold
  · obtain ⟨token, htoken, hnonblank⟩ := hran.kept.mpr ⟨rfl, hkeeps⟩
    refine .inr ⟨hkeeps, String.ofList (renderTokens stripped), ?_, ?_⟩
    · rw [hsanitized, if_neg]
      rintro rfl
      -- Nothing but blanks would have been written.
      have hmem : token ∈ textTokens front ++ ([] ++ textTokens back) := by
        rw [← hsplit]
        exact List.mem_append_left _ htoken
      simp only [textTokens, List.nil_append, List.mem_append, List.mem_map] at hmem
      rcases hmem with ⟨c, hc, rfl⟩ | ⟨c, hc, rfl⟩
      · exact absurd (hfront c hc) (by simpa [DisplayToken.isBlank] using hnonblank)
      · exact absurd (hback c hc) (by simpa [DisplayToken.isBlank] using hnonblank)
    · have hchars := congrArg squeeze (charsOf_of_padded hsplit)
      simp only [squeeze_append, squeeze_eq_nil_iff.mpr hfront, squeeze_eq_nil_iff.mpr hback,
        List.append_nil, List.nil_append] at hchars
      rw [textContent_ofList, ← hchars, hran.text]
      rfl
  · refine .inl ⟨hkeeps, ?_⟩
    rw [hsanitized, if_pos (hblank fun token htoken => ?_)]
    by_contra hnonblank
    exact hkeeps (hran.kept.mp ⟨token, htoken, by simpa using hnonblank⟩).2

/-- The text of a well-formed fragment is shown exactly in these cases. Where something of it is
    kept, no text stands behind a dropped tag without an end tag; elsewhere the value reads the same
    as it is written. -/
theorem shown_eq_visible_iff (parser : HtmlParser) (fragment : HtmlFragment parser) :
    squeeze (parser.shownText fragment.value) = squeeze (fragment.nodes.visible parser.casefold) ↔
      if hasHtmlTag fragment.value.toList ∧ fragment.nodes.Keeps parser.casefold then
        ∀ c ∈ fragment.nodes.late parser.casefold, isSpace c = true
      else squeeze (writtenText fragment.value)
        = squeeze (fragment.nodes.visible parser.casefold) := by
  have hplain := textToDisplayHtml_shows fragment.value
  by_cases htag : hasHtmlTag fragment.value.toList = true
  · have hvalue := strip_ne_empty (lt_mem_of_hasHtmlTag htag) (by decide)
    rcases sanitizeDisplayHtml_shows fragment hvalue with
      ⟨hnone, hsanitized⟩ | ⟨hkeeps, html, hsanitized, hshown⟩
    · rw [if_neg fun h => hnone h.2]
      unfold HtmlParser.shownText HtmlParser.ensureDisplayHtml
      rw [if_pos htag, hsanitized, hplain]
    · rw [if_pos ⟨htag, hkeeps⟩]
      unfold HtmlParser.shownText HtmlParser.ensureDisplayHtml
      rw [if_pos htag, hsanitized, hshown, ← Fragment.early_append_late, squeeze_append,
        List.self_eq_append_right, squeeze_eq_nil_iff]
  · rw [if_neg fun h => htag h.1]
    unfold HtmlParser.shownText HtmlParser.ensureDisplayHtml
    rw [if_neg htag, hplain]

/-- A void `<embed>` swallows the text behind it, and a script without anything around it is
    shown. -/
theorem embed_swallows_and_script_shows :
    (∃ fragment : HtmlFragment bareParser, fragment.value = "<p>a</p><embed><p>b</p>" ∧
      squeeze (bareParser.shownText fragment.value) = ['a'] ∧
      squeeze (fragment.nodes.visible bareParser.casefold) = ['a', 'b']) ∧
    ∃ fragment : HtmlFragment bareParser, fragment.value = "<script>x</script>" ∧
      squeeze (bareParser.shownText fragment.value) = "<script>x</script>".toList ∧
      squeeze (fragment.nodes.visible bareParser.casefold) = [] := by
  refine ⟨⟨⟨"<p>a</p><embed><p>b</p>", .element "p" [] (.text "a" .nil)
    (.single "embed" [] false (.element "p" [] (.text "b" .nil) .nil)), by rfl⟩, rfl, ?_, ?_⟩,
    ⟨"<script>x</script>", .element "script" [] (.text "x" .nil) .nil, by rfl⟩, rfl, ?_, ?_⟩
  · rfl
  · rfl
  · rfl
  · rfl

end Shown

end Bisakerja
