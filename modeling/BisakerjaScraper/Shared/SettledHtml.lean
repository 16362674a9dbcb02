import BisakerjaScraper.Shared.DisplayCalls
import Mathlib.Data.List.Chain

/-! Display HTML the sanitizer leaves as it is.

    Sanitized again, display HTML keeps its tags, and the whitespace in its text collapses. So it
    stays as it is exactly where no whitespace stands behind whitespace. -/

namespace Bisakerja
open Schemes

/-! ### Whitespace behind whitespace -/

/-- No whitespace behind whitespace. -/
def Apart (text : List Char) : Prop :=
  text.IsChain fun a b => ¬ (isSpace a = true ∧ isSpace b = true)

/-- A text ends in whitespace. -/
def endsSpace (text : List Char) : Bool := text.getLast?.any isSpace

/-- A text begins with whitespace. -/
def beginsSpace (text : List Char) : Bool := text.head?.any isSpace

theorem apart_cons {c : Char} {text : List Char} :
    Apart (c :: text) ↔ (isSpace c = true → beginsSpace text = false) ∧ Apart text := by
  unfold Apart beginsSpace
  rw [List.isChain_cons]
  refine and_congr_left fun _ => ?_
  cases text with
  | nil => simp
  | cons d text => simp

theorem apart_append {text rest : List Char} :
    Apart (text ++ rest) ↔
      Apart text ∧ Apart rest ∧ ¬ (endsSpace text = true ∧ beginsSpace rest = true) := by
  unfold Apart endsSpace beginsSpace
  rw [List.isChain_append]
  refine and_congr_right fun _ => and_congr_right fun _ => ?_
  cases text.getLast? with
  | none => simp
  | some c =>
    cases rest.head? with
    | none => simp
    | some d => simp

/-- Collapsing leaves single spaces, none at the front behind whitespace. -/
theorem collapseSpaces_apart (afterSpace : Bool) (text : List Char) :
    Apart (collapseSpaces afterSpace text) ∧
      (∀ c ∈ collapseSpaces afterSpace text, isSpace c = true → c = ' ') ∧
      beginsSpace (collapseSpaces afterSpace text) = (!afterSpace && beginsSpace text) := by
  induction text generalizing afterSpace with
  | nil => exact ⟨List.isChain_nil, by simp [collapseSpaces], by simp [collapseSpaces, beginsSpace]⟩
  | cons c text ih =>
    have hspace : isSpace ' ' = true := by decide
    rw [collapseSpaces]
    by_cases hc : isSpace c = true
    · obtain ⟨hapart, hspaces, hbegins⟩ := ih true
      cases afterSpace with
      | true =>
        simp only [hc, if_true, List.nil_append]
        exact ⟨hapart, hspaces, by simpa using hbegins⟩
      | false =>
        simp only [hc, if_true, Bool.false_eq_true, if_false, List.singleton_append]
        refine ⟨apart_cons.mpr ⟨fun _ => by simpa using hbegins, hapart⟩, ?_, ?_⟩
        · exact List.forall_mem_cons.mpr ⟨fun _ => rfl, hspaces⟩
        · simp [beginsSpace, hc, hspace]
    · obtain ⟨hapart, hspaces, hbegins⟩ := ih false
      rw [if_neg hc]
      refine ⟨apart_cons.mpr ⟨fun h => absurd h hc, hapart⟩, ?_, ?_⟩
      · exact List.forall_mem_cons.mpr ⟨fun h => absurd h hc, hspaces⟩
      · simp [beginsSpace, hc]

/-- Single spaces collapse to themselves. -/
theorem collapseSpaces_of_apart {text : List Char}
    (hspaces : ∀ c ∈ text, isSpace c = true → c = ' ') (h : Apart text) (afterSpace : Bool)
    (hafter : afterSpace = true → beginsSpace text = false) :
    collapseSpaces afterSpace text = text := by
  induction text generalizing afterSpace with
  | nil => rfl
  | cons c text ih =>
    obtain ⟨hnext, hrest⟩ := apart_cons.mp h
    have hmore : ∀ c ∈ text, isSpace c = true → c = ' ' := fun d hd =>
      hspaces d (List.mem_cons_of_mem _ hd)
    rw [collapseSpaces]
    by_cases hc : isSpace c = true
    · have hfalse : afterSpace = false := by
        by_contra hafterSpace
        have hbegins := hafter (by simpa using hafterSpace)
        simp [beginsSpace, hc] at hbegins
      rw [if_pos hc, hfalse, ih hmore hrest true fun _ => hnext hc, hspaces c List.mem_cons_self hc]
      rfl
    · rw [if_neg hc, ih hmore hrest false (absurd · Bool.false_ne_true)]

/-- Collapsing whitespace makes a text shorter unless none stands behind whitespace. -/
theorem length_collapseSpaces (afterSpace : Bool) (text : List Char) :
    (collapseSpaces afterSpace text).length ≤ text.length ∧
      ((collapseSpaces afterSpace text).length = text.length →
        Apart text ∧ (afterSpace = true → beginsSpace text = false)) := by
  induction text generalizing afterSpace with
  | nil => exact ⟨le_rfl, fun _ => ⟨List.isChain_nil, fun _ => rfl⟩⟩
  | cons c text ih =>
    rw [collapseSpaces]
    by_cases hc : isSpace c = true
    · obtain ⟨hle, heq⟩ := ih true
      cases afterSpace with
      | true =>
        simp only [hc, if_true, List.nil_append, List.length_cons]
        exact ⟨by omega, fun h => by omega⟩
      | false =>
        simp only [hc, if_true, Bool.false_eq_true, if_false, List.singleton_append,
          List.length_cons]
        refine ⟨by omega, fun h => ⟨?_, False.elim⟩⟩
        obtain ⟨hapart, hbegins⟩ := heq (by omega)
        exact apart_cons.mpr ⟨fun _ => hbegins rfl, hapart⟩
    · obtain ⟨hle, heq⟩ := ih false
      rw [if_neg hc, List.length_cons, List.length_cons]
      refine ⟨by omega, fun h => ⟨?_, fun _ => by simp [beginsSpace, hc]⟩⟩
      exact apart_cons.mpr ⟨fun h => absurd h hc, (heq (by omega)).1⟩

/-- Collapsing keeps a space at the end. -/
theorem endsSpace_collapseSpaces (text : List Char) :
    endsSpace (collapseSpaces false text) = endsSpace text ∧
      endsSpace (' ' :: collapseSpaces true text) = endsSpace (' ' :: text) := by
  have hspace : isSpace ' ' = true := by decide
  have hcons : ∀ (c : Char) (text : List Char), isSpace c = true →
      endsSpace (c :: text) = endsSpace (' ' :: text) := by
    intro c text hc
    cases text with
    | nil => simp [endsSpace, hc, hspace]
    | cons d text => simp [endsSpace]
  have hbehind : ∀ (c d : Char) (text : List Char),
      endsSpace (c :: d :: text) = endsSpace (d :: text) := fun c d text => by simp [endsSpace]
  have hboth : ∀ (c : Char) {text rest : List Char}, endsSpace text = endsSpace rest →
      (text = [] ↔ rest = []) → endsSpace (c :: text) = endsSpace (c :: rest) := by
    intro c text rest h hnil
    cases text with
    | nil => rw [hnil.mp rfl]
    | cons d text =>
      cases rest with
      | nil => cases hnil.mpr rfl
      | cons e rest => simpa [endsSpace] using h
  induction text with
  | nil => exact ⟨rfl, rfl⟩
  | cons c text ih =>
    obtain ⟨hfalse, htrue⟩ := ih
    have hnil : collapseSpaces false text = [] ↔ text = [] := by
      cases text with
      | nil => simp [collapseSpaces]
      | cons d text =>
        rw [collapseSpaces]
        split
        · simp
        · simp
    rw [collapseSpaces, collapseSpaces]
    by_cases hc : isSpace c = true
    · simp only [hc, if_true, Bool.false_eq_true, if_false, List.nil_append, List.singleton_append]
      exact ⟨htrue.trans (hcons c text hc).symm,
        htrue.trans ((hcons c text hc).symm.trans (hbehind ' ' c text).symm)⟩
    · simp only [hc, Bool.false_eq_true, if_false]
      have hfirst := hboth c hfalse hnil
      exact ⟨hfirst, (hbehind ' ' c _).trans (hfirst.trans (hbehind ' ' c text).symm)⟩

/-! ### Tokens -/

/-- A character that is no whitespace. -/
def DisplayToken.isLetter : DisplayToken → Bool
  | .leaf (.char c) => !isSpace c
  | _ => false

/-- A tag or a line break. -/
def DisplayToken.isTag : DisplayToken → Bool
  | .leaf (.char _) => false
  | _ => true

/-- Tokens with no whitespace behind whitespace. -/
def TokensApart (tokens : List DisplayToken) : Prop :=
  tokens.IsChain fun a b => ¬ (a.isBlank = true ∧ b.isBlank = true)

/-- Whitespace stands beside a character that is none. -/
def Accompanied (tokens : List DisplayToken) : Prop :=
  ∀ front token back, tokens = front ++ token :: back → token.isBlank = true →
    front.getLast?.any DisplayToken.isLetter = true ∨ back.head?.any DisplayToken.isLetter = true

/-- Tokens as the sanitizer leaves them: the only whitespace is spaces, and each stands beside some
    other character. -/
structure Tidy (tokens : List DisplayToken) : Prop where
  spaces : ∀ c, .leaf (.char c) ∈ tokens → isSpace c = true → c = ' '
  accompanied : Accompanied tokens

theorem isBlank_of_isTag {token : DisplayToken} (h : token.isTag = true) :
    token.isBlank = false ∧ token.isLetter = false := by
  rcases token with tag | tag | - | c
  · exact ⟨rfl, rfl⟩
  · exact ⟨rfl, rfl⟩
  · exact ⟨rfl, rfl⟩
  · cases h

theorem tokensApart_append {tokens others : List DisplayToken} :
    TokensApart (tokens ++ others) ↔ TokensApart tokens ∧ TokensApart others ∧
      ¬ (tokens.getLast?.any DisplayToken.isBlank = true ∧
        others.head?.any DisplayToken.isBlank = true) := by
  unfold TokensApart
  rw [List.isChain_append]
  refine and_congr_right fun _ => and_congr_right fun _ => ?_
  cases tokens.getLast? with
  | none => simp
  | some c =>
    cases others.head? with
    | none => simp
    | some d => simp

theorem tokensApart_text {text : List Char} : TokensApart (textTokens text) ↔ Apart text := by
  unfold TokensApart textTokens
  rw [List.isChain_map]
  rfl

theorem head?_textTokens (text : List Char) :
    (textTokens text).head?.any DisplayToken.isBlank = beginsSpace text ∧
      (textTokens text).getLast?.any DisplayToken.isBlank = endsSpace text := by
  unfold textTokens beginsSpace endsSpace
  rw [List.head?_map, List.getLast?_map]
  constructor
  · cases text.head? with
    | none => rfl
    | some c => rfl
  · cases text.getLast? with
    | none => rfl
    | some c => rfl

theorem Accompanied.append {tokens others : List DisplayToken} (h : Accompanied tokens)
    (hothers : Accompanied others) : Accompanied (tokens ++ others) := by
  intro front token back heq hblank
  rcases List.append_eq_append_iff.mp heq with ⟨more, rfl, hmore⟩ | ⟨more, rfl, hmore⟩
  · rcases hothers more token back hmore hblank with hfront | hback
    · refine .inl ?_
      rw [List.getLast?_append]
      cases hlast : more.getLast? with
      | none => simp [hlast] at hfront
      | some c => simpa [hlast] using hfront
    · exact .inr hback
  · rcases more with - | ⟨first, more⟩
    · rw [List.append_nil] at h
      simp only [List.nil_append] at hmore
      rcases hothers [] token back (by rw [← hmore]; rfl) hblank with hfront | hback
      · simp at hfront
      · exact .inr hback
    · obtain ⟨rfl, rfl⟩ := List.cons.inj hmore
      rcases h front token more rfl hblank with hfront | hback
      · exact .inl hfront
      · refine .inr ?_
        cases more with
        | nil => simp at hback
        | cons c more => simpa using hback

theorem accompanied_tags {tokens : List DisplayToken} (h : ∀ token ∈ tokens, token.isTag = true) :
    Accompanied tokens := by
  rintro front token back rfl hblank
  have htag := (isBlank_of_isTag (h token (by simp))).1
  rw [htag] at hblank
  cases hblank

/-- In a text that is not blank whitespace stands beside some other character. -/
theorem accompanied_text {text : List Char} (hapart : Apart text)
    (hwords : words isSpace text ≠ []) : Accompanied (textTokens text) := by
  intro front token back heq hblank
  obtain ⟨before, rest, rfl, rfl, hrest⟩ := List.map_eq_append_iff.mp heq
  obtain ⟨c, after, rfl, rfl, rfl⟩ := List.map_eq_cons_iff.mp hrest
  have hc : isSpace c = true := hblank
  obtain ⟨-, hafter, hseam⟩ := apart_append.mp hapart
  obtain ⟨hnext, -⟩ := apart_cons.mp hafter
  rcases List.eq_nil_or_concat before with rfl | ⟨before, d, rfl⟩
  · refine .inr ?_
    have hbegins := hnext hc
    cases after with
    | nil =>
      have hnil : words isSpace [c] = [] := words_eq_nil (by simpa using hc)
      exact absurd hnil hwords
    | cons d after => simpa [beginsSpace, DisplayToken.isLetter] using hbegins
  · refine .inl ?_
    rw [List.concat_eq_append] at hseam ⊢
    have hd : isSpace d = false := by simpa [endsSpace, beginsSpace, hc] using hseam
    simp [DisplayToken.isLetter, hd]

/-- Between tags stands no whitespace alone. -/
theorem Accompanied.words_ne_nil {done rest : List DisplayToken} {text : List Char}
    (h : Accompanied (done ++ (textTokens text ++ rest)))
    (hdone : ∀ token ∈ done.getLast?, token.isTag = true)
    (hrest : ∀ token ∈ rest.head?, token.isTag = true) : text = [] ∨ words isSpace text ≠ [] := by
  rcases text with - | ⟨c, text⟩
  · exact .inl rfl
  · refine .inr fun hnil => ?_
    have hall := words_eq_nil_iff.mp hnil
    have hc : DisplayToken.isBlank (.leaf (.char c)) = true := hall c List.mem_cons_self
    rcases h done (.leaf (.char c)) (textTokens text ++ rest) rfl hc with hfront | hback
    · cases hlast : done.getLast? with
      | none => simp [hlast] at hfront
      | some token =>
        rw [hlast, Option.any_some, (isBlank_of_isTag (hdone token hlast)).2] at hfront
        cases hfront
    · cases text with
      | nil =>
        cases hhead : rest.head? with
        | none => simp [textTokens, hhead] at hback
        | some token =>
          simp [textTokens, hhead, (isBlank_of_isTag (hrest token hhead)).2] at hback
      | cons d text =>
        have hd : isSpace d = true := hall d (by simp)
        simp [textTokens, DisplayToken.isLetter, hd] at hback

/-! ### The second run -/

namespace DisplayHTMLSanitizer

variable {casefold : String → String} {s : DisplayHTMLSanitizer} {done out : List DisplayToken}

/-- What the sanitizer has written for some tokens: the same tags, and the same text if no
    whitespace stands behind whitespace, else less of it. -/
structure Rewritten (s : DisplayHTMLSanitizer) (done out : List DisplayToken) : Prop where
  written : Written out s.parts s.openTags
  depth : s.dropDepth = 0
  opens : openAfter [] out = openAfter [] done
  length : (charsOf out).length ≤ (charsOf done).length
  apart : (charsOf out).length = (charsOf done).length → TokensApart done
  same : TokensApart done → out = done
  tags : (∃ token ∈ done, token.isTag = true) → ∃ token ∈ out, token.isTag = true

/-- Nothing was written, or a tag just was. -/
def AtTag (s : DisplayHTMLSanitizer) (done : List DisplayToken) : Prop :=
  (done = [] ∧ s.parts = []) ∨
    (done ≠ [] ∧ ∃ last, s.parts.getLast? = some last ∧ last.getLast? = some '>')

theorem dataParts_atTag {normalized : List Char} (h : AtTag s done) (hne : normalized ≠ [])
    (hfirst : done = [] → beginsSpace normalized = false) :
    s.dataParts normalized = [escape normalized] := by
  have hescaped : escape normalized ≠ [] := escape_eq_nil_iff.not.mpr hne
  rcases h with ⟨hdone, hparts⟩ | ⟨-, last, hlast, hgt⟩
  · have hstrip : lstrip normalized = normalized := by
      cases normalized with
      | nil => rfl
      | cons c normalized =>
        have hc : isSpace c = false := by simpa [beginsSpace] using hfirst hdone
        rw [lstrip, List.dropWhile_cons_of_neg (by simp [hc])]
    simp [dataParts, separator, escapedBehind, hparts, hstrip, hne, hescaped]
  · have hparts : s.parts ≠ [] := by
      rintro hnil
      simp [hnil] at hlast
    have hseparator : s.separator normalized = [] := by simp [separator, hlast, hgt]
    have hlone : s.parts.getLast? ≠ some [' '] := by
      rw [hlast]
      intro heq
      rw [Option.some.inj heq] at hgt
      cases hgt
    simp [dataParts_of_ne_nil hparts hne, hseparator, escapedBehind, hlone, hescaped]

/-- The text of display HTML is written with its whitespace collapsed. -/
theorem Rewritten.text {text : List Char} (h : Rewritten s done out) (hat : AtTag s done)
    (hdone : ∀ token ∈ done.getLast?, token.isTag = true)
    (hspaces : ∀ c ∈ text, isSpace c = true → c = ' ')
    (hwords : text = [] ∨ words isSpace text ≠ []) (hfirst : done = [] → beginsSpace text = false) :
    ∃ out', Rewritten (s.run casefold (dataCall text)) (done ++ textTokens text) out' := by
  rcases hwords with rfl | hwords
  · refine ⟨out, ?_⟩
    rw [show done ++ textTokens [] = done from List.append_nil done]
    exact h
  have hne : text ≠ [] := by
    rintro rfl
    exact hwords (words_nil _)
  have hcollapsed : words isSpace (collapseSpaces false text) = words isSpace text :=
    (words_collapseSpaces text).2 []
  have hnonempty : collapseSpaces false text ≠ [] := by
    intro hnil
    rw [hnil, words_nil] at hcollapsed
    exact hwords hcollapsed.symm
  have hblank : (collapseSpaces false text).all isSpace ≠ true := by
    rw [Ne, List.all_eq_true, ← words_eq_nil_iff, hcollapsed]
    exact hwords
  obtain ⟨-, -, hbegins⟩ := collapseSpaces_apart false text
  have hhandle : s.run casefold (dataCall text)
      = { s with parts := s.parts ++ [escape (collapseSpaces false text)] } := by
    have hdata : s.run casefold (dataCall text) = s.handleData (String.ofList text) := by
      rw [dataCall, if_neg hne]
      rfl
    have hparts := dataParts_atTag hat hnonempty fun hnil => by rw [hbegins, hfirst hnil]; rfl
    rw [hdata, handleData, if_neg (by have := h.depth; omega), String.toList_ofList, if_neg hblank,
      hparts]
  have hleaves : ∀ text : List Char, textTokens text = (text.map DisplayItem.char).map .leaf := by
    intro text
    rw [List.map_map]
    rfl
  obtain ⟨hle, heq⟩ := length_collapseSpaces false text
  have hlength := h.length
  have hseam : done.getLast?.any DisplayToken.isBlank = false := by
    cases hlast : done.getLast? with
    | none => rfl
    | some token => exact (isBlank_of_isTag (hdone token hlast)).1
  have hsplit : TokensApart (done ++ textTokens text) ↔ TokensApart done ∧ Apart text := by
    rw [tokensApart_append, tokensApart_text]
    simp [hseam]
  refine ⟨out ++ textTokens (collapseSpaces false text), ?_, ?_, ?_, ?_, ?_, ?_, ?_⟩
  · rw [hhandle, hleaves]
    refine h.written.leaves _ ?_
    rw [← hleaves, renderTokens_textTokens, List.flatten_singleton]
  · rw [hhandle]
    exact h.depth
  · rw [openAfter_append, openAfter_append, h.opens, hleaves, hleaves]
    cases openAfter [] done with
    | none => rfl
    | some stack => rw [Option.bind_some, Option.bind_some, openAfter_leaves, openAfter_leaves]
  · simp only [charsOf_append, charsOf_textTokens, List.length_append]
    omega
  · simp only [charsOf_append, charsOf_textTokens, List.length_append]
    intro hsum
    exact hsplit.mpr ⟨h.apart (by omega), (heq (by omega)).1⟩
  · intro hall
    obtain ⟨hdoneapart, htext⟩ := hsplit.mp hall
    rw [h.same hdoneapart, collapseSpaces_of_apart hspaces htext false (absurd · Bool.false_ne_true)]
  · rintro ⟨token, htoken, htag⟩
    rcases List.mem_append.mp htoken with hmem | hmem
    · obtain ⟨written, hwritten, hkept⟩ := h.tags ⟨token, hmem, htag⟩
      exact ⟨written, List.mem_append_left _ hwritten, hkept⟩
    · obtain ⟨c, -, rfl⟩ := List.mem_map.mp hmem
      cases htag

/-- A tag of display HTML is written as it is. -/
theorem Rewritten.tag {token : DisplayToken} {event : HtmlEvent} {part : List Char}
    {openTags : List String} (h : Rewritten s done out) (htag : token.isTag = true)
    (hhandle : s.handle casefold event
      = { s with parts := s.parts ++ [part], openTags := openTags })
    (hpart : part = token.render)
    (hopen : ∃ stack : List DisplayTag,
      openAfter [] (done ++ [token]) = some stack ∧ openTags = stack.map DisplayTag.name) :
    Rewritten (s.handle casefold event) (done ++ [token]) (out ++ [token]) ∧
      AtTag (s.handle casefold event) (done ++ [token]) := by
  have hsame : openAfter [] (out ++ [token]) = openAfter [] (done ++ [token]) := by
    rw [openAfter_append, openAfter_append, h.opens]
  have hchars : charsOf [token] = [] := by
    rcases token with tag | tag | - | c
    · rfl
    · rfl
    · rfl
    · cases htag
  have hsplit : TokensApart (done ++ [token]) ↔ TokensApart done := by
    rw [tokensApart_append]
    simp [(isBlank_of_isTag htag).1, TokensApart]
  rw [hhandle]
  refine ⟨⟨⟨?_, ?_⟩, h.depth, hsame, ?_, ?_, ?_, fun _ => ⟨token, by simp, htag⟩⟩,
    .inr ⟨by simp, part, by simp, ?_⟩⟩
  · rw [List.flatten_append, h.written.parts, renderTokens_append, hpart, List.flatten_singleton]
    exact congrArg _ (List.flatMap_singleton ..).symm
  · rw [hsame]
    exact hopen
  · rw [charsOf_append, charsOf_append, hchars, List.append_nil, List.append_nil]
    exact h.length
  · rw [charsOf_append, charsOf_append, hchars, List.append_nil, List.append_nil, hsplit]
    exact h.apart
  · rw [hsplit]
    intro hdone
    rw [h.same hdone]
  · rw [hpart]
    rcases token with tag | tag | - | c
    · rw [DisplayToken.render, openingText]
      exact List.getLast?_concat
    · rw [DisplayToken.render, closingText]
      exact List.getLast?_concat
    · rfl
    · cases htag

theorem name_mem_allowed (tag : DisplayTag) :
    tag.name ∈ allowedDisplayTags ∧ tag.name ≠ "br" ∧ tag.name ∉ dropContentTags := by
  cases tag with
  | p => decide
  | ul => decide
  | ol => decide
  | li => decide
  | strong => decide
  | em => decide

/-- The call for a tag that nests well writes it. -/
theorem Rewritten.call (hfold : ∀ tag ∈ allowedDisplayTags, casefold tag = tag)
    {token : DisplayToken} {event : HtmlEvent} (h : Rewritten s done out)
    (hevent : (∃ tag, token = .opening tag ∧ event = .startTag tag.name []) ∨
      (∃ tag, token = .closing tag ∧ event = .endTag tag.name) ∨
      (token = .leaf .br ∧ event = .startTag "br" []))
    (hopen : openAfter [] (done ++ [token]) ≠ none) :
    Rewritten (s.handle casefold event) (done ++ [token]) (out ++ [token]) ∧
      AtTag (s.handle casefold event) (done ++ [token]) := by
  obtain ⟨stack, hstack, htags⟩ := h.written.tags
  rw [h.opens] at hstack
  have hdepth : ¬ s.dropDepth > 0 := by
    have := h.depth
    omega
  rcases hevent with ⟨tag, rfl, rfl⟩ | ⟨tag, rfl, rfl⟩ | ⟨rfl, rfl⟩
  · obtain ⟨hallowed, hbr, hdrop⟩ := name_mem_allowed tag
    have hname := hfold _ hallowed
    refine h.tag rfl ?_ rfl ⟨tag :: stack, ?_, rfl⟩
    · simp only [handle, handleStarttag, hname, hdrop, hdepth, hallowed, not_true_eq_false, hbr,
        if_false, htags, List.map_cons]
      rfl
    · rw [openAfter_append, hstack, Option.bind_some, openAfter_opening, openAfter_nil]
  · obtain ⟨hallowed, hbr, hdrop⟩ := name_mem_allowed tag
    have hname := hfold _ hallowed
    rw [openAfter_append, hstack, Option.bind_some] at hopen
    rcases stack with - | ⟨top, stack⟩
    · exact absurd rfl hopen
    · have htop : top = tag := by
        by_contra hne
        simp [openAfter, hne] at hopen
      subst htop
      refine h.tag rfl ?_ rfl ⟨stack, ?_, rfl⟩
      · have hignored : ¬ (top.name ∉ allowedDisplayTags ∨ top.name = "br") := by
          simp [hallowed, hbr]
        have hmem : ¬ top.name ∉ s.openTags := by simp [htags]
        simp only [handle, handleEndtag, hname, hdrop, hdepth, hignored, hmem, if_false]
        simp [htags, closeThrough]
        rfl
      · rw [openAfter_append, hstack, Option.bind_some, openAfter_closing_self, openAfter_nil]
  · have hname : casefold "br" = "br" := hfold _ (by decide)
    have hdrop : "br" ∉ dropContentTags := by decide
    have hallowed : "br" ∈ allowedDisplayTags := by decide
    refine h.tag rfl ?_ rfl ⟨stack, ?_, htags⟩
    · simp only [handle, handleStarttag, hname, hdrop, hdepth, hallowed, not_true_eq_false,
        if_false, if_true]
      rfl
    · rw [openAfter_append, hstack, Option.bind_some, openAfter_leaf, openAfter_nil]

/-- The text before a tag is rewritten. -/
theorem Rewritten.flush {rest : List DisplayToken} {text : List Char} (h : Rewritten s done out)
    (hat : AtTag s done) (hdone : ∀ token ∈ done.getLast?, token.isTag = true)
    (hrest : ∀ token ∈ rest.head?, token.isTag = true)
    (htidy : Tidy (done ++ (textTokens text ++ rest)))
    (hfirst : ∀ token ∈ (done ++ (textTokens text ++ rest)).head?, token.isBlank = false) :
    ∃ out', Rewritten (s.run casefold (dataCall text)) (done ++ textTokens text) out' := by
  refine h.text hat hdone (fun c hc => htidy.spaces c ?_)
    (htidy.accompanied.words_ne_nil hdone hrest) ?_
  · simp only [textTokens, List.mem_append, List.mem_map]
    exact .inr (.inl ⟨c, hc, rfl⟩)
  · rintro rfl
    cases text with
    | nil => rfl
    | cons c text => exact hfirst (.leaf (.char c)) rfl

/-- Display HTML is rewritten call by call. -/
theorem rewritten_calls (hfold : ∀ tag ∈ allowedDisplayTags, casefold tag = tag)
    (rest : List DisplayToken) (text : List Char) (h : Rewritten s done out) (hat : AtTag s done)
    (hdone : ∀ token ∈ done.getLast?, token.isTag = true)
    (htidy : Tidy (done ++ (textTokens text ++ rest)))
    (hfirst : ∀ token ∈ (done ++ (textTokens text ++ rest)).head?, token.isBlank = false)
    (hnested : openAfter [] (done ++ (textTokens text ++ rest)) ≠ none) :
    ∃ out', Rewritten (s.run casefold (callsFrom text rest)) (done ++ (textTokens text ++ rest))
      out' := by
  induction rest generalizing s done out text with
  | nil =>
    rw [List.append_nil]
    exact h.flush hat hdone (by simp) htidy hfirst
  | cons token rest ih =>
    rcases hkind : token.isTag with - | -
    · -- A character joins the text before it.
      rcases token with tag | tag | - | c
      · cases hkind
      · cases hkind
      · cases hkind
      · have hjoin : textTokens text ++ .leaf (.char c) :: rest
            = textTokens (text ++ [c]) ++ rest := by
          simp [textTokens]
        rw [hjoin] at htidy hfirst hnested ⊢
        exact ih (text ++ [c]) h hat hdone htidy hfirst hnested
    · -- A tag is written behind the text before it.
      obtain ⟨event, hevent, hcalls⟩ : ∃ event, ((∃ tag, token = .opening tag ∧
          event = .startTag tag.name []) ∨ (∃ tag, token = .closing tag ∧
            event = .endTag tag.name) ∨ (token = .leaf .br ∧ event = .startTag "br" [])) ∧
          callsFrom text (token :: rest) = dataCall text ++ event :: callsFrom [] rest := by
        rcases token with tag | tag | - | c
        · exact ⟨_, .inl ⟨tag, rfl, rfl⟩, rfl⟩
        · exact ⟨_, .inr (.inl ⟨tag, rfl, rfl⟩), rfl⟩
        · exact ⟨_, .inr (.inr ⟨rfl, rfl⟩), rfl⟩
        · cases hkind
      obtain ⟨out', hout⟩ : ∃ out', Rewritten (s.run casefold (dataCall text))
          (done ++ textTokens text) out' := h.flush hat hdone (by simpa using hkind) htidy hfirst
      have hassoc : done ++ (textTokens text ++ token :: rest)
          = (done ++ textTokens text ++ [token]) ++ (textTokens [] ++ rest) := by
        simp [textTokens]
      rw [hassoc] at htidy hfirst hnested ⊢
      have hopen : openAfter [] (done ++ textTokens text ++ [token]) ≠ none := by
        intro hnone
        rw [openAfter_append, hnone] at hnested
        exact hnested rfl
      obtain ⟨hwritten, hat'⟩ := hout.call hfold hevent hopen
      rw [hcalls, run_append, run_cons]
      exact ih [] hwritten hat' (by simp [hkind]) htidy hfirst hnested

end DisplayHTMLSanitizer

/-! ### Display HTML again -/

/-- A parser that reads display HTML as it is written. -/
structure DisplayParser extends HtmlParser where
  reads : ∀ tokens : List DisplayToken, WellNested tokens →
    parse (String.ofList (renderTokens tokens)) = callsFrom [] tokens
  folds : ∀ tag ∈ allowedDisplayTags, casefold tag = tag

theorem hasHtmlTag_append (front : List Char) {rest : List Char} (h : hasHtmlTag rest = true) :
    hasHtmlTag (front ++ rest) = true := by
  induction front with
  | nil => exact h
  | cons c front ih => simp [hasHtmlTag, ih]

/-- Display HTML has a tag if one of its tokens is one. -/
theorem hasHtmlTag_render {tokens : List DisplayToken} (h : ∃ token ∈ tokens, token.isTag = true) :
    hasHtmlTag (renderTokens tokens) = true := by
  obtain ⟨token, htoken, htag⟩ := h
  obtain ⟨front, back, rfl⟩ := List.append_of_mem htoken
  have hrender : renderTokens (front ++ token :: back)
      = renderTokens front ++ (token.render ++ renderTokens back) := by
    simp [renderTokens]
  rw [hrender]
  refine hasHtmlTag_append _ ?_
  rcases render_cases token with ⟨c, rfl⟩ | htext
  · cases htag
  · obtain ⟨name, heq, -, hgt, -⟩ := displayTagTexts_facts _ htext
    have hne : name ≠ [] := by
      rintro rfl
      rw [heq] at htext
      exact absurd htext (by decide)
    have hplain : ∀ c ∈ name, decide (c ≠ '>') = true := by
      intro c hc
      rw [decide_eq_true_eq]
      rintro rfl
      exact hgt hc
    rw [heq, List.cons_append, List.append_assoc, List.singleton_append, hasHtmlTag,
      List.takeWhile_append_of_pos hplain, List.dropWhile_append_of_pos hplain]
    simp [hne]

/-- Whitespace around tokens that have none at their ends is none. -/
theorem eq_of_padded {tokens stripped : List DisplayToken} {front back : List Char}
    (hfirst : ∀ token ∈ tokens.head?, token.isBlank = false)
    (hlast : ∀ token ∈ tokens.getLast?, token.isBlank = false)
    (h : tokens = textTokens front ++ (stripped ++ textTokens back))
    (hfront : ∀ c ∈ front, isSpace c = true) (hback : ∀ c ∈ back, isSpace c = true) :
    stripped = tokens := by
  have hnofront : front = [] := by
    rcases front with - | ⟨c, front⟩
    · rfl
    · have hc := hfirst (.leaf (.char c)) (by rw [h]; rfl)
      exact absurd (hfront c List.mem_cons_self) (by simpa [DisplayToken.isBlank] using hc)
  have hnoback : back = [] := by
    rcases List.eq_nil_or_concat back with rfl | ⟨back, c, rfl⟩
    · rfl
    · have hc := hlast (.leaf (.char c)) (by rw [h]; simp [textTokens])
      exact absurd (hback c (by simp)) (by simpa [DisplayToken.isBlank] using hc)
  rw [h, hnofront, hnoback]
  simp [textTokens]

section Again

variable {tokens : List DisplayToken}

/-- Display HTML with a tag is left as it is exactly where no whitespace stands behind
    whitespace. -/
theorem ensureDisplayHtml_again (parser : DisplayParser) (htidy : Tidy tokens)
    (hnested : WellNested tokens) (hfirst : ∀ token ∈ tokens.head?, token.isBlank = false)
    (hlast : ∀ token ∈ tokens.getLast?, token.isBlank = false)
    (htag : ∃ token ∈ tokens, token.isTag = true) :
    parser.ensureDisplayHtml (String.ofList (renderTokens tokens))
      = some (String.ofList (renderTokens tokens)) ↔ TokensApart tokens := by
  obtain ⟨stripped, hstrip, -, -, -, -, front, back, hsplit, hfront, hback⟩ := strip_render tokens
  rw [eq_of_padded hfirst hlast hsplit hfront hback] at hstrip
  have hne : tokens ≠ [] := by
    rintro rfl
    simp at htag
  have hvalue : strip (String.ofList (renderTokens tokens)) ≠ "" := by
    rw [hstrip, Ne, String.ofList_eq_empty_iff, DisplayHTMLSanitizer.render_eq_nil_iff]
    exact hne
  obtain ⟨out, hout⟩ : ∃ out, DisplayHTMLSanitizer.Rewritten
      (DisplayHTMLSanitizer.run parser.casefold {} (callsFrom [] tokens)) tokens out :=
    DisplayHTMLSanitizer.rewritten_calls parser.folds tokens []
      ⟨written_nil, rfl, rfl, le_rfl, fun _ => List.isChain_nil, fun _ => rfl, by simp⟩
      (.inl ⟨rfl, rfl⟩) (by simp) htidy hfirst
      (show openAfter [] tokens ≠ none by rw [wellNested_iff.mp hnested]; simp)
  have hwritten : Written out
      (DisplayHTMLSanitizer.feed parser.casefold
        (parser.parse (strip (String.ofList (renderTokens tokens))))).parts
      (DisplayHTMLSanitizer.feed parser.casefold
        (parser.parse (strip (String.ofList (renderTokens tokens))))).openTags := by
    rw [hstrip, parser.reads tokens hnested]
    exact hout.written
  obtain ⟨stack, stripped, hopen, hsanitized, -, -, -, -, front, back, hsplit, hfront, hback⟩ :=
    sanitizeDisplayHtml_of_written hvalue hwritten
  have hchars := congrArg List.length (charsOf_of_padded hsplit)
  simp only [List.length_append] at hchars
  have hstripped : stripped ≠ [] := by
    rintro rfl
    obtain ⟨token, htoken, hkind⟩ := hout.tags htag
    have hmem : token ∈ textTokens front ++ ([] ++ textTokens back) := by
      rw [← hsplit]
      exact List.mem_append_left _ htoken
    simp only [textTokens, List.nil_append, List.mem_append, List.mem_map] at hmem
    rcases hmem with ⟨c, -, rfl⟩ | ⟨c, -, rfl⟩
    · cases hkind
    · cases hkind
  have hensured : parser.ensureDisplayHtml (String.ofList (renderTokens tokens))
      = some (String.ofList (renderTokens stripped)) := by
    unfold HtmlParser.ensureDisplayHtml
    rw [String.toList_ofList, if_pos (hasHtmlTag_render htag), hsanitized, if_neg hstripped]
  rw [hensured, Option.some.injEq]
  constructor
  · intro heq
    have hlength := congrArg (fun html : String => (textContent html.toList).length) heq
    simp only [textContent_ofList] at hlength
    have hle := hout.length
    exact hout.apart (by omega)
  · intro hapart
    have hsame := hout.same hapart
    subst hsame
    rw [wellNested_iff.mp hnested, Option.some.injEq] at hopen
    subst hopen
    rw [List.map_nil, List.append_nil] at hsplit
    rw [eq_of_padded hfirst hlast hsplit hfront hback]

end Again

end Bisakerja
