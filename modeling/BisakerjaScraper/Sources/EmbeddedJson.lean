import BisakerjaScraper.Schemes.Braces
import BisakerjaScraper.Sources.WebPages

/-! JSON in the text of a page.

    The scanner of `extract_balanced_json_object` knows strings and braces, and no more of JSON. In
    a JSON object every brace outside of the strings is closed, so the scanner stops at the end of
    the object, whatever the page goes on with. -/

namespace Bisakerja
open Schemes

/-! ### The grammar -/

/-- Whitespace of JSON. -/
def IsJsonBlank (text : List Char) : Prop := ∀ c ∈ text, c ∈ [' ', '\t', '\n', '\r']

/-- The words of JSON; `json.dumps` writes and `json.loads` reads the last three, too. -/
def jsonWords : List (List Char) :=
  ["null".toList, "true".toList, "false".toList, "NaN".toList, "Infinity".toList,
    "-Infinity".toList]

/-- Digits, and at least one. -/
def IsDigits (text : List Char) : Prop := text ≠ [] ∧ ∀ c ∈ text, c.isDigit = true

/-- A number: a sign, digits without a leading zero, a fraction and an exponent. -/
inductive JsonNumber : List Char → Prop
  | intro {sign whole fraction exponent : List Char} (hsign : sign = [] ∨ sign = ['-'])
      (hwhole : whole = ['0'] ∨ IsDigits whole ∧ whole.head? ≠ some '0')
      (hfraction : fraction = [] ∨ ∃ digits, IsDigits digits ∧ fraction = '.' :: digits)
      (hexponent : exponent = [] ∨ ∃ e sign digits, e ∈ ['e', 'E'] ∧
        (sign = [] ∨ sign = ['+'] ∨ sign = ['-']) ∧ IsDigits digits ∧
        exponent = e :: (sign ++ digits)) :
      JsonNumber (sign ++ (whole ++ (fraction ++ exponent)))

/-- The characters of a string: as they are, or escaped. -/
inductive JsonChars : List Char → Prop
  | nil : JsonChars []
  | plain {c : Char} {rest : List Char} (hcontrol : ' ' ≤ c) (hquote : c ≠ '"')
      (hescape : c ≠ '\\') (h : JsonChars rest) : JsonChars (c :: rest)
  | escaped {letter : Char} {rest : List Char}
      (hletter : letter ∈ ['"', '\\', '/', 'b', 'f', 'n', 'r', 't']) (h : JsonChars rest) :
      JsonChars ('\\' :: letter :: rest)
  | unit {hex rest : List Char} (hlength : hex.length = 4)
      (hhex : ∀ c ∈ hex, c.isDigit = true ∨ c ∈ "abcdefABCDEF".toList) (h : JsonChars rest) :
      JsonChars ('\\' :: 'u' :: (hex ++ rest))

/-- A string in its quotes. -/
def IsJsonString (text : List Char) : Prop :=
  ∃ chars, JsonChars chars ∧ text = '"' :: (chars ++ ['"'])

/-- The kinds of JSON texts: a value, an object, what stands in a list and what in an object. -/
inductive JsonKind where | value | object | items | members

/-- The texts of JSON. -/
inductive JsonText : JsonKind → List Char → Prop
  | word {text : List Char} (h : text ∈ jsonWords) : JsonText .value text
  | number {text : List Char} (h : JsonNumber text) : JsonText .value text
  | string {text : List Char} (h : IsJsonString text) : JsonText .value text
  | object {text : List Char} (h : JsonText .object text) : JsonText .value text
  | emptyList {blank : List Char} (h : IsJsonBlank blank) :
      JsonText .value ('[' :: (blank ++ [']']))
  | list {items : List Char} (h : JsonText .items items) : JsonText .value ('[' :: (items ++ [']']))
  | emptyDict {blank : List Char} (h : IsJsonBlank blank) :
      JsonText .object ('{' :: (blank ++ ['}']))
  | dict {members : List Char} (h : JsonText .members members) :
      JsonText .object ('{' :: (members ++ ['}']))
  | item {before value behind : List Char} (hbefore : IsJsonBlank before)
      (hvalue : JsonText .value value) (hbehind : IsJsonBlank behind) :
      JsonText .items (before ++ (value ++ behind))
  | moreItems {first rest : List Char} (hfirst : JsonText .items first)
      (hrest : JsonText .items rest) : JsonText .items (first ++ ',' :: rest)
  | member {before key between after value behind : List Char} (hbefore : IsJsonBlank before)
      (hkey : IsJsonString key) (hbetween : IsJsonBlank between) (hafter : IsJsonBlank after)
      (hvalue : JsonText .value value) (hbehind : IsJsonBlank behind) :
      JsonText .members (before ++ (key ++ (between ++ ':' :: (after ++ (value ++ behind)))))
  | moreMembers {first rest : List Char} (hfirst : JsonText .members first)
      (hrest : JsonText .members rest) : JsonText .members (first ++ ',' :: rest)

/-! ### Braces in JSON -/

/-- The braces of JSON, and its strings. -/
def jsonMarks : BraceMarks Char := ⟨'{', '}', '"', '\\'⟩

/-- A text without braces and quotes. -/
def IsBare (text : List Char) : Prop := ∀ c ∈ text, c ∉ ['{', '}', '"']

theorem IsBare.neutral {text : List Char} (h : IsBare text) : jsonMarks.Neutral text :=
  BraceMarks.Neutral.of_forall h

theorem IsBare.append {a b : List Char} (ha : IsBare a) (hb : IsBare b) : IsBare (a ++ b) :=
  fun c hc => (List.mem_append.mp hc).elim (ha c) (hb c)

theorem IsBare.cons {c : Char} {text : List Char} (hc : c ∉ ['{', '}', '"']) (h : IsBare text) :
    IsBare (c :: text) := List.forall_mem_cons.mpr ⟨hc, h⟩

theorem IsJsonBlank.bare {text : List Char} (h : IsJsonBlank text) : IsBare text := by
  have hall : ∀ c ∈ [' ', '\t', '\n', '\r'], c ∉ ['{', '}', '"'] := by decide
  exact fun c hc => hall c (h c hc)

theorem IsDigits.bare {text : List Char} (h : IsDigits text) : IsBare text := by
  have hnone : ∀ c ∈ ['{', '}', '"'], c.isDigit = false := by decide
  intro c hc hmark
  simpa [hnone c hmark] using h.2 c hc

theorem bare_of_mem_jsonWords : ∀ text ∈ jsonWords, IsBare text := by
  unfold IsBare
  decide

/-- A number has neither braces nor quotes. -/
theorem JsonNumber.bare {text : List Char} (h : JsonNumber text) : IsBare text := by
  have hsigns : IsBare [] ∧ IsBare ['+'] ∧ IsBare ['-'] ∧ IsBare ['0'] := by
    unfold IsBare
    decide
  obtain ⟨hnil, hplus, hminus, hzero⟩ := hsigns
  obtain ⟨hsign, hwhole, hfraction, hexponent⟩ := h
  refine IsBare.append ?_ (IsBare.append ?_ (IsBare.append ?_ ?_))
  · rcases hsign with rfl | rfl
    · exact hnil
    · exact hminus
  · rcases hwhole with rfl | ⟨hdigits, -⟩
    · exact hzero
    · exact hdigits.bare
  · rcases hfraction with rfl | ⟨digits, hdigits, rfl⟩
    · exact hnil
    · exact hdigits.bare.cons (by decide)
  · rcases hexponent with rfl | ⟨e, sign, digits, he, hsign, hdigits, rfl⟩
    · exact hnil
    · have hletter : ∀ c ∈ ['e', 'E'], c ∉ ['{', '}', '"'] := by decide
      refine IsBare.cons (hletter e he) (IsBare.append ?_ hdigits.bare)
      rcases hsign with rfl | rfl | rfl
      · exact hnil
      · exact hplus
      · exact hminus

/-- The characters of a string may stand between quotes. -/
theorem JsonChars.quotable {chars : List Char} (h : JsonChars chars) : jsonMarks.Quotable chars := by
  induction h with
  | nil => exact .nil
  | plain _ hquote hescape _ ih => exact .plain hescape hquote ih
  | escaped _ _ ih => exact .escaped _ ih
  | @unit hex rest hlength hhex _ ih =>
    clear hlength
    refine .escaped 'u' ?_
    have hnot : ∀ c ∈ ['\\', '"'], c.isDigit = false ∧ c ∉ "abcdefABCDEF".toList := by decide
    induction hex with
    | nil => exact ih
    | cons c hex ihhex =>
      obtain ⟨hc, hmore⟩ := List.forall_mem_cons.mp hhex
      have hother : ∀ d ∈ ['\\', '"'], c ≠ d := by
        rintro d hd rfl
        obtain ⟨hdigit, hletter⟩ := hnot c hd
        rcases hc with hc | hc
        · rw [hdigit] at hc
          cases hc
        · exact hletter hc
      exact .plain (hother _ (by decide)) (hother _ (by decide)) (ihhex hmore)

theorem IsJsonString.neutral {text : List Char} (h : IsJsonString text) :
    jsonMarks.Neutral text := by
  obtain ⟨chars, hchars, rfl⟩ := h
  exact hchars.quotable.neutral (by decide)

/-- Every JSON text leaves the scanner as it found it. -/
theorem JsonText.neutral {kind : JsonKind} {text : List Char} (h : JsonText kind text) :
    jsonMarks.Neutral text := by
  have hmark : ∀ c ∈ [',', ':', '[', ']'], jsonMarks.Neutral [c] := by
    have hnone : ∀ c ∈ [',', ':', '[', ']'], IsBare [c] := by
      unfold IsBare
      decide
    exact fun c hc => (hnone c hc).neutral
  have hcomma := hmark ',' (by decide)
  have hcolon := hmark ':' (by decide)
  have hlist : ∀ {inner}, jsonMarks.Neutral inner → jsonMarks.Neutral ('[' :: (inner ++ [']'])) :=
    fun hinner => (hmark '[' (by decide)).append (hinner.append (hmark ']' (by decide)))
  induction h with
  | word h => exact (bare_of_mem_jsonWords _ h).neutral
  | number h => exact h.bare.neutral
  | string h => exact h.neutral
  | object _ ih => exact ih
  | emptyList h => exact hlist h.bare.neutral
  | list _ ih => exact hlist ih
  | emptyDict h => exact h.bare.neutral.enclosed (by decide) (by decide)
  | dict _ ih => exact ih.enclosed (by decide) (by decide)
  | item hbefore _ hbehind ih => exact hbefore.bare.neutral.append (ih.append hbehind.bare.neutral)
  | moreItems _ _ ihfirst ihrest => exact ihfirst.append (hcomma.append ihrest)
  | member hbefore hkey hbetween hafter _ hbehind ih =>
    have hvalue := hafter.bare.neutral.append (ih.append hbehind.bare.neutral)
    exact hbefore.bare.neutral.append
      (hkey.neutral.append (hbetween.bare.neutral.append (hcolon.append hvalue)))
  | moreMembers _ _ ihfirst ihrest => exact ihfirst.append (hcomma.append ihrest)

/-- An object is a group: its last brace closes its first. -/
theorem JsonText.group {text : List Char} (h : JsonText .object text) :
    Group (jsonMarks.braces .outside text) := by
  cases h with
  | emptyDict h => exact h.bare.neutral.group (by decide) (by decide)
  | dict h => exact h.neutral.group (by decide) (by decide)

/-! ### The scanner -/

/-- The loop counts the braces of the text. -/
theorem balancedObject_eq (depth : ℤ) (mode : QuoteMode) (text : List Char) :
    balancedObject depth (mode ≠ .outside) (mode = .escaped) text
      = (closedAt depth (jsonMarks.braces mode text)).map text.take := by
  induction text generalizing depth mode with
  | nil => rfl
  | cons c rest ih =>
    have hgo : ∀ (depth : ℤ) (mode : QuoteMode),
        (balancedObject depth (mode ≠ .outside) (mode = .escaped) rest).map (c :: ·)
          = ((closedAt depth (jsonMarks.braces mode rest)).map (· + 1)).map (c :: rest).take := by
      intro depth mode
      rw [ih, Option.map_map, Option.map_map]
      rfl
    cases mode with
    | escaped => exact hgo depth .inside
    | inside =>
      by_cases hescape : c = '\\'
      · subst hescape
        exact hgo depth .escaped
      · by_cases hquote : c = '"'
        · subst hquote
          exact hgo depth .outside
        · have hnext : jsonMarks.next .inside c = .inside := by
            simp [BraceMarks.next, jsonMarks, hescape, hquote]
          have hmore := hgo depth .inside
          rw [BraceMarks.braces, hnext]
          simpa [balancedObject, BraceMarks.brace, closedAt, hescape, hquote] using hmore
    | outside =>
      by_cases hquote : c = '"'
      · subst hquote
        exact hgo depth .inside
      · have hnext : jsonMarks.next .outside c = .outside := by
          simp [BraceMarks.next, jsonMarks, hquote]
        rw [BraceMarks.braces, hnext]
        by_cases hopening : c = '{'
        · subst hopening
          exact hgo (depth + 1) .outside
        · by_cases hclosing : c = '}'
          · subst hclosing
            by_cases hzero : depth - 1 = 0
            · simp [balancedObject, BraceMarks.brace, jsonMarks, closedAt, hzero]
            · have hmore := hgo (depth - 1) .outside
              simpa [balancedObject, BraceMarks.brace, jsonMarks, closedAt, hzero] using hmore
          · have hmore := hgo depth .outside
            simpa [balancedObject, BraceMarks.brace, jsonMarks, closedAt, hquote, hopening,
              hclosing] using hmore

/-! ### What is extracted -/

/-- `extract_balanced_json_object(text, start)`. -/
def extractBalancedJsonObjectAt (text : List Char) (start : ℕ) : Except PyException String :=
  extractBalancedJsonObject (text.drop start)

/-- The braces of a text, those in strings left aside. -/
def jsonBraces (text : List Char) : List (Brace Char) := jsonMarks.braces .outside text

variable {text object : List Char} {start : ℕ}

/-- The scanner takes the text up to the first closing brace that makes the count zero. -/
theorem extractBalancedJsonObjectAt_eq (text : List Char) (start : ℕ) :
    extractBalancedJsonObjectAt text start =
      match closedAt 0 (jsonBraces (text.drop start)) with
      | some n => .ok (String.ofList ((text.drop start).take n))
      | none => .error (.plain "ValueError" "unterminated JSON object") := by
  have hscan : balancedObject 0 false false (text.drop start)
      = (closedAt 0 (jsonBraces (text.drop start))).map (text.drop start).take :=
    balancedObject_eq 0 .outside (text.drop start)
  rw [extractBalancedJsonObjectAt, extractBalancedJsonObject, hscan]
  cases closedAt 0 (jsonBraces (text.drop start)) <;> rfl

/-- What is extracted at a place: the shortest text from there that a closing brace ends and that
    has as many opening braces as closing ones. What follows has no part in it. Unless a closing
    brace comes first, its last brace closes its first one. -/
structure Extracted (text : List Char) (start : ℕ) (object : List Char) : Prop where
  front : object <+: text.drop start
  even : EndsAtZero 0 (jsonBraces object)
  shortest : ∀ shorter, shorter <+: object → shorter ≠ object →
    ¬ EndsAtZero 0 (jsonBraces shorter)
  unread : ∀ rest, extractBalancedJsonObjectAt (text.take start ++ (object ++ rest)) start
    = .ok (String.ofList object)
  group : ¬ ClosesFirst (jsonBraces (text.drop start)) → Group (jsonBraces object)

/-- A front that ends at zero, and none before it, is where the scanner stops. -/
theorem extractBalancedJsonObjectAt_append (front object rest : List Char)
    (h : ∀ more, closedAt 0 (jsonBraces object ++ more) = some object.length) :
    extractBalancedJsonObjectAt (front ++ (object ++ rest)) front.length
      = .ok (String.ofList object) := by
  have hbraces : jsonBraces (object ++ rest)
      = jsonBraces object ++ jsonMarks.braces (jsonMarks.modeAfter .outside object) rest :=
    BraceMarks.braces_append .outside object rest
  rw [extractBalancedJsonObjectAt_eq, List.drop_left, hbraces, h]
  dsimp only
  rw [List.take_left]

/-- An object is extracted whole from any text it stands in. -/
theorem extractBalancedJsonObjectAt_of_object (front rest : List Char)
    (h : JsonText .object object) : extractBalancedJsonObjectAt (front ++ (object ++ rest))
      front.length = .ok (String.ofList object) := by
  refine extractBalancedJsonObjectAt_append front object rest fun more => ?_
  rw [jsonBraces, h.group.closedAt_append, BraceMarks.length_braces]

theorem extracted_of_closedAt {n : ℕ} (h : closedAt 0 (jsonBraces (text.drop start)) = some n) :
    Extracted text start ((text.drop start).take n) := by
  obtain ⟨hle, hends, hfirst⟩ := closedAt_eq_some_iff.mp h
  have htake : ∀ k, jsonBraces ((text.drop start).take k)
      = (jsonBraces (text.drop start)).take k := BraceMarks.braces_take .outside (text.drop start)
  have hlength : ((text.drop start).take n).length = n := by
    have hle : n ≤ (text.drop start).length := by
      simpa [jsonBraces] using hle
    rw [List.length_take]
    omega
  refine ⟨List.take_prefix _ _, ?_, fun shorter hshorter hne => ?_, fun rest => ?_, fun hopens => ?_⟩
  · rwa [htake]
  · have hlt : shorter.length < n := by
      have hshort := hshorter.length_le
      have hsame : shorter.length ≠ n := fun heq =>
        hne (hshorter.eq_of_length (heq.trans hlength.symm))
      omega
    have hfront := List.prefix_iff_eq_take.mp (hshorter.trans (List.take_prefix n _))
    rw [hfront, htake]
    exact hfirst _ hlt
  · have hstart : (text.take start).length = start := by
      have hle : start ≤ text.length := by
        by_contra hlt
        rw [List.drop_of_length_le (by omega)] at h
        cases h
      rw [List.length_take]
      omega
    have hextract := extractBalancedJsonObjectAt_append (text.take start) ((text.drop start).take n)
      rest fun more => by
        rw [htake, hlength]
        exact closedAt_take_append h more
    rwa [hstart] at hextract
  · rw [htake]
    exact group_of_closedAt hopens h

/-- An object is extracted whole from any text it stands in. Elsewhere nothing is extracted, or what
    ends at the first closing brace that makes the count zero. -/
theorem extractBalancedJsonObjectAt_spec :
    (∀ front object rest, JsonText .object object →
      extractBalancedJsonObjectAt (front ++ (object ++ rest)) front.length
        = .ok (String.ofList object)) ∧
    ∀ text start,
      (extractBalancedJsonObjectAt text start
          = .error (.plain "ValueError" "unterminated JSON object") ∧
        ∀ front, front <+: text.drop start → ¬ EndsAtZero 0 (jsonBraces front)) ∨
      ∃ object, extractBalancedJsonObjectAt text start = .ok (String.ofList object) ∧
        Extracted text start object := by
  refine ⟨fun front object rest => extractBalancedJsonObjectAt_of_object front rest,
    fun text start => ?_⟩
  rw [extractBalancedJsonObjectAt_eq]
  cases hclosed : closedAt 0 (jsonBraces (text.drop start)) with
  | none =>
    refine .inl ⟨rfl, fun front hfront => ?_⟩
    have hnever := closedAt_eq_none_iff.mp hclosed front.length
    rwa [jsonBraces, ← BraceMarks.braces_take, ← List.prefix_iff_eq_take.mp hfront] at hnever
  | some n => exact .inr ⟨_, rfl, extracted_of_closedAt hclosed⟩

/-- An object with a brace in a string is extracted from a script. -/
theorem object_in_script : extractBalancedJsonObjectAt "a = \x7b\"b\": \"\x7d\"\x7d;".toList 4
    = .ok "\x7b\"b\": \"\x7d\"\x7d" := by
  have hplain : ∀ c ∈ ['b', '}'], ' ' ≤ c ∧ c ≠ '"' ∧ c ≠ '\\' := by decide
  have hstring : ∀ c ∈ ['b', '}'], IsJsonString ['"', c, '"'] := by
    intro c hc
    obtain ⟨hcontrol, hquote, hescape⟩ := hplain c hc
    exact ⟨[c], .plain hcontrol hquote hescape .nil, rfl⟩
  have hblank : IsJsonBlank [] ∧ IsJsonBlank [' '] := by
    unfold IsJsonBlank
    decide
  have hobject : JsonText .object "\x7b\"b\": \"\x7d\"\x7d".toList :=
    .dict (.member hblank.1 (hstring 'b' (by decide)) hblank.1 hblank.2
      (.string (hstring '}' (by decide))) hblank.1)
  exact extractBalancedJsonObjectAt_spec.1 "a = ".toList _ ";".toList hobject

/-- Behind a closing brace that comes first, what is extracted need not be balanced. -/
theorem closing_brace_first : ¬ ∀ (text : List Char) (start : ℕ),
    (∃ exc, extractBalancedJsonObjectAt text start = .error exc) ∨
      ∃ object, extractBalancedJsonObjectAt text start = .ok (String.ofList object) ∧
        object <+: text.drop start ∧ WellNested (jsonBraces object) := by
  intro h
  have hfound : extractBalancedJsonObjectAt "\x7d\x7b\x7b\x7d".toList 0 = .ok "\x7d\x7b\x7b\x7d" := by rfl
  rcases h "\x7d\x7b\x7b\x7d".toList 0 with ⟨exc, hexc⟩ | ⟨object, hobject, -, hnested⟩
  · rw [hfound] at hexc
    cases hexc
  · rw [hfound, Except.ok.injEq] at hobject
    obtain rfl : "\x7d\x7b\x7b\x7d".toList = object := by
      rw [hobject, String.toList_ofList]
    exact absurd (wellNested_iff.mp hnested) (by decide)

/-! ### The search page -/

/-- What a search page says behind the object of its search data is not read. -/
theorem jobstreetPayloadFromSearchPage_of_object {loads : JsonLoads} {html : String}
    {before object rest : List Char} (hobject : JsonText .object object)
    (h : splitAtFirst "window.SEEK_REDUX_DATA = ".toList html.toList
      = some (before, object ++ rest)) :
    jobstreetPayloadFromSearchPage loads html
      = (loads.ofText (String.ofList object)).bind searchPayload := by
  have hextract : extractBalancedJsonObject (object ++ rest) = .ok (String.ofList object) :=
    extractBalancedJsonObjectAt_of_object [] rest hobject
  unfold jobstreetPayloadFromSearchPage
  rw [h]
  dsimp only
  rw [hextract]
  rfl

end Bisakerja
