import BisakerjaScraper.Backend.Payloads
import BisakerjaScraper.Python.Patterns
import BisakerjaScraper.Schemes.Mask
import BisakerjaScraper.Schemes.Words
import BisakerjaScraper.Shared.Text

/-! Redacting a text.

    Whitespace is made single blanks, and then two patterns put stars for what stands behind
    `bearer` and behind the `=` of a key. A token is a word of the text, a query stands within one:
    redaction goes word by word. -/

namespace Bisakerja
open Schemes

/-! ### Redaction -/

/-- `***`. -/
def stars : List Char := ['*', '*', '*']

/-- A match of `SENSITIVE_TOKEN_PATTERN`, `(bearer\s+)[^\s]+`, at the front of a text. -/
def tokenAt (text : List Char) : Option (ℕ × ℕ) :=
  (literal "bearer".toList text).bind fun rest =>
    let spaces := rest.takeWhile isSpace
    let value := (rest.dropWhile isSpace).takeWhile (!isSpace ·)
    if spaces = [] ∨ value = [] then none
    else some ("bearer".toList.length + spaces.length, value.length)

/-- The alternatives of `SENSITIVE_QUERY_PATTERN`. -/
def queryKeys : List (List Char) :=
  ["token=".toList, "password=".toList, "secret=".toList, "key=".toList]

/-- `[^&\s]`. -/
def isQueryValue (c : Char) : Bool := c ≠ '&' && !isSpace c

/-- A match of `SENSITIVE_QUERY_PATTERN`, `((token|password|secret|key)=)[^&\s]+`, at the front of a
    text. -/
def queryAt (text : List Char) : Option (ℕ × ℕ) :=
  queryKeys.findSome? fun key => (literal key text).bind fun rest =>
    let value := rest.takeWhile isQueryValue
    if value = [] then none else some (key.length, value.length)

/-- `SENSITIVE_TOKEN_PATTERN.sub(r"\1***", text)`. -/
def redactTokens (text : List Char) : List Char := masked tokenAt stars text

/-- `SENSITIVE_QUERY_PATTERN.sub(r"\1***", text)`. -/
def redactQueries (text : List Char) : List Char := masked queryAt stars text

/-- `" ".join(text.strip().split())`. -/
def compactText (text : String) : String :=
  joinText " " ((words isSpace (strip text).toList).map String.ofList)

/-- `redact_text`. -/
def redactText (text : String) : String :=
  String.ofList (redactQueries (redactTokens (compactText text).toList))

/-! ### Literals -/

/-- A literal ends before an element that it does not have. -/
theorem literal_append_stop {letters : List Char} {c : Char} (hc : foldLetter c ∉ letters)
    (text rest : List Char) :
    literal letters (text ++ c :: rest) = (literal letters text).map (· ++ c :: rest) := by
  induction letters generalizing text with
  | nil => simp [literal]
  | cons letter letters ih =>
    obtain ⟨hne, hmore⟩ := not_or.mp (List.mem_cons.not.mp hc)
    cases text with
    | nil => simp [literal, hne]
    | cons d text =>
      simp only [List.cons_append, literal]
      by_cases hd : foldLetter d = letter
      · simpa [hd] using ih hmore text
      · simp [hd]

theorem literal_append_of_some {letters text rest : List Char}
    (h : literal letters text = some rest) (more : List Char) :
    literal letters (text ++ more) = some (rest ++ more) := by
  induction letters generalizing text with
  | nil =>
    cases h
    rfl
  | cons letter letters ih =>
    cases text with
    | nil => cases h
    | cons c text =>
      rw [literal] at h
      rw [List.cons_append, literal]
      by_cases hc : foldLetter c = letter
      · rw [if_pos hc] at h ⊢
        exact ih h
      · rw [if_neg hc] at h
        cases h

/-- A literal takes as many characters as it has letters. -/
theorem eq_append_of_literal {letters text rest : List Char}
    (h : literal letters text = some rest) :
    ∃ front, text = front ++ rest ∧ front.length = letters.length ∧
      literal letters front = some [] := by
  induction letters generalizing text with
  | nil =>
    cases h
    exact ⟨[], rfl, rfl, rfl⟩
  | cons letter letters ih =>
    cases text with
    | nil => cases h
    | cons c text =>
      rw [literal] at h
      by_cases hc : foldLetter c = letter
      · rw [if_pos hc] at h
        obtain ⟨front, rfl, hlength, hfront⟩ := ih h
        exact ⟨c :: front, rfl, by simp [hlength], by simp [literal, hc, hfront]⟩
      · rw [if_neg hc] at h
        cases h

theorem literal_eq_some_nil_iff {letters text : List Char} :
    literal letters text = some [] ↔ text.map foldLetter = letters := by
  induction letters generalizing text with
  | nil => simp [literal]
  | cons letter letters ih =>
    cases text with
    | nil => simp [literal]
    | cons c text => by_cases hc : foldLetter c = letter <;> simp [literal, hc, ih]

theorem head?_of_literal {letters text rest : List Char} (hne : letters ≠ [])
    (h : literal letters text = some rest) : text.head?.map foldLetter = letters.head? := by
  cases letters with
  | nil => exact absurd rfl hne
  | cons letter letters =>
    cases text with
    | nil => cases h
    | cons c text =>
      rw [literal] at h
      by_cases hc : foldLetter c = letter
      · simp [hc]
      · rw [if_neg hc] at h
        cases h

theorem takeWhile_ne_nil_iff {p : Char → Bool} {text : List Char} :
    text.takeWhile p ≠ [] ↔ ∃ c ∈ text.head?, p c = true := by
  cases text with
  | nil => simp
  | cons c text => cases hc : p c <;> simp [hc]

/-! ### The pattern of queries -/

theorem queryKeys_ne_nil : ∀ key ∈ queryKeys, key ≠ [] := by decide

theorem star_not_mem_queryKeys : ∀ key ∈ queryKeys, foldLetter '*' ∉ key := by decide

theorem space_not_mem_queryKeys : ∀ key ∈ queryKeys, foldLetter ' ' ∉ key := by decide

/-- No two keys begin alike. -/
theorem queryKeys_unique : ∀ key ∈ queryKeys, ∀ other ∈ queryKeys,
    key.head? = other.head? → key = other := by decide

/-- A match is a key and a value. -/
theorem queryAt_eq_some_iff {text : List Char} {kept dropped : ℕ} :
    queryAt text = some (kept, dropped) ↔ ∃ key ∈ queryKeys, ∃ rest,
      literal key text = some rest ∧ rest.takeWhile isQueryValue ≠ [] ∧ kept = key.length ∧
        dropped = (rest.takeWhile isQueryValue).length := by
  have hmatch : ∀ {key found}, ((literal key text).bind fun rest =>
      let value := rest.takeWhile isQueryValue
      if value = [] then none else some (key.length, value.length)) = some found ↔
        ∃ rest, literal key text = some rest ∧ rest.takeWhile isQueryValue ≠ [] ∧
          found = (key.length, (rest.takeWhile isQueryValue).length) := by
    intro key found
    rw [Option.bind_eq_some_iff]
    refine exists_congr fun rest => and_congr_right fun _ => ?_
    dsimp only
    by_cases hvalue : rest.takeWhile isQueryValue = []
    · simp [hvalue]
    · simp [hvalue, eq_comm]
  constructor
  · intro h
    obtain ⟨key, hkey, hfound⟩ := List.exists_of_findSome?_eq_some h
    obtain ⟨rest, hrest, hvalue, heq⟩ := hmatch.mp hfound
    cases heq
    exact ⟨key, hkey, rest, hrest, hvalue, rfl, rfl⟩
  · rintro ⟨key, hkey, rest, hrest, hvalue, rfl, rfl⟩
    cases hquery : queryAt text with
    | none =>
      have hnone := List.findSome?_eq_none_iff.mp hquery key hkey
      rw [hmatch.mpr ⟨rest, hrest, hvalue, rfl⟩] at hnone
      cases hnone
    | some found =>
      obtain ⟨other, hother, hfound⟩ := List.exists_of_findSome?_eq_some hquery
      obtain ⟨rest', hrest', -, rfl⟩ := hmatch.mp hfound
      obtain rfl := queryKeys_unique key hkey other hother
        ((head?_of_literal (queryKeys_ne_nil key hkey) hrest).symm.trans
          (head?_of_literal (queryKeys_ne_nil other hother) hrest'))
      rw [hrest] at hrest'
      cases hrest'
      rfl

theorem bounds_queryAt : MaskBounds queryAt where
  kept_pos text kept dropped h := by
    obtain ⟨key, hkey, _, _, _, rfl, _⟩ := queryAt_eq_some_iff.mp h
    exact List.length_pos_iff.mpr (queryKeys_ne_nil key hkey)
  le_length text kept dropped h := by
    obtain ⟨key, _, rest, hrest, _, rfl, rfl⟩ := queryAt_eq_some_iff.mp h
    obtain ⟨front, rfl, hlength, -⟩ := eq_append_of_literal hrest
    have hle := (List.takeWhile_prefix (l := rest) isQueryValue).length_le
    rw [List.length_append]
    omega

/-- A literal in a redacted text stands in the text, too, and has a value behind it there. -/
theorem literal_redactQueries {letters text out : List Char} (hstar : foldLetter '*' ∉ letters)
    (h : literal letters (redactQueries text) = some out) :
    ∃ rest, literal letters text = some rest ∧
      (out.takeWhile isQueryValue ≠ [] → rest.takeWhile isQueryValue ≠ []) := by
  induction letters generalizing text with
  | nil =>
    cases h
    refine ⟨text, rfl, fun hvalue => ?_⟩
    rw [takeWhile_ne_nil_iff] at hvalue ⊢
    rwa [redactQueries, head?_masked bounds_queryAt] at hvalue
  | cons letter letters ih =>
    cases text with
    | nil => cases h
    | cons c text =>
      cases hfound : queryAt (c :: text) with
      | none =>
        rw [redactQueries, masked_of_none hfound, literal] at h
        by_cases hc : foldLetter c = letter
        · rw [if_pos hc] at h
          obtain ⟨rest, hrest, hvalue⟩ := ih (fun hmem => hstar (List.mem_cons_of_mem _ hmem)) h
          exact ⟨rest, by rw [literal, if_pos hc, hrest], hvalue⟩
        · rw [if_neg hc] at h
          cases h
      | some found =>
        -- the literal ends before the stars, in what the match keeps
        obtain ⟨kept, dropped⟩ := found
        obtain ⟨key, _, rest, hrest, hvalue, rfl, rfl⟩ := queryAt_eq_some_iff.mp hfound
        obtain ⟨front, htext, hlength, -⟩ := eq_append_of_literal hrest
        have hkept : (c :: text).take key.length = front := by
          rw [htext, ← hlength, List.take_left]
        rw [redactQueries, masked_of_some bounds_queryAt hfound, hkept, List.append_assoc,
          stars, List.cons_append, literal_append_stop hstar] at h
        obtain ⟨r, hr, rfl⟩ := Option.map_eq_some_iff.mp h
        refine ⟨r ++ rest, by rw [htext]; exact literal_append_of_some hr rest, fun hout => ?_⟩
        cases r with
        | nil => exact hvalue
        | cons d r =>
          rw [takeWhile_ne_nil_iff] at hout ⊢
          exact hout

/-- Redacted queries are redacted. -/
theorem redactQueries_redactQueries (text : List Char) :
    redactQueries (redactQueries text) = redactQueries text := by
  refine masked_masked bounds_queryAt ?_ ?_ text
  · intro text kept dropped h
    obtain ⟨key, hkey, rest, hrest, -, rfl, rfl⟩ := queryAt_eq_some_iff.mp h
    obtain ⟨front, rfl, hlength, hfront⟩ := eq_append_of_literal hrest
    have hafter : (front ++ rest).drop (key.length + (rest.takeWhile isQueryValue).length)
        = rest.dropWhile isQueryValue := by
      rw [← hlength, List.drop_length_add_append]
      calc rest.drop (rest.takeWhile isQueryValue).length
          = (rest.takeWhile isQueryValue ++ rest.dropWhile isQueryValue).drop
              (rest.takeWhile isQueryValue).length := by rw [List.takeWhile_append_dropWhile]
        _ = rest.dropWhile isQueryValue := List.drop_left
    have hstop : ∀ c ∈ (masked queryAt stars (rest.dropWhile isQueryValue)).head?,
        isQueryValue c = false := by
      rw [head?_masked bounds_queryAt]
      intro c hc
      have hhead := List.head?_dropWhile_not isQueryValue rest
      rw [Option.mem_def.mp hc] at hhead
      simpa using hhead
    have hstars : (stars ++ masked queryAt stars (rest.dropWhile isQueryValue)).takeWhile
        isQueryValue = stars := (span_front (by decide) hstop).1
    rw [hafter, ← hlength, List.take_left, hlength]
    refine queryAt_eq_some_iff.mpr ⟨key, hkey, stars ++ masked queryAt stars
      (rest.dropWhile isQueryValue), ?_, ?_, rfl, ?_⟩
    · rw [List.append_assoc]
      exact literal_append_of_some hfront _
    · rw [hstars]
      decide
    · rw [hstars]
  · intro c rest hnone
    cases hfound : queryAt (c :: masked queryAt stars rest) with
    | none => rfl
    | some found =>
      -- a match of the redacted text would have been one before
      obtain ⟨kept, dropped⟩ := found
      obtain ⟨key, hkey, out, hout, hvalue, rfl, rfl⟩ := queryAt_eq_some_iff.mp hfound
      obtain ⟨letter, letters, rfl⟩ := List.exists_cons_of_ne_nil (queryKeys_ne_nil key hkey)
      rw [literal] at hout
      by_cases hc : foldLetter c = letter
      · rw [if_pos hc] at hout
        have hstar := star_not_mem_queryKeys _ hkey
        obtain ⟨rest', hrest', hvalue'⟩ := literal_redactQueries
          (fun hmem => hstar (List.mem_cons_of_mem _ hmem)) hout
        have hliteral : literal (letter :: letters) (c :: rest) = some rest' := by
          rw [literal, if_pos hc, hrest']
        have hmatch := queryAt_eq_some_iff.mpr
          ⟨letter :: letters, hkey, rest', hliteral, hvalue' hvalue, rfl, rfl⟩
        rw [hnone] at hmatch
        cases hmatch
      · rw [if_neg hc] at hout
        cases hout

/-- Queries are redacted word by word. -/
theorem redactQueries_append_space {word : List Char} (hword : ' ' ∉ word) (rest : List Char) :
    redactQueries (word ++ ' ' :: rest) = redactQueries word ++ ' ' :: redactQueries rest := by
  have hliteral : ∀ key ∈ queryKeys, ∀ word rest : List Char,
      literal key (word ++ ' ' :: rest) = (literal key word).map (· ++ ' ' :: rest) :=
    fun key hkey word rest => literal_append_stop (space_not_mem_queryKeys key hkey) word rest
  have htake : ∀ front rest : List Char,
      (front ++ ' ' :: rest).takeWhile isQueryValue = front.takeWhile isQueryValue :=
    fun front rest => (span_append (fun c hc => by
      obtain rfl : ' ' = c := by simpa using hc
      decide) front).1
  have hlocal : ∀ word rest : List Char, queryAt (word ++ ' ' :: rest) = queryAt word := by
    intro word rest
    ext found
    obtain ⟨kept, dropped⟩ := found
    simp only [queryAt_eq_some_iff]
    constructor
    · rintro ⟨key, hkey, out, hout, hvalue, rfl, rfl⟩
      rw [hliteral key hkey] at hout
      obtain ⟨front, hfront, rfl⟩ := Option.map_eq_some_iff.mp hout
      rw [htake] at hvalue ⊢
      exact ⟨key, hkey, front, hfront, hvalue, rfl, rfl⟩
    · rintro ⟨key, hkey, front, hfront, hvalue, rfl, rfl⟩
      refine ⟨key, hkey, front ++ ' ' :: rest, ?_, ?_, rfl, ?_⟩
      · rw [hliteral key hkey, hfront, Option.map_some]
      · rwa [htake]
      · rw [htake]
  have hsep : ∀ rest, queryAt (' ' :: rest) = none := fun rest => hlocal [] rest
  exact masked_append_sep bounds_queryAt hsep (fun word rest _ => hlocal word rest) hword rest

/-! ### The pattern of tokens -/

/-- A match is the word `bearer`, spaces and a value. -/
theorem tokenAt_eq_some_iff {text : List Char} {kept dropped : ℕ} :
    tokenAt text = some (kept, dropped) ↔ ∃ rest, literal "bearer".toList text = some rest ∧
      rest.takeWhile isSpace ≠ [] ∧ (rest.dropWhile isSpace).takeWhile (!isSpace ·) ≠ [] ∧
      kept = "bearer".toList.length + (rest.takeWhile isSpace).length ∧
      dropped = ((rest.dropWhile isSpace).takeWhile (!isSpace ·)).length := by
  unfold tokenAt
  rw [Option.bind_eq_some_iff]
  refine exists_congr fun rest => and_congr_right fun _ => ?_
  dsimp only
  by_cases hspaces : rest.takeWhile isSpace = []
  · simp [hspaces]
  by_cases hvalue : (rest.dropWhile isSpace).takeWhile (!isSpace ·) = []
  · simp [hvalue]
  rw [if_neg (not_or.mpr ⟨hspaces, hvalue⟩)]
  simp only [hspaces, hvalue, ne_eq, not_false_eq_true, true_and, Option.some.injEq, Prod.mk.injEq]
  exact and_congr eq_comm eq_comm

theorem bounds_tokenAt : MaskBounds tokenAt where
  kept_pos text kept dropped h := by
    obtain ⟨rest, _, hspaces, _, rfl, _⟩ := tokenAt_eq_some_iff.mp h
    have hpos := List.length_pos_iff.mpr hspaces
    omega
  le_length text kept dropped h := by
    obtain ⟨rest, hrest, _, _, rfl, rfl⟩ := tokenAt_eq_some_iff.mp h
    obtain ⟨front, rfl, hlength, -⟩ := eq_append_of_literal hrest
    have hsplit := congrArg List.length
      (List.takeWhile_append_dropWhile (p := isSpace) (l := rest))
    have hle := (List.takeWhile_prefix (l := rest.dropWhile isSpace) (!isSpace ·)).length_le
    rw [List.length_append] at hsplit ⊢
    omega

theorem tokenAt_space (rest : List Char) : tokenAt (' ' :: rest) = none := rfl

/-- A word alone is no match. -/
theorem tokenAt_of_no_space {text : List Char} (h : ∀ c ∈ text, isSpace c = false) :
    tokenAt text = none := by
  cases hfound : tokenAt text with
  | none => rfl
  | some found =>
    obtain ⟨rest, hrest, hspaces, -⟩ := tokenAt_eq_some_iff.mp hfound
    obtain ⟨front, rfl, -, -⟩ := eq_append_of_literal hrest
    obtain ⟨c, hc, hspace⟩ := takeWhile_ne_nil_iff.mp hspaces
    rw [h c (List.mem_append_right _ (List.mem_of_mem_head? hc))] at hspace
    cases hspace

theorem redactTokens_of_no_space {text : List Char} (h : ∀ c ∈ text, isSpace c = false) :
    redactTokens text = text := by
  induction text with
  | nil => rfl
  | cons c text ih =>
    rw [redactTokens, masked_of_none (tokenAt_of_no_space h)]
    exact congrArg (c :: ·) (ih fun d hd => h d (List.mem_cons_of_mem c hd))

/-- The word ends in `bearer`. -/
def EndsBearer (word : List Char) : Prop := "bearer".toList <:+ word.map foldLetter

instance : DecidablePred EndsBearer := fun _ => inferInstanceAs (Decidable (_ <:+ _))

/-- A token is what stands behind a word that ends in `bearer`. -/
theorem redactTokens_pair {word value rest : List Char} (hword : ∀ c ∈ word, isSpace c = false)
    (hne : value ≠ []) (hvalue : ∀ c ∈ value, isSpace c = false)
    (hrest : ∀ c ∈ rest.head?, isSpace c = true) :
    redactTokens (word ++ ' ' :: (value ++ rest)) = word ++ ' ' ::
      if EndsBearer word then stars ++ redactTokens rest else redactTokens (value ++ rest) := by
  have hspaces : (' ' :: (value ++ rest)).takeWhile isSpace = [' '] ∧
      (' ' :: (value ++ rest)).dropWhile isSpace = value ++ rest := by
    have hblank : ∀ c ∈ [' '], isSpace c = true := by decide
    refine span_front hblank fun c hc => ?_
    obtain ⟨d, value, rfl⟩ := List.exists_cons_of_ne_nil hne
    obtain rfl : d = c := by simpa using hc
    exact hvalue d List.mem_cons_self
  have hfound : (value ++ rest).takeWhile (!isSpace ·) = value ∧
      (value ++ rest).dropWhile (!isSpace ·) = rest :=
    span_front (fun c hc => by simp [hvalue c hc]) fun c hc => by simp [hrest c hc]
  induction word with
  | nil =>
    have hends : ¬ EndsBearer [] := by decide
    rw [if_neg hends, List.nil_append, redactTokens, masked_of_none (tokenAt_space _)]
    rfl
  | cons c word ih =>
    obtain ⟨hc, hmore⟩ := List.forall_mem_cons.mp hword
    have hblank : foldLetter ' ' ∉ "bearer".toList := by decide
    have hliteral := literal_append_stop hblank (c :: word) (value ++ rest)
    by_cases hbearer : (c :: word).map foldLetter = "bearer".toList
    · -- the whole word is `bearer`
      have hends : EndsBearer (c :: word) := ⟨[], hbearer.symm⟩
      rw [literal_eq_some_nil_iff.mpr hbearer, Option.map_some, List.nil_append] at hliteral
      have hmatch := tokenAt_eq_some_iff.mpr ⟨_, hliteral, by simp [hspaces.1],
        by rwa [hspaces.2, hfound.1], rfl, rfl⟩
      have hlength : (c :: word).length = "bearer".toList.length := by
        rw [← hbearer, List.length_map]
      rw [hspaces.1, hspaces.2, hfound.1, ← hlength] at hmatch
      have htext : c :: word ++ ' ' :: (value ++ rest)
          = (c :: word ++ [' ']) ++ (value ++ rest) := by simp
      have hkept : (c :: word).length + [' '].length = (c :: word ++ [' ']).length := by simp
      rw [if_pos hends, redactTokens, masked_of_some bounds_tokenAt hmatch, htext, hkept,
        List.take_left, List.drop_length_add_append, List.drop_left]
      simp [redactTokens]
    · have hnone : tokenAt (c :: word ++ ' ' :: (value ++ rest)) = none := by
        cases htoken : tokenAt (c :: word ++ ' ' :: (value ++ rest)) with
        | none => rfl
        | some found =>
          obtain ⟨behind, hbehind, hspace, -⟩ := tokenAt_eq_some_iff.mp htoken
          rw [hliteral] at hbehind
          obtain ⟨front, hfront, rfl⟩ := Option.map_eq_some_iff.mp hbehind
          cases front with
          | nil => exact absurd (literal_eq_some_nil_iff.mp hfront) hbearer
          | cons d front =>
            obtain ⟨before, hsplit, -, -⟩ := eq_append_of_literal hfront
            obtain ⟨e, he, hspace⟩ := takeWhile_ne_nil_iff.mp hspace
            obtain rfl : d = e := by simpa using he
            rw [hword d (hsplit ▸ List.mem_append_right _ List.mem_cons_self)] at hspace
            cases hspace
      have hends : EndsBearer (c :: word) ↔ EndsBearer word := by
        unfold EndsBearer
        rw [List.map_cons, List.suffix_cons_iff]
        rw [List.map_cons] at hbearer
        exact or_iff_right (Ne.symm hbearer)
      rw [List.cons_append] at hnone ⊢
      rw [redactTokens, masked_of_none hnone, List.cons_append]
      refine congrArg (c :: ·) ?_
      simp only [hends]
      exact ih hmore

end Bisakerja
