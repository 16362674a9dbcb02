import BisakerjaScraper.Api.Jobs
import BisakerjaScraper.Python.Dumps
import BisakerjaScraper.Schemes.Wildcards
import BisakerjaScraper.Sync.Partition

/-! What the keyword and the location of the job list find.

    Both are put between two wildcards and held against columns by `ILIKE`. The payload is one
    column: its text is JSON, with the keys and the punctuation of JSON, and with an escape for
    every character that is not a printable one of ASCII. -/

namespace Bisakerja
open Schemes

/-! ### `ILIKE` -/

/-- The marks of a `LIKE` pattern. -/
def likeMarks : Marks Char := ⟨'%', '_', '\\'⟩

/-- `text ILIKE pattern`, given how letters are lowered. -/
def ilike (lower : Char → Char) (text pattern : String) : Bool :=
  match likeMarks.parse false pattern.toList with
  | some pieces => fits lower pieces text.toList
  | none => false

/-- A text without marks. -/
def wildcardFree (text : String) : Bool := text.toList.all likeMarks.isPlain

/-- The needle occurs in the text, letters lowered. -/
def Occurs (lower : Char → Char) (needle text : String) : Prop :=
  needle.toList.map lower <:+: text.toList.map lower

instance (lower : Char → Char) : DecidableRel (Occurs lower) := fun _ _ =>
  inferInstanceAs (Decidable (_ <:+: _))

/-! ### The text of a payload -/

section Dumping

variable (floats : FloatRepr)

mutual

/-- `json.dumps` of a value. -/
def dumpJson : Json → List Char
  | .null => "null".toList
  | .bool b => (if b then "true" else "false").toList
  | .int n => (toString n).toList
  | .float x => (floats.repr x).toList
  | .str s => quote s
  | .list xs => '[' :: dumpItems true xs
  | .dict entries => '{' :: dumpEntries true entries

/-- The items of a list up to its bracket. -/
def dumpItems : Bool → List Json → List Char
  | _, [] => [']']
  | first, x :: rest => (if first then [] else [',', ' ']) ++ dumpJson x ++ dumpItems false rest

/-- The entries of a dict up to its brace. -/
def dumpEntries : Bool → List (String × Json) → List Char
  | _, [] => ['}']
  | first, (key, value) :: rest =>
    (if first then [] else [',', ' ']) ++ quote key ++ [':', ' '] ++ dumpJson value ++
      dumpEntries false rest

end

/-- The payload as the database casts it to text. -/
def payloadText (payload : Dict) : String := String.ofList (dumpJson floats (.dict payload))

end Dumping

mutual

/-- The texts among the values of a payload. -/
def textsOf : Json → List String
  | .str s => [s]
  | .list xs => textsOfItems xs
  | .dict entries => textsOfEntries entries
  | _ => []

/-- The texts among the items of a list. -/
def textsOfItems : List Json → List String
  | [] => []
  | x :: rest => textsOf x ++ textsOfItems rest

/-- The texts among the values of a dict. -/
def textsOfEntries : List (String × Json) → List String
  | [] => []
  | (_, value) :: rest => textsOf value ++ textsOfEntries rest

end

/-- A character JSON writes as it is. -/
def isVerbatim (c : Char) : Bool := ' ' ≤ c && c ≤ '~' && c ≠ '"' && c ≠ '\\'

/-- The database of the service. -/
def searchDatabase (lower : Char → Char) (floats : FloatRepr) (isoformat : Time → String) :
    JobsDatabase where
  ilike := ilike lower
  payloadText := payloadText floats
  isoformat := isoformat

/-! ### What `ILIKE` finds -/

/-- A needle without marks is found where it occurs. -/
theorem ilike_likeNeedle (lower : Char → Char) (text : String) {value : String}
    (h : wildcardFree (strip value) = true) :
    ilike lower text (likeNeedle value) = true ↔ Occurs lower (strip value) text := by
  have hneedle : (likeNeedle value).toList
      = likeMarks.many :: ((strip value).toList ++ [likeMarks.many]) := by
    simp [likeNeedle, likeMarks]
  rw [ilike, hneedle, Marks.parse_surrounded h (by decide), Occurs]
  exact fits_surrounded_iff

/-! ### What the text of a payload holds -/

theorem escapeAscii_of_isVerbatim {c : Char} (h : isVerbatim c = true) : escapeAscii c = [c] := by
  simp only [isVerbatim, Bool.and_eq_true, decide_eq_true_eq] at h
  obtain ⟨⟨⟨hlow, hhigh⟩, hquote⟩, hbackslash⟩ := h
  have hnone : shortEscape c = none := by
    cases hshort : shortEscape c with
    | none => rfl
    | some letter =>
      have hall : ∀ e ∈ shortEscapes, isVerbatim e.1 = false := by decide
      have hc := hall _ (mem_shortEscapes hshort)
      simp [isVerbatim, hlow, hhigh, hquote, hbackslash] at hc
  rw [escapeAscii, hnone]
  exact if_pos ⟨hlow, hhigh⟩

/-- A text of such characters stands in quotes as it is. -/
theorem infix_quote {s : String} (h : s.toList.all isVerbatim = true) : s.toList <:+: quote s := by
  have hclosed : ∀ text : List Char, text.all isVerbatim = true →
      closed escapeAscii '"' text = text ++ ['"'] := by
    intro text htext
    induction text with
    | nil => rfl
    | cons c text ih =>
      simp only [List.all_cons, Bool.and_eq_true] at htext
      rw [closed, escapeAscii_of_isVerbatim htext.1, ih htext.2]
      rfl
  rw [quote, hclosed _ h]
  exact ⟨['"'], ['"'], rfl⟩

section Verbatim

variable (floats : FloatRepr) {s : String}

mutual

theorem infix_dumpJson (h : s.toList.all isVerbatim = true) :
    ∀ value : Json, s ∈ textsOf value → s.toList <:+: dumpJson floats value
  | .str t, hmem => by
    rw [textsOf, List.mem_singleton] at hmem
    subst hmem
    exact infix_quote h
  | .list xs, hmem => (infix_dumpItems h xs true hmem).trans (List.suffix_cons _ _).isInfix
  | .dict entries, hmem =>
    (infix_dumpEntries h entries true hmem).trans (List.suffix_cons _ _).isInfix
  | .null, hmem => by simp [textsOf] at hmem
  | .bool _, hmem => by simp [textsOf] at hmem
  | .int _, hmem => by simp [textsOf] at hmem
  | .float _, hmem => by simp [textsOf] at hmem

theorem infix_dumpItems (h : s.toList.all isVerbatim = true) :
    ∀ (xs : List Json) (first : Bool), s ∈ textsOfItems xs → s.toList <:+: dumpItems floats first xs
  | [], _, hmem => by simp [textsOfItems] at hmem
  | x :: rest, first, hmem => by
    rw [textsOfItems] at hmem
    rw [dumpItems]
    rcases List.mem_append.mp hmem with hx | hrest
    · exact (infix_dumpJson h x hx).trans ⟨_, _, rfl⟩
    · exact (infix_dumpItems h rest false hrest).trans (List.suffix_append _ _).isInfix

theorem infix_dumpEntries (h : s.toList.all isVerbatim = true) :
    ∀ (entries : List (String × Json)) (first : Bool), s ∈ textsOfEntries entries →
      s.toList <:+: dumpEntries floats first entries
  | [], _, hmem => by simp [textsOfEntries] at hmem
  | (key, value) :: rest, first, hmem => by
    rw [textsOfEntries] at hmem
    rw [dumpEntries]
    rcases List.mem_append.mp hmem with hvalue | hrest
    · exact (infix_dumpJson h value hvalue).trans ⟨_, _, rfl⟩
    · exact (infix_dumpEntries h rest false hrest).trans (List.suffix_append _ _).isInfix

end

/-- What occurs in such a text of a payload occurs in the text of the payload. -/
theorem Occurs.payloadText {lower : Char → Char} {needle : String} {payload : Dict}
    (h : s.toList.all isVerbatim = true) (hmem : s ∈ textsOf (.dict payload))
    (hoccurs : Occurs lower needle s) :
    Occurs lower needle (payloadText floats payload) := by
  have hinfix := (infix_dumpJson floats h (.dict payload) hmem).map lower
  rw [Occurs, Bisakerja.payloadText, String.toList_ofList]
  exact List.IsInfix.trans hoccurs hinfix

end Verbatim

/-! ### What the filters find -/

section Filters

variable (lower : Char → Char) (floats : FloatRepr) (isoformat : Time → String)

/-- The keyword finds a job exactly where its text stands: in the title, the company or a text of
    the payload. -/
def KeywordLiteral (keyword : String) (job : NormalizedJob) : Prop :=
  (searchDatabase lower floats isoformat).applyJobFilters { keyword := some keyword } job = true ↔
    Occurs lower (strip keyword) job.title ∨ Occurs lower (strip keyword) job.companyName ∨
      ∃ text ∈ textsOf (.dict job.normalizedPayload), Occurs lower (strip keyword) text

/-- The location finds a job exactly where its text stands in a location text of the payload. -/
def LocationLiteral (location : String) (job : NormalizedJob) : Prop :=
  (searchDatabase lower floats isoformat).applyJobFilters { location := some location } job = true ↔
    ∃ text ∈ textsOf (job.normalizedPayload.get "location"), Occurs lower (strip location) text

/-- What a job has to hold to be found, the payload taken as the text it is stored as. -/
structure FoundBy (filters : JobListFilters) (job : NormalizedJob) : Prop where
  platform : ∀ platform ∈ givenText filters.sourcePlatform, job.sourcePlatform = platform
  freshness : ∀ freshness ∈ givenText filters.freshness, job.status.value = freshness
  location : ∀ location ∈ filters.location,
    Occurs lower (strip location) (payloadText floats job.normalizedPayload)
  keyword : ∀ keyword ∈ filters.keyword,
    Occurs lower (strip keyword) job.title ∨ Occurs lower (strip keyword) job.companyName ∨
      Occurs lower (strip keyword) (payloadText floats job.normalizedPayload)

/-- The filters find by the stored text, and no text of the payload that JSON writes as it is stays
    unfound. -/
structure SearchesText (filters : JobListFilters) (job : NormalizedJob) : Prop where
  found : (searchDatabase lower floats isoformat).applyJobFilters filters job = true ↔
    FoundBy lower floats filters job
  verbatim : ∀ text ∈ textsOf (.dict job.normalizedPayload), text.toList.all isVerbatim = true →
    ∀ needle, Occurs lower needle text →
      Occurs lower needle (payloadText floats job.normalizedPayload)

variable {lower floats isoformat} {filters : JobListFilters} {job : NormalizedJob}

theorem occurs_empty (text : String) : Occurs lower (strip "") text := List.nil_infix

theorem forall_givenText_iff {value : Option String} {p : String → Prop} (hempty : p "") :
    (∀ text ∈ givenText value, p text) ↔ ∀ text ∈ value, p text := by
  cases value with
  | none => simp [givenText]
  | some text =>
    by_cases h : text = ""
    · simp [givenText, h, hempty]
    · simp [givenText, h]

/-- A keyword and a location without marks are found in the stored texts, whatever the platform and
    the freshness asked for. -/
theorem searchesText
    (hlocation : ∀ location ∈ filters.location, wildcardFree (strip location) = true)
    (hkeyword : ∀ keyword ∈ filters.keyword, wildcardFree (strip keyword) = true) :
    SearchesText lower floats isoformat filters job := by
  refine ⟨?_, fun text hmem htext needle => Occurs.payloadText floats htext hmem⟩
  have hloc : (∀ location ∈ givenText filters.location,
      ilike lower (payloadText floats job.normalizedPayload) (likeNeedle location) = true) ↔
        ∀ location ∈ filters.location,
          Occurs lower (strip location) (payloadText floats job.normalizedPayload) := by
    rw [forall_givenText_iff ((ilike_likeNeedle lower _ (by decide)).mpr (occurs_empty _))]
    exact forall₂_congr fun location hmem => ilike_likeNeedle lower _ (hlocation location hmem)
  have hkey : (∀ keyword ∈ givenText filters.keyword,
      (ilike lower job.title (likeNeedle keyword) ||
        ilike lower job.companyName (likeNeedle keyword) ||
        ilike lower (payloadText floats job.normalizedPayload) (likeNeedle keyword)) = true) ↔
        ∀ keyword ∈ filters.keyword, Occurs lower (strip keyword) job.title ∨
          Occurs lower (strip keyword) job.companyName ∨
          Occurs lower (strip keyword) (payloadText floats job.normalizedPayload) := by
    have hempty : ∀ text, ilike lower text (likeNeedle "") = true := fun text =>
      (ilike_likeNeedle lower text (by decide)).mpr (occurs_empty text)
    rw [forall_givenText_iff (by simp [hempty])]
    refine forall₂_congr fun keyword hmem => ?_
    have hiff := fun text => ilike_likeNeedle lower text (hkeyword keyword hmem)
    rw [Bool.or_eq_true, Bool.or_eq_true, hiff, hiff, hiff, or_assoc]
  unfold JobsDatabase.applyJobFilters
  simp only [searchDatabase, Bool.and_eq_true, Option.all_eq_true, decide_eq_true_eq]
  refine (and_congr (and_congr Iff.rfl hloc) hkey).trans ?_
  constructor
  · rintro ⟨⟨⟨hplatform, hfreshness⟩, hlocation⟩, hkeyword⟩
    exact ⟨hplatform, hfreshness, hlocation, hkeyword⟩
  · intro h
    exact ⟨⟨⟨h.platform, h.freshness⟩, h.location⟩, h.keyword⟩

end Filters

/-- A job in Jakarta. -/
def jakartaJob : NormalizedJob :=
  { plainJob "a" "Ac" 0 with
    normalizedPayload := [("location", .dict [("display", .str "Jakarta")]),
      ("description", .str "Go 100")] }

theorem searchesText_jakarta :
    SearchesText Char.toLower FloatRepr.fractions (fun t => toString t)
      { location := some " jakarta ", keyword := some "GO" } jakartaJob :=
  searchesText (by simp; decide +kernel) (by simp; decide +kernel)

/-- A location is found in any text and a keyword in a key; a percent sign is a wildcard. -/
theorem search_not_literal :
    ¬ LocationLiteral Char.toLower FloatRepr.fractions (fun t => toString t) "go" jakartaJob ∧
      ¬ KeywordLiteral Char.toLower FloatRepr.fractions (fun t => toString t) "display"
        jakartaJob ∧
      ¬ KeywordLiteral Char.toLower FloatRepr.fractions (fun t => toString t) "go%0"
        jakartaJob := by
  unfold LocationLiteral KeywordLiteral
  decide +kernel

end Bisakerja
