import BisakerjaScraper.Jobs.DefaultsRaise
import BisakerjaScraper.Jobs.SalaryAgain

/-! Locations that are normalized again.

    A display is built of the fields when there is none, and missing fields are read off the display
    when there is one. A second call reads fields off the display that the first one built, so it
    changes a location whose own fields have pieces left to be read. -/

namespace Bisakerja
open Schemes

/-! ### Pieces between commas -/

/-- The pieces of a text between its commas that are not blank. -/
def commaPieces (value : String) : List String :=
  ((splitCommas [] value.toList).map strip).filter (· ≠ "")

/-- What stands before the first comma. -/
def firstPiece (value : String) : String := ((splitCommas [] value.toList).head?.map strip).getD ""

theorem splitCommas_append (acc front back : List Char) :
    splitCommas acc (front ++ ',' :: back) = splitCommas acc front ++ splitCommas [] back := by
  induction front generalizing acc with
  | nil => simp [splitCommas]
  | cons c front ih =>
    simp only [List.cons_append, splitCommas]
    split
    · rw [ih, List.cons_append]
    · exact ih _

theorem splitCommas_ne_nil (acc text : List Char) : splitCommas acc text ≠ [] := by
  induction text generalizing acc with
  | nil => simp [splitCommas]
  | cons c text ih =>
    simp only [splitCommas]
    split
    · exact List.cons_ne_nil _ _
    · exact ih _

theorem strip_space (text : List Char) :
    strip (String.ofList (' ' :: text)) = strip (String.ofList text) := by
  have hspace : isSpace ' ' = true := by decide
  simp [strip, hspace]

/-- A space in front of a text is in none of its pieces. -/
theorem splitCommas_space (acc text : List Char) :
    (splitCommas (acc ++ [' ']) text).map strip = (splitCommas acc text).map strip := by
  have hfront : strip (String.ofList (acc ++ [' ']).reverse)
      = strip (String.ofList acc.reverse) := by
    rw [List.reverse_append, List.reverse_singleton, List.singleton_append, strip_space]
  induction text generalizing acc with
  | nil => simpa [splitCommas] using hfront
  | cons c text ih =>
    simp only [splitCommas]
    split
    · rw [List.map_cons, List.map_cons, hfront]
    · rw [← List.cons_append]
      refine ih _ ?_
      rw [List.reverse_append, List.reverse_singleton, List.singleton_append, strip_space]

theorem commaPieces_comma (a b : String) :
    commaPieces (a ++ ", " ++ b) = commaPieces a ++ commaPieces b := by
  have hlist : (a ++ ", " ++ b).toList = a.toList ++ ',' :: ' ' :: b.toList := by simp
  have hspace : (splitCommas [] (' ' :: b.toList)).map strip
      = (splitCommas [] b.toList).map strip := splitCommas_space [] b.toList
  rw [commaPieces, hlist, splitCommas_append, List.map_append, hspace, List.filter_append]
  rfl

theorem firstPiece_comma (a b : String) : firstPiece (a ++ ", " ++ b) = firstPiece a := by
  have hlist : (a ++ ", " ++ b).toList = a.toList ++ ',' :: ' ' :: b.toList := by simp
  rw [firstPiece, firstPiece, hlist, splitCommas_append,
    List.head?_append_of_ne_nil _ (splitCommas_ne_nil _ _)]

/-! ### Clean texts joined by commas -/

/-- A clean text is its words separated by single spaces. -/
theorem spaced_of_cleanText {text : String} (h : cleanText text = some text) :
    ∃ ws, ws ≠ [] ∧ (∀ word ∈ ws, IsWord word) ∧ text.toList = spaced ws := by
  have htext : normalizeText text = text := by
    unfold cleanText at h
    dsimp only at h
    split at h
    · cases h
    · exact Option.some.inj h
  have hlist := toList_normalizeText text
  rw [htext] at hlist
  refine ⟨_, ?_, fun word hword => of_mem_words hword, hlist⟩
  intro hnil
  rw [hnil] at hlist
  have hempty : text = "" := by
    rw [← String.ofList_toList (s := text), hlist]
    rfl
  rw [hempty] at h
  exact cleanText_ne_empty _ h

/-- A comma behind words belongs to the last of them. -/
theorem spaced_comma {ws : List (List Char)} (hne : ws ≠ []) (h : ∀ word ∈ ws, IsWord word) :
    ∃ ws', ws' ≠ [] ∧ (∀ word ∈ ws', IsWord word) ∧ spaced ws' = spaced ws ++ [','] := by
  induction ws with
  | nil => exact absurd rfl hne
  | cons word ws ih =>
    have hword := h word List.mem_cons_self
    rcases ws with - | ⟨next, ws⟩
    · refine ⟨[word ++ [',']], List.cons_ne_nil _ _, ?_, rfl⟩
      intro other hother
      rw [List.mem_singleton.mp hother]
      refine ⟨by simp, ?_⟩
      intro c hc
      rcases List.mem_append.mp hc with hc | hc
      · exact hword.2 c hc
      · rw [List.mem_singleton.mp hc]
        decide
    · obtain ⟨more, hmore, hwords, hspaced⟩ :=
        ih (List.cons_ne_nil _ _) fun other hother => h other (List.mem_cons_of_mem _ hother)
      refine ⟨word :: more, List.cons_ne_nil _ _, ?_, ?_⟩
      · simpa using ⟨hword, hwords⟩
      · obtain ⟨first, rest, rfl⟩ := List.exists_cons_of_ne_nil hmore
        simp [spaced, hspaced]

/-- Clean texts joined by commas are a clean text. -/
theorem cleanText_joinText {parts : List String} (hne : parts ≠ [])
    (h : ∀ part ∈ parts, cleanText part = some part) :
    cleanText (joinText ", " parts) = some (joinText ", " parts) := by
  have hwords : ∃ ws, ws ≠ [] ∧ (∀ word ∈ ws, IsWord word) ∧
      (joinText ", " parts).toList = spaced ws := by
    induction parts with
    | nil => exact absurd rfl hne
    | cons part parts ih =>
      obtain ⟨ws, hws, hword, hlist⟩ := spaced_of_cleanText (h part List.mem_cons_self)
      rcases parts with - | ⟨next, parts⟩
      · exact ⟨ws, hws, hword, hlist⟩
      · obtain ⟨more, hmore, hmoreWord, hrest⟩ :=
          ih (List.cons_ne_nil _ _) fun other hother => h other (List.mem_cons_of_mem _ hother)
        obtain ⟨ws', hws', hword', hspaced⟩ := spaced_comma hws hword
        refine ⟨ws' ++ more, by simp [hws'], ?_, ?_⟩
        · intro word hmem
          exact (List.mem_append.mp hmem).elim (hword' word) (hmoreWord word)
        · rw [spaced_append hws' hmore, hspaced, ← hrest, ← hlist, joinText]
          · simp
          · exact List.cons_ne_nil _ _
  obtain ⟨ws, hws, hword, hlist⟩ := hwords
  have hclean := cleanText_spaced hws hword
  rwa [← hlist, String.ofList_toList] at hclean

/-! ### What a call returns -/

/-- What the fields of a location are given as. -/
structure LocationArguments where
  city : Json
  region : Json
  country : Json
  display : Json
  isRemote : Json

/-- The remote default applies: the job is remote and the country is Indonesia. -/
def LocationArguments.remoteInIndonesia (text : PayloadText) (args : LocationArguments) : Prop :=
  args.isRemote = .bool true ∧ text.lower ((optionalCleanText args.country).getD "") = "indonesia"

/-- No field is left to be read off the fields joined by commas: the city is there or the first
    field begins with a comma, and the region is there or there is one piece at most. -/
def Settled : Option String → Option String → Option String → Prop
  | some _, some _, _ => True
  | some city, none, country =>
    (commaPieces city).length + (country.elim 0 fun c => (commaPieces c).length) ≤ 1
  | none, some region, _ => firstPiece region = ""
  | none, none, some country => firstPiece country = "" ∧ (commaPieces country).length ≤ 1
  | none, none, none => True

/-- The city a display begins with. -/
def cityIn (display : String) : Option String :=
  ((splitCommas [] display.toList).head?.map strip).bind cleanText

/-- The region a display goes on with. -/
def regionIn (display : String) : Option String := (commaPieces display)[1]?.bind cleanText

theorem cleanText_strip_eq_none_iff (s : String) : cleanText (strip s) = none ↔ strip s = "" := by
  rw [cleanText_eq_none_iff, strip_eq_empty_iff, strip_eq_empty_iff, ← words_eq_nil_iff,
    ← words_eq_nil_iff, words_strip]

theorem cityIn_eq_none_iff (display : String) :
    cityIn display = none ↔ firstPiece display = "" := by
  obtain ⟨first, rest, hsplit⟩ := List.exists_cons_of_ne_nil (splitCommas_ne_nil [] display.toList)
  rw [cityIn, firstPiece, hsplit, List.head?_cons, Option.map_some, Option.bind_some,
    Option.getD_some, cleanText_strip_eq_none_iff]

theorem regionIn_eq_none_iff (display : String) :
    regionIn display = none ↔ (commaPieces display).length ≤ 1 := by
  unfold regionIn
  constructor
  · intro h
    by_contra hlength
    have hsecond : 1 < (commaPieces display).length := by omega
    obtain ⟨hmem, hne⟩ := List.mem_filter.mp (List.getElem_mem hsecond)
    obtain ⟨piece, -, hpiece⟩ := List.mem_map.mp hmem
    have hstripped : (commaPieces display)[1] = strip piece := hpiece.symm
    rw [List.getElem?_eq_getElem hsecond, Option.bind_some, hstripped,
      cleanText_strip_eq_none_iff, hpiece] at h
    exact of_decide_eq_true hne h
  · intro h
    rw [List.getElem?_eq_none h, Option.bind_none]

/-- The fields of texts that are clean. -/
def locate (remoteInIndonesia : Bool) (city region country display : Option String) :
    LocationFields :=
  let city := city.or (display.bind cityIn)
  let region := region.or (display.bind regionIn)
  let city := if remoteInIndonesia then city.or (some "Remote") else city
  let region := if remoteInIndonesia then region.or (some "Indonesia") else region
  let display := display.or
    (match [city, region, country].filterMap id with
      | [] => none
      | parts => some (joinText ", " parts))
  { city, region, country, display }

/-- The fields of a call are those of its clean texts. -/
theorem normalizeLocationFields_eq {text : PayloadText} (hclean : text.cleanText = cleanText)
    (city region country display isRemote : Json) :
    text.normalizeLocationFields city region country display isRemote =
      locate ((match isRemote with | .bool b => b | _ => false) &&
          text.lower ((optionalCleanText country).getD "") = "indonesia")
        (optionalCleanText city) (optionalCleanText region) (optionalCleanText country)
        (optionalCleanText display) := by
  have hread : ∀ value, text.asCleanText value = optionalCleanText value := by
    intro value
    cases value with
    | str s => rw [PayloadText.asCleanText, hclean, optionalCleanText_str]
    | null | bool | int | float | list | dict => rfl
  have hcity : text.inferCityFromDisplay display = (optionalCleanText display).bind cityIn := by
    rw [PayloadText.inferCityFromDisplay, hread, hclean]
    rfl
  have hregion : text.inferRegionFromDisplay display
      = (optionalCleanText display).bind regionIn := by
    rw [PayloadText.inferRegionFromDisplay, hread, hclean]
    rfl
  unfold PayloadText.normalizeLocationFields locate
  rewrite [hcity, hregion, hread, hread, hread, hread]
  generalize optionalCleanText city = city
  generalize optionalCleanText region = region
  generalize optionalCleanText country = country
  generalize optionalCleanText display = display
  cases isRemote <;> rfl

/-- A field is read off nothing, off the display, or is the remote default. -/
theorem or_again_iff (field read : Option String) :
    field.or read = field ↔ field.isSome ∨ read = none := by
  cases field <;> simp

/-- With no display and no remote default, the fields stay those of a first call exactly when
    nothing is left to be read. -/
theorem settled_iff (city region country : Option String) :
    Settled city region country ↔
      ∀ display ∈ (locate false city region country none).display,
        city.or (cityIn display) = city ∧ region.or (regionIn display) = region := by
  simp only [or_again_iff, cityIn_eq_none_iff, regionIn_eq_none_iff]
  rcases city with - | city <;> rcases region with - | region <;> rcases country with - | country
  · simp [Settled, locate]
  · simp [Settled, locate, joinText]
  · simp [Settled, locate, joinText]
  · simp [Settled, locate, joinText, firstPiece_comma]
  · simp [Settled, locate, joinText]
  · simp [Settled, locate, joinText, commaPieces_comma]
  · simp [Settled, locate, joinText]
  · simp [Settled, locate, joinText]

/-- A second call on the fields of a first one. -/
def LocationFields.again (fields : LocationFields) (remoteInIndonesia : Bool) : LocationFields :=
  locate remoteInIndonesia fields.city fields.region fields.country fields.display

/-- The fields of clean texts stay the same in a second call exactly when there is a display, the
    remote default applies, or nothing is left to be read. -/
theorem again_locate_iff (remoteInIndonesia : Bool) (city region country display : Option String) :
    (locate remoteInIndonesia city region country display).again remoteInIndonesia
        = locate remoteInIndonesia city region country display ↔
      display.isSome ∨ remoteInIndonesia = true ∨ Settled city region country := by
  cases display with
  | some display =>
    refine iff_of_true ?_ (.inl rfl)
    cases remoteInIndonesia <;> cases city <;> cases region <;>
      simp [LocationFields.again, locate]
  | none =>
    cases remoteInIndonesia with
    | true =>
      refine iff_of_true ?_ (.inr (.inl rfl))
      cases city <;> cases region <;> simp [LocationFields.again, locate]
    | false =>
      rw [settled_iff]
      have hfields : ∀ display, (locate false city region country none).display = display →
          locate false city region country none = { city, region, country, display } := by
        rintro display rfl
        simp [locate]
      cases hdisplay : (locate false city region country none).display with
      | none =>
        rw [hfields none hdisplay]
        simpa [LocationFields.again, locate] using hdisplay
      | some display =>
        rw [hfields (some display) hdisplay]
        simp [LocationFields.again, locate]

/-! ### Calls on results -/

/-- A text that is clean, if there is one. -/
def Cleaned (value : Option String) : Prop := ∀ s ∈ value, cleanText s = some s

theorem Cleaned.read {value : Option String} (h : Cleaned value) :
    optionalCleanText (.ofOption value) = value := by
  cases value with
  | none => rfl
  | some s => exact h s rfl

theorem cleaned_optionalCleanText (value : Json) : Cleaned (optionalCleanText value) := by
  intro s hs
  have hagain := optionalCleanText_ofOption value
  rwa [Option.mem_def.mp hs] at hagain

theorem cleaned_bind_cleanText (value : Option String) : Cleaned (value.bind cleanText) := by
  intro s hs
  obtain ⟨raw, -, hraw⟩ := Option.bind_eq_some_iff.mp hs
  exact cleanText_of_cleanText hraw

theorem Cleaned.or {a b : Option String} (ha : Cleaned a) (hb : Cleaned b) : Cleaned (a.or b) := by
  cases a with
  | some s => exact ha
  | none => exact hb

theorem Cleaned.bind {f : String → Option String} (hf : ∀ s, Cleaned (f s)) (a : Option String) :
    Cleaned (a.bind f) := by
  cases a with
  | some s => exact hf s
  | none => exact nofun

/-- The fields of clean texts are clean. -/
theorem cleaned_locate (remoteInIndonesia : Bool) {city region country display : Option String}
    (hcity : Cleaned city) (hregion : Cleaned region) (hcountry : Cleaned country)
    (hdisplay : Cleaned display) {fields : LocationFields}
    (hfields : locate remoteInIndonesia city region country display = fields) :
    Cleaned fields.city ∧ Cleaned fields.region ∧ Cleaned fields.country ∧
      Cleaned fields.display := by
  have hdefault : ∀ (value : Option String) (s : String), Cleaned value → cleanText s = some s →
      Cleaned (if remoteInIndonesia then value.or (some s) else value) := by
    intro value s hvalue hs
    split
    · exact hvalue.or fun t ht => Option.mem_some.mp ht ▸ hs
    · exact hvalue
  have hcity' : Cleaned fields.city := by
    rw [← hfields]
    exact hdefault _ _ (hcity.or (Cleaned.bind (fun _ => cleaned_bind_cleanText _) _)) (by decide)
  have hregion' : Cleaned fields.region := by
    rw [← hfields]
    exact hdefault _ _ (hregion.or (Cleaned.bind (fun _ => cleaned_bind_cleanText _) _)) (by decide)
  have hcountry' : Cleaned fields.country := by
    rwa [← hfields]
  refine ⟨hcity', hregion', hcountry', ?_⟩
  have hjoined : fields.display = display.or
      (match [fields.city, fields.region, fields.country].filterMap id with
        | [] => none
        | parts => some (joinText ", " parts)) := by
    rw [← hfields]
    rfl
  rw [hjoined]
  refine hdisplay.or ?_
  have hparts : ∀ part ∈ [fields.city, fields.region, fields.country].filterMap id,
      cleanText part = some part := by
    intro part hpart
    simp only [List.mem_filterMap, List.mem_cons, List.not_mem_nil, or_false, id_eq,
      exists_eq_right] at hpart
    rcases hpart with hpart | hpart | hpart
    · exact hcity' part hpart.symm
    · exact hregion' part hpart.symm
    · exact hcountry' part hpart.symm
  intro s hs
  generalize [fields.city, fields.region, fields.country].filterMap id = parts at hparts hs
  cases parts with
  | nil => cases hs
  | cons part parts =>
    rw [← Option.some.inj hs]
    exact cleanText_joinText (List.cons_ne_nil _ _) hparts

/-- What a call returns. -/
def LocationArguments.fields (text : PayloadText) (args : LocationArguments) : LocationFields :=
  text.normalizeLocationFields args.city args.region args.country args.display args.isRemote

/-- The arguments of a second call. -/
def LocationFields.arguments (fields : LocationFields) (isRemote : Json) : LocationArguments where
  city := .ofOption fields.city
  region := .ofOption fields.region
  country := .ofOption fields.country
  display := .ofOption fields.display
  isRemote := isRemote

/-- A second call returns the fields again exactly when there is a display, the remote default
    applies, or nothing is left to be read off the fields joined by commas. -/
theorem location_again_iff (text : NormalizerText) (args : LocationArguments) :
    ((args.fields text.normalization.toPayloadText).arguments args.isRemote).fields
          text.normalization.toPayloadText
        = args.fields text.normalization.toPayloadText ↔
      (optionalCleanText args.display).isSome ∨
        args.remoteInIndonesia text.normalization.toPayloadText ∨
        Settled (optionalCleanText args.city) (optionalCleanText args.region)
          (optionalCleanText args.country) := by
  have hclean : text.normalization.toPayloadText.cleanText = cleanText :=
    text.normalization_cleanText
  generalize text.normalization.toPayloadText = payload at hclean ⊢
  generalize hremote : ((match args.isRemote with | .bool b => b | _ => false) &&
    payload.lower ((optionalCleanText args.country).getD "") = "indonesia") = remote
  have hfirst : args.fields payload = locate remote (optionalCleanText args.city)
      (optionalCleanText args.region) (optionalCleanText args.country)
      (optionalCleanText args.display) := by
    rw [LocationArguments.fields, normalizeLocationFields_eq hclean, hremote]
  obtain ⟨hcity, hregion, hcountry, hdisplay⟩ :=
    cleaned_locate remote (cleaned_optionalCleanText args.city)
      (cleaned_optionalCleanText args.region) (cleaned_optionalCleanText args.country)
      (cleaned_optionalCleanText args.display) rfl
  have hsecond : ((args.fields payload).arguments args.isRemote).fields payload
      = (args.fields payload).again remote := by
    rw [hfirst, LocationArguments.fields, normalizeLocationFields_eq hclean]
    unfold LocationFields.arguments LocationFields.again
    rw [hcity.read, hregion.read, hcountry.read, hdisplay.read]
    exact congrArg (fun b => locate b _ _ _ _) hremote
  have hdefault : args.remoteInIndonesia payload ↔ remote = true := by
    rw [← hremote, LocationArguments.remoteInIndonesia]
    cases args.isRemote <;> simp
  rw [hsecond, hfirst, hdefault]
  exact again_locate_iff _ _ _ _ _

/-- A city in a country, with no display. -/
def jakarta : LocationArguments where
  city := .str "Jakarta"
  region := .null
  country := .str "Indonesia"
  display := .null
  isRemote := .bool false

/-- A second call on a city in a country makes the country its region. -/
theorem country_becomes_region :
    (jakarta.fields asciiNormalizerText.normalization.toPayloadText).region = none ∧
      (((jakarta.fields asciiNormalizerText.normalization.toPayloadText).arguments
        jakarta.isRemote).fields asciiNormalizerText.normalization.toPayloadText).region
          = some "Indonesia" ∧
      ((jakarta.fields asciiNormalizerText.normalization.toPayloadText).arguments
        jakarta.isRemote).fields asciiNormalizerText.normalization.toPayloadText
          ≠ jakarta.fields asciiNormalizerText.normalization.toPayloadText := by
  have hfirst : (jakarta.fields asciiNormalizerText.normalization.toPayloadText).region = none := by
    rfl
  have hsecond : (((jakarta.fields asciiNormalizerText.normalization.toPayloadText).arguments
      jakarta.isRemote).fields asciiNormalizerText.normalization.toPayloadText).region
        = some "Indonesia" := by rfl
  refine ⟨hfirst, hsecond, ?_⟩
  intro hsame
  rw [hsame, hfirst] at hsecond
  cases hsecond

end Bisakerja
