import BisakerjaScraper.Deduplication.Engine
import BisakerjaScraper.Eligibility.Known

/-! What the identity keys tell apart.

    A key joins a platform and an id with a colon, so two of them are alike when one platform goes
    on with a colon and the front of the other id. The engine collapses whitespace and lower-cases
    the platform; the eligibility resolver only strips, lower-cases the id as well, and knows no
    fallback. -/

namespace Bisakerja
open Schemes

/-- What `resolve_source_identity` is given. -/
structure SourceRecord where
  sourcePlatform : Json
  externalId : Json := .null
  sourceSlug : Json := .null
  title : Json := .null
  companyName : Json := .null
  sourceUrl : Json := .null

/-- `str.lower` and SHA-256. Lower-casing makes no colon and takes none away, and a hex digest has
    none. -/
structure KeyText extends IdentityText where
  lower_colons : ∀ s, (lower s).toList.count ':' = s.toList.count ':'
  digest : Dict → String
  digest_hex : ∀ payload, ':' ∉ (digest payload).toList

/-- The texts a fingerprint is made of besides the platform. -/
structure FallbackFields where
  sourceSlug : Option String
  title : Option String
  companyName : Option String
  sourceUrl : Option String

/-- What a record is identified by. -/
inductive RecordIdentity where
  | external (platform id : String)
  | fallback (platform : String) (fields : FallbackFields)

/-- The normalized id. -/
def SourceRecord.external (record : SourceRecord) : Option String :=
  dedupOptionalText record.externalId

/-- The normalized fields. -/
def SourceRecord.fields (record : SourceRecord) : FallbackFields where
  sourceSlug := dedupOptionalText record.sourceSlug
  title := dedupOptionalText record.title
  companyName := dedupOptionalText record.companyName
  sourceUrl := dedupOptionalText record.sourceUrl

/-- One of the fields is there. -/
def FallbackFields.anyIsSome (fields : FallbackFields) : Bool :=
  [fields.sourceSlug, fields.title, fields.companyName, fields.sourceUrl].any Option.isSome

namespace KeyText

variable (text : KeyText)

/-- The functions of the engine. -/
def fingerprint : FingerprintText where
  lower := text.lower
  sha256 := text.digest

/-- The normalized platform. -/
def platform (record : SourceRecord) : String := text.fingerprint.requiredText record.sourcePlatform

/-- The identity of a record, if it has one. -/
def identity (record : SourceRecord) : Option RecordIdentity :=
  if text.platform record = "" then none
  else
    match record.external with
    | some id => some (.external (text.platform record) id)
    | none =>
      if record.fields.anyIsSome then some (.fallback (text.platform record) record.fields)
      else none

/-- The payload `make_fallback_fingerprint` dumps. -/
def payload (platform : String) (fields : FallbackFields) : Dict :=
  [("source_platform", .str (text.fingerprint.requiredText (.str platform))),
    ("source_slug", .ofOption fields.sourceSlug), ("title", .ofOption fields.title),
    ("company_name", .ofOption fields.companyName), ("source_url", .ofOption fields.sourceUrl)]

/-- The two parts a key is joined of. -/
def spelled : RecordIdentity → String × String
  | .external platform id => (platform, id)
  | .fallback platform fields =>
    (platform, "fingerprint:" ++ text.digest (text.payload platform fields))

/-- The key of the engine. -/
def key (record : SourceRecord) : Option String :=
  (text.fingerprint.resolveSourceIdentity record.sourcePlatform record.externalId record.sourceSlug
    record.title record.companyName record.sourceUrl).key

/-- `normalize_key` of whatever value. -/
def normalizeValue : Json → String
  | .str s => text.normalizeKey s
  | _ => ""

/-- The platform and the id as the eligibility resolver normalizes them. -/
def eligibility (record : SourceRecord) : String × String :=
  (text.normalizeValue record.sourcePlatform, text.normalizeValue record.externalId)

/-- The key of the eligibility resolver. -/
def eligibilityKey (record : SourceRecord) : Option String :=
  IdentityText.identityKeyFrom (text.eligibility record)

end KeyText

/-! ### Joined parts -/

/-- The first platform goes on with a colon and the front of the second id. -/
def RunsInto (a b : String × String) : Prop :=
  ∃ mid, a.1 = b.1 ++ ":" ++ mid ∧ b.2 = mid ++ ":" ++ a.2

/-- One platform goes on with a colon and the front of the other id. -/
def Shifted (a b : String × String) : Prop := RunsInto a b ∨ RunsInto b a

theorem Shifted.symm {a b : String × String} (h : Shifted a b) : Shifted b a := Or.symm h

/-- Two joined pairs are alike when the pairs are, or when the colon is another one. -/
theorem joined_eq_iff {a b : String × String} :
    a.1 ++ ":" ++ a.2 = b.1 ++ ":" ++ b.2 ↔ a = b ∨ Shifted a b := by
  constructor
  · intro h
    have hlist : a.1.toList ++ ':' :: a.2.toList = b.1.toList ++ ':' :: b.2.toList := by
      simpa using congrArg String.toList h
    rcases List.append_eq_append_iff.mp hlist with ⟨mid, hfirst, hsecond⟩ | ⟨mid, hfirst, hsecond⟩
    · rcases mid with - | ⟨c, mid⟩
      · left
        simp only [List.append_nil, List.nil_append, List.cons.injEq, true_and] at hfirst hsecond
        exact Prod.ext (String.toList_inj.mp hfirst.symm) (String.toList_inj.mp hsecond)
      · right
        right
        obtain ⟨rfl, hsecond⟩ := List.cons.inj hsecond
        refine ⟨String.ofList mid, String.toList_inj.mp ?_, String.toList_inj.mp ?_⟩
        · simpa using hfirst
        · simpa using hsecond
    · rcases mid with - | ⟨c, mid⟩
      · left
        simp only [List.append_nil, List.nil_append, List.cons.injEq, true_and] at hfirst hsecond
        exact Prod.ext (String.toList_inj.mp hfirst) (String.toList_inj.mp hsecond.symm)
      · right
        left
        obtain ⟨rfl, hsecond⟩ := List.cons.inj hsecond
        refine ⟨String.ofList mid, String.toList_inj.mp ?_, String.toList_inj.mp ?_⟩
        · simpa using hfirst
        · simpa using hsecond
  · rintro (rfl | ⟨mid, hfirst, hsecond⟩ | ⟨mid, hfirst, hsecond⟩)
    · rfl
    · simp only [hfirst, hsecond, String.append_assoc]
    · simp only [hfirst, hsecond, String.append_assoc]

/-- Equal platforms do not run into ids. -/
theorem not_shifted_of_eq {a b : String × String} (h : a.1 = b.1) : ¬ Shifted a b := by
  have hlength : ∀ s mid : String, s ≠ s ++ ":" ++ mid := by
    intro s mid heq
    have hlist := congrArg (fun t => t.toList.length) heq
    simp at hlist
  rintro (⟨mid, hfirst, -⟩ | ⟨mid, hfirst, -⟩)
  · exact hlength _ mid (h ▸ hfirst)
  · exact hlength _ mid (h ▸ hfirst)

/-! ### What stripping and collapsing keep -/

theorem count_dropWhile {c : Char} (hc : isSpace c = false) (text : List Char) :
    (text.dropWhile isSpace).count c = text.count c := by
  induction text with
  | nil => rfl
  | cons d text ih =>
    by_cases hd : isSpace d = true
    · have hne : d ≠ c := by
        rintro rfl
        rw [hc] at hd
        cases hd
      rw [List.dropWhile_cons_of_pos hd, ih, List.count_cons_of_ne hne]
    · rw [List.dropWhile_cons_of_neg hd]

theorem count_strip {c : Char} (hc : isSpace c = false) (s : String) :
    (strip s).toList.count c = s.toList.count c := by
  rw [strip, String.toList_ofList, List.count_reverse, count_dropWhile hc, List.count_reverse,
    count_dropWhile hc]

theorem count_collapseSpaces {c : Char} (hc : isSpace c = false) (afterSpace : Bool)
    (text : List Char) : (collapseSpaces afterSpace text).count c = text.count c := by
  have hspace : ' ' ≠ c := by
    rintro rfl
    revert hc
    decide
  induction text generalizing afterSpace with
  | nil => rfl
  | cons d text ih =>
    unfold collapseSpaces
    by_cases hd : isSpace d = true
    · have hne : d ≠ c := by
        rintro rfl
        rw [hc] at hd
        cases hd
      rw [if_pos hd, List.count_append, ih, List.count_cons_of_ne hne]
      cases afterSpace
      · simp [List.count_cons_of_ne hspace]
      · simp
    · rw [if_neg hd, List.count_cons, List.count_cons, ih]

theorem count_normalizeText {c : Char} (hc : isSpace c = false) (s : String) :
    (normalizeText s).toList.count c = s.toList.count c := by
  rw [normalizeText, count_strip hc, String.toList_ofList, count_collapseSpaces hc]

theorem dedupOptionalText_str (s : String) : dedupOptionalText (.str s) = cleanText s := rfl

theorem dedupOptionalText_eq_some_iff {value : Json} {clean : String} :
    dedupOptionalText value = some clean ↔ ∃ s, value = .str s ∧ cleanText s = some clean := by
  cases value with
  | str s =>
    rw [dedupOptionalText_str]
    constructor
    · intro h
      exact ⟨s, rfl, h⟩
    · rintro ⟨s', hs, h⟩
      rwa [Json.str.inj hs]
  | null | bool | int | float | list | dict => simp [dedupOptionalText]

theorem dedupOptionalText_ofOption (value : Json) :
    dedupOptionalText (.ofOption (dedupOptionalText value)) = dedupOptionalText value := by
  cases hvalue : dedupOptionalText value with
  | none => rfl
  | some clean =>
    obtain ⟨s, -, hclean⟩ := dedupOptionalText_eq_some_iff.mp hvalue
    rw [Json.ofOption, dedupOptionalText_str, cleanText_of_cleanText hclean]

/-- A clean text has no whitespace at its ends. -/
theorem strip_of_cleanText {s clean : String} (h : cleanText s = some clean) :
    strip clean = clean := by
  unfold cleanText at h
  dsimp only at h
  split at h
  · cases h
  · rw [← Option.some.inj h, normalizeText, strip_strip]

/-! ### The keys of a record -/

namespace KeyText

variable {text : KeyText}

/-- A platform that is there is one for the fingerprint, too. -/
theorem requiredText_platform {record : SourceRecord} (h : text.platform record ≠ "") :
    text.fingerprint.requiredText (.str (text.platform record)) ≠ "" := by
  unfold platform FingerprintText.requiredText at h ⊢
  rw [dedupOptionalText_str]
  cases hclean : dedupOptionalText record.sourcePlatform with
  | none =>
    rw [hclean] at h
    exact absurd rfl h
  | some clean =>
    rw [hclean] at h
    obtain ⟨s, -, hs⟩ := dedupOptionalText_eq_some_iff.mp hclean
    have hstable := text.lower_stable clean
    rw [strip_of_cleanText hs] at hstable
    have hlower : strip (text.lower clean) ≠ "" := by
      intro hnone
      rw [hnone, text.lower_empty] at hstable
      exact h hstable.symm
    dsimp only
    cases hagain : cleanText (text.fingerprint.lower clean) with
    | none => exact absurd ((cleanText_eq_none_iff _).mp hagain) hlower
    | some again =>
      intro hempty
      rw [text.lower_nonempty _ hempty] at hagain
      exact cleanText_ne_empty _ hagain

theorem makeFallbackFingerprint_eq {record : SourceRecord} (h : text.platform record ≠ "") :
    text.fingerprint.makeFallbackFingerprint (.str (text.platform record))
        (.ofOption (dedupOptionalText record.sourceSlug)) record.title record.companyName
        record.sourceUrl
      = if record.fields.anyIsSome then
          some (text.digest (text.payload (text.platform record) record.fields))
        else none := by
  unfold FingerprintText.makeFallbackFingerprint
  dsimp only
  rw [if_neg (requiredText_platform h), dedupOptionalText_ofOption]
  rfl

theorem key_resolveSourceIdentity (record : SourceRecord) :
    text.key record =
      if text.platform record = "" then none
      else
        match record.external with
        | some external => some (text.platform record ++ ":" ++ external)
        | none =>
          (text.fingerprint.makeFallbackFingerprint (.str (text.platform record))
            (.ofOption (dedupOptionalText record.sourceSlug)) record.title record.companyName
            record.sourceUrl).map fun fingerprint =>
              text.platform record ++ ":fingerprint:" ++ fingerprint := by
  unfold key FingerprintText.resolveSourceIdentity platform SourceRecord.external
  dsimp only
  generalize dedupOptionalText record.externalId = external
  split
  · rfl
  · cases external with
    | some external => rfl
    | none => with_reducible rfl

/-- The key is the identity's two parts joined. -/
theorem key_eq (record : SourceRecord) :
    text.key record = (text.identity record).map fun identity =>
      (text.spelled identity).1 ++ ":" ++ (text.spelled identity).2 := by
  rw [key_resolveSourceIdentity, identity]
  by_cases hplatform : text.platform record = ""
  · rw [if_pos hplatform, if_pos hplatform, Option.map_none]
  · rw [if_neg hplatform, if_neg hplatform, makeFallbackFingerprint_eq hplatform]
    generalize text.platform record = platform
    cases record.external with
    | some id => rfl
    | none =>
      by_cases hany : record.fields.anyIsSome = true
      · simp only [hany, if_true, Option.map_some, spelled, String.append_assoc]
        rfl
      · simp only [hany, Bool.false_eq_true, if_false, Option.map_none]

/-- A value the resolver finds empty is one the engine finds empty. -/
theorem normalizeValue_eq_empty_iff (value : Json) :
    text.normalizeValue value = "" ↔ dedupOptionalText value = none := by
  cases value with
  | str s =>
    rw [dedupOptionalText_str, cleanText_eq_none_iff, normalizeValue, IdentityText.normalizeKey]
    constructor
    · exact text.lower_nonempty _
    · intro h
      rw [h, text.lower_empty]
  | null | bool | int | float | list | dict => exact ⟨fun _ => rfl, fun _ => rfl⟩

theorem platform_eq_empty_iff (record : SourceRecord) :
    text.platform record = "" ↔ dedupOptionalText record.sourcePlatform = none := by
  unfold platform FingerprintText.requiredText
  cases hclean : dedupOptionalText record.sourcePlatform with
  | none => simp
  | some clean =>
    refine iff_of_false (fun hempty => ?_) nofun
    obtain ⟨s, -, hs⟩ := dedupOptionalText_eq_some_iff.mp hclean
    rw [text.lower_nonempty clean hempty] at hs
    exact cleanText_ne_empty _ hs

/-- The resolver has a key for what is identified by an id, and for nothing else. -/
theorem eligibilityKey_eq (record : SourceRecord) :
    text.eligibilityKey record =
      if text.platform record = "" ∨ record.external = none then none
      else some ((text.eligibility record).1 ++ ":" ++ (text.eligibility record).2) := by
  unfold eligibilityKey IdentityText.identityKeyFrom
  have hplatform : (text.eligibility record).1 = "" ↔ text.platform record = "" :=
    (normalizeValue_eq_empty_iff _).trans (platform_eq_empty_iff record).symm
  have hexternal : (text.eligibility record).2 = "" ↔ record.external = none :=
    normalizeValue_eq_empty_iff _
  simp only [hplatform, hexternal]

/-- Equal platforms have as many colons for the resolver. -/
theorem count_eligibility (record : SourceRecord) :
    (text.eligibility record).1.toList.count ':' = (text.platform record).toList.count ':' := by
  have hcolon : isSpace ':' = false := by decide
  unfold eligibility platform FingerprintText.requiredText
  cases hvalue : record.sourcePlatform with
  | str s =>
    rw [dedupOptionalText_str, normalizeValue, IdentityText.normalizeKey, text.lower_colons,
      count_strip hcolon]
    cases hclean : cleanText s with
    | none =>
      have hall := (strip_eq_empty_iff s).mp ((cleanText_eq_none_iff s).mp hclean)
      refine List.count_eq_zero.mpr fun hmem => ?_
      rw [hall _ hmem] at hcolon
      cases hcolon
    | some clean =>
      have hcount : clean.toList.count ':' = s.toList.count ':' := by
        unfold cleanText at hclean
        dsimp only at hclean
        split at hclean
        · cases hclean
        · rw [← Option.some.inj hclean, count_normalizeText hcolon]
      exact (hcount.symm.trans (text.lower_colons clean).symm)
  | null | bool | int | float | list | dict => rfl

/-! ### Exact keys -/

variable (text) in
/-- Both records have one key. -/
def SameKey (a b : SourceRecord) : Prop := ∃ key, text.key a = some key ∧ text.key b = some key

variable (text) in
/-- Both records have one identity. -/
def SameIdentity (a b : SourceRecord) : Prop :=
  ∃ identity, text.identity a = some identity ∧ text.identity b = some identity

variable (text) in
/-- Both records have one key for the eligibility resolver. -/
def SameEligibility (a b : SourceRecord) : Prop :=
  ∃ key, text.eligibilityKey a = some key ∧ text.eligibilityKey b = some key

variable (text) in
/-- The keys of two records say what they should. -/
structure ExactKeys (a b : SourceRecord) : Prop where
  identity : text.SameKey a b ↔ text.SameIdentity a b
  /-- An id and a fingerprint are never taken for each other. -/
  apart : a.external.isSome ≠ b.external.isSome → ¬ text.SameKey a b
  agrees : text.SameKey a b ↔ text.SameEligibility a b

variable (text) in
/-- The two digests do not collide. -/
def Collides (a b : SourceRecord) : Prop :=
  text.payload (text.platform a) a.fields ≠ text.payload (text.platform b) b.fields ∧
    text.digest (text.payload (text.platform a) a.fields)
      = text.digest (text.payload (text.platform b) b.fields)

variable (text) in
/-- What the keys of two records have to be written in. -/
def KeysApart (a b : SourceRecord) : Prop :=
  match text.identity a, text.identity b with
  | some (.external platform id), some (.external platform' id') =>
    ¬ Shifted (platform, id) (platform', id') ∧
      ¬ Shifted (text.eligibility a) (text.eligibility b) ∧
      ((platform = platform' ∧ id = id') ↔ text.eligibility a = text.eligibility b)
  | some (.external platform id), some (.fallback platform' fields) =>
    (platform, id) ≠ text.spelled (.fallback platform' fields) ∧
      ¬ Shifted (platform, id) (text.spelled (.fallback platform' fields))
  | some (.fallback platform fields), some (.external platform' id') =>
    text.spelled (.fallback platform fields) ≠ (platform', id') ∧
      ¬ Shifted (text.spelled (.fallback platform fields)) (platform', id')
  | some (.fallback platform fields), some (.fallback platform' fields') =>
    ¬ (platform = platform' ∧ fields = fields')
  | _, _ => True

theorem sameKey_iff {a b : SourceRecord} {i i' : RecordIdentity} (ha : text.identity a = some i)
    (hb : text.identity b = some i') :
    text.SameKey a b ↔
      text.spelled i = text.spelled i' ∨ Shifted (text.spelled i) (text.spelled i') := by
  rw [← joined_eq_iff, SameKey, key_eq, key_eq, ha, hb]
  simp [eq_comm]

theorem not_sameKey {a b : SourceRecord} (h : text.identity a = none ∨ text.identity b = none) :
    ¬ text.SameKey a b := by
  rintro ⟨key, ha, hb⟩
  rw [key_eq] at ha hb
  rcases h with h | h
  · rw [h] at ha
    cases ha
  · rw [h] at hb
    cases hb

theorem sameIdentity_iff {a b : SourceRecord} {i i' : RecordIdentity}
    (ha : text.identity a = some i) (hb : text.identity b = some i') :
    text.SameIdentity a b ↔ i = i' := by
  simp [SameIdentity, ha, hb, eq_comm]

theorem of_identity_external {a : SourceRecord} {platform id : String}
    (h : text.identity a = some (.external platform id)) :
    text.platform a = platform ∧ a.external = some id ∧ text.eligibilityKey a =
      some ((text.eligibility a).1 ++ ":" ++ (text.eligibility a).2) := by
  rw [eligibilityKey_eq]
  unfold identity at h
  by_cases hplatform : text.platform a = ""
  · rw [if_pos hplatform] at h
    cases h
  · rw [if_neg hplatform] at h
    cases hexternal : a.external with
    | some id' =>
      simp only [hexternal, Option.some.injEq, RecordIdentity.external.injEq] at h
      obtain ⟨rfl, rfl⟩ := h
      exact ⟨rfl, rfl, if_neg (by simp [hplatform])⟩
    | none =>
      simp only [hexternal] at h
      split at h <;> simp at h

theorem of_identity_fallback {a : SourceRecord} {platform : String} {fields : FallbackFields}
    (h : text.identity a = some (.fallback platform fields)) :
    text.platform a = platform ∧ a.fields = fields ∧ a.external = none ∧
      text.eligibilityKey a = none := by
  rw [eligibilityKey_eq]
  unfold identity at h
  by_cases hplatform : text.platform a = ""
  · rw [if_pos hplatform] at h
    cases h
  · rw [if_neg hplatform] at h
    cases hexternal : a.external with
    | some id => simp [hexternal] at h
    | none =>
      simp only [hexternal] at h
      split at h
      · simp only [Option.some.injEq, RecordIdentity.fallback.injEq] at h
        exact ⟨h.1, h.2, rfl, if_pos (.inr rfl)⟩
      · cases h

theorem of_identity_none {a : SourceRecord} (h : text.identity a = none) :
    text.eligibilityKey a = none := by
  rw [eligibilityKey_eq]
  unfold identity at h
  by_cases hplatform : text.platform a = ""
  · exact if_pos (.inl hplatform)
  · rw [if_neg hplatform] at h
    cases hexternal : a.external with
    | some id => simp [hexternal] at h
    | none => exact if_pos (.inr rfl)

/-- Platforms with as many colons do not run into ids. -/
theorem not_shifted_of_count {a b : String × String}
    (h : a.1.toList.count ':' = b.1.toList.count ':') : ¬ Shifted a b := by
  have hmore : ∀ s mid : String, (s ++ ":" ++ mid).toList.count ':' ≠ s.toList.count ':' := by
    intro s mid
    simp
  rintro (⟨mid, hfirst, -⟩ | ⟨mid, hfirst, -⟩)
  · exact hmore b.1 mid (hfirst ▸ h)
  · exact hmore a.1 mid (hfirst ▸ h.symm)

theorem exactKeys_external {a b : SourceRecord} {platform id platform' id' : String}
    (ha : text.identity a = some (.external platform id))
    (hb : text.identity b = some (.external platform' id')) :
    text.ExactKeys a b ↔
      ¬ Shifted (platform, id) (platform', id') ∧
        ¬ Shifted (text.eligibility a) (text.eligibility b) ∧
        ((platform = platform' ∧ id = id') ↔ text.eligibility a = text.eligibility b) := by
  have hkey : text.SameKey a b ↔ (platform = platform' ∧ id = id') ∨
      Shifted (platform, id) (platform', id') := by
    rw [sameKey_iff ha hb, spelled, spelled, Prod.mk.injEq]
  have hidentity : text.SameIdentity a b ↔ platform = platform' ∧ id = id' := by
    rw [sameIdentity_iff ha hb, RecordIdentity.external.injEq]
  obtain ⟨hplatform, hid, heligible⟩ := of_identity_external ha
  obtain ⟨hplatform', hid', heligible'⟩ := of_identity_external hb
  have heligibility : text.SameEligibility a b ↔ text.eligibility a = text.eligibility b ∨
      Shifted (text.eligibility a) (text.eligibility b) := by
    rw [← joined_eq_iff, SameEligibility, heligible, heligible']
    simp [eq_comm]
  have hshift : platform = platform' → ¬ Shifted (text.eligibility a) (text.eligibility b) := by
    intro heq
    refine not_shifted_of_count ?_
    rw [count_eligibility, count_eligibility, hplatform, hplatform', heq]
  constructor
  · rintro ⟨hexact, -, hagrees⟩
    have hnone : ¬ Shifted (platform, id) (platform', id') := by
      intro hshifted
      exact not_shifted_of_eq (hidentity.mp (hexact.mp (hkey.mpr (.inr hshifted)))).1 hshifted
    have hnone' : ¬ Shifted (text.eligibility a) (text.eligibility b) := by
      intro hshifted
      have hsame := hagrees.mpr (heligibility.mpr (.inr hshifted))
      exact hshift (hidentity.mp (hexact.mp hsame)).1 hshifted
    refine ⟨hnone, hnone', fun hequal => ?_, fun hequal => ?_⟩
    · exact (heligibility.mp (hagrees.mp (hkey.mpr (.inl hequal)))).resolve_right hnone'
    · exact hidentity.mp (hexact.mp (hagrees.mpr (heligibility.mpr (.inl hequal))))
  · rintro ⟨hnone, hnone', hequal⟩
    refine ⟨?_, fun hone => absurd (by rw [hid, hid']; rfl) hone, ?_⟩
    · rw [hkey, hidentity, or_iff_left hnone]
    · rw [hkey, heligibility, or_iff_left hnone, or_iff_left hnone', hequal]

/-- Neither record's key is exact next to the other's as long as they are apart. -/
theorem exactKeys_of_different {a b : SourceRecord} {i i' : RecordIdentity}
    (ha : text.identity a = some i) (hb : text.identity b = some i') (hne : i ≠ i')
    (heligible : text.eligibilityKey a = none ∨ text.eligibilityKey b = none) :
    text.ExactKeys a b ↔
      text.spelled i ≠ text.spelled i' ∧ ¬ Shifted (text.spelled i) (text.spelled i') := by
  have hidentity : ¬ text.SameIdentity a b := by rwa [sameIdentity_iff ha hb]
  have heligibility : ¬ text.SameEligibility a b := by
    rintro ⟨key, hkey, hkey'⟩
    rcases heligible with h | h
    · rw [h] at hkey
      cases hkey
    · rw [h] at hkey'
      cases hkey'
  rw [← not_or, ← sameKey_iff ha hb]
  constructor
  · exact fun hexact hsame => hidentity (hexact.identity.mp hsame)
  · exact fun hnone =>
      ⟨iff_of_false hnone hidentity, fun _ => hnone, iff_of_false hnone heligibility⟩

/-- Fingerprints of different fields are different, whatever the platforms. -/
theorem sameKey_fallback {a b : SourceRecord} {platform platform' : String}
    {fields fields' : FallbackFields} (hdigest : ¬ text.Collides a b)
    (ha : text.identity a = some (.fallback platform fields))
    (hb : text.identity b = some (.fallback platform' fields')) :
    text.SameKey a b ↔ platform = platform' ∧ fields = fields' := by
  obtain ⟨hplatform, hfields, -, -⟩ := of_identity_fallback ha
  obtain ⟨hplatform', hfields', -, -⟩ := of_identity_fallback hb
  constructor
  · rintro ⟨key, hkey, hkey'⟩
    rw [key_eq, ha, Option.map_some, Option.some.injEq] at hkey
    rw [key_eq, hb, Option.map_some, Option.some.injEq, ← hkey] at hkey'
    have hjoined : (platform' ++ ":fingerprint") ++ ":" ++
          text.digest (text.payload platform' fields')
        = (platform ++ ":fingerprint") ++ ":" ++ text.digest (text.payload platform fields) := by
      refine String.toList_inj.mp ?_
      simpa [spelled] using congrArg String.toList hkey'
    have hpair := (joined_eq_iff (a := (platform' ++ ":fingerprint", _))
      (b := (platform ++ ":fingerprint", _))).mp hjoined
    have hnone : ¬ Shifted
        (platform' ++ ":fingerprint", text.digest (text.payload platform' fields'))
        (platform ++ ":fingerprint", text.digest (text.payload platform fields)) := by
      rintro (⟨mid, -, hdigest⟩ | ⟨mid, -, hdigest⟩)
      · refine text.digest_hex (text.payload platform fields) ?_
        rw [show text.digest (text.payload platform fields) = _ from hdigest]
        simp
      · refine text.digest_hex (text.payload platform' fields') ?_
        rw [show text.digest (text.payload platform' fields') = _ from hdigest]
        simp
    have hequal := hpair.resolve_right hnone
    simp only [Prod.mk.injEq] at hequal
    obtain ⟨hfront, hback⟩ := hequal
    have hsame : platform = platform' := (String.append_left_inj _ |>.mp hfront).symm
    subst hsame
    refine ⟨rfl, ?_⟩
    have hpayload : text.payload platform fields = text.payload platform fields' := by
      by_contra hne
      refine hdigest ⟨?_, ?_⟩
      · rwa [hplatform, hplatform', hfields, hfields']
      · rw [hplatform, hplatform', hfields, hfields']
        exact hback.symm
    have hofOption : ∀ x y : Option String, Json.ofOption x = Json.ofOption y → x = y := by
      rintro (- | x) (- | y) h <;> cases h <;> rfl
    simp only [payload, List.cons.injEq, Prod.mk.injEq, true_and, and_true] at hpayload
    obtain ⟨hslug, htitle, hcompany, hurl⟩ := hpayload
    cases fields
    cases fields'
    simp only [FallbackFields.mk.injEq]
    exact ⟨hofOption _ _ hslug, hofOption _ _ htitle, hofOption _ _ hcompany, hofOption _ _ hurl⟩
  · rintro ⟨rfl, rfl⟩
    exact (sameKey_iff ha hb).mpr (.inl rfl)

theorem exactKeys_fallback {a b : SourceRecord} {platform platform' : String}
    {fields fields' : FallbackFields} (hdigest : ¬ text.Collides a b)
    (ha : text.identity a = some (.fallback platform fields))
    (hb : text.identity b = some (.fallback platform' fields')) :
    text.ExactKeys a b ↔ ¬ (platform = platform' ∧ fields = fields') := by
  have hkey := sameKey_fallback hdigest ha hb
  obtain ⟨-, -, hid, hnone⟩ := of_identity_fallback ha
  obtain ⟨-, -, hid', -⟩ := of_identity_fallback hb
  have heligibility : ¬ text.SameEligibility a b := by
    rintro ⟨key, hsome, -⟩
    rw [hnone] at hsome
    cases hsome
  rw [← hkey]
  constructor
  · exact fun hexact hsame => heligibility (hexact.agrees.mp hsame)
  · intro hother
    refine ⟨?_, fun hone => absurd (by rw [hid, hid']) hone, iff_of_false hother heligibility⟩
    rw [hkey, sameIdentity_iff ha hb, RecordIdentity.fallback.injEq]

/-- The keys of two records are exact when no colon of a part is taken for the one between them, the
    resolver sees the same platforms and ids as equal, and no two records share a fallback. -/
theorem exactKeys_iff {a b : SourceRecord} (hdigest : ¬ text.Collides a b) :
    text.ExactKeys a b ↔ text.KeysApart a b := by
  unfold KeysApart
  cases ha : text.identity a with
  | none =>
    have hsame := not_sameKey (b := b) (.inl ha)
    refine iff_of_true ⟨iff_of_false hsame ?_, fun _ => hsame, iff_of_false hsame ?_⟩ trivial
    · rintro ⟨i, hi, -⟩
      rw [ha] at hi
      cases hi
    · rintro ⟨key, hkey, -⟩
      rw [of_identity_none ha] at hkey
      cases hkey
  | some i =>
    cases hb : text.identity b with
    | none =>
      have hsame := not_sameKey (a := a) (.inr hb)
      have hgoal : text.ExactKeys a b := by
        refine ⟨iff_of_false hsame ?_, fun _ => hsame, iff_of_false hsame ?_⟩
        · rintro ⟨i, -, hi⟩
          rw [hb] at hi
          cases hi
        · rintro ⟨key, -, hkey⟩
          rw [of_identity_none hb] at hkey
          cases hkey
      cases i <;> exact iff_of_true hgoal trivial
    | some i' =>
      cases i with
      | external platform id =>
        cases i' with
        | external platform' id' => exact exactKeys_external ha hb
        | fallback platform' fields' =>
          exact exactKeys_of_different ha hb nofun (.inr (of_identity_fallback hb).2.2.2)
      | fallback platform fields =>
        cases i' with
        | external platform' id' =>
          exact exactKeys_of_different ha hb nofun (.inl (of_identity_fallback ha).2.2.2)
        | fallback platform' fields' => exact exactKeys_fallback hdigest ha hb

end KeyText

/-- The digests of the payloads of `byId` and `byTitle`. -/
def glintsDigest (payload : Dict) : String :=
  match payload.get "title" with
  | .str _ => "fcbfdfdef57eb1ea386ae564effae9ac93b40dbc72b2851aba492a786ec51fab"
  | _ => "8d77617a5186c548bad0eda3c40d96b75694d18e9ac8f590e2fa131ba39bfb93"

theorem colon_not_mem_glintsDigest (payload : Dict) : ':' ∉ (glintsDigest payload).toList := by
  unfold glintsDigest
  split <;> decide

/-- Lower-casing an ASCII letter gives no colon. -/
theorem toLower_eq_colon_iff (c : Char) : c.toLower = ':' ↔ c = ':' := by
  have hupper : ∀ n < 91, 65 ≤ n → (Char.ofNat n).toLower ≠ ':' := by decide
  by_cases h : 65 ≤ c.toNat ∧ c.toNat ≤ 90
  · have hc := hupper c.toNat (Nat.lt_succ_of_le h.2) h.1
    rw [Char.ofNat_toNat] at hc
    refine iff_of_false hc ?_
    rintro rfl
    revert h
    decide
  · have hsame : c.toLower = c := by
      unfold Char.toLower
      rw [dif_neg]
      rintro ⟨hlow, hhigh⟩
      exact h ⟨hlow, hhigh⟩
    rw [hsame]

/-- ASCII texts, with the digests of two payloads. -/
def asciiKeys : KeyText where
  toIdentityText := asciiText
  lower_colons s := by
    have hlower : asciiText.lower s = String.ofList (s.toList.map Char.toLower) := rfl
    rw [hlower, String.toList_ofList]
    induction s.toList with
    | nil => rfl
    | cons c rest ih =>
      rw [List.map_cons, List.count_cons, List.count_cons, ih]
      simp [toLower_eq_colon_iff]
  digest := glintsDigest
  digest_hex := colon_not_mem_glintsDigest

/-- A record with an id, and one without. -/
def byId : SourceRecord where
  sourcePlatform := .str "Glints"
  externalId := .str "42"

def byTitle : SourceRecord where
  sourcePlatform := .str "glints"
  title := .str "Go developer"

/-- An id and a fingerprint. -/
theorem exactKeys_byId_byTitle : asciiKeys.ExactKeys byId byTitle := by
  have hid : asciiKeys.identity byId = some (.external "glints" "42") := by rfl
  have htitle : asciiKeys.identity byTitle
      = some (.fallback "glints" ⟨none, some "Go developer", none, none⟩) := by rfl
  refine (KeyText.exactKeys_iff ?_).mpr ?_
  · rintro ⟨-, hdigest⟩
    revert hdigest
    decide
  · unfold KeyText.KeysApart
    rw [hid, htitle]
    refine ⟨?_, not_shifted_of_eq rfl⟩
    intro hequal
    have hfront := congrArg (fun pair => pair.2.toList.head?) hequal
    revert hfront
    decide

/-- Ids that differ in case are one for the resolver, and a colon moves between the parts. -/
theorem keys_not_exact :
    ¬ asciiKeys.ExactKeys ⟨.str "glints", .str "AB1", .null, .null, .null, .null⟩
        ⟨.str "glints", .str "ab1", .null, .null, .null, .null⟩ ∧
      ¬ asciiKeys.ExactKeys ⟨.str "a:b", .str "c", .null, .null, .null, .null⟩
        ⟨.str "a", .str "b:c", .null, .null, .null, .null⟩ := by
  constructor
  · intro h
    obtain ⟨key, hkey, hkey'⟩ := h.agrees.mpr ⟨"glints:ab1", by rfl, by rfl⟩
    have hupper : asciiKeys.key ⟨.str "glints", .str "AB1", .null, .null, .null, .null⟩
        = some "glints:AB1" := by rfl
    have hlower : asciiKeys.key ⟨.str "glints", .str "ab1", .null, .null, .null, .null⟩
        = some "glints:ab1" := by rfl
    rw [hupper] at hkey
    rw [hlower, ← hkey] at hkey'
    revert hkey'
    decide
  · intro h
    obtain ⟨i, hi, hi'⟩ := h.identity.mp ⟨"a:b:c", by rfl, by rfl⟩
    have hfirst : asciiKeys.identity ⟨.str "a:b", .str "c", .null, .null, .null, .null⟩
        = some (.external "a:b" "c") := by rfl
    have hsecond : asciiKeys.identity ⟨.str "a", .str "b:c", .null, .null, .null, .null⟩
        = some (.external "a" "b:c") := by rfl
    rw [hfirst] at hi
    rw [hsecond, ← hi] at hi'
    simp at hi'

end Bisakerja
