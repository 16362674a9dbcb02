import BisakerjaScraper.Jobs.SalaryReads
import BisakerjaScraper.Sources.Lists
import BisakerjaScraper.Sources.Mappers

/-! What a mapper does with a payload its parsers accepted.

    Only the validation at the end turns what it refuses into a `NormalizeError`. Before it, a mapper
    iterates over lists, reads HTML, datetimes, amounts and numbers of years, and whatever Python
    raises there leaves the mapper as it is. -/

namespace Bisakerja
open Schemes

/-! ### What the parts of a mapper take -/

/-- A value that can be iterated over. -/
def Json.Iterable : Json → Prop
  | .list _ | .str _ | .dict _ => True
  | .null | .bool _ | .int _ | .float _ => False

/-- A value `html_to_text` takes: `None` or a text. -/
def Json.IsHtml : Json → Prop
  | .null | .str _ => True
  | .bool _ | .int _ | .float _ | .list _ | .dict _ => False

/-- A value that has a hash. -/
def Json.Hashable : Json → Prop
  | .list _ | .dict _ => False
  | .null | .bool _ | .int _ | .float _ | .str _ => True

/-- A number of years that `int` reads when `isdigit` calls it one. -/
def CountRead (value : Json) : Prop :=
  ∀ s, value = .str s → isDigitText (strip s) = true → (intOfText (strip s)).isSome = true

namespace MapperText

variable (text : MapperText)

/-- A datetime with an offset is one in UTC, too. -/
def InRange (value : Json) : Prop :=
  ∀ label, optionalCleanText value = some label → text.alphabet.isRelativeLabel label = false →
    ∀ time offset, text.parseIso label = some (time, some offset) →
      datetimeMin ≤ time - offset ∧ time - offset ≤ datetimeMax

/-- The first of two datetimes is in range, and where it is none the second is. -/
def FirstInRange (a b : Json) : Prop :=
  text.InRange a ∧ (text.parseDatetime a = .ok none → text.InRange b)

/-- A number that is a timestamp of some datetime, or a text whose datetime is one in UTC, too. -/
def EpochInRange : Json → Prop
  | .str s => strip s ≠ "" → ∀ time offset,
      text.dates.fromIsoformat (if endsWith (strip s) "Z" then dropLast (strip s) 1 ++ "+00:00"
        else strip s) = some (time, some offset) →
      datetimeMin ≤ time - offset ∧ time - offset ≤ datetimeMax
  | .int n => ∃ time, text.dates.fromTimestamp (.int n)
      (if DateText.isMicroseconds (.int n) then 1000000 else 1000) = .ok time
  | .float x => ∃ time, text.dates.fromTimestamp (.float x)
      (if DateText.isMicroseconds (.float x) then 1000000 else 1000) = .ok time
  | .null | .bool _ | .list _ | .dict _ => True

/-- The bullets that are looked for are those of the detail, or else those of the list. -/
theorem iterable_bullets {bullets listBullets : Json}
    (hbullets : (bullets.orElse (.list [])).Iterable)
    (hlist : bulletTexts bullets = .ok [] → (listBullets.orElse (.list [])).Iterable) :
    ((bullets.orElse listBullets).orElse (.list [])).Iterable := by
  by_cases htruthy : bullets.truthy = true
  · have hsame : bullets.orElse listBullets = bullets := if_pos htruthy
    rwa [hsame]
  · have hnone : ∀ other, bullets.orElse other = other := fun other => if_neg htruthy
    rw [hnone]
    refine hlist ?_
    unfold bulletTexts
    rw [hnone]
    rfl

variable {text} {kind : PyException → Prop} (hkind : ∀ className message, kind (.plain className message))

include hkind

theorem goodWhen_iterate (value : Json) : GoodWhen kind value.Iterable value.iterate := by
  cases value with
  | list xs => exact goodWhen_ok trivial _
  | str s => exact goodWhen_ok trivial _
  | dict entries => exact goodWhen_ok trivial _
  | null => exact goodWhen_error not_false (hkind _ _)
  | bool b => exact goodWhen_error not_false (hkind _ _)
  | int n => exact goodWhen_error not_false (hkind _ _)
  | float x => exact goodWhen_error not_false (hkind _ _)

theorem goodWhen_htmlToText (value : Json) : GoodWhen kind value.IsHtml (text.htmlToText value) := by
  cases value with
  | null => exact goodWhen_ok trivial _
  | str s => exact goodWhen_ok trivial _
  | bool b => exact goodWhen_error not_false (hkind _ _)
  | int n => exact goodWhen_error not_false (hkind _ _)
  | float x => exact goodWhen_error not_false (hkind _ _)
  | list xs => exact goodWhen_error not_false (hkind _ _)
  | dict entries => exact goodWhen_error not_false (hkind _ _)

theorem goodWhen_isNoneOrZero (value : Json) : GoodWhen kind value.Hashable (isNoneOrZero value) := by
  cases value with
  | null => exact goodWhen_ok trivial _
  | bool b => exact goodWhen_ok trivial _
  | int n => exact goodWhen_ok trivial _
  | float x => exact goodWhen_ok trivial _
  | str s => exact goodWhen_ok trivial _
  | list xs => exact goodWhen_error not_false (hkind _ _)
  | dict entries => exact goodWhen_error not_false (hkind _ _)

theorem goodWhen_asNonNegativeInt (value : Json) :
    GoodWhen kind (CountRead value) (asNonNegativeInt value) := by
  have hother : ∀ {count : Option ℕ}, (∀ s, value ≠ .str s) →
      GoodWhen kind (CountRead value) (.ok count) := fun hne =>
    goodWhen_ok (fun s hs => absurd hs (hne s)) _
  cases value with
  | str s =>
    rw [asNonNegativeInt]
    by_cases hdigits : isDigitText (strip s) = true
    · rw [if_pos hdigits]
      cases hint : intOfText (strip s) with
      | some n => exact goodWhen_ok (by rintro s' ⟨⟩ -; simp [hint]) _
      | none =>
        refine goodWhen_error (fun hread => ?_) (hkind _ _)
        simpa [hint] using hread s rfl hdigits
    · rw [if_neg hdigits]
      exact goodWhen_ok (by rintro s' ⟨⟩ h; exact absurd h hdigits) _
  | int n => exact hother (by simp)
  | float x => cases x <;> exact hother (by simp)
  | null => exact hother (by simp)
  | bool b => exact hother (by simp)
  | list xs => exact hother (by simp)
  | dict entries => exact hother (by simp)

theorem goodWhen_parseDatetime (value : Json) :
    GoodWhen kind (text.InRange value) (text.parseDatetime value) := by
  unfold parseDatetime
  split
  · next hnone => exact goodWhen_ok (fun label hlabel => by rw [hnone] at hlabel; cases hlabel) _
  · next label hlabel =>
    have hrange : text.InRange value ↔ (text.alphabet.isRelativeLabel label = false →
        ∀ time offset, text.parseIso label = some (time, some offset) →
          datetimeMin ≤ time - offset ∧ time - offset ≤ datetimeMax) := by
      unfold InRange
      simp [hlabel]
    refine GoodWhen.congr ?_ hrange.symm
    by_cases hrelative : text.alphabet.isRelativeLabel label = true
    · rw [if_pos hrelative]
      exact goodWhen_ok (fun hfalse => by rw [hrelative] at hfalse; cases hfalse) _
    · rw [if_neg hrelative]
      rcases text.parseIso label with - | ⟨time, - | offset⟩
      · exact goodWhen_ok (by simp) _
      · exact goodWhen_ok (by simp) _
      · by_cases hbounds : datetimeMin ≤ time - offset ∧ time - offset ≤ datetimeMax
        · simp only [if_pos hbounds]
          refine goodWhen_ok ?_ _
          rintro - time' offset' ⟨⟩
          exact hbounds
        · simp only [if_neg hbounds]
          refine goodWhen_error (fun h => hbounds ?_) (hkind _ _)
          exact h (by simpa using hrelative) time offset rfl

theorem goodWhen_parseDatetimeOr (a b : Json) :
    GoodWhen kind (text.FirstInRange a b) (text.parseDatetimeOr a b) := by
  refine (goodWhen_parseDatetime hkind a).bind fun first hfirst => ?_
  cases first with
  | some time => exact goodWhen_ok (fun hnone => by rw [hfirst] at hnone; cases hnone) _
  | none => exact (goodWhen_parseDatetime hkind b).congr ⟨fun h _ => h, fun h => h hfirst⟩

theorem goodWhen_salaryOrNone (minAmount maxAmount currency period display : Json) :
    GoodWhen kind (AmountRead minAmount ∧ AmountRead maxAmount)
      (text.salaryOrNone minAmount maxAmount currency period display) :=
  (goodWhen_normalizeSalary hkind text.toUnicodeText
    { minAmount, maxAmount, currency, period := .value period, label := display }).bind_pure _

/-! ### The parts of each mapper -/

theorem goodWhen_composeDeallsDescription (detail : Json) :
    GoodWhen kind ((detail.get "description").IsHtml ∧ (detail.get "responsibilities").IsHtml)
      (text.composeDeallsDescription detail) := by
  refine (goodWhen_htmlToText hkind _).bind fun description _ => ?_
  refine (goodWhen_htmlToText hkind _).bind_total fun responsibilities => ?_
  repeat' split
  all_goals exact ⟨_, rfl⟩

theorem goodWhen_composeDeallsRequirements (detail : Json) :
    GoodWhen kind ((detail.get "requirements").IsHtml ∧ (detail.get "qualifications").IsHtml)
      (text.composeDeallsRequirements detail) :=
  (goodWhen_htmlToText hkind _).bind fun _ _ => (goodWhen_htmlToText hkind _).bind_pure _

theorem goodWhen_buildRequirementsSummary (list : Dict) :
    GoodWhen kind (CountRead (list.get "minYearsOfExperience") ∧
        CountRead (list.get "maxYearsOfExperience") ∧
        (list.getOr "skills" (.list [])).Iterable)
      (buildRequirementsSummary list) :=
  (goodWhen_asNonNegativeInt hkind _).bind fun _ _ =>
    (goodWhen_asNonNegativeInt hkind _).bind fun _ _ => (goodWhen_iterate hkind _).bind_pure _

theorem goodWhen_glintsExperienceLevel (list : Dict)
    (hmin : CountRead (list.get "minYearsOfExperience"))
    (hmax : CountRead (list.get "maxYearsOfExperience")) :
    GoodWhen kind True (glintsExperienceLevel list) := by
  unfold glintsExperienceLevel
  split
  · exact goodWhen_ok trivial _
  · obtain ⟨minimum, hminimum⟩ := (goodWhen_asNonNegativeInt hkind _).ok hmin
    obtain ⟨maximum, hmaximum⟩ := (goodWhen_asNonNegativeInt hkind _).ok hmax
    rw [hminimum, ok_bind, hmaximum, ok_bind]
    exact goodWhen_ok trivial _

theorem goodWhen_bulletTexts (values : Json) :
    GoodWhen kind (values.orElse (.list [])).Iterable (bulletTexts values) :=
  (goodWhen_iterate hkind _).bind_pure _

theorem goodWhen_jobstreetEmploymentTypes (list : Dict) (detailJob : Json) :
    GoodWhen kind ((list.get "workTypes").orElse (.list [])).Iterable
      (jobstreetEmploymentTypes list detailJob) :=
  (goodWhen_iterate hkind _).bind_pure _

theorem goodWhen_jobstreetExperienceLevel (list : Dict) (detailJob : Json) :
    GoodWhen kind
      (knownLevel [list.get "experienceLevel", list.get "careerLevel", detailJob.get "careerLevel"] =
          none →
        ((((detailJob.get "products").get "bullets").orElse
          (list.get "bulletPoints")).orElse (.list [])).Iterable)
      (jobstreetExperienceLevel list detailJob) := by
  unfold jobstreetExperienceLevel
  split
  · next level hlevel => exact goodWhen_ok (fun hnone => by rw [hnone] at hlevel; cases hlevel) _
  · next hnone =>
    exact ((goodWhen_iterate hkind _).bind_pure _).congr ⟨fun h _ => h, fun h => h hnone⟩

theorem goodWhen_requirementsText (list : Dict) (detailJob title : Json) :
    GoodWhen kind ((((detailJob.get "products").get "bullets").orElse (.list [])).Iterable ∧
        (bulletTexts ((detailJob.get "products").get "bullets") = .ok [] →
          ((list.get "bulletPoints").orElse (.list [])).Iterable ∧
            (bulletTexts (list.get "bulletPoints") = .ok [] → (detailJob.get "content").IsHtml)))
      (text.requirementsText list detailJob title) := by
  refine (goodWhen_bulletTexts hkind _).bind fun bullets hbullets => ?_
  rw [hbullets]
  rcases bullets with - | ⟨first, bullets⟩
  · refine GoodWhen.congr ?_ ⟨fun h _ => h, fun h => h rfl⟩
    refine (goodWhen_bulletTexts hkind _).bind fun listBullets hlistBullets => ?_
    rw [hlistBullets]
    rcases listBullets with - | ⟨first, listBullets⟩
    · exact ((goodWhen_htmlToText hkind _).bind_pure _).congr ⟨fun h _ => h, fun h => h rfl⟩
    · exact goodWhen_ok (fun h => by cases h) _
  · exact goodWhen_ok (fun h => by cases h) _

theorem goodWhen_fromTimestamp (value : Json) (divisor : ℕ) :
    GoodWhen kind (∃ time, text.dates.fromTimestamp value divisor = .ok time)
      ((text.dates.fromTimestamp value divisor).map some) := by
  cases htime : text.dates.fromTimestamp value divisor with
  | ok time => exact goodWhen_ok ⟨time, rfl⟩ _
  | error exc =>
    obtain ⟨className, message, rfl⟩ := text.fromTimestamp_error value divisor exc htime
    refine goodWhen_error ?_ (hkind _ _)
    rintro ⟨time, hok⟩
    cases hok

theorem goodWhen_parseKitalulusEpochDatetime (value : Json) :
    GoodWhen kind (text.EpochInRange value) (text.dates.parseKitalulusEpochDatetime value) := by
  cases value with
  | int n => exact goodWhen_fromTimestamp hkind _ _
  | float x => exact goodWhen_fromTimestamp hkind _ _
  | null | bool | list | dict => exact goodWhen_ok trivial _
  | str s =>
    unfold DateText.parseKitalulusEpochDatetime DateText.parseSourceDatetime EpochInRange
    dsimp only
    by_cases hblank : strip s = ""
    · rw [if_pos hblank]
      exact goodWhen_ok (fun hne => absurd hblank hne) _
    · rw [if_neg hblank]
      generalize (if endsWith (strip s) "Z" then dropLast (strip s) 1 ++ "+00:00" else strip s) = label
      rcases text.dates.fromIsoformat label with - | ⟨time, - | offset⟩
      · exact goodWhen_ok (by simp) _
      · exact goodWhen_ok (by simp) _
      · by_cases hbounds : datetimeMin ≤ time - offset ∧ time - offset ≤ datetimeMax
        · simp only [if_pos hbounds]
          refine goodWhen_ok ?_ _
          rintro - time' offset' ⟨⟩
          exact hbounds
        · simp only [if_neg hbounds]
          exact goodWhen_error (fun h => hbounds (h hblank time offset rfl)) (hkind _ _)

theorem goodWhen_kitalulusSalary (detail : Dict) :
    GoodWhen kind (AmountRead (zeroAsNone (detail.get "salaryLowerBound")) ∧
        AmountRead (zeroAsNone (detail.get "salaryUpperBound")))
      (text.kitalulusSalary detail) := by
  unfold kitalulusSalary
  split
  · next hlow hhigh =>
    rw [hlow, hhigh]
    exact goodWhen_ok ⟨trivial, trivial⟩ _
  · exact goodWhen_salaryOrNone hkind _ _ _ _ _

theorem goodWhen_kitalulusDescription (detail : Dict) :
    GoodWhen kind
      (((detail.get "formattedDescription").truthy = true →
          (detail.get "formattedDescription").IsHtml) ∧
        (((detail.get "formattedDescription").truthy = true →
            text.htmlToText (detail.get "formattedDescription") = .ok none) →
          (detail.get "description").IsHtml))
      (text.kitalulusDescription detail) := by
  unfold kitalulusDescription
  dsimp only
  by_cases htruthy : (detail.get "formattedDescription").truthy = true
  · simp only [htruthy, if_true, true_implies]
    refine (goodWhen_htmlToText hkind _).bind fun description hdescription => ?_
    rw [hdescription]
    cases description with
    | some description => exact goodWhen_ok (fun h => by cases h) _
    | none => exact (goodWhen_htmlToText hkind _).congr ⟨fun h _ => h, fun h => h rfl⟩
  · simp only [htruthy, Bool.false_eq_true, if_false, false_implies, true_and, true_implies]
    exact goodWhen_htmlToText hkind _

theorem goodWhen_kitalulusExperienceLevel (detail : Dict) :
    GoodWhen kind (detail.get "minExperience").Hashable (kitalulusExperienceLevel detail) := by
  refine (goodWhen_isNoneOrZero hkind _).bind_total fun entry => ?_
  dsimp only
  repeat' split
  all_goals exact ⟨_, rfl⟩

end MapperText

/-! ### Mappable payloads -/

namespace MapperText

variable (text : MapperText)

/-- What Dealls payloads the mapper gets through. -/
structure DeallsMappable (raw : Dict) : Prop where
  publishedAt : text.InRange ((listPayloadOf raw).get "publishedAt")
  updatedAt : text.FirstInRange ((listPayloadOf raw).get "latestUpdatedAt")
    ((listPayloadOf raw).get "updatedAt")
  html : ∀ key ∈ ["description", "responsibilities", "requirements", "qualifications"],
    ((raw.get "detail").get key).IsHtml
  salary : ∀ key ∈ ["start", "end"], AmountRead (((listPayloadOf raw).get "salaryRange").get key)
  lists : ∀ key ∈ ["employmentTypes", "skills"], ((listPayloadOf raw).getOr key (.list [])).Iterable

/-- What Glints payloads the mapper gets through. -/
structure GlintsMappable (raw : Dict) : Prop where
  dates : ∀ key ∈ ["createdAt", "updatedAt"], text.InRange ((listPayloadOf raw).get key)
  years : ∀ key ∈ ["minYearsOfExperience", "maxYearsOfExperience"],
    CountRead ((listPayloadOf raw).get key)
  salary : ∀ key ∈ ["minAmount", "maxAmount"],
    AmountRead ((firstDict ((listPayloadOf raw).get "salaries")).get key)
  skills : ((listPayloadOf raw).getOr "skills" (.list [])).Iterable

/-- What JobStreet payloads the mapper gets through. -/
structure JobstreetMappable (raw : Dict) : Prop where
  postedAt : text.FirstInRange ((((raw.get "detail").get "job").get "listedAt").get "dateTimeUtc")
    (((listPayloadOf raw).get "listingDate").get "dateTimeUtc")
  workTypes : (((listPayloadOf raw).get "workTypes").orElse (.list [])).Iterable
  content : (((raw.get "detail").get "job").get "content").IsHtml
  bullets : (((((raw.get "detail").get "job").get "products").get "bullets").orElse
    (.list [])).Iterable
  listBullets : bulletTexts ((((raw.get "detail").get "job").get "products").get "bullets") = .ok [] →
    (((listPayloadOf raw).get "bulletPoints").orElse (.list [])).Iterable
  tags : ((listPayloadOf raw).getOr "tags" (.list [])).Iterable

/-- What Kalibrr payloads the mapper gets through. -/
structure KalibrrMappable (raw : Dict) : Prop where
  dates : text.FirstInRange ((listPayloadOf raw).get "activationDate")
    ((listPayloadOf raw).get "createdAt")
  salary : ∀ key ∈ ["baseSalary", "maximumSalary"], AmountRead ((listPayloadOf raw).get key)
  html : ∀ key ∈ ["description", "qualifications"], ((detailPayloadOf raw).get key).IsHtml
  skills : ((listPayloadOf raw).getOr "jobSdsSkills" (.list [])).Iterable

/-- What Kitalulus payloads the mapper gets through. -/
structure KitalulusMappable (raw : Dict) : Prop where
  updatedAt : text.EpochInRange ((detailPayloadOf raw).get "updatedAt")
  salary : ∀ key ∈ ["salaryLowerBound", "salaryUpperBound"],
    AmountRead (zeroAsNone ((detailPayloadOf raw).get key))
  formatted : ((detailPayloadOf raw).get "formattedDescription").truthy = true →
    ((detailPayloadOf raw).get "formattedDescription").IsHtml
  description : (((detailPayloadOf raw).get "formattedDescription").truthy = true →
      text.htmlToText ((detailPayloadOf raw).get "formattedDescription") = .ok none) →
    ((detailPayloadOf raw).get "description").IsHtml
  minExperience : ((detailPayloadOf raw).get "minExperience").Hashable

/-- The payloads the mapper of a source gets through. -/
def Mappable : SourcePlatform → Dict → Prop
  | .dealls => text.DeallsMappable
  | .glints => text.GlintsMappable
  | .jobstreet => text.JobstreetMappable
  | .kalibrr => text.KalibrrMappable
  | .kitalulus => text.KitalulusMappable

variable {text} {kind : PyException → Prop} (hkind : ∀ className message, kind (.plain className message))

theorem forall_mem_pair {P : String → Prop} {a b : String} (h : P a ∧ P b) : ∀ key ∈ [a, b], P key :=
  List.forall_mem_cons.mpr ⟨h.1, List.forall_mem_singleton.mpr h.2⟩

include hkind

theorem goodWhen_deallsPayload (raw : Dict) :
    GoodWhen kind (text.DeallsMappable raw) (text.deallsPayload raw) := by
  have hchain : GoodWhen kind _ (text.deallsPayload raw) :=
    (goodWhen_parseDatetime hkind _).bind fun _ _ =>
    (goodWhen_parseDatetimeOr hkind _ _).bind fun _ _ =>
    (goodWhen_composeDeallsDescription hkind _).bind fun _ _ =>
    (goodWhen_composeDeallsRequirements hkind _).bind fun _ _ =>
    (goodWhen_salaryOrNone hkind _ _ _ _ _).bind fun _ _ =>
    (goodWhen_iterate hkind _).bind fun _ _ => (goodWhen_iterate hkind _).bind_pure _
  refine hchain.congr ⟨?_, ?_⟩
  · rintro ⟨hpublished, hupdated, ⟨h1, h2⟩, ⟨h3, h4⟩, hsalary, hlists⟩
    exact ⟨hpublished, hupdated, by simp [h1, h2, h3, h4], forall_mem_pair hsalary,
      forall_mem_pair hlists⟩
  · rintro ⟨hpublished, hupdated, hhtml, hsalary, hlists⟩
    simp only [List.forall_mem_cons, List.not_mem_nil, false_implies, implies_true, and_true]
      at hhtml hsalary hlists
    exact ⟨hpublished, hupdated, ⟨hhtml.1, hhtml.2.1⟩, hhtml.2.2, hsalary, hlists⟩

theorem goodWhen_glintsPayload (raw : RawSourceJob) :
    GoodWhen kind (text.GlintsMappable raw.rawPayload) (text.glintsPayload raw) := by
  have hchain : GoodWhen kind _ (text.glintsPayload raw) :=
    (goodWhen_parseDatetime hkind _).bind fun _ _ =>
    (goodWhen_parseDatetime hkind _).bind fun _ _ =>
    (goodWhen_buildRequirementsSummary hkind _).bind fun _ hsummary =>
    (goodWhen_salaryOrNone hkind _ _ _ _ _).bind fun _ _ =>
    have hread := (goodWhen_buildRequirementsSummary hkind _).of_ok hsummary
    (goodWhen_glintsExperienceLevel hkind _ hread.1 hread.2.1).bind fun _ _ =>
    (goodWhen_iterate hkind _).bind_pure _
  refine hchain.congr ⟨?_, ?_⟩
  · rintro ⟨hcreated, hupdated, ⟨hmin, hmax, -⟩, hsalary, -, hskills⟩
    exact ⟨forall_mem_pair ⟨hcreated, hupdated⟩, forall_mem_pair ⟨hmin, hmax⟩,
      forall_mem_pair hsalary, hskills⟩
  · rintro ⟨hdates, hyears, hsalary, hskills⟩
    simp only [List.forall_mem_cons, List.not_mem_nil, false_implies, implies_true, and_true]
      at hdates hyears hsalary
    exact ⟨hdates.1, hdates.2, ⟨hyears.1, hyears.2, hskills⟩, hsalary, trivial, hskills⟩

theorem goodWhen_jobstreetPayload (raw : Dict) :
    GoodWhen kind (text.JobstreetMappable raw) (text.jobstreetPayload raw) := by
  have hchain : GoodWhen kind _ (text.jobstreetPayload raw) :=
    (goodWhen_parseDatetimeOr hkind _ _).bind fun _ _ =>
    (goodWhen_salaryOrNone hkind _ _ _ _ _).bind fun _ _ =>
    (goodWhen_jobstreetEmploymentTypes hkind _ _).bind fun _ _ =>
    (goodWhen_jobstreetExperienceLevel hkind _ _).bind fun _ _ =>
    (goodWhen_htmlToText hkind _).bind fun _ _ =>
    (goodWhen_requirementsText hkind _ _ _).bind fun _ _ => (goodWhen_iterate hkind _).bind_pure _
  refine hchain.congr ⟨?_, ?_⟩
  · rintro ⟨hposted, -, hworkTypes, -, hcontent, ⟨hbullets, hlist⟩, htags⟩
    exact ⟨hposted, hworkTypes, hcontent, hbullets, fun hnone => (hlist hnone).1, htags⟩
  · rintro ⟨hposted, hworkTypes, hcontent, hbullets, hlist, htags⟩
    -- the level of experience looks for the bullets the requirements are read from
    exact ⟨hposted, ⟨trivial, trivial⟩, hworkTypes,
      fun _ => iterable_bullets hbullets hlist, hcontent,
      ⟨hbullets, fun hnone => ⟨hlist hnone, fun _ => hcontent⟩⟩, htags⟩

theorem goodWhen_kalibrrPayload (raw : Dict) :
    GoodWhen kind (text.KalibrrMappable raw) (text.kalibrrPayload raw) := by
  have hchain : GoodWhen kind _ (text.kalibrrPayload raw) :=
    (goodWhen_parseDatetimeOr hkind _ _).bind fun _ _ =>
    (goodWhen_parseDatetime hkind _).bind fun _ _ =>
    (goodWhen_salaryOrNone hkind _ _ _ _ _).bind fun _ _ =>
    (goodWhen_htmlToText hkind _).bind fun _ _ =>
    (goodWhen_htmlToText hkind _).bind fun _ _ => (goodWhen_iterate hkind _).bind_pure _
  refine hchain.congr ⟨?_, ?_⟩
  · rintro ⟨hdates, -, hsalary, hdescription, hqualifications, hskills⟩
    exact ⟨hdates, forall_mem_pair hsalary, forall_mem_pair ⟨hdescription, hqualifications⟩, hskills⟩
  · rintro ⟨hdates, hsalary, hhtml, hskills⟩
    simp only [List.forall_mem_cons, List.not_mem_nil, false_implies, implies_true, and_true]
      at hsalary hhtml
    exact ⟨hdates, hdates.1, hsalary, hhtml.1, hhtml.2, hskills⟩

theorem goodWhen_kitalulusPayload (raw : RawSourceJob) :
    GoodWhen kind (text.KitalulusMappable raw.rawPayload) (text.kitalulusPayload raw) := by
  have hchain : GoodWhen kind _ (text.kitalulusPayload raw) :=
    (goodWhen_parseKitalulusEpochDatetime hkind _).bind fun _ _ =>
    (goodWhen_kitalulusSalary hkind _).bind fun _ _ =>
    (goodWhen_kitalulusDescription hkind _).bind fun _ _ =>
    (goodWhen_kitalulusExperienceLevel hkind _).bind_pure _
  refine hchain.congr ⟨?_, ?_⟩
  · rintro ⟨hupdated, hsalary, ⟨hformatted, hdescription⟩, hexperience⟩
    exact ⟨hupdated, forall_mem_pair hsalary, hformatted, hdescription, hexperience⟩
  · rintro ⟨hupdated, hsalary, hformatted, hdescription, hexperience⟩
    simp only [List.forall_mem_cons, List.not_mem_nil, false_implies, implies_true, and_true]
      at hsalary
    exact ⟨hupdated, hsalary, ⟨hformatted, hdescription⟩, hexperience⟩

/-- A mapper gets through a payload, or raises one of Python's own exceptions. -/
theorem goodWhen_mappedPayload (platform : SourcePlatform) (raw : RawSourceJob) :
    GoodWhen kind (text.Mappable platform raw.rawPayload) (text.mappedPayload platform raw) := by
  cases platform with
  | dealls => exact goodWhen_deallsPayload hkind _
  | glints => exact goodWhen_glintsPayload hkind raw
  | jobstreet => exact goodWhen_jobstreetPayload hkind _
  | kalibrr => exact goodWhen_kalibrrPayload hkind _
  | kitalulus => exact goodWhen_kitalulusPayload hkind raw

end MapperText

/-! ### What a mapping comes to -/

/-- The raw jobs that reach a mapper: the source's list parser accepted the job, and it is stored as
    it is or with the detail that was answered. -/
def AcceptedRaw (platform : SourcePlatform) (raw : RawSourceJob) : Prop :=
  ∃ json listed, parseRawJob platform json = .ok listed ∧
    (raw = listed ∨ ∃ answer, enrichJob platform answer listed = .ok raw)

/-- A `NormalizeError` that carries an external id. -/
def IsNormalizeErrorOf (externalId : String) : PyException → Prop
  | .scraper .normalize _ (some id) _ _ => id = externalId
  | _ => False

/-- A canonical job of a raw job, scraped at a given time. -/
structure CanonicalJobSchema.MappedFrom (job : CanonicalJobSchema) (raw : RawSourceJob)
    (time : Time) : Prop where
  platform : job.source.platform.value = raw.sourcePlatform
  externalJobId : job.source.externalJobId.val = raw.externalId
  scrapedAt : job.source.scrapedAt = time
  lastSeenAt : job.lastSeenAt = time
  salary : ∀ salary ∈ job.salary, (∀ low ∈ salary.minAmount, (0 : ℤ) ≤ low) ∧
    ∀ low ∈ salary.minAmount, ∀ high ∈ salary.maxAmount, low ≤ high

/-- A mapping returns a canonical job of the raw job or raises a `NormalizeError` with its id. -/
def MeetsContract (raw : RawSourceJob) (scrapedAt : Time) :
    Except PyException CanonicalJobSchema → Prop
  | .ok job => job.MappedFrom raw scrapedAt
  | .error exc => IsNormalizeErrorOf raw.externalId exc

theorem sourcePlatform_parseRawJob {platform : SourcePlatform} {json : Json} {raw : RawSourceJob}
    (h : parseRawJob platform json = .ok raw) : raw.sourcePlatform = platform.value := by
  cases platform with
  | dealls =>
    obtain ⟨_, -, h⟩ := ok_bind_iff.mp h
    obtain ⟨_, -, h⟩ := ok_bind_iff.mp h
    cases h
    rfl
  | glints =>
    obtain ⟨_, -, h⟩ := ok_bind_iff.mp h
    obtain ⟨_, -, h⟩ := ok_bind_iff.mp h
    cases h
    rfl
  | jobstreet =>
    obtain ⟨_, -, h⟩ := ok_bind_iff.mp h
    obtain ⟨_, -, h⟩ := ok_bind_iff.mp h
    cases h
    rfl
  | kalibrr =>
    obtain ⟨_, -, h⟩ := ok_bind_iff.mp h
    obtain ⟨_, -, h⟩ := ok_bind_iff.mp h
    cases h
    rfl
  | kitalulus =>
    obtain ⟨_, -, h⟩ := ok_bind_iff.mp h
    obtain ⟨_, -, h⟩ := ok_bind_iff.mp h
    obtain ⟨_, -, h⟩ := ok_bind_iff.mp h
    obtain ⟨_, -, h⟩ := ok_bind_iff.mp h
    obtain ⟨_, -, h⟩ := ok_bind_iff.mp h
    cases h
    rfl

/-- The detail changes neither the source nor the id. -/
theorem sourcePlatform_enrichJob {platform : SourcePlatform} {answer : DetailAnswer}
    {listed raw : RawSourceJob} (h : enrichJob platform answer listed = .ok raw) :
    raw.sourcePlatform = listed.sourcePlatform := by
  cases platform with
  | dealls =>
    change deallsFetchEnrichedJob answer listed = .ok raw at h
    unfold deallsFetchEnrichedJob at h
    repeat' split at h
    all_goals cases h
    all_goals rfl
  | glints =>
    cases h
    rfl
  | jobstreet =>
    change jobstreetFetchEnrichedJob answer listed = .ok raw at h
    unfold jobstreetFetchEnrichedJob at h
    repeat' split at h
    all_goals cases h
    all_goals rfl
  | kalibrr =>
    obtain ⟨detail, -, rfl⟩ := ok_map_iff.mp h
    rfl
  | kitalulus =>
    obtain ⟨_, -, h⟩ := ok_bind_iff.mp h
    repeat' split at h
    all_goals cases h
    all_goals rfl

theorem AcceptedRaw.sourcePlatform {platform : SourcePlatform} {raw : RawSourceJob}
    (h : AcceptedRaw platform raw) : raw.sourcePlatform = platform.value := by
  obtain ⟨json, listed, hlisted, rfl | ⟨answer, henriched⟩⟩ := h
  · exact sourcePlatform_parseRawJob hlisted
  · rw [sourcePlatform_enrichJob henriched]
    exact sourcePlatform_parseRawJob hlisted

theorem val_of_nonEmptyField {s : String} {field : NonEmptyStr}
    (h : nonEmptyField (.str s) = some field) : field.val = s := by
  rw [nonEmptyField] at h
  split at h
  · cases h
    rfl
  · cases h

/-- What of a payload and its raw job stands in the job the schema makes of them. -/
structure MappedPayload.Validated (payload : MappedPayload) (platform : SourcePlatform)
    (raw : RawSourceJob) (time : Time) (job : CanonicalJobSchema) : Prop where
  platform : job.source.platform = platform
  externalJobId : job.source.externalJobId.val = raw.externalId
  title : nonEmptyField payload.title = some job.title
  scrapedAt : job.source.scrapedAt = time
  lastSeenAt : job.lastSeenAt = time

theorem MappedPayload.validated {payload : MappedPayload} {platform : SourcePlatform}
    {raw : RawSourceJob} {scrapedAt : Time} {job : CanonicalJobSchema}
    (h : payload.validate platform raw scrapedAt = some job) :
    payload.Validated platform raw scrapedAt job := by
  unfold MappedPayload.validate at h
  obtain ⟨externalJobId, hid, h⟩ := Option.bind_eq_some_iff.mp h
  obtain ⟨_, -, h⟩ := Option.bind_eq_some_iff.mp h
  obtain ⟨_, -, h⟩ := Option.bind_eq_some_iff.mp h
  obtain ⟨_, -, h⟩ := Option.bind_eq_some_iff.mp h
  obtain ⟨title, htitle, h⟩ := Option.bind_eq_some_iff.mp h
  obtain ⟨_, -, h⟩ := Option.bind_eq_some_iff.mp h
  obtain ⟨_, -, h⟩ := Option.bind_eq_some_iff.mp h
  obtain ⟨_, -, h⟩ := Option.bind_eq_some_iff.mp h
  obtain ⟨_, -, h⟩ := Option.bind_eq_some_iff.mp h
  obtain ⟨_, -, h⟩ := Option.bind_eq_some_iff.mp h
  obtain ⟨_, -, h⟩ := Option.bind_eq_some_iff.mp h
  obtain ⟨_, -, h⟩ := Option.bind_eq_some_iff.mp h
  obtain ⟨_, -, h⟩ := Option.bind_eq_some_iff.mp h
  obtain ⟨_, -, h⟩ := Option.bind_eq_some_iff.mp h
  obtain ⟨_, -, h⟩ := Option.bind_eq_some_iff.mp h
  obtain ⟨_, -, h⟩ := Option.bind_eq_some_iff.mp h
  obtain ⟨_, -, h⟩ := Option.bind_eq_some_iff.mp h
  cases h
  exact ⟨rfl, val_of_nonEmptyField hid, htitle, rfl, rfl⟩

/-- A mapped job is what the schema made of a payload. -/
theorem validated_of_validateMappedJob {payload : MappedPayload} {platform : SourcePlatform}
    {raw : RawSourceJob} {scrapedAt : Time} {job : CanonicalJobSchema}
    (h : validateMappedJob platform raw scrapedAt payload = .ok job) :
    payload.Validated platform raw scrapedAt job := by
  unfold validateMappedJob at h
  split at h
  · next job' hvalid =>
    cases h
    exact MappedPayload.validated hvalid
  · cases h

theorem MappedPayload.Validated.mappedFrom {payload : MappedPayload} {platform : SourcePlatform}
    {raw : RawSourceJob} {scrapedAt : Time} {job : CanonicalJobSchema}
    (hplatform : raw.sourcePlatform = platform.value)
    (h : payload.Validated platform raw scrapedAt job) : job.MappedFrom raw scrapedAt where
  platform := by rw [h.platform, hplatform]
  externalJobId := h.externalJobId
  scrapedAt := h.scrapedAt
  lastSeenAt := h.lastSeenAt
  salary := fun salary _ => ⟨fun low _ => Int.natCast_nonneg low, salary.min_le_max⟩

/-- The validation keeps the contract by itself. -/
theorem meetsContract_validateMappedJob {platform : SourcePlatform} {raw : RawSourceJob}
    (hplatform : raw.sourcePlatform = platform.value) (scrapedAt : Time) (payload : MappedPayload) :
    MeetsContract raw scrapedAt (validateMappedJob platform raw scrapedAt payload) := by
  unfold validateMappedJob
  cases hvalid : payload.validate platform raw scrapedAt with
  | some job => exact (MappedPayload.validated hvalid).mappedFrom hplatform
  | none => exact rfl

namespace MapperText

/-- Texts in ASCII, without markup and without dates. -/
def asciiMapperText : MapperText where
  upper text := String.ofList (text.toList.map Char.toUpper)
  isAlpha text := !text.toList.isEmpty && text.toList.all Char.isAlpha
  alphabet := { isAlnum := fun _ => false, isAlnum_space := fun _ _ => rfl }
  casefold text := String.ofList (text.toList.map Char.toLower)
  dates :=
    { fromIsoformat := fun _ => none
      fromTimestamp := fun value divisor => match value with
        | .int n => .ok (n * 1000000 / divisor)
        | _ => .error (.plain "ValueError" "cannot convert float NaN to integer") }
  dateFromIsoformat _ := none
  treeText text := text
  str value := value.typeName
  fromTimestamp_error value divisor exc h := by
    dsimp only at h
    split at h <;> cases h
    exact ⟨_, _, rfl⟩

/-- A Dealls list job: its id and its role, and the value of `skills`. -/
def engineerJob (skills : Json) : RawSourceJob where
  sourcePlatform := "dealls"
  externalId := "d1"
  sourceUrl := "https://dealls.com/jobs/d1"
  rawPayload := [("id", .str "d1"), ("role", .str "Engineer"), ("skills", skills)]

theorem acceptedRaw_engineerJob (skills : Json) : AcceptedRaw .dealls (engineerJob skills) :=
  ⟨.dict (engineerJob skills).rawPayload, engineerJob skills, rfl, .inl rfl⟩

theorem mappable_engineerJob :
    asciiMapperText.Mappable .dealls (engineerJob (.list [])).rawPayload where
  publishedAt := fun _ h => by cases h
  updatedAt := ⟨fun _ h => (by cases h), fun _ _ h => (by cases h)⟩
  html := List.forall_mem_cons.mpr ⟨trivial,
    List.forall_mem_cons.mpr ⟨trivial, forall_mem_pair ⟨trivial, trivial⟩⟩⟩
  salary := forall_mem_pair ⟨trivial, trivial⟩
  lists := forall_mem_pair ⟨trivial, trivial⟩

end MapperText

end Bisakerja
