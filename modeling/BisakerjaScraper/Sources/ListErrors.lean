import BisakerjaScraper.Shared.Requests
import BisakerjaScraper.Sources.Lists

/-! What a list parser raises besides a `ParseError`.

    The shape of a payload and the texts of its jobs are checked by hand, with a `ParseError`. The
    numbers of a page are not: `int` refuses some texts of digits, the model of the pagination
    refuses a number that is too small, and the quotient of two numbers may be too large for a
    float. -/

namespace Bisakerja
open Schemes

/-! ### Checks that raise a `ParseError` -/

@[simp] theorem escapes_parseError (message : String) : (parseError message).isFetchOrParse = true :=
  rfl

@[simp] theorem not_escapes_requireDict (payload : Dict) (key message : String) :
    ¬ Escapes (requireDict payload key message) := by
  unfold requireDict
  split <;> simp

@[simp] theorem not_escapes_requireList (payload : Dict) (key message : String) :
    ¬ Escapes (requireList payload key message) := by
  unfold requireList
  split <;> simp

@[simp] theorem not_escapes_requireBool (payload : Dict) (key message : String) :
    ¬ Escapes (requireBool payload key message) := by
  unfold requireBool
  split <;> simp

@[simp] theorem not_escapes_requireObject (job : Json) (message : String) :
    ¬ Escapes (requireObject job message) := by
  unfold requireObject
  split <;> simp

@[simp] theorem not_escapes_requireText (payload : Dict) (key message : String) :
    ¬ Escapes (requireText payload key message) := by
  unfold requireText
  split <;> simp

@[simp] theorem not_escapes_requireKitalulusText (value : Json) (message : String)
    (externalId : Option String) : ¬ Escapes (requireKitalulusText value message externalId) := by
  unfold requireKitalulusText
  split
  · split <;> simp [PyException.isFetchOrParse]
  · simp [PyException.isFetchOrParse]

@[simp] theorem not_escapes_kalibrrListId (rawJob : Dict) : ¬ Escapes (kalibrrListId rawJob) := by
  unfold kalibrrListId
  split
  · simp
  · split <;> simp
  · simp

@[simp] theorem escapes_checkModel_iff (model : String) (accepted : Bool) :
    Escapes (checkModel model accepted) ↔ accepted = false := by
  cases accepted <;> simp [checkModel, PyException.plain, PyException.isFetchOrParse]

/-- A list job is parsed or refused with a `ParseError`. -/
theorem not_escapes_parseRawJob (platform : SourcePlatform) (job : Json) :
    ¬ Escapes (parseRawJob platform job) := by
  cases platform <;>
    simp [parseRawJob, parseDeallsRawJob, parseGlintsRawJob, parseJobstreetRawJob,
      parseKalibrrRawJob, parseKitalulusRawJob, escapes_bind_iff]

theorem not_escapes_mapM_parseRawJob (platform : SourcePlatform) (jobs : List Json) :
    ¬ Escapes (jobs.mapM (parseRawJob platform)) := by
  intro h
  obtain ⟨job, -, hjob⟩ := exists_fails_of_mapM h
  exact not_escapes_parseRawJob platform job hjob

/-! ### Numbers that are refused -/

/-- A text of digits that `int` refuses. -/
def IntRefused (value : Json) : Prop :=
  ∃ s, value = .str s ∧ isDigitText s = true ∧ intOfText s = none

/-- A number of a page that is refused, or is below the least value its model takes. -/
def NumberRefused (least : ℤ) (value : Json) (fallback : ℤ) : Prop :=
  IntRefused value ∨ ∃ n, sourceOptionalInt value fallback = .ok n ∧ n < least

theorem escapes_sourceOptionalInt_iff {value : Json} {fallback : ℤ} :
    Escapes (sourceOptionalInt value fallback) ↔ IntRefused value := by
  unfold sourceOptionalInt IntRefused
  split
  · simp
  · next s =>
    split
    · next hdigits =>
      cases hint : intOfText s <;>
        simp [hdigits, hint, PyException.plain, PyException.isFetchOrParse]
    · next hdigits => simp [hdigits]
  · next hother => simpa using fun s hs => absurd hs (hother s)

theorem intRefused_of_error {value : Json} {fallback : ℤ} {exc : PyException}
    (h : sourceOptionalInt value fallback = .error exc) : IntRefused value := by
  unfold sourceOptionalInt at h
  split at h
  · cases h
  · next s =>
    split at h
    · next hdigits =>
      cases hint : intOfText s with
      | none => exact ⟨s, rfl, hdigits, hint⟩
      | some n =>
        rw [hint] at h
        cases h
    · cases h
  · cases h

/-- The quotient of a total and a page size cannot be rounded up. -/
theorem escapes_totalPagesOf {totalCount pageSize : ℤ} {exc : PyException}
    (h : totalPagesOf totalCount pageSize = .error exc) : exc.isFetchOrParse = false := by
  unfold totalPagesOf ceilTrueDiv at h
  dsimp only at h
  repeat' split at h
  all_goals cases h
  all_goals rfl

/-- A total whose number of pages is no float. -/
def TotalRefused (totalCount pageSize : ℤ) : Prop :=
  ∃ exc, totalPagesOf totalCount pageSize = .error exc

theorem escapes_totalPagesOf_iff {totalCount pageSize : ℤ} :
    Escapes (totalPagesOf totalCount pageSize) ↔ TotalRefused totalCount pageSize :=
  ⟨fun ⟨exc, h, _⟩ => ⟨exc, h⟩, fun ⟨exc, h⟩ => ⟨exc, h, escapes_totalPagesOf h⟩⟩

/-! ### The five parsers -/

theorem one_le_positiveIntOrDefault (value : Json) {default : ℤ} (h : 1 ≤ default) :
    1 ≤ positiveIntOrDefault value default := by
  unfold positiveIntOrDefault
  split
  · split <;> omega
  · exact h

theorem nonNegativeIntOrDefault_nonneg (value : Json) {default : ℤ} (h : 0 ≤ default) :
    0 ≤ nonNegativeIntOrDefault value default := by
  unfold nonNegativeIntOrDefault
  split
  · split <;> omega
  · exact h

/-- Parsing the jobs of a page, its last part, raises nothing else. -/
theorem not_escapes_parsedJobs {p : SourcePlatform} {jobs : List Json} {ρ : Type}
    {result : List RawSourceJob → ρ} :
    ¬ Escapes (jobs.mapM (parseRawJob p) >>= fun rawJobs => pure (result rawJobs)) := by
  intro h
  rcases escapes_bind_iff.mp h with h | ⟨rawJobs, -, h⟩
  · exact not_escapes_mapM_parseRawJob p jobs h
  · exact fails_pure _ h

/-- No list payload makes the Dealls parser raise anything else: its numbers have defaults. -/
theorem not_escapes_parseDeallsListPayload (payload : Dict) :
    ¬ Escapes (parseDeallsListPayload payload) := by
  intro h
  rcases escapes_bind_iff.mp h with h | ⟨data, -, h⟩
  · exact not_escapes_requireDict _ _ _ h
  rcases escapes_bind_iff.mp h with h | ⟨docs, -, h⟩
  · exact not_escapes_requireList _ _ _ h
  rcases escapes_bind_iff.mp h with h | ⟨⟨⟩, -, h⟩
  · have hpage := one_le_positiveIntOrDefault (data.get "page") (Int.le_refl 1)
    have hlimit := one_le_positiveIntOrDefault (data.get "limit")
      (show (1 : ℤ) ≤ max (docs.length : ℤ) 1 by omega)
    have htotal := nonNegativeIntOrDefault_nonneg (data.get "totalDocs")
      (show (0 : ℤ) ≤ docs.length by omega)
    have hpages := nonNegativeIntOrDefault_nonneg (data.get "totalPages") (Int.le_refl 0)
    rw [escapes_checkModel_iff] at h
    simp [hpage, hlimit, htotal, hpages] at h
  exact not_escapes_parsedJobs (p := .dealls) h

/-- The model of the Glints pagination repeats the query. -/
def GlintsRefused (page pageSize : ℤ) (payload : Dict) : Prop :=
  ¬ (1 ≤ page ∧ 1 ≤ pageSize) ∧ (glintsListing payload).isOk = true

theorem not_escapes_glintsListing (payload : Dict) : ¬ Escapes (glintsListing payload) := by
  unfold glintsListing
  split <;> simp [escapes_bind_iff]

theorem escapes_parseGlintsListPayload_iff {page pageSize : ℤ} {payload : Dict} :
    Escapes (parseGlintsListPayload page pageSize payload) ↔
      GlintsRefused page pageSize payload := by
  refine escapes_bind_iff.trans ((or_iff_right (not_escapes_glintsListing payload)).trans ?_)
  have hmodel : ∀ found : Bool × List Json, Escapes (do
      checkModel "GlintsPagination" (1 ≤ page && 1 ≤ pageSize)
      let rawJobs ← found.2.mapM parseGlintsRawJob
      pure (ListResult.mk (GlintsPagination.mk found.1) rawJobs)) ↔
        ¬ (1 ≤ page ∧ 1 ≤ pageSize) := by
    intro found
    refine escapes_bind_iff.trans ((or_iff_left ?_).trans ?_)
    · rintro ⟨-, -, h⟩
      exact not_escapes_parsedJobs (p := .glints) h
    · rw [escapes_checkModel_iff]
      simp
  unfold GlintsRefused
  rcases glintsListing payload with exc | found
  · simp [Except.isOk, Except.toBool]
  · simpa [Except.isOk, Except.toBool] using hmodel found

/-- A number of a JobStreet page is refused. -/
def JobstreetRefused (page pageSize : ℤ) (payload : Dict) : Prop :=
  ∃ searchResult jobs, jobstreetListing payload = .ok (searchResult, jobs) ∧
    (¬ (1 ≤ page ∧ 1 ≤ pageSize) ∨
      NumberRefused 0 (searchResult.get "totalCount") jobs.length ∨
      ∃ n, sourceOptionalInt (searchResult.get "totalCount") jobs.length = .ok n ∧
        TotalRefused n pageSize)

theorem not_escapes_jobstreetListing (payload : Dict) : ¬ Escapes (jobstreetListing payload) := by
  unfold jobstreetListing
  split <;> simp [escapes_bind_iff]

theorem escapes_jobstreetPagination_iff {page pageSize : ℤ} {totalCount : Json} {jobCount : ℕ} :
    Escapes (jobstreetPagination page pageSize totalCount jobCount) ↔
      ¬ (1 ≤ page ∧ 1 ≤ pageSize) ∨ NumberRefused 0 totalCount jobCount ∨
        ∃ n, sourceOptionalInt totalCount jobCount = .ok n ∧ TotalRefused n pageSize := by
  unfold jobstreetPagination NumberRefused
  simp only [escapes_bind_iff, escapes_sourceOptionalInt_iff, escapes_totalPagesOf_iff,
    escapes_checkModel_iff, fails_pure, and_false, exists_false, or_false]
  cases hnumber : sourceOptionalInt totalCount jobCount with
  | error exc =>
    have hrefused := intRefused_of_error hnumber
    exact iff_of_true (.inl hrefused) (.inr (.inl (.inl hrefused)))
  | ok n =>
    simp only [Except.ok.injEq, exists_eq_left', TotalRefused]
    cases hpages : totalPagesOf n pageSize with
    | error exc => simp
    | ok pages =>
      simp only [reduceCtorEq, exists_false, Except.ok.injEq, exists_eq_left', false_or, or_false,
        Bool.and_eq_false_iff, decide_eq_false_iff_not, not_and_or, Int.not_le]
      tauto

theorem escapes_parseJobstreetListPayload_iff {page pageSize : ℤ} {payload : Dict} :
    Escapes (parseJobstreetListPayload page pageSize payload) ↔
      JobstreetRefused page pageSize payload := by
  refine escapes_bind_iff.trans ((or_iff_right (not_escapes_jobstreetListing payload)).trans ?_)
  rw [JobstreetRefused, Prod.exists]
  refine exists_congr fun searchResult => exists_congr fun jobs => and_congr_right fun _ => ?_
  refine escapes_bind_iff.trans ((or_iff_left ?_).trans escapes_jobstreetPagination_iff)
  rintro ⟨pages, -, h⟩
  exact not_escapes_parsedJobs (p := .jobstreet) h

/-- A number of a Kalibrr page is refused. -/
def KalibrrRefused (payload : Dict) : Prop :=
  ∃ pageProps jobs, kalibrrListing payload = .ok (pageProps, jobs) ∧
    (NumberRefused 0 ((pageProps.get "filters").get "offset") 0 ∨
      NumberRefused 1 ((pageProps.get "filters").get "limit") (max jobs.length 1) ∨
      NumberRefused 0 (pageProps.get "count") jobs.length)

theorem not_escapes_kalibrrListing (payload : Dict) : ¬ Escapes (kalibrrListing payload) := by
  simp [kalibrrListing, escapes_bind_iff]

theorem escapes_kalibrrPagination_iff {filters count : Json} {jobCount : ℕ} :
    Escapes (kalibrrPagination filters count jobCount) ↔
      NumberRefused 0 (filters.get "offset") 0 ∨
        NumberRefused 1 (filters.get "limit") (max jobCount 1) ∨ NumberRefused 0 count jobCount := by
  unfold kalibrrPagination NumberRefused
  simp only [escapes_bind_iff, escapes_sourceOptionalInt_iff, escapes_checkModel_iff, fails_pure,
    and_false, exists_false, or_false]
  cases hoffset : sourceOptionalInt (filters.get "offset") 0 with
  | error exc => simp [intRefused_of_error hoffset]
  | ok offset =>
    cases hlimit : sourceOptionalInt (filters.get "limit") (max jobCount 1) with
    | error exc => simp [intRefused_of_error hlimit]
    | ok limit =>
      cases hcount : sourceOptionalInt count jobCount with
      | error exc => simp [intRefused_of_error hcount]
      | ok totalCount =>
        simp only [Except.ok.injEq, exists_eq_left', Bool.and_eq_false_iff,
          decide_eq_false_iff_not, Int.not_le]
        tauto

theorem escapes_parseKalibrrListPayload_iff {payload : Dict} :
    Escapes (parseKalibrrListPayload payload) ↔ KalibrrRefused payload := by
  refine escapes_bind_iff.trans ((or_iff_right (not_escapes_kalibrrListing payload)).trans ?_)
  rw [KalibrrRefused, Prod.exists]
  refine exists_congr fun pageProps => exists_congr fun jobs => and_congr_right fun _ => ?_
  refine escapes_bind_iff.trans ((or_iff_left ?_).trans escapes_kalibrrPagination_iff)
  rintro ⟨pages, -, h⟩
  exact not_escapes_parsedJobs (p := .kalibrr) h

/-- A number of a Kitalulus page is refused; a negative total counts as none. -/
def KitalulusRefused (pageSize : ℤ) (payload : Dict) : Prop :=
  ∃ vacancies jobs, kitalulusListing payload = .ok (vacancies, jobs) ∧
    (pageSize < 1 ∨ IntRefused (vacancies.get "elements") ∨ IntRefused (vacancies.get "page") ∨
      ∃ n, sourceOptionalInt (vacancies.get "elements") jobs.length = .ok n ∧
        TotalRefused (max n 0) pageSize)

theorem not_escapes_kitalulusListing (payload : Dict) : ¬ Escapes (kitalulusListing payload) := by
  unfold kitalulusListing
  split <;> simp [escapes_bind_iff]

theorem escapes_kitalulusPagination_iff {page pageSize : ℤ} {vacancies : Dict} {jobCount : ℕ} :
    Escapes (kitalulusPagination page pageSize vacancies jobCount) ↔
      pageSize < 1 ∨ IntRefused (vacancies.get "elements") ∨ IntRefused (vacancies.get "page") ∨
        ∃ n, sourceOptionalInt (vacancies.get "elements") jobCount = .ok n ∧
          TotalRefused (max n 0) pageSize := by
  unfold kitalulusPagination
  simp only [escapes_bind_iff, escapes_sourceOptionalInt_iff, escapes_totalPagesOf_iff,
    escapes_checkModel_iff, fails_pure, and_false, exists_false, or_false]
  cases helements : sourceOptionalInt (vacancies.get "elements") jobCount with
  | error exc => simp [intRefused_of_error helements]
  | ok elements =>
    cases hpage : sourceOptionalInt (vacancies.get "page") page with
    | error exc => simp [intRefused_of_error hpage]
    | ok pageNumber =>
      simp only [Except.ok.injEq, exists_eq_left', TotalRefused]
      cases hpages : totalPagesOf (max elements 0) pageSize with
      | error exc => simp
      | ok pages =>
        simp only [reduceCtorEq, exists_false, Except.ok.injEq, exists_eq_left', false_or, or_false,
          Bool.and_eq_false_iff, decide_eq_false_iff_not, Int.not_le]
        have hpositive : ¬ max pageNumber 1 < 1 := by omega
        have hnonneg : ¬ max elements 0 < 0 := by omega
        tauto

theorem escapes_parseKitalulusListPayload_iff {page pageSize : ℤ} {payload : Dict} :
    Escapes (parseKitalulusListPayload page pageSize payload) ↔
      KitalulusRefused pageSize payload := by
  refine escapes_bind_iff.trans ((or_iff_right (not_escapes_kitalulusListing payload)).trans ?_)
  rw [KitalulusRefused, Prod.exists]
  refine exists_congr fun vacancies => exists_congr fun jobs => and_congr_right fun _ => ?_
  refine escapes_bind_iff.trans ((or_iff_left ?_).trans escapes_kitalulusPagination_iff)
  rintro ⟨pages, -, h⟩
  exact not_escapes_parsedJobs (p := .kitalulus) h

end Bisakerja
