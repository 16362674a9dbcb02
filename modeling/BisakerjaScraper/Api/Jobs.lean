import Mathlib.Data.List.Sort
import Mathlib.Data.String.Basic
import BisakerjaScraper.Persistence.Models
import BisakerjaScraper.Python.Numbers
import BisakerjaScraper.Python.Text
import BisakerjaScraper.Schemes.Fallible
import BisakerjaScraper.Schemes.Pages

/-! The list of jobs that the API answers with, page by page.

    The rows and their number are asked for under the same filters. The rows come in a total order,
    so the offsets of the pages cut them into slices that do not overlap; the number of pages is a
    division of floats. -/

namespace Bisakerja
open Schemes

/-- `JobListFilters`. -/
structure JobListFilters where
  sourcePlatform : Option String := none
  freshness : Option String := none
  location : Option String := none
  keyword : Option String := none

/-- `PaginatedJobs`. -/
structure PaginatedJobs where
  jobs : List NormalizedJob
  total : ℕ

/-- `JobResponse`. -/
structure JobResponse where
  id : String
  sourcePlatform : String
  externalJobId : String
  title : String
  companyName : String
  sourceUrl : String
  applyUrl : Option String
  status : String
  lastSeenAt : String
  postedAt : Option String
  payload : Dict

/-- What `pagination_meta` gives. -/
structure PaginationMeta where
  page : ℕ
  limit : ℕ
  total : ℕ
  totalPages : ℕ
  hasNextPage : Bool
  hasPrevPage : Bool

/-- The answer of `list_jobs`. -/
structure JobsAnswer where
  data : List JobResponse
  pagination : PaginationMeta
  filters : JobListFilters
  sort : String := "last_seen_desc"

/-- `like_needle`. -/
def likeNeedle (value : String) : String := "%" ++ strip value ++ "%"

/-- `if value:` on an optional text. -/
def givenText (value : Option String) : Option String := value.filter (· ≠ "")

/-- What the database makes of a row: `ILIKE`, a payload as text; and `isoformat`. -/
structure JobsDatabase where
  ilike : String → String → Bool
  payloadText : Dict → String
  isoformat : Time → String

namespace JobsDatabase

variable (db : JobsDatabase)

/-- `apply_job_filters`: whether a row matches. -/
def applyJobFilters (filters : JobListFilters) (job : NormalizedJob) : Bool :=
  (givenText filters.sourcePlatform).all (job.sourcePlatform = ·) &&
    (givenText filters.freshness).all (job.status.value = ·) &&
    ((givenText filters.location).all fun location =>
      db.ilike (db.payloadText job.normalizedPayload) (likeNeedle location)) &&
    (givenText filters.keyword).all fun keyword =>
      db.ilike job.title (likeNeedle keyword) || db.ilike job.companyName (likeNeedle keyword) ||
        db.ilike (db.payloadText job.normalizedPayload) (likeNeedle keyword)

/-- `last_seen_at desc, id asc`. -/
def ListedBefore (a b : NormalizedJob) : Prop :=
  b.lastSeenAt < a.lastSeenAt ∨ (a.lastSeenAt = b.lastSeenAt ∧ a.id ≤ b.id)

instance : DecidableRel ListedBefore := fun _ _ =>
  inferInstanceAs (Decidable (_ ∨ _))

/-- The matching rows in the order of the list. -/
def ordered (jobs : NormalizedJobs) (filters : JobListFilters) : List NormalizedJob :=
  (jobs.rows.filter (db.applyJobFilters filters)).insertionSort ListedBefore

/-- `NormalizedJobQueryRepository.list_jobs`. -/
def listJobs (jobs : NormalizedJobs) (filters : JobListFilters) (page limit : ℕ) : PaginatedJobs where
  jobs := ((db.ordered jobs filters).drop ((page - 1) * limit)).take limit
  total := jobs.rows.countP (db.applyJobFilters filters)

/-- `serialize_job`. -/
def serializeJob (job : NormalizedJob) : JobResponse where
  id := job.id
  sourcePlatform := job.sourcePlatform
  externalJobId := job.externalId
  title := job.title
  companyName := job.companyName
  sourceUrl := job.sourceUrl
  applyUrl := job.applyUrl
  status := job.status.value
  lastSeenAt := db.isoformat job.lastSeenAt
  postedAt := job.postedAt.map db.isoformat
  payload := job.normalizedPayload

/-- `ceil(total / limit) if total else 0`. -/
def totalPagesFor (limit total : ℕ) : Except PyException ℕ :=
  if total = 0 then .ok 0 else ceilTrueDiv total limit

/-- `pagination_meta`. -/
def paginationMeta (page limit total : ℕ) : Except PyException PaginationMeta := do
  let totalPages ← totalPagesFor limit total
  pure
    { page
      limit
      total
      totalPages
      hasNextPage := page < totalPages
      hasPrevPage := 1 < page && 0 < totalPages }

/-- The route `list_jobs`. -/
def listJobsRoute (jobs : NormalizedJobs) (filters : JobListFilters) (page limit : ℕ) :
    Except PyException JobsAnswer := do
  let result := db.listJobs jobs filters page limit
  let pagination ← paginationMeta page limit result.total
  pure { data := result.jobs.map db.serializeJob, pagination, filters }

/-! ### The order of the list -/

variable {db} {jobs : NormalizedJobs} {filters : JobListFilters} {limit page : ℕ}

instance : IsTrans NormalizedJob ListedBefore := by
  constructor
  rintro a b c (hab | ⟨hab, hab'⟩) (hbc | ⟨hbc, hbc'⟩)
  · exact .inl (hbc.trans hab)
  · exact .inl (hbc ▸ hab)
  · exact .inl (hab.symm ▸ hbc)
  · exact .inr ⟨hab.trans hbc, hab'.trans hbc'⟩

instance : Std.Total ListedBefore := by
  constructor
  intro a b
  rcases lt_trichotomy a.lastSeenAt b.lastSeenAt with hlt | heq | hgt
  · exact .inr (.inl hlt)
  · rcases le_total a.id b.id with hle | hle
    · exact .inl (.inr ⟨heq, hle⟩)
    · exact .inr (.inr ⟨heq.symm, hle⟩)
  · exact .inl (.inl hgt)

/-- Seen later, or at the same time under a smaller id. -/
def StrictlyBefore (a b : NormalizedJob) : Prop :=
  b.lastSeenAt < a.lastSeenAt ∨ (a.lastSeenAt = b.lastSeenAt ∧ a.id < b.id)

theorem perm_ordered (db : JobsDatabase) (jobs : NormalizedJobs) (filters : JobListFilters) :
    (db.ordered jobs filters).Perm (jobs.rows.filter (db.applyJobFilters filters)) :=
  List.perm_insertionSort _ _

/-- The ids are unique, so no two rows of the list are tied. -/
theorem pairwise_ordered (db : JobsDatabase) (jobs : NormalizedJobs) (filters : JobListFilters) :
    (db.ordered jobs filters).Pairwise StrictlyBefore := by
  have hids : ((db.ordered jobs filters).map NormalizedJob.id).Nodup :=
    ((perm_ordered db jobs filters).map _).nodup_iff.mpr
      (jobs.unique.sublist (List.filter_sublist.map _))
  have hdistinct : (db.ordered jobs filters).Pairwise fun a b => a.id ≠ b.id :=
    List.pairwise_map.mp hids
  refine (List.pairwise_insertionSort ListedBefore _).imp₂ ?_ hdistinct
  rintro a b (hlater | ⟨hsame, hle⟩) hne
  · exact .inl hlater
  · exact .inr ⟨hsame, lt_of_le_of_ne hle hne⟩

theorem total_listJobs (page limit : ℕ) : (db.listJobs jobs filters page limit).total =
    (db.ordered jobs filters).length := by
  rw [(perm_ordered db jobs filters).length_eq]
  exact List.countP_eq_length_filter

/-- The number of pages is divided from the number of matching rows. -/
theorem totalPages_of_ok {answer : JobsAnswer}
    (h : db.listJobsRoute jobs filters page limit = .ok answer) :
    totalPagesFor limit (db.ordered jobs filters).length = .ok answer.pagination.totalPages := by
  unfold listJobsRoute paginationMeta at h
  obtain ⟨pagination, hpagination, hanswer⟩ := ok_bind_iff.mp h
  obtain ⟨totalPages, htotalPages, hpagination⟩ := ok_bind_iff.mp hpagination
  cases hanswer
  cases hpagination
  rw [← total_listJobs page limit]
  exact htotalPages

theorem jobs_listJobs : (db.listJobs jobs filters page limit).jobs =
    pageAt limit (db.ordered jobs filters) (page - 1) := rfl

/-! ### The pages -/

/-- The data of a page, as far as the route answers. -/
def pageData (db : JobsDatabase) (jobs : NormalizedJobs) (filters : JobListFilters)
    (limit page : ℕ) : List JobResponse :=
  ((db.listJobsRoute jobs filters page limit).toOption.map JobsAnswer.data).getD []

/-- An answer fits a list that is cut into pages. -/
structure PageOf (db : JobsDatabase) (jobs : NormalizedJobs) (filters : JobListFilters)
    (limit : ℕ) (ordered : List NormalizedJob) (totalPages page : ℕ) (answer : JobsAnswer) :
    Prop where
  total : answer.pagination.total = ordered.length
  counted : answer.pagination.totalPages = totalPages
  hasNextPage : answer.pagination.hasNextPage = true ↔
    ∃ later, page < later ∧ db.pageData jobs filters limit later ≠ []
  full : page < totalPages → answer.data.length = limit
  beyond : totalPages < page → answer.data = []

/-- The pages make up the matching rows in order, each of them once. -/
structure PagesOf (db : JobsDatabase) (jobs : NormalizedJobs) (filters : JobListFilters)
    (limit : ℕ) (ordered : List NormalizedJob) (totalPages : ℕ) : Prop where
  matching : ordered.Perm (jobs.rows.filter (db.applyJobFilters filters))
  inOrder : ordered.Pairwise StrictlyBefore
  answers : ∀ page, 1 ≤ page → ∃ answer, db.listJobsRoute jobs filters page limit = .ok answer ∧
    PageOf db jobs filters limit ordered totalPages page answer
  concatenate : ((List.range totalPages).map fun i => db.pageData jobs filters limit (i + 1)).flatten
    = ordered.map db.serializeJob

/-- The pages of a list partition it. -/
def Partitions (db : JobsDatabase) (jobs : NormalizedJobs) (filters : JobListFilters)
    (limit : ℕ) : Prop :=
  ∃ ordered totalPages, db.PagesOf jobs filters limit ordered totalPages

/-- The number of pages, rounded up. -/
def pageCount (db : JobsDatabase) (jobs : NormalizedJobs) (filters : JobListFilters)
    (limit : ℕ) : ℕ :=
  ((db.ordered jobs filters).length + limit - 1) / limit

/-- Where the division is exact enough the route answers with a slice of the list. -/
theorem listJobsRoute_eq (hlimit : 1 ≤ limit) (hle : limit ≤ 100)
    (hsize : (db.ordered jobs filters).length ≤ 2 ^ 53) (page : ℕ) :
    db.listJobsRoute jobs filters page limit = .ok
      { data := (pageAt limit (db.ordered jobs filters) (page - 1)).map db.serializeJob
        pagination :=
          { page, limit
            total := (db.ordered jobs filters).length
            totalPages := db.pageCount jobs filters limit
            hasNextPage := page < db.pageCount jobs filters limit
            hasPrevPage := 1 < page && 0 < db.pageCount jobs filters limit }
        filters } := by
  have hpages : totalPagesFor limit (db.ordered jobs filters).length =
      .ok (db.pageCount jobs filters limit) := by
    unfold pageCount totalPagesFor
    split
    · next hzero => rw [hzero, Nat.div_eq_of_lt (by omega)]
    · exact ceilTrueDiv_eq hlimit hsize (by omega)
  unfold listJobsRoute paginationMeta
  dsimp only
  rw [total_listJobs, jobs_listJobs, hpages]
  rfl

theorem pageData_eq (hlimit : 1 ≤ limit) (hle : limit ≤ 100)
    (hsize : (db.ordered jobs filters).length ≤ 2 ^ 53) (page : ℕ) :
    db.pageData jobs filters limit page =
      (pageAt limit (db.ordered jobs filters) (page - 1)).map db.serializeJob := by
  unfold pageData
  rw [listJobsRoute_eq hlimit hle hsize]
  rfl

/-- A page holds something exactly when it is one of those that are counted. -/
theorem pageData_ne_nil_iff (hlimit : 1 ≤ limit) (hle : limit ≤ 100)
    (hsize : (db.ordered jobs filters).length ≤ 2 ^ 53) {page : ℕ} (hpage : 1 ≤ page) :
    db.pageData jobs filters limit page ≠ [] ↔ page ≤ db.pageCount jobs filters limit := by
  have hlt : page - 1 < _ ↔ _ := lt_pages_iff hlimit (db.ordered jobs filters).length
  rw [pageData_eq hlimit hle hsize, ne_eq, List.map_eq_nil_iff, pageAt_eq_nil_iff hlimit, not_le,
    ← hlt]
  unfold pageCount
  omega

/-- No page holds more than it may. -/
theorem length_pageData_le (db : JobsDatabase) (jobs : NormalizedJobs) (filters : JobListFilters)
    (limit page : ℕ) : (db.pageData jobs filters limit page).length ≤ limit := by
  unfold pageData listJobsRoute
  dsimp only
  rcases paginationMeta page limit (db.listJobs jobs filters page limit).total with exc | pagination
  · exact Nat.zero_le limit
  · change (List.map _ _).length ≤ limit
    rw [List.length_map]
    exact length_pageAt_le

end JobsDatabase

/-! ### More rows than a float counts -/

/-- Some jobs that were seen at the same time. -/
def tiedJobs (count : ℕ) : NormalizedJobs where
  rows := (List.range count).map fun n =>
    { id := String.ofList (List.replicate n 'x')
      rawJobId := none
      sourcePlatform := "dealls"
      externalId := String.ofList (List.replicate n 'x')
      title := "t"
      companyName := "c"
      sourceUrl := "u"
      applyUrl := none
      status := .active
      normalizedPayload := []
      lastSeenAt := 0
      postedAt := none }
  unique := by
    rw [List.map_map]
    refine List.nodup_range.map fun n m h => ?_
    have hlength := congrArg (fun s : String => s.toList.length) h
    simpa using hlength

/-- A database where nothing is like anything. -/
def plainDatabase : JobsDatabase where
  ilike _ _ := false
  payloadText _ := ""
  isoformat _ := ""

/-- A float does not hold `2 ^ 53 + 1`. -/
theorem ceilTrueDiv_tooMany : ceilTrueDiv (2 ^ 53 + 1) 1 = .ok (2 ^ 53) := by
  have hbits : (2 ^ 53 + 1).size = 54 :=
    Nat.le_antisymm (Nat.size_le.mpr (by decide)) (Nat.lt_size.mpr (by decide))
  have hround : roundHalfEven (2 ^ 53 + 1) (1 * 2 ^ (54 - 53)) = 2 ^ 52 := by decide
  have hback : 2 ^ 52 * 2 ^ (54 - 53) = 2 ^ 53 := by decide
  have hlimit : 53 < 1024 := by decide
  unfold ceilTrueDiv
  rw [if_neg (by decide)]
  dsimp only
  rw [Nat.div_one, hbits, if_neg (by decide), hround, hback]
  generalize 1024 = exponent at hlimit ⊢
  exact if_pos (Nat.pow_lt_pow_right (by decide) hlimit)

end Bisakerja
