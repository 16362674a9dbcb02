import BisakerjaScraper.Core.Errors
import BisakerjaScraper.Eligibility.Resolver

/-! Asking the backend which identities it holds.

    The backend keeps its platforms and its jobs in two tables. The lookup selects platforms by
    slug and jobs by external id, both under the spelling of the gate, and joins them by the ids of
    the platforms. -/

namespace Bisakerja
open Schemes

/-- A `source_platforms` row of the backend. -/
structure BackendSource where
  id : String
  slug : String

/-- A `job_listings` row of the backend, as far as the lookup reads it. -/
structure BackendListing where
  id : String
  sourcePlatformId : String
  externalJobId : String
  updatedAt : Option Time

/-- The tables of the backend. -/
structure BackendTables where
  sourcePlatforms : Table BackendSource BackendSource.id
  jobListings : List BackendListing

/-- Whether there is a backend lookup, and whether it gets through. -/
inductive BackendLookup where | notConfigured | unreachable | answers
  deriving DecidableEq

namespace BackendTables

variable (text : IdentityText) (db : BackendTables)

/-- `source_id_by_slug`. -/
def sourceIdBySlug (slugs : List String) : Assigned String String :=
  .ofEntries ((db.sourcePlatforms.rows.filter fun source =>
      source.slug ∈ slugs && (source.slug ≠ "" && source.id ≠ "")).map fun source =>
    (text.normalizeKey source.slug, source.id))

/-- `slug_by_source_id`. -/
def slugBySourceId (slugs : List String) : Assigned String String :=
  .ofEntries ((db.sourceIdBySlug text slugs).rows.map Prod.swap)

/-- The entry of `existing` that a selected job gives, if it gives one. -/
def existingEntry (slugs : List String) (identities : List (String × String))
    (listing : BackendListing) : Option ((String × String) × BackendHit) :=
  match (db.slugBySourceId text slugs).get listing.sourcePlatformId with
  | none => none
  | some slug =>
    let key := (slug, text.normalizeKey listing.externalJobId)
    if key.2 = "" ∨ key ∉ identities then none
    else some (key, { jobId := listing.id, updatedAt := listing.updatedAt })

/-- The part of `find_existing` behind the connection. -/
def existing (slugs externalIds : List String) (identities : List (String × String)) :
    BackendExisting :=
  let sourceIds := (db.sourceIdBySlug text slugs).values
  .ofEntries ((db.jobListings.filter fun listing =>
      listing.sourcePlatformId ∈ sourceIds && listing.externalJobId ∈ externalIds).filterMap
    (db.existingEntry text slugs identities))

end BackendTables

/-- `find_existing`; `none` is a `BackendIdentityLookupError`. -/
def findExisting (text : IdentityText) (db : BackendTables) (reachable : Bool)
    (identities : List (String × String)) : Option BackendExisting :=
  let slugs := (identities.map Prod.fst).filter (· ≠ "")
  let externalIds := (identities.map Prod.snd).filter (· ≠ "")
  if slugs = [] ∨ externalIds = [] then some (Table.empty _)
  else if reachable then some (db.existing text slugs externalIds identities) else none

/-- The identities `_lookup_backend_identities` asks for. -/
def askedIdentities (text : IdentityText) (rawJobs : List RawJob) : List (String × String) :=
  (rawJobs.filter fun raw => strip raw.sourcePlatform ≠ "" && strip raw.externalId ≠ "").map
    text.identityOf

/-- The `NormalizeError` of a lookup the gate cannot do without. -/
def lookupError (message : String) (retryable : Bool) : PyException :=
  .scraper .normalize message none retryable [("source_field_path", .str "backend_database_url")]

/-- `_lookup_backend_identities`. -/
def lookupBackendIdentities (text : IdentityText) (db : BackendTables) (lookup : BackendLookup)
    (required : Bool) (rawJobs : List RawJob) : Except PyException BackendExisting :=
  let identities := askedIdentities text rawJobs
  if identities = [] then .ok (Table.empty _)
  else
    match lookup with
    | .notConfigured =>
      if required then
        .error (lookupError "backend identity lookup is required but not configured" false)
      else .ok (Table.empty _)
    | lookup =>
      match findExisting text db (lookup = .answers) identities with
      | some existing => .ok existing
      | none =>
        if required then .error (lookupError "backend identity lookup failed" true)
        else .ok (Table.empty _)

/-! ### What the lookup finds -/

namespace BackendTables

variable {text : IdentityText} {db : BackendTables} {slugs : List String}

/-- The id under which a slug is read: of several platforms with one slug, the last. -/
def sourceIdOf (db : BackendTables) (slug : String) : Option String :=
  (Assigned.ofEntries ((db.sourcePlatforms.rows.filter fun source => source.id ≠ "").map
    fun source => (source.slug, source.id))).get slug

/-- The backend lists a job under a slug and an external id. -/
def Lists (db : BackendTables) (identity : String × String) : Prop :=
  ∃ listing ∈ db.jobListings,
    db.sourceIdOf identity.1 = some listing.sourcePlatformId ∧ listing.externalJobId = identity.2

/-- The slugs asked for are spelled as the gate spells them. -/
def Canonical (text : IdentityText) (texts : List String) : Prop :=
  ∀ s ∈ texts, text.normalizeKey s = s ∧ s ≠ ""

theorem get_sourceIdBySlug (hslugs : Canonical text slugs) {slug : String} (h : slug ∈ slugs) :
    (db.sourceIdBySlug text slugs).get slug = db.sourceIdOf slug := by
  have hentries : ((db.sourcePlatforms.rows.filter fun source =>
      source.slug ∈ slugs && (source.slug ≠ "" && source.id ≠ "")).map fun source =>
        (text.normalizeKey source.slug, source.id))
      = ((db.sourcePlatforms.rows.filter fun source => source.id ≠ "").map
          fun source => (source.slug, source.id)).filter fun e => decide (e.1 ∈ slugs) := by
    rw [List.filter_map, List.filter_filter]
    have hsame : (db.sourcePlatforms.rows.filter fun source =>
        source.slug ∈ slugs && (source.slug ≠ "" && source.id ≠ ""))
        = db.sourcePlatforms.rows.filter fun source =>
          ((fun e : String × String => decide (e.1 ∈ slugs)) ∘
            fun source : BackendSource => (source.slug, source.id)) source
              && decide (source.id ≠ "") := by
      refine List.filter_congr fun source _ => ?_
      by_cases hmem : source.slug ∈ slugs
      · simp [hmem, (hslugs source.slug hmem).2]
      · simp [hmem]
    rw [hsame]
    refine List.map_congr_left fun source hsource => ?_
    have hmem : source.slug ∈ slugs := by
      simpa using (Bool.and_eq_true_iff.mp (List.mem_filter.mp hsource).2).1
    rw [(hslugs source.slug hmem).1]
  unfold sourceIdBySlug sourceIdOf
  rw [hentries]
  exact Assigned.get_ofEntries_filter (fun slug => decide (slug ∈ slugs)) (by simpa using h) _

/-- A slug of the dict comes from a platform row. -/
theorem source_of_get {slug id : String} (h : (db.sourceIdBySlug text slugs).get slug = some id) :
    ∃ source ∈ db.sourcePlatforms.rows, source.slug ∈ slugs ∧
      text.normalizeKey source.slug = slug ∧ source.id = id := by
  obtain ⟨source, hsource, heq⟩ := List.mem_map.mp (Assigned.mem_of_get_ofEntries h)
  obtain ⟨hrow, htest⟩ := List.mem_filter.mp hsource
  cases heq
  exact ⟨source, hrow, by simpa using (Bool.and_eq_true_iff.mp htest).1, rfl, rfl⟩

/-- The dict and its inverse tell the same pairs: the ids of the platforms are distinct. -/
theorem get_slugBySourceId {slug id : String} :
    (db.slugBySourceId text slugs).get id = some slug ↔
      (db.sourceIdBySlug text slugs).get slug = some id := by
  constructor
  · intro h
    obtain ⟨entry, hentry, heq⟩ := List.mem_map.mp (Assigned.mem_of_get_ofEntries h)
    cases heq
    exact Assigned.mem_rows_iff.mp hentry
  · intro h
    cases hget : (db.slugBySourceId text slugs).get id with
    | none =>
      refine absurd ?_ (Assigned.get_ofEntries_eq_none_iff.mp hget)
      rw [List.map_map]
      exact List.mem_map.mpr ⟨(slug, id), Assigned.mem_rows_iff.mpr h, rfl⟩
    | some slug' =>
      obtain ⟨entry, hentry, heq⟩ := List.mem_map.mp (Assigned.mem_of_get_ofEntries hget)
      cases heq
      obtain ⟨source, hsource, -, rfl, hid⟩ := source_of_get h
      obtain ⟨source', hsource', -, hslug', hid'⟩ := source_of_get (Assigned.mem_rows_iff.mp hentry)
      have hsame := List.inj_on_of_nodup_map db.sourcePlatforms.unique hsource hsource'
        (hid.trans hid'.symm)
      rw [← hslug', hsame]

/-- The lookup finds an identity it is asked for exactly when the backend lists it. -/
theorem get_existing_ne_none_iff {externalIds : List String}
    {identities : List (String × String)} {identity : String × String}
    (hslugs : Canonical text slugs) (hids : Canonical text externalIds)
    (hslug : identity.1 ∈ slugs) (hid : identity.2 ∈ externalIds) (hmem : identity ∈ identities) :
    (db.existing text slugs externalIds identities).get identity ≠ none ↔ db.Lists identity := by
  unfold existing
  rw [ne_eq, Assigned.get_ofEntries_eq_none_iff, not_not]
  constructor
  · intro h
    obtain ⟨entry, hentry, hkey⟩ := List.mem_map.mp h
    obtain ⟨listing, hlisting, hentry⟩ := List.mem_filterMap.mp hentry
    obtain ⟨hrow, htest⟩ := List.mem_filter.mp hlisting
    unfold existingEntry at hentry
    split at hentry
    · cases hentry
    · next slug hget =>
      dsimp only at hentry
      split at hentry
      · cases hentry
      · cases hentry
        cases hkey
        refine ⟨listing, hrow, ?_, ?_⟩
        · rw [← get_sourceIdBySlug hslugs hslug]
          exact get_slugBySourceId.mp hget
        · have hexternal : listing.externalJobId ∈ externalIds := by
            simpa using (Bool.and_eq_true_iff.mp htest).2
          exact (hids _ hexternal).1.symm
  · rintro ⟨listing, hrow, hsource, hexternal⟩
    rw [← get_sourceIdBySlug hslugs hslug] at hsource
    refine List.mem_map.mpr ⟨(identity, ⟨listing.id, listing.updatedAt⟩), ?_, rfl⟩
    refine List.mem_filterMap.mpr ⟨listing, List.mem_filter.mpr ⟨hrow, ?_⟩, ?_⟩
    · have hvalue : listing.sourcePlatformId ∈ (db.sourceIdBySlug text slugs).values :=
        List.mem_map.mpr ⟨_, Assigned.mem_rows_iff.mpr hsource, rfl⟩
      rw [hexternal]
      simp [hvalue, hid]
    · unfold existingEntry
      rw [get_slugBySourceId.mpr hsource]
      dsimp only
      rw [hexternal, (hids _ hid).1, if_neg]
      rintro (hempty | hnot)
      · exact (hids _ hid).2 hempty
      · exact hnot hmem

end BackendTables

end Bisakerja
