import BisakerjaScraper.Eligibility.Lookup
import BisakerjaScraper.Persistence.Repositories
import BisakerjaScraper.Shared.Text

/-! Raw jobs that are known already.

    The rows the gate compares with are selected by exact comparison with the stripped, lower-cased
    identities of the batch. A row whose own identity is spelled otherwise is never selected, so the
    gate knows a raw job only by a row that is spelled the canonical way. -/

namespace Bisakerja
open Schemes

/-! ### When a raw job goes through -/

namespace EligibilityResolver

variable {r : EligibilityResolver}

/-- The reasons a row is there for. -/
theorem existingReason_cases (raw : RawJob) (normalized : NormalizedJob)
    (state : Option SyncEventStatus) :
    r.existingReason raw normalized state = .reprocessRequired ∨
      r.existingReason raw normalized state = .existingNormalizedSynced ∨
      r.existingReason raw normalized state = .existingNormalizedUnsynced ∨
      r.existingReason raw normalized state = .identityConflict := by
  unfold existingReason
  split
  · split <;> simp
  · split <;> simp
  · split <;> simp
  · simp
  · simp

theorem existingReason_ne (raw : RawJob) (normalized : NormalizedJob)
    (state : Option SyncEventStatus) :
    r.existingReason raw normalized state ≠ .normalizationEligible := by
  rcases r.existingReason_cases raw normalized state with h | h | h | h <;> simp [h]

/-- A raw job goes through when its identity is whole and new to the batch, the backend and the
    rows. -/
theorem decide_eligible_iff {seen : List String} {raw : RawJob} :
    (r.decide seen raw).reason = .normalizationEligible ↔
      ∃ key, r.text.keyOf raw = some key ∧ key ∉ seen ∧
        r.backendExisting.get (r.text.identityOf raw) = none ∧
        r.normalizedByIdentity.get (r.text.identityOf raw) = none := by
  unfold decide
  cases hkey : r.text.keyOf raw with
  | none => simp
  | some key =>
    by_cases hseen : key ∈ seen
    · simp [hseen]
    · cases hbackend : r.backendExisting.get (r.text.identityOf raw) with
      | some hit => simp [hseen]
      | none =>
        cases hrow : r.normalizedByIdentity.get (r.text.identityOf raw) with
        | none => simp [hseen]
        | some row => simp [hseen, existingReason_ne]

end EligibilityResolver

namespace IdentityText

variable {text : IdentityText}

theorem keyOf_eq_none_iff {raw : RawJob} :
    text.keyOf raw = none ↔ (text.identityOf raw).1 = "" ∨ (text.identityOf raw).2 = "" := by
  unfold keyOf identityKeyFrom
  split <;> simp_all

/-- A key is there when both parts of the identity are. -/
theorem nonempty_of_keyOf {raw : RawJob} {key : String} (h : text.keyOf raw = some key) :
    (text.identityOf raw).1 ≠ "" ∧ (text.identityOf raw).2 ≠ "" := by
  have hsome : ¬ text.keyOf raw = none := by rw [h]; nofun
  rw [keyOf_eq_none_iff, not_or] at hsome
  exact hsome

/-- The texts of a batch that are not empty are canonical. -/
theorem canonical_filter (text : IdentityText) (f : RawJob → String) (rawJobs : List RawJob) :
    BackendTables.Canonical text
      ((rawJobs.map fun raw => text.normalizeKey (f raw)).filter (· ≠ "")) := by
  intro s hs
  obtain ⟨hmem, hne⟩ := List.mem_filter.mp hs
  obtain ⟨raw, -, rfl⟩ := List.mem_map.mp hmem
  exact ⟨text.lower_stable (f raw), by simpa using hne⟩

end IdentityText

namespace EligibilityResolver

variable {r : EligibilityResolver}

/-- A row is found exactly when one is spelled the canonical way. -/
theorem normalizedByIdentity_ne_none_iff {raw : RawJob} (hraw : raw ∈ r.rawJobs)
    (hwhole : (r.text.identityOf raw).1 ≠ "" ∧ (r.text.identityOf raw).2 ≠ "") :
    r.normalizedByIdentity.get (r.text.identityOf raw) ≠ none ↔
      ∃ row ∈ r.normalizedJobs.rows, row.identity = r.text.identityOf raw := by
  unfold normalizedByIdentity
  rw [ne_eq, Assigned.get_ofEntries_eq_none_iff, not_not, List.map_map, List.mem_map]
  have hplatforms := IdentityText.canonical_filter r.text RawJob.sourcePlatform r.rawJobs
  have hids := IdentityText.canonical_filter r.text RawJob.externalId r.rawJobs
  constructor
  · rintro ⟨row, hrow, hidentity⟩
    obtain ⟨hmem, htest⟩ := List.mem_filter.mp hrow
    obtain ⟨hplatform, hid⟩ := Bool.and_eq_true_iff.mp htest
    refine ⟨row, hmem, ?_⟩
    rw [← hidentity]
    change (row.sourcePlatform, row.externalId)
      = (r.text.normalizeKey row.sourcePlatform, r.text.normalizeKey row.externalId)
    rw [(hplatforms _ (of_decide_eq_true hplatform)).1, (hids _ (of_decide_eq_true hid)).1]
  · rintro ⟨row, hmem, hidentity⟩
    have hplatform : row.sourcePlatform = r.text.normalizeKey raw.sourcePlatform :=
      congrArg Prod.fst hidentity
    have hid : row.externalId = r.text.normalizeKey raw.externalId := congrArg Prod.snd hidentity
    refine ⟨row, List.mem_filter.mpr ⟨hmem, Bool.and_eq_true_iff.mpr ⟨?_, ?_⟩⟩, ?_⟩
    · refine decide_eq_true (List.mem_filter.mpr ⟨List.mem_map.mpr ⟨raw, hraw, hplatform.symm⟩, ?_⟩)
      rw [hplatform]
      exact decide_eq_true hwhole.1
    · refine decide_eq_true (List.mem_filter.mpr ⟨List.mem_map.mpr ⟨raw, hraw, hid.symm⟩, ?_⟩)
      rw [hid]
      exact decide_eq_true hwhole.2
    · change (r.text.normalizeKey row.sourcePlatform, r.text.normalizeKey row.externalId) = _
      rw [hplatform, hid]
      exact Prod.ext (r.text.lower_stable _) (r.text.lower_stable _)

end EligibilityResolver

/-! ### The answer of the backend -/

namespace IdentityText

variable {text : IdentityText} {rawJobs : List RawJob}

theorem mem_askedIdentities {raw : RawJob} (hraw : raw ∈ rawJobs)
    (hwhole : (text.identityOf raw).1 ≠ "" ∧ (text.identityOf raw).2 ≠ "") :
    text.identityOf raw ∈ askedIdentities text rawJobs := by
  have hne : ∀ s, text.normalizeKey s ≠ "" → strip s ≠ "" := by
    intro s hs hempty
    refine hs ?_
    unfold normalizeKey
    rw [hempty, text.lower_empty]
  refine List.mem_map.mpr ⟨raw, List.mem_filter.mpr ⟨hraw, ?_⟩, rfl⟩
  simp [hne _ hwhole.1, hne _ hwhole.2]

/-- A lookup that came back tells of an identity of the batch exactly when it answers and the
    backend lists the identity the canonical way. -/
theorem get_lookup_ne_none_iff {db : BackendTables} {lookup : BackendLookup} {required : Bool}
    {existing : BackendExisting}
    (h : lookupBackendIdentities text db lookup required rawJobs = .ok existing)
    {raw : RawJob} (hraw : raw ∈ rawJobs)
    (hwhole : (text.identityOf raw).1 ≠ "" ∧ (text.identityOf raw).2 ≠ "") :
    existing.get (text.identityOf raw) ≠ none ↔
      lookup = .answers ∧ db.Lists (text.identityOf raw) := by
  have hasked := mem_askedIdentities hraw hwhole
  have hempty : Assigned.get (Table.empty Prod.fst : BackendExisting) (text.identityOf raw) = none :=
    rfl
  have hslug : (text.identityOf raw).1 ∈
      ((askedIdentities text rawJobs).map Prod.fst).filter (· ≠ "") :=
    List.mem_filter.mpr ⟨List.mem_map.mpr ⟨_, hasked, rfl⟩, decide_eq_true hwhole.1⟩
  have hid : (text.identityOf raw).2 ∈
      ((askedIdentities text rawJobs).map Prod.snd).filter (· ≠ "") :=
    List.mem_filter.mpr ⟨List.mem_map.mpr ⟨_, hasked, rfl⟩, decide_eq_true hwhole.2⟩
  have hfind : ∀ reachable, findExisting text db reachable (askedIdentities text rawJobs)
      = if reachable then some (db.existing text
          (((askedIdentities text rawJobs).map Prod.fst).filter (· ≠ ""))
          (((askedIdentities text rawJobs).map Prod.snd).filter (· ≠ ""))
          (askedIdentities text rawJobs)) else none := by
    intro reachable
    unfold findExisting
    dsimp only
    rw [if_neg]
    rintro (hnil | hnil)
    · rw [hnil] at hslug
      cases hslug
    · rw [hnil] at hid
      cases hid
  unfold lookupBackendIdentities at h
  dsimp only at h
  rw [if_neg (List.ne_nil_of_mem hasked)] at h
  cases lookup with
  | notConfigured =>
    dsimp only at h
    split at h
    · cases h
    · cases h
      simp [hempty]
  | unreachable =>
    have hreach : decide (BackendLookup.unreachable = .answers) = false := rfl
    dsimp only at h
    rw [hfind, hreach, if_neg Bool.false_ne_true] at h
    dsimp only at h
    split at h
    · cases h
    · cases h
      simp [hempty]
  | answers =>
    dsimp only at h
    rw [hfind] at h
    cases h
    have hslugs : BackendTables.Canonical text
        (((askedIdentities text rawJobs).map Prod.fst).filter (· ≠ "")) := by
      unfold askedIdentities
      rw [List.map_map]
      exact canonical_filter _ RawJob.sourcePlatform _
    have hids : BackendTables.Canonical text
        (((askedIdentities text rawJobs).map Prod.snd).filter (· ≠ "")) := by
      unfold askedIdentities
      rw [List.map_map]
      exact canonical_filter _ RawJob.externalId _
    rw [BackendTables.get_existing_ne_none_iff hslugs hids hslug hid hasked]
    simp

end IdentityText

/-! ### Known raw jobs -/

/-- The backend holds a job with exactly a given identity. -/
def BackendTables.Holds (db : BackendTables) (identity : String × String) : Prop :=
  ∃ source ∈ db.sourcePlatforms.rows, ∃ listing ∈ db.jobListings,
    source.slug = identity.1 ∧ listing.sourcePlatformId = source.id ∧
      listing.externalJobId = identity.2

namespace EligibilityResolver

variable (r : EligibilityResolver) (db : BackendTables) (lookup : BackendLookup)

/-- A normalized row or a job of the backend has exactly the identity of the raw job. -/
def IsKnown (raw : RawJob) : Prop :=
  (∃ row ∈ r.normalizedJobs.rows, row.identity = raw.identity) ∨ db.Holds raw.identity

/-- What keeps a raw job out: a blank identity, the same key earlier in the batch, or a job of the
    backend or a normalized row that is spelled the canonical way. -/
inductive Caught (before : List RawJob) (raw : RawJob) : Prop
  | blank (h : r.text.keyOf raw = none)
  | duplicate (other : RawJob) (hother : other ∈ before) (h : r.text.keyOf other = r.text.keyOf raw)
  | inBackend (hlookup : lookup = .answers) (h : db.Lists (r.text.identityOf raw))
  | normalized (row : NormalizedJob) (hrow : row ∈ r.normalizedJobs.rows)
      (h : row.identity = r.text.identityOf raw)

variable {r db lookup}

/-- A raw job is kept out exactly when something catches it. -/
theorem decide_ne_eligible_iff {required : Bool}
    (hlookup : lookupBackendIdentities r.text db lookup required r.rawJobs
      = .ok r.backendExisting)
    {raw : RawJob} (hraw : raw ∈ r.rawJobs) (before : List RawJob) :
    (r.decide (r.seenKeys before) raw).reason ≠ .normalizationEligible ↔
      r.Caught db lookup before raw := by
  rw [ne_eq, decide_eligible_iff]
  constructor
  · intro h
    cases hkey : r.text.keyOf raw with
    | none => exact .blank hkey
    | some key =>
      have hwhole := IdentityText.nonempty_of_keyOf hkey
      by_cases hseen : key ∈ r.seenKeys before
      · obtain ⟨other, hother, hsame⟩ := mem_seenKeys.mp hseen
        exact .duplicate other hother (hsame.trans hkey.symm)
      · by_cases hbackend : r.backendExisting.get (r.text.identityOf raw) = none
        · by_cases hrow : r.normalizedByIdentity.get (r.text.identityOf raw) = none
          · exact absurd ⟨key, hkey, hseen, hbackend, hrow⟩ h
          · obtain ⟨row, hmem, hidentity⟩ :=
              (normalizedByIdentity_ne_none_iff hraw hwhole).mp hrow
            exact .normalized row hmem hidentity
        · obtain ⟨hanswers, hlists⟩ :=
            (IdentityText.get_lookup_ne_none_iff hlookup hraw hwhole).mp hbackend
          exact .inBackend hanswers hlists
  · rintro hcaught ⟨key, hkey, hseen, hbackend, hrow⟩
    have hwhole := IdentityText.nonempty_of_keyOf hkey
    cases hcaught with
    | blank h =>
      rw [hkey] at h
      cases h
    | duplicate other hother h => exact hseen (mem_seenKeys.mpr ⟨other, hother, h.trans hkey⟩)
    | inBackend hanswers hlists =>
      exact (IdentityText.get_lookup_ne_none_iff hlookup hraw hwhole).mpr ⟨hanswers, hlists⟩ hbackend
    | normalized row hmem hidentity =>
      exact (normalizedByIdentity_ne_none_iff hraw hwhole).mpr ⟨row, hmem, hidentity⟩ hrow

/-- The decision at a place of the batch. -/
theorem getElem?_resolveForRawJobs {scrapeRunId : String} (decisions : EligibilityDecisions)
    {i : ℕ} {raw : RawJob} (h : r.rawJobs[i]? = some raw) :
    (r.resolveForRawJobs scrapeRunId decisions).1[i]?
      = some ((r.decide (r.seenKeys (r.rawJobs.take i)) raw).row scrapeRunId raw) := by
  obtain ⟨hi, rfl⟩ := List.getElem?_eq_some_iff.mp h
  have hsplit : r.rawJobs = r.rawJobs.take i ++ r.rawJobs[i] :: r.rawJobs.drop (i + 1) := by
    rw [← List.drop_eq_getElem_cons, List.take_append_drop]
  have hlen : (r.rawJobs.take i).length = i := by rw [List.length_take]; omega
  have hat := resolveAll_append r scrapeRunId (r.rawJobs.take i)
    (r.rawJobs.drop (i + 1)) r.rawJobs[i] [] decisions
  rw [← hsplit, hlen] at hat
  exact hat

/-- No known raw job of the batch is let through. -/
def KnownAreRefused (r : EligibilityResolver) (db : BackendTables) (scrapeRunId : String)
    (decisions : EligibilityDecisions) : Prop :=
  ∀ (i : ℕ) (raw : RawJob) (row : NormalizationEligibilityDecision), r.rawJobs[i]? = some raw →
    (r.resolveForRawJobs scrapeRunId decisions).1[i]? = some row → r.IsKnown db raw →
      row.decision ≠ .normalizationEligible

/-- BUG: a known raw job is kept out exactly when something catches it. Its own row catches it only
    if the platform and the external id of the row are stripped and lower-case. -/
theorem knownAreRefused_iff {required : Bool}
    (hlookup : lookupBackendIdentities r.text db lookup required r.rawJobs
      = .ok r.backendExisting)
    (scrapeRunId : String) (decisions : EligibilityDecisions) :
    r.KnownAreRefused db scrapeRunId decisions ↔
      ∀ (i : ℕ) (raw : RawJob), r.rawJobs[i]? = some raw → r.IsKnown db raw →
        r.Caught db lookup (r.rawJobs.take i) raw := by
  constructor
  · intro h i raw hraw hknown
    have hne := h i raw _ hraw (getElem?_resolveForRawJobs decisions hraw) hknown
    exact (decide_ne_eligible_iff hlookup (List.mem_of_getElem? hraw) _).mp hne
  · intro h i raw row hraw hrow hknown
    rw [getElem?_resolveForRawJobs decisions hraw] at hrow
    cases hrow
    exact (decide_ne_eligible_iff hlookup (List.mem_of_getElem? hraw) _).mpr (h i raw hraw hknown)

end EligibilityResolver

/-! ### An upper-case id -/

/-- `str.lower` on ASCII texts. -/
def asciiText : IdentityText where
  lower s := String.ofList (s.toList.map Char.toLower)
  lower_empty := rfl
  lower_nonempty s h := by
    have hmap : s.toList.map Char.toLower = [] := by
      rw [← String.toList_ofList (l := s.toList.map Char.toLower), h]
      rfl
    rw [← String.ofList_toList (s := s), List.map_eq_nil_iff.mp hmap]
  lower_stable s := by
    have hmap : ∀ t : String, strip (String.ofList (t.toList.map Char.toLower))
        = String.ofList ((strip t).toList.map Char.toLower) := by
      intro t
      have hspace : isSpace ∘ Char.toLower = isSpace := funext fun c => (toLower_facts c).1
      simp only [strip, String.toList_ofList, List.dropWhile_map, ← List.map_reverse, hspace]
    have hlower : Char.toLower ∘ Char.toLower = Char.toLower :=
      funext fun c => (toLower_facts c).2
    rw [hmap, String.toList_ofList, List.map_map, strip_strip, hlower]
  sha256 key := "sha256:" ++ key

/-- A raw job and the row it was normalized to; the external id has capitals. -/
def capitalRaw : RawJob where
  id := "r"
  scrapeRunId := "mon-scrape"
  sourcePlatform := "glints"
  externalId := "AbC"
  sourceUrl := none
  rawPayload := []
  metadataJson := none
  payloadHash := none
  scrapedAt := 0

def capitalRow : NormalizedJob where
  id := "n"
  rawJobId := some "r"
  sourcePlatform := "glints"
  externalId := "AbC"
  title := "Dev"
  companyName := "Ac"
  sourceUrl := "u"
  applyUrl := none
  status := .active
  normalizedPayload := []
  lastSeenAt := 0
  postedAt := none

/-- A batch of that raw job alone, with a backend that answers and lists nothing. -/
def capitalBatch : EligibilityResolver where
  text := asciiText
  hash := plainHash
  rawJobs := [capitalRaw]
  normalizedJobs := ⟨[capitalRow], by decide⟩
  events := Table.empty _
  backendExisting := Table.empty _

def emptyBackend : BackendTables := ⟨Table.empty _, []⟩

/-- The row is there, and the raw job is let through. -/
theorem capital_id_renormalized :
    ¬ capitalBatch.KnownAreRefused emptyBackend "mon-scrape" (Table.empty _) := by
  intro h
  have hrefused := h 0 capitalRaw _ rfl (EligibilityResolver.getElem?_resolveForRawJobs _ rfl)
    (.inl ⟨capitalRow, List.mem_singleton_self _, rfl⟩)
  have hgoes : (capitalBatch.decide [] capitalRaw).reason = .normalizationEligible := by
    decide +kernel
  exact hrefused hgoes

theorem knownAreRefused_iff_capitalBatch :
    capitalBatch.KnownAreRefused emptyBackend "mon-scrape" (Table.empty _) ↔
      ∀ (i : ℕ) (raw : RawJob), [capitalRaw][i]? = some raw → capitalBatch.IsKnown emptyBackend raw →
        capitalBatch.Caught emptyBackend .answers ([capitalRaw].take i) raw :=
  @EligibilityResolver.knownAreRefused_iff _ _ _ true rfl "mon-scrape" (Table.empty _)

end Bisakerja
