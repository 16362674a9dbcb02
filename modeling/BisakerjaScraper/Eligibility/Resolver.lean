import Mathlib.Data.List.Sort
import Mathlib.Data.String.Basic
import BisakerjaScraper.Schemes.Assign
import BisakerjaScraper.Schemes.Transaction
import BisakerjaScraper.Sync.Events

/-! The gate in front of normalization.

    Every raw job of a scrape gets a decision: only `normalization_eligible` lets it through. The
    rows the gate compares with are looked up once for the whole batch, under the platforms and the
    ids of all raw jobs stripped and lower-cased, and found again under the identity of each. -/

namespace Bisakerja
open Schemes

/-- `EligibilityDecisionReason`. -/
inductive EligibilityDecisionReason where
  | normalizationEligible | duplicateInScrapeScope | existingBackend | existingNormalizedSynced
  | existingNormalizedUnsynced | missingIdentity | identityConflict | reprocessRequired
  deriving DecidableEq

/-- A `normalization_eligibility_decisions` row. -/
structure NormalizationEligibilityDecision where
  scrapeRunId : String
  rawJobId : String
  normalizedJobId : Option String
  sourcePlatform : String
  externalId : String
  identityKey : Option String
  identityHash : Option String
  payloadHash : Option String
  decision : EligibilityDecisionReason
  backendJobId : Option String
  normalizedSyncState : Option SyncEventStatus
  reasonDetails : Dict

/-- The decisions, by raw job. -/
abbrev EligibilityDecisions :=
  Table NormalizationEligibilityDecision NormalizationEligibilityDecision.rawJobId

/-- `EligibilityDecisionInput`; its raw job stands beside it. -/
structure EligibilityDecisionInput where
  reason : EligibilityDecisionReason
  identityKey : Option String
  identityHash : Option String
  backendJobId : Option String := none
  normalizedJobId : Option String := none
  normalizedSyncState : Option SyncEventStatus := none
  reasonDetails : Dict := []

/-- `str.lower` and the digest of the identity keys. Lower-casing leaves only the empty text empty,
    and stripping and lower-casing a text once more leaves it alone. -/
structure IdentityText where
  lower : String → String
  lower_empty : lower "" = ""
  lower_nonempty : ∀ s, lower s = "" → s = ""
  lower_stable : ∀ s, lower (strip (lower (strip s))) = lower (strip s)
  sha256 : String → String

/-- What `find_existing` tells of a job of the backend. -/
structure BackendHit where
  jobId : String
  updatedAt : Option Time

/-- A dict from identities to jobs of the backend. -/
abbrev BackendExisting := Assigned (String × String) BackendHit

/-- `string_or_none`. -/
def stringOrNone (value : String) : Option String := if strip value = "" then none else some value

namespace IdentityText

variable (text : IdentityText)

/-- `normalize_key`. -/
def normalizeKey (value : String) : String := text.lower (strip value)

/-- The identity of a raw job as the lookups spell it. -/
def identityOf (raw : RawJob) : String × String :=
  (text.normalizeKey raw.sourcePlatform, text.normalizeKey raw.externalId)

/-- `identity_key_from`. -/
def identityKeyFrom (identity : String × String) : Option String :=
  if identity.1 = "" ∨ identity.2 = "" then none else some (identity.1 ++ ":" ++ identity.2)

/-- The identity key of a raw job. -/
def keyOf (raw : RawJob) : Option String := identityKeyFrom (text.identityOf raw)

end IdentityText

/-- `payload_changed`. -/
def payloadChanged (hash : StableHash) (raw : RawJob) (job : NormalizedJob) : Bool :=
  match raw.payloadHash with
  | none => false
  | some payloadHash => payloadHash ≠ hash.digest (.dict job.normalizedPayload)

/-- `ORDER BY attempted_at DESC, id DESC`. -/
def latestFirst (a b : SyncEvent) : Prop :=
  b.attemptedAt < a.attemptedAt ∨ (a.attemptedAt = b.attemptedAt ∧ b.id.toList ≤ a.id.toList)

instance : DecidableRel latestFirst := fun a b => by unfold latestFirst; infer_instance

/-- `_latest_sync_state_by_normalized_id`, for one id. -/
def latestSyncState (events : SyncEvents) (normalizedJobId : String) : Option SyncEventStatus :=
  ((events.rows.filter fun event =>
      event.target = "backend" && event.normalizedJobId = normalizedJobId).insertionSort
    latestFirst).head?.map SyncEvent.status

/-- `sync_state_attempt_count`: the map keeps no counts, a failed event counts as one attempt. -/
def syncStateAttemptCount : Option SyncEventStatus → ℕ
  | some .failed => 1
  | _ => 0

/-- What `resolve_for_raw_jobs` works with: its arguments and the rows it reads. -/
structure EligibilityResolver where
  text : IdentityText
  hash : StableHash
  rawJobs : List RawJob
  normalizedJobs : NormalizedJobs
  events : SyncEvents
  backendExisting : BackendExisting
  allowReprocess : Bool := false
  maxSyncAttempts : ℕ := 3

namespace EligibilityResolver

variable (r : EligibilityResolver)

/-- `source_platforms`: the platforms of the batch. The order does not matter to `IN`. -/
def sourcePlatforms : List String :=
  (r.rawJobs.map fun raw => (r.text.identityOf raw).1).filter (· ≠ "")

/-- `external_ids`: the external ids of the batch. -/
def externalIds : List String :=
  (r.rawJobs.map fun raw => (r.text.identityOf raw).2).filter (· ≠ "")

/-- The rows `_normalized_by_identity` selects. -/
def selectedRows : List NormalizedJob :=
  r.normalizedJobs.rows.filter fun row =>
    row.sourcePlatform ∈ r.sourcePlatforms && row.externalId ∈ r.externalIds

/-- The identity of a row as the lookups spell it. -/
def rowIdentity (row : NormalizedJob) : String × String :=
  (r.text.normalizeKey row.sourcePlatform, r.text.normalizeKey row.externalId)

/-- `_normalized_by_identity`. -/
def normalizedByIdentity : Assigned (String × String) NormalizedJob :=
  .ofEntries (r.selectedRows.map fun row => (r.rowIdentity row, row))

/-- The reason for a raw job whose row was found, by the latest state of its sync. -/
def existingReason (raw : RawJob) (normalized : NormalizedJob) :
    Option SyncEventStatus → EligibilityDecisionReason
  | none | some .sent =>
    if r.allowReprocess && payloadChanged r.hash raw normalized then .reprocessRequired
    else .existingNormalizedSynced
  | some .failed =>
    if syncStateAttemptCount (some .failed) < r.maxSyncAttempts then .existingNormalizedUnsynced
    else .identityConflict
  | some .pending | some .deadLetter => .existingNormalizedUnsynced

/-- The decision on one raw job; `seen` are the keys of the raw jobs before it. -/
def decide (seen : List String) (raw : RawJob) : EligibilityDecisionInput :=
  match r.text.keyOf raw with
  | none =>
    { reason := .missingIdentity
      identityKey := none
      identityHash := none
      reasonDetails := [("reason", .str "source platform or external id is missing")] }
  | some key =>
    let identityHash := some (r.text.sha256 key)
    if key ∈ seen then
      { reason := .duplicateInScrapeScope, identityKey := some key, identityHash }
    else
      match r.backendExisting.get (r.text.identityOf raw) with
      | some hit =>
        { reason := .existingBackend
          identityKey := some key
          identityHash
          backendJobId := stringOrNone hit.jobId
          reasonDetails := [("backendLookup", .str "match")] }
      | none =>
        match r.normalizedByIdentity.get (r.text.identityOf raw) with
        | none =>
          { reason := .normalizationEligible
            identityKey := some key
            identityHash
            reasonDetails :=
              [("backendLookup", .str "miss"), ("normalizedLookup", .str "miss")] }
        | some normalized =>
          let state := latestSyncState r.events normalized.id
          { reason := r.existingReason raw normalized state
            identityKey := some key
            identityHash
            normalizedJobId := some normalized.id
            normalizedSyncState := state
            reasonDetails :=
              if state = none then
                [("normalizedLookup", .str "match"), ("syncState", .str "none")]
              else [("normalizedLookup", .str "match")] }

end EligibilityResolver

/-- The row `_upsert` writes. -/
def EligibilityDecisionInput.row (input : EligibilityDecisionInput) (scrapeRunId : String)
    (raw : RawJob) : NormalizationEligibilityDecision where
  scrapeRunId := scrapeRunId
  rawJobId := raw.id
  normalizedJobId := input.normalizedJobId
  sourcePlatform := raw.sourcePlatform
  externalId := raw.externalId
  identityKey := input.identityKey
  identityHash := input.identityHash
  payloadHash := raw.payloadHash
  decision := input.reason
  backendJobId := input.backendJobId
  normalizedSyncState := input.normalizedSyncState
  reasonDetails := input.reasonDetails

/-- The assignments of `_upsert` to an existing row. -/
def NormalizationEligibilityDecision.overwrite (row existing : NormalizationEligibilityDecision) :
    NormalizationEligibilityDecision :=
  { row with rawJobId := existing.rawJobId }

theorem NormalizationEligibilityDecision.overwrite_rawJobId
    (row existing : NormalizationEligibilityDecision) :
    (row.overwrite existing).rawJobId = existing.rawJobId := rfl

/-- `_upsert`: one decision a raw job, overwritten in place. -/
def upsertDecision (decisions : EligibilityDecisions) (row : NormalizationEligibilityDecision) :
    EligibilityDecisions :=
  match decisions.find? row.rawJobId with
  | none => decisions.insert row
  | some _ => decisions.modify row.rawJobId row.overwrite row.overwrite_rawJobId

namespace EligibilityResolver

variable (r : EligibilityResolver)

/-- The loop of `resolve_for_raw_jobs`: the decisions in order, and the table after them. -/
def resolveAll (scrapeRunId : String) : List RawJob → List String → EligibilityDecisions →
    List NormalizationEligibilityDecision × EligibilityDecisions
  | [], _, decisions => ([], decisions)
  | raw :: rest, seen, decisions =>
    let row := (r.decide seen raw).row scrapeRunId raw
    let others := resolveAll scrapeRunId rest (seen ++ (r.text.keyOf raw).toList)
      (upsertDecision decisions row)
    (row :: others.1, others.2)

/-- `resolve_for_raw_jobs`. -/
def resolveForRawJobs (scrapeRunId : String) (decisions : EligibilityDecisions) :
    List NormalizationEligibilityDecision × EligibilityDecisions :=
  r.resolveAll scrapeRunId r.rawJobs [] decisions

end EligibilityResolver

/-! ### The table of decisions -/

theorem find?_upsertDecision_self (decisions : EligibilityDecisions)
    (row : NormalizationEligibilityDecision) :
    (upsertDecision decisions row).find? row.rawJobId = some row := by
  unfold upsertDecision
  cases hfind : decisions.find? row.rawJobId with
  | none => exact Table.find?_insert_self decisions hfind
  | some existing =>
    have hkey : existing.rawJobId = row.rawJobId := Table.key_of_find? hfind
    dsimp only
    rw [Table.find?_modify_self, hfind, Option.map_some]
    unfold NormalizationEligibilityDecision.overwrite
    rw [hkey]

theorem find?_upsertDecision_of_ne (decisions : EligibilityDecisions)
    {row : NormalizationEligibilityDecision} {rawJobId : String} (h : row.rawJobId ≠ rawJobId) :
    (upsertDecision decisions row).find? rawJobId = decisions.find? rawJobId := by
  unfold upsertDecision
  split
  · exact Table.find?_insert_of_ne decisions h
  · exact Table.find?_modify_of_ne decisions _ _ h

namespace EligibilityResolver

variable {r : EligibilityResolver} {scrapeRunId : String}

/-- The keys of some raw jobs, as the loop has seen them. -/
def seenKeys (r : EligibilityResolver) (rawJobs : List RawJob) : List String :=
  rawJobs.flatMap fun raw => (r.text.keyOf raw).toList

theorem mem_seenKeys {rawJobs : List RawJob} {key : String} :
    key ∈ r.seenKeys rawJobs ↔ ∃ raw ∈ rawJobs, r.text.keyOf raw = some key := by
  unfold seenKeys
  simp

/-- The decisions of a batch, raw job by raw job. -/
theorem resolveAll_append (r : EligibilityResolver) (scrapeRunId : String)
    (before after : List RawJob) (raw : RawJob) (seen : List String) (decisions : EligibilityDecisions) :
    (r.resolveAll scrapeRunId (before ++ raw :: after) seen decisions).1[before.length]?
      = some ((r.decide (seen ++ r.seenKeys before) raw).row scrapeRunId raw) := by
  induction before generalizing seen decisions with
  | nil => simp [resolveAll, seenKeys]
  | cons first before ih =>
    rw [List.cons_append, resolveAll, List.length_cons]
    dsimp only
    rw [List.getElem?_cons_succ, ih, seenKeys, seenKeys, List.flatMap_cons, List.append_assoc]

theorem resolveAll_length (rawJobs : List RawJob) (seen : List String)
    (decisions : EligibilityDecisions) :
    (r.resolveAll scrapeRunId rawJobs seen decisions).1.length = rawJobs.length := by
  induction rawJobs generalizing seen decisions with
  | nil => rfl
  | cons raw rest ih => rw [resolveAll, List.length_cons, List.length_cons, ih]

/-- The decisions of a batch are on its raw jobs, in order. -/
theorem ids_resolveAll (rawJobs : List RawJob) (seen : List String)
    (decisions : EligibilityDecisions) :
    (r.resolveAll scrapeRunId rawJobs seen decisions).1.map
      NormalizationEligibilityDecision.rawJobId = rawJobs.map RawJob.id := by
  induction rawJobs generalizing seen decisions with
  | nil => rfl
  | cons raw rest ih =>
    rw [resolveAll, List.map_cons, List.map_cons, ih]
    rfl

/-- The table after the batch: the last decision the batch wrote on a raw job, or the one before. -/
theorem find?_resolveAll_rows (rawJobs : List RawJob) (seen : List String)
    (decisions : EligibilityDecisions) (rawJobId : String) :
    (r.resolveAll scrapeRunId rawJobs seen decisions).2.find? rawJobId
      = (lastWrite NormalizationEligibilityDecision.rawJobId
          (r.resolveAll scrapeRunId rawJobs seen decisions).1 rawJobId).or
        (decisions.find? rawJobId) := by
  induction rawJobs generalizing seen decisions with
  | nil => rfl
  | cons raw rest ih =>
    rw [resolveAll]
    dsimp only
    rw [ih, ← List.singleton_append, lastWrite_append_list, Option.or_assoc]
    congr 1
    rw [← List.nil_append [_], lastWrite_append, lastWrite_nil]
    split
    · next hid =>
      subst hid
      exact find?_upsertDecision_self decisions ((r.decide seen raw).row scrapeRunId raw)
    · next hne => exact find?_upsertDecision_of_ne decisions hne

/-- A raw job outside the batch keeps its decision. -/
theorem find?_resolveAll_of_not_mem {rawJobs : List RawJob} {rawJobId : String}
    (h : rawJobId ∉ rawJobs.map RawJob.id) (seen : List String)
    (decisions : EligibilityDecisions) :
    (r.resolveAll scrapeRunId rawJobs seen decisions).2.find? rawJobId
      = decisions.find? rawJobId := by
  induction rawJobs generalizing seen decisions with
  | nil => rfl
  | cons raw rest ih =>
    rw [List.map_cons, List.mem_cons, not_or] at h
    rw [resolveAll]
    dsimp only
    rw [ih h.2]
    exact find?_upsertDecision_of_ne decisions fun heq => h.1 heq.symm

/-- After the batch, the table holds the decision on the last raw job of an id. -/
theorem find?_resolveAll_last {before after : List RawJob} {raw : RawJob}
    (h : raw.id ∉ after.map RawJob.id) (seen : List String) (decisions : EligibilityDecisions) :
    (r.resolveAll scrapeRunId (before ++ raw :: after) seen decisions).2.find? raw.id
      = some ((r.decide (seen ++ r.seenKeys before) raw).row scrapeRunId raw) := by
  induction before generalizing seen decisions with
  | nil =>
    rw [List.nil_append, resolveAll]
    dsimp only
    rw [find?_resolveAll_of_not_mem h]
    simp only [seenKeys, List.flatMap_nil, List.append_nil]
    exact find?_upsertDecision_self decisions ((r.decide seen raw).row scrapeRunId raw)
  | cons first before ih =>
    rw [List.cons_append, resolveAll]
    dsimp only
    rw [ih, seenKeys, seenKeys, List.flatMap_cons, List.append_assoc]

/-- After the batch, the table holds the decision on every raw job of it. -/
theorem find?_resolveAll {before after : List RawJob} {raw : RawJob}
    (h : ((before ++ raw :: after).map RawJob.id).Nodup) (seen : List String)
    (decisions : EligibilityDecisions) :
    (r.resolveAll scrapeRunId (before ++ raw :: after) seen decisions).2.find? raw.id
      = some ((r.decide (seen ++ r.seenKeys before) raw).row scrapeRunId raw) := by
  rw [List.map_append, List.map_cons] at h
  exact find?_resolveAll_last (List.nodup_cons.mp (List.nodup_append.mp h).2.1).1 seen decisions

end EligibilityResolver

end Bisakerja
