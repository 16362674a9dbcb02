import BisakerjaScraper.Eligibility.Complete
import BisakerjaScraper.Eligibility.History
import BisakerjaScraper.Pipeline.NormalizeSource

/-! Raw jobs to normalize again.

    With reprocessing allowed, the gate compares the payload hash of a raw job with the digest of
    the canonical payload of its row, which a mapper and an AI have written. What it finds changed
    it marks, and the stage behind it takes only what it marks as new. -/

namespace Bisakerja
open Schemes

namespace EligibilityResolver

variable (r : EligibilityResolver)

/-- The stored raw payload is another one than the row was produced from, as the digest tells. -/
def PayloadDiffers (producedFrom : NormalizedJob → Dict) (raw : RawJob)
    (normalized : NormalizedJob) : Prop :=
  r.hash.digest (.dict raw.rawPayload) ≠ r.hash.digest (.dict (producedFrom normalized))

/-- The raw job at a place of the batch has a row that is synced or was never sent. -/
structure Settled (i : ℕ) (raw : RawJob) (normalized : NormalizedJob) : Prop where
  here : r.rawJobs[i]? = some raw
  row : r.localRow (r.seenKeys (r.rawJobs.take i)) raw = some normalized
  state : latestSyncState r.events normalized.id = none ∨
    latestSyncState r.events normalized.id = some .sent

/-- Reprocessing means changed input, and is acted upon: `producedFrom` is what each row was made
    of. -/
structure ReprocessesChanges (producedFrom : NormalizedJob → Dict) (scrapeRunId : String)
    (decisions : EligibilityDecisions) : Prop where
  changed : ∀ (i : ℕ) raw normalized (decision : NormalizationEligibilityDecision),
    r.Settled i raw normalized →
    (r.resolveForRawJobs scrapeRunId decisions).1[i]? = some decision →
      (decision.decision = .reprocessRequired ↔ r.PayloadDiffers producedFrom raw normalized)
  actedUpon : ∀ (i : ℕ) raw (decision : NormalizationEligibilityDecision),
    r.rawJobs[i]? = some raw →
    (r.resolveForRawJobs scrapeRunId decisions).1[i]? = some decision →
      decision.decision = .reprocessRequired →
        raw ∈ eligibleRawJobs r.rawJobs (r.resolveForRawJobs scrapeRunId decisions).1

variable {r} {i : ℕ} {raw : RawJob} {normalized : NormalizedJob} {scrapeRunId : String}
  {decisions : EligibilityDecisions} {decision : NormalizationEligibilityDecision}

theorem existingReason_reprocess_iff {state : Option SyncEventStatus} :
    r.existingReason raw normalized state = .reprocessRequired ↔
      (state = none ∨ state = some .sent) ∧ r.allowReprocess = true ∧
        payloadChanged r.hash raw normalized = true := by
  rcases state with - | - | - | - | - <;> unfold existingReason <;> dsimp only
  case none => split <;> simp_all
  case some.sent => split <;> simp_all
  case some.failed => split <;> simp
  case some.pending => simp
  case some.deadLetter => simp

/-- Without a row of its own a raw job is not one to normalize again. -/
theorem decide_ne_reprocess {seen : List String} (h : r.localRow seen raw = none) :
    (r.decide seen raw).reason ≠ .reprocessRequired := by
  unfold localRow at h
  cases hkey : r.text.keyOf raw with
  | none =>
    unfold decide
    rw [hkey]
    exact nofun
  | some key =>
    rw [hkey] at h
    dsimp only at h
    unfold decide
    rw [hkey]
    dsimp only
    by_cases hseen : key ∈ seen
    · rw [if_pos hseen]
      exact nofun
    · rw [if_neg hseen] at h ⊢
      cases hbackend : r.backendExisting.get (r.text.identityOf raw) with
      | some hit => exact nofun
      | none =>
        rw [hbackend] at h
        dsimp only at h ⊢
        rw [h]
        exact nofun

/-- What is marked to be normalized again: rows that are synced or were never sent, whose canonical
    payload has another digest than the raw payload. -/
theorem reprocess_iff (hraw : r.rawJobs[i]? = some raw)
    (hdecision : (r.resolveForRawJobs scrapeRunId decisions).1[i]? = some decision) :
    decision.decision = .reprocessRequired ↔
      ∃ normalized, r.Settled i raw normalized ∧ r.allowReprocess = true ∧
        payloadChanged r.hash raw normalized = true := by
  rw [getElem?_resolveForRawJobs decisions hraw] at hdecision
  cases hdecision
  change (r.decide (r.seenKeys (r.rawJobs.take i)) raw).reason = .reprocessRequired ↔ _
  cases hrow : r.localRow (r.seenKeys (r.rawJobs.take i)) raw with
  | none =>
    refine iff_of_false (decide_ne_reprocess hrow) ?_
    rintro ⟨normalized, hsettled, -⟩
    rw [hsettled.row] at hrow
    cases hrow
  | some normalized =>
    rw [decide_of_localRow hrow, existingReason_reprocess_iff]
    constructor
    · rintro ⟨hstate, hrest⟩
      exact ⟨normalized, ⟨hraw, hrow, hstate⟩, hrest⟩
    · rintro ⟨other, hsettled, hrest⟩
      have hsame := hsettled.row
      rw [hrow] at hsame
      cases hsame
      exact ⟨hsettled.state, hrest⟩

/-- Two raw jobs of one identity do not both get past the duplicates. -/
theorem decision_of_same_key {i j : ℕ} (hi : r.rawJobs[i]? = some raw)
    (hj : r.rawJobs[j]? = some raw) (hlt : i < j) {key : String}
    (hkey : r.text.keyOf raw = some key)
    (hdecision : (r.resolveForRawJobs scrapeRunId decisions).1[j]? = some decision) :
    decision.decision = .duplicateInScrapeScope := by
  rw [getElem?_resolveForRawJobs decisions hj] at hdecision
  cases hdecision
  refine decide_of_mem_seen hkey (mem_seenKeys.mpr ⟨raw, ?_, hkey⟩)
  have htake : (r.rawJobs.take j)[i]? = some raw := by rw [List.getElem?_take_of_lt hlt, hi]
  exact List.mem_of_getElem? htake

theorem mem_eligibleRawJobs {rawJobs : List RawJob}
    {decided : List NormalizationEligibilityDecision} (h : raw ∈ eligibleRawJobs rawJobs decided) :
    ∃ (i : ℕ) (decision : NormalizationEligibilityDecision), rawJobs[i]? = some raw ∧
      decided[i]? = some decision ∧ decision.decision = .normalizationEligible := by
  obtain ⟨entry, hentry, hsome⟩ := List.mem_filterMap.mp h
  split at hsome
  · next heligible =>
    cases hsome
    obtain ⟨i, hi⟩ := List.mem_iff_getElem?.mp hentry
    rw [List.getElem?_zip_eq_some] at hi
    exact ⟨i, entry.2, hi.1, hi.2, heligible⟩
  · cases hsome

/-- A raw job that is marked to be normalized again is not among those that are. -/
theorem not_mem_eligible_of_reprocess (hraw : r.rawJobs[i]? = some raw)
    (hdecision : (r.resolveForRawJobs scrapeRunId decisions).1[i]? = some decision)
    (hreprocess : decision.decision = .reprocessRequired) :
    raw ∉ eligibleRawJobs r.rawJobs (r.resolveForRawJobs scrapeRunId decisions).1 := by
  intro hmem
  obtain ⟨j, decision', hraw', hdecision', heligible⟩ := mem_eligibleRawJobs hmem
  obtain ⟨key, hkey⟩ : ∃ key, r.text.keyOf raw = some key := by
    rw [getElem?_resolveForRawJobs decisions hraw'] at hdecision'
    cases hdecision'
    obtain ⟨key, hkey, -⟩ := decide_eligible_iff.mp heligible
    exact ⟨key, hkey⟩
  rcases lt_trichotomy i j with hlt | rfl | hlt
  · rw [decision_of_same_key hraw hraw' hlt hkey hdecision'] at heligible
    cases heligible
  · rw [hdecision] at hdecision'
    cases hdecision'
    rw [hreprocess] at heligible
    cases heligible
  · rw [decision_of_same_key hraw' hraw hlt hkey hdecision] at hreprocess
    cases hreprocess

/-- BUG: reprocessing means changed input and is acted upon exactly when nothing has changed and
    nothing is marked. The digest of a raw payload is compared with that of a canonical one, and the
    stage normalizes nothing that is marked. -/
theorem reprocessesChanges_iff (hallow : r.allowReprocess = true)
    (producedFrom : NormalizedJob → Dict) (scrapeRunId : String)
    (decisions : EligibilityDecisions) :
    r.ReprocessesChanges producedFrom scrapeRunId decisions ↔
      ∀ i raw normalized, r.Settled i raw normalized →
        payloadChanged r.hash raw normalized = false ∧
          ¬ r.PayloadDiffers producedFrom raw normalized := by
  constructor
  · intro h i raw normalized hsettled
    obtain ⟨decision, hdecision⟩ :
        ∃ decision, (r.resolveForRawJobs scrapeRunId decisions).1[i]? = some decision :=
      ⟨_, getElem?_resolveForRawJobs decisions hsettled.here⟩
    have hunmarked : payloadChanged r.hash raw normalized = false := by
      by_contra hchanged
      rw [Bool.not_eq_false] at hchanged
      have hmarked := (reprocess_iff hsettled.here hdecision).mpr
        ⟨normalized, hsettled, hallow, hchanged⟩
      exact not_mem_eligible_of_reprocess hsettled.here hdecision hmarked
        (h.actedUpon i raw _ hsettled.here hdecision hmarked)
    refine ⟨hunmarked, fun hdiffers => ?_⟩
    obtain ⟨other, hother, -, hchanged⟩ := (reprocess_iff hsettled.here hdecision).mp
      ((h.changed i raw normalized _ hsettled hdecision).mpr hdiffers)
    have hsame := hother.row
    rw [hsettled.row] at hsame
    cases hsame
    rw [hunmarked] at hchanged
    cases hchanged
  · intro h
    have hnone : ∀ (i : ℕ) raw (decision : NormalizationEligibilityDecision),
        r.rawJobs[i]? = some raw →
        (r.resolveForRawJobs scrapeRunId decisions).1[i]? = some decision →
          decision.decision ≠ .reprocessRequired := by
      intro i raw decision hraw hdecision hmarked
      obtain ⟨normalized, hsettled, -, hchanged⟩ := (reprocess_iff hraw hdecision).mp hmarked
      rw [(h i raw normalized hsettled).1] at hchanged
      cases hchanged
    refine ⟨?_, ?_⟩
    · intro i raw normalized decision hsettled hdecision
      exact iff_of_false (hnone i raw decision hsettled.here hdecision)
        (h i raw normalized hsettled).2
    · intro i raw decision hraw hdecision hmarked
      exact absurd hmarked (hnone i raw decision hraw hdecision)

/-! ### A payload that has not changed -/

/-- A digest of the keys of a payload. -/
def keyHash : StableHash where
  digest payload := "sha256:" ++ joinText "," (payload.asDict.map Prod.fst)
  digest_ne payload h := by
    have hlength := congrArg String.length h
    simp at hlength

/-- The raw payload of a job, and the canonical one that was made of it. -/
def rawDev : Dict := [("positionName", .str "Dev")]

def canonicalDev : Dict := [("title", .str "Dev")]

/-- A job whose stored payload is the one its row was produced from, and was never sent. -/
def unchangedBatch : EligibilityResolver :=
  { plainBatch with
    hash := keyHash
    rawJobs := [{ capitalRaw with
      externalId := "abc", rawPayload := rawDev
      payloadHash := some (keyHash.digest (.dict rawDev)) }]
    normalizedJobs := ⟨[{ capitalRow with
      externalId := "abc", normalizedPayload := canonicalDev }], by decide⟩
    allowReprocess := true }

/-- The job is marked though nothing has changed, and is not normalized again. -/
theorem unchanged_is_marked :
    (unchangedBatch.resolveForRawJobs "mon-scrape" (Table.empty _)).1.map
        NormalizationEligibilityDecision.decision = [.reprocessRequired] ∧
      eligibleRawJobs unchangedBatch.rawJobs
        (unchangedBatch.resolveForRawJobs "mon-scrape" (Table.empty _)).1 = [] ∧
      ¬ unchangedBatch.ReprocessesChanges (fun _ => rawDev) "mon-scrape" (Table.empty _) := by
  have hmarked : (unchangedBatch.resolveForRawJobs "mon-scrape" (Table.empty _)).1.map
      NormalizationEligibilityDecision.decision = [.reprocessRequired] := by decide +kernel
  have hleft : (eligibleRawJobs unchangedBatch.rawJobs
      (unchangedBatch.resolveForRawJobs "mon-scrape" (Table.empty _)).1).isEmpty = true := by
    decide +kernel
  have hid : (unchangedBatch.rawJobs.head?.bind (unchangedBatch.localRow [])).map NormalizedJob.id
      = some "n" := by decide +kernel
  obtain ⟨normalized, hrow, -⟩ := Option.map_eq_some_iff.mp hid
  refine ⟨hmarked, List.isEmpty_iff.mp hleft, fun h => ?_⟩
  have hfirst : ((unchangedBatch.resolveForRawJobs "mon-scrape" (Table.empty _)).1.map
      NormalizationEligibilityDecision.decision)[0]? = some .reprocessRequired := by
    rw [hmarked]
    rfl
  rw [List.getElem?_map] at hfirst
  obtain ⟨decision, hdecision, hreason⟩ := Option.map_eq_some_iff.mp hfirst
  exact (h.changed 0 _ normalized decision ⟨rfl, hrow, .inl rfl⟩ hdecision).mp hreason rfl

/-- The same job while its canonical payload is still the raw one. -/
def rawBatch : EligibilityResolver :=
  { unchangedBatch with
    normalizedJobs := ⟨[{ capitalRow with
      externalId := "abc", normalizedPayload := rawDev }], by decide⟩ }

theorem reprocessesChanges_iff_rawBatch :
    rawBatch.ReprocessesChanges (fun _ => rawDev) "mon-scrape" (Table.empty _) ↔
      ∀ i raw normalized, rawBatch.Settled i raw normalized →
        payloadChanged rawBatch.hash raw normalized = false ∧
          ¬ rawBatch.PayloadDiffers (fun _ => rawDev) raw normalized :=
  reprocessesChanges_iff rfl _ "mon-scrape" (Table.empty _)

end EligibilityResolver

end Bisakerja
