import BisakerjaScraper.Jobs.BatchItems
import BisakerjaScraper.Pipeline.Plan

/-! What a bad entry does to its batch.

    An item is good when its entry passes on its own what a single request would have to pass. The
    batch stores its good items when all its items are good; a single bad entry, a missing one or
    one too many makes the client refuse the answer, and then every item counts as failed. -/

namespace Bisakerja
open Schemes

namespace NormalizeStage

variable {stage : NormalizeStage} {items : PromptItems} {call : ℕ}

/-- The answer to a batch whose entries arrived. -/
theorem batchAnswer_ok_iff {entries : List BatchEntry} (hsize : items.length ≤ 50)
    (hanswer : stage.client.answerJobs call (batchPrompt stage items)
      = .ok (batchOutputOf entries)) {validated : List AINormalizationBatchItemResult} :
    stage.batchAnswer items call = .ok validated ↔
      entries ≠ [] ∧ stage.client.text.ownOutcomes (batchPrompt stage items)
        (items.map Prod.snd) entries = some validated := by
  have hlen : ¬ 50 < (batchPrompt stage items).items.length := by
    simpa [batchPrompt] using hsize
  unfold batchAnswer
  rw [if_neg hlen, hanswer, ← show (batchPrompt stage items).items = items.map Prod.snd from rfl,
    ← NormalizationText.validateBatch_ok_iff]
  exact ok_mapError_iff

/-- The item found under an id, when the ids differ. -/
theorem find?_of_getElem? (hids : (items.map fun entry => entry.2.itemId).Nodup) {i : ℕ}
    {entry : RawJob × AINormalizationBatchPromptItem} (hentry : items[i]? = some entry) :
    items.find? (fun other => other.2.itemId = entry.2.itemId) = some entry := by
  induction items generalizing i with
  | nil => simp at hentry
  | cons first rest ih =>
    rw [List.map_cons, List.nodup_cons] at hids
    cases i with
    | zero =>
      cases hentry
      exact List.find?_cons_of_pos (by simp)
    | succ i =>
      have hrest : rest[i]? = some entry := hentry
      have hne : first.2.itemId ≠ entry.2.itemId := fun heq =>
        hids.1 (List.mem_map.mpr ⟨entry, List.mem_of_getElem? hrest, heq.symm⟩)
      rw [List.find?_cons_of_neg (by simpa using hne)]
      exact ih hids.2 hrest

variable (stage) in
/-- The items of a batch whose entries are good on their own are accepted with their outcomes, and
    a run that ends without raising has stored their jobs. -/
def GoodItemsKept (rawBatch : List RawJob) (entries : List BatchEntry) (s : StageSession) : Prop :=
  let items := rawBatch.filterMap stage.plannedItem
  ∀ (i : ℕ) (raw : RawJob) item entry outcome,
    items[i]? = some (raw, item) → entries[i]? = some entry →
      stage.client.text.ownOutcome (batchPrompt stage items) item entry = some outcome →
        (∃ validated, stage.client.text.validateAiNormalizationBatchOutput (batchOutputOf entries)
            (batchPrompt stage items) = .ok validated ∧ validated[i]? = some outcome) ∧
          ∀ s', stage.normalizeBatch rawBatch s = (.ok ⟨⟩, s') →
            ∀ job, outcome.normalizedJob = some job → (raw, job) ∈ s'.stored

theorem nodup_plannedItems {rawBatch : List RawJob} (hids : (rawBatch.map RawJob.id).Nodup) :
    ((rawBatch.filterMap stage.plannedItem).map fun entry => entry.2.itemId).Nodup := by
  induction rawBatch with
  | nil => simp
  | cons raw rest ih =>
    rw [List.map_cons, List.nodup_cons] at hids
    cases hplanned : stage.plannedItem raw with
    | none =>
      rw [List.filterMap_cons_none hplanned]
      exact ih hids.2
    | some entry =>
      rw [List.filterMap_cons_some hplanned, List.map_cons, List.nodup_cons]
      refine ⟨fun hmem => ?_, ih hids.2⟩
      obtain ⟨other, hother, heq⟩ := List.mem_map.mp hmem
      obtain ⟨raw', hraw', hplanned'⟩ := List.mem_filterMap.mp hother
      rw [itemId_of_plannedItem hplanned', itemId_of_plannedItem hplanned] at heq
      exact hids.1 (List.mem_map.mpr ⟨raw', hraw', heq⟩)

/-- BUG: the documentation calls the stage fail-closed per item and lets the good items of a batch
    persist, but the answer is validated as one value. Good items are kept exactly when all items
    of the batch are good; otherwise none is, so nothing is lost only if none was good. -/
theorem goodItemsKept_iff {rawBatch : List RawJob} {entries : List BatchEntry} {s : StageSession}
    (hmethod : stage.client.hasNormalizeJobs = true)
    (hsize : (rawBatch.filterMap stage.plannedItem).length ≤ 50)
    (hids : (rawBatch.map RawJob.id).Nodup)
    (hanswer : stage.client.answerJobs s.calls
      (batchPrompt stage (rawBatch.filterMap stage.plannedItem)) = .ok (batchOutputOf entries)) :
    stage.GoodItemsKept rawBatch entries s ↔
      stage.client.text.AllAccepted (batchPrompt stage (rawBatch.filterMap stage.plannedItem))
          entries ∨
        ∀ (i : ℕ) raw item entry, (rawBatch.filterMap stage.plannedItem)[i]? = some (raw, item) →
          entries[i]? = some entry →
            stage.client.text.ownOutcome
              (batchPrompt stage (rawBatch.filterMap stage.plannedItem)) item entry = none := by
  set items := rawBatch.filterMap stage.plannedItem with hitems
  constructor
  · intro hkept
    by_cases hgood : ∃ (i : ℕ) (raw : RawJob) (item : _) (entry : _) (outcome : _), items[i]? = some (raw, item) ∧
        entries[i]? = some entry ∧
        stage.client.text.ownOutcome (batchPrompt stage items) item entry = some outcome
    · obtain ⟨i, raw, item, entry, outcome, hitem, hentry, hown⟩ := hgood
      obtain ⟨⟨validated, hvalidated, -⟩, -⟩ := hkept i raw item entry outcome hitem hentry hown
      obtain ⟨-, houtcomes⟩ := NormalizationText.validateBatch_ok_iff.mp hvalidated
      exact .inl (NormalizationText.ownOutcomes_isSome_iff.mp (by rw [houtcomes]; rfl))
    · refine .inr fun i raw item entry hitem hentry => ?_
      by_contra hsome
      obtain ⟨outcome, hown⟩ := Option.ne_none_iff_exists'.mp hsome
      exact hgood ⟨i, raw, item, entry, outcome, hitem, hentry, hown⟩
  · rintro (hall | hnone) i raw item entry outcome hitem hentry hown
    · obtain ⟨validated, houtcomes⟩ := Option.isSome_iff_exists.mp
        (NormalizationText.ownOutcomes_isSome_iff.mpr hall)
      have hne : entries ≠ [] := by
        rintro rfl
        simp at hentry
      have hplace : validated[i]? = some outcome := by
        rw [← NormalizationText.getElem?_ownOutcomes houtcomes (?_ : _ = some item) hentry, hown]
        change (items.map Prod.snd)[i]? = some item
        rw [List.getElem?_map, hitem]
        rfl
      refine ⟨⟨validated, NormalizationText.validateBatch_ok_iff.mpr ⟨hne, houtcomes⟩, hplace⟩, ?_⟩
      intro s' hrun job hjob
      rw [stored_normalizeBatch hrun]
      refine List.mem_append_right _ (List.mem_append_right _ ?_)
      rw [← hitems]
      have hnonempty : ¬ items.isEmpty := by
        rw [List.isEmpty_iff]
        intro hnil
        rw [← hitems, hnil] at hitem
        simp at hitem
      have hvalidated := (batchAnswer_ok_iff hsize hanswer).mpr ⟨hne, houtcomes⟩
      rw [if_neg hnonempty, plannedAnswers, if_pos hmethod, hvalidated]
      refine List.mem_filterMap.mpr ⟨outcome, List.mem_of_getElem? hplace, ?_⟩
      unfold resultWrite
      rw [NormalizationText.itemId_of_ownOutcome hown,
        find?_of_getElem? (nodup_plannedItems hids) hitem, hjob]
      rfl
    · rw [hnone i raw item entry hitem hentry] at hown
      cases hown

end NormalizeStage

/-! ### A good entry beside a contradictory one -/

/-- The entry of a job without an error. -/
def goodEntry : BatchEntry :=
  .fields "r1" (some (some (answerFor ⟨"1", one_ne_empty⟩ ⟨"New", new_ne_empty⟩))) none none

/-- An entry with both a job and an error. -/
def contradictoryEntry : BatchEntry :=
  .fields "r2" (some (some (answerFor ⟨"2", by decide⟩ ⟨"New", new_ne_empty⟩))) (some "E")
    (some "no")

/-- The entries of a batch of two raw jobs, and the stage they answer. -/
def mixedEntries : List BatchEntry := [goodEntry, contradictoryEntry]

def mixedStage : NormalizeStage :=
  let stage := answeringStage ⟨"1", one_ne_empty⟩
  { stage with
    client := { stage.client with answerJobs := fun _ _ => .ok (batchOutputOf mixedEntries) } }

/-- Two raw jobs, and nothing normalized. -/
def twoRawJobs : List RawJob := [deallsRaw "r1" "1", deallsRaw "r2" "2"]

def twoRawSession : StageSession :=
  let tables : StageTables :=
    { jobs := { rawJobs := ⟨twoRawJobs, by decide⟩, normalizedJobs := Table.empty _ } }
  { tables := tables, committed := tables, result := { sourcePlatform := "dealls", status := .started } }

/-- The prompt of the batch. -/
def mixedPrompt : AINormalizationBatchPromptInput :=
  mixedStage.batchPrompt (twoRawJobs.filterMap mixedStage.plannedItem)

/-- The good entry is refused with the other: no job is stored, and both raw jobs count as
    failed. -/
theorem good_entry_fails_with_batch :
    ¬ mixedStage.GoodItemsKept twoRawJobs mixedEntries twoRawSession ∧
      (mixedStage.normalizeBatch twoRawJobs
        twoRawSession).2.tables.jobs.normalizedJobs.rows.length = 0 ∧
      (mixedStage.normalizeBatch twoRawJobs twoRawSession).2.result.counts.skipped = 2 := by
  refine ⟨fun hkept => ?_, by decide +kernel, by decide +kernel⟩
  have hitem : ∃ item outcome,
      (twoRawJobs.filterMap mixedStage.plannedItem)[0]? = some (deallsRaw "r1" "1", item) ∧
        mixedStage.client.text.ownOutcome mixedPrompt item goodEntry = some outcome :=
    ⟨_, _, rfl, rfl⟩
  obtain ⟨item, outcome, hitem, hown⟩ := hitem
  obtain ⟨⟨validated, hvalidated, -⟩, -⟩ := hkept 0 _ item goodEntry outcome hitem rfl hown
  cases hvalidated

theorem goodItemsKept_iff_mixed :
    mixedStage.GoodItemsKept twoRawJobs mixedEntries twoRawSession ↔
      mixedStage.client.text.AllAccepted mixedPrompt mixedEntries ∨
        ∀ (i : ℕ) raw item entry,
          (twoRawJobs.filterMap mixedStage.plannedItem)[i]? = some (raw, item) →
            mixedEntries[i]? = some entry →
              mixedStage.client.text.ownOutcome mixedPrompt item entry = none :=
  NormalizeStage.goodItemsKept_iff rfl (by decide +kernel) (by decide) rfl

end Bisakerja
