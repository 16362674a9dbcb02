import BisakerjaScraper.Jobs.AiNormalization

/-! The entries of a batch answer, before and after validation.

    A batch answer is validated as a whole: the schema takes all entries or none, the ids are
    compared as one list, and the first job that cannot be completed ends the batch. So the answer
    is accepted exactly when every entry would be accepted on its own. -/

namespace Bisakerja
open Schemes

/-- An entry of a batch answer as it was decoded. `malformed` is an entry that lacks a field, has
    one too many or one of the wrong type; a job is what its schema makes of it. -/
inductive BatchEntry where
  | malformed
  | fields (itemId : String) (normalizedJob : Option (Option CanonicalJobSchema))
      (errorCode errorMessage : Option String)

/-- `AINormalizationBatchItemResult.model_validate`. -/
def BatchEntry.validate : BatchEntry → Option AINormalizationBatchItemResult
  | .malformed => none
  | .fields itemId normalizedJob errorCode errorMessage =>
    if hid : itemId ≠ "" then
      match normalizedJob with
      | some none => none
      | some (some job) =>
        if h : hasError errorCode errorMessage = false then
          some { itemId := ⟨itemId, hid⟩, normalizedJob := some job, errorCode, errorMessage
                 jobOrError := by simp [h] }
        else none
      | none =>
        if h : hasError errorCode errorMessage = true then
          some { itemId := ⟨itemId, hid⟩, normalizedJob := none, errorCode, errorMessage
                 jobOrError := by simp [h] }
        else none
    else none

/-- `AINormalizationBatchOutput.model_validate`. -/
def batchOutputOf (entries : List BatchEntry) : Option AINormalizationBatchOutput :=
  match entries.mapM BatchEntry.validate with
  | some (result :: results) => some ⟨result :: results, List.cons_ne_nil _ _⟩
  | _ => none

namespace NormalizationText

variable (text : NormalizationText) (input : AINormalizationBatchPromptInput)

/-- What becomes of an entry on its own: it passes the schema, names its item, and its job, if it
    has one, is validated as the answer of a single request. -/
def ownOutcome (item : AINormalizationBatchPromptItem) (entry : BatchEntry) :
    Option AINormalizationBatchItemResult :=
  match entry.validate with
  | none => none
  | some result =>
    if result.itemId.1 = item.itemId then
      match h : result.normalizedJob with
      | none => some result
      | some job =>
        (text.validateAiNormalizationOutput (some job) (input.promptFor item)).toOption.map
          fun completed =>
            { result with
              normalizedJob := some completed
              jobOrError := result.isSome_completed h completed }
    else none

/-- What becomes of the entries when each is taken on its own: something only if each is. -/
def ownOutcomes : List AINormalizationBatchPromptItem → List BatchEntry →
    Option (List AINormalizationBatchItemResult)
  | item :: items, entry :: entries => do
    let outcome ← text.ownOutcome input item entry
    let outcomes ← ownOutcomes items entries
    pure (outcome :: outcomes)
  | [], [] => some []
  | _, _ => none

variable {text input}

/-- An entry is completed in a batch as it is on its own. -/
theorem ownOutcome_eq {item : AINormalizationBatchPromptItem} {entry : BatchEntry}
    {result : AINormalizationBatchItemResult} (hentry : entry.validate = some result) :
    text.ownOutcome input item entry = if result.itemId.1 = item.itemId then
      (text.completeItem input item result).toOption else none := by
  unfold ownOutcome
  rw [hentry]
  obtain ⟨itemId, normalizedJob, errorCode, errorMessage, hjob⟩ := result
  unfold completeItem validateAiNormalizationOutput
  cases normalizedJob with
  | none => rfl
  | some job =>
    dsimp only
    cases text.completeJob (input.promptFor item) job <;> rfl

/-- An entry that is good on its own names its item. -/
theorem itemId_of_ownOutcome {item : AINormalizationBatchPromptItem} {entry : BatchEntry}
    {outcome : AINormalizationBatchItemResult}
    (h : text.ownOutcome input item entry = some outcome) : outcome.itemId.1 = item.itemId := by
  cases hentry : entry.validate with
  | none =>
    unfold ownOutcome at h
    rw [hentry] at h
    cases h
  | some result =>
    rw [ownOutcome_eq hentry] at h
    split at h
    · next hid =>
      cases hcomplete : text.completeItem input item result with
      | error exc =>
        rw [hcomplete] at h
        cases h
      | ok completed =>
        rw [hcomplete] at h
        cases h
        rw [(completeItem_ok hcomplete).itemId, hid]
    · cases h

/-- The three layers of the validation, entry by entry. -/
theorem ownOutcomes_eq_some_iff {items : List AINormalizationBatchPromptItem}
    {entries : List BatchEntry} {validated : List AINormalizationBatchItemResult} :
    text.ownOutcomes input items entries = some validated ↔
      ∃ results, entries.mapM BatchEntry.validate = some results ∧
        results.map (fun result => result.itemId.1) = items.map (·.itemId) ∧
        text.completeItems input items results = .ok validated := by
  induction items generalizing entries validated with
  | nil =>
    cases entries with
    | nil => simp [ownOutcomes, completeItems]
    | cons entry entries =>
      constructor
      · intro h
        cases h
      · rintro ⟨results, hresults, hids, -⟩
        rw [List.map_nil, List.map_eq_nil_iff] at hids
        rw [hids, List.mapM_cons] at hresults
        simp [Option.bind_eq_some_iff] at hresults
  | cons item items ih =>
    cases entries with
    | nil =>
      constructor
      · intro h
        cases h
      · rintro ⟨results, hresults, hids, -⟩
        cases hresults
        cases hids
    | cons entry entries =>
      simp only [ownOutcomes, List.mapM_cons, Option.bind_eq_bind,
        Option.bind_eq_some_iff, Option.pure_def, Option.some.injEq]
      constructor
      · rintro ⟨outcome, houtcome, outcomes, houtcomes, rfl⟩
        obtain ⟨results, hresults, hids, hcompleted⟩ := ih.mp houtcomes
        cases hentry : entry.validate with
        | none =>
          unfold ownOutcome at houtcome
          rw [hentry] at houtcome
          cases houtcome
        | some result =>
          rw [ownOutcome_eq hentry] at houtcome
          split at houtcome
          · next hid =>
            have hok : text.completeItem input item result = .ok outcome := by
              cases hcomplete : text.completeItem input item result with
              | error exc =>
                rw [hcomplete] at houtcome
                cases houtcome
              | ok completed =>
                rw [hcomplete] at houtcome
                cases houtcome
                rfl
            refine ⟨result :: results, ⟨result, rfl, results, hresults, rfl⟩, ?_, ?_⟩
            · rw [List.map_cons, List.map_cons, hid, hids]
            · exact ok_bind_iff.mpr ⟨outcome, hok, ok_bind_iff.mpr ⟨outcomes, hcompleted, rfl⟩⟩
          · cases houtcome
      · rintro ⟨_, ⟨result, hentry, results, hresults, rfl⟩, hids, hcompleted⟩
        rw [List.map_cons, List.map_cons, List.cons.injEq] at hids
        rw [completeItems, ok_bind_iff] at hcompleted
        obtain ⟨outcome, houtcome, hrest⟩ := hcompleted
        obtain ⟨outcomes, houtcomes, hlast⟩ := ok_bind_iff.mp hrest
        cases hlast
        refine ⟨outcome, ?_, outcomes, ih.mpr ⟨results, hresults, hids.2, houtcomes⟩, rfl⟩
        rw [ownOutcome_eq hentry, if_pos hids.1, houtcome]
        rfl

/-- A batch answer is accepted exactly when each of its entries is accepted on its own, and then
    with their outcomes. -/
theorem validateBatch_ok_iff {entries : List BatchEntry}
    {validated : List AINormalizationBatchItemResult} :
    text.validateAiNormalizationBatchOutput (batchOutputOf entries) input = .ok validated ↔
      entries ≠ [] ∧ text.ownOutcomes input input.items entries = some validated := by
  rw [ownOutcomes_eq_some_iff]
  unfold validateAiNormalizationBatchOutput batchOutputOf
  cases hresults : entries.mapM BatchEntry.validate with
  | none => simp
  | some results =>
    cases results with
    | nil =>
      have hnil : entries = [] := by
        cases entries with
        | nil => rfl
        | cons entry entries =>
          rw [List.mapM_cons] at hresults
          simp [Option.bind_eq_some_iff] at hresults
      simp [hnil]
    | cons result results =>
      have hne : entries ≠ [] := by
        rintro rfl
        cases hresults
      dsimp only
      by_cases hids : (result :: results).map (fun result => result.itemId.1)
          = input.items.map (·.itemId)
      · rw [if_neg (not_not.mpr hids)]
        constructor
        · intro h
          exact ⟨hne, _, rfl, hids, h⟩
        · rintro ⟨-, _, heq, -, h⟩
          cases heq
          exact h
      · rw [if_pos hids]
        constructor
        · nofun
        · rintro ⟨-, _, heq, hsame, -⟩
          cases heq
          exact absurd hsame hids

/-- The outcomes of all entries, read off at one place. -/
theorem getElem?_ownOutcomes {items : List AINormalizationBatchPromptItem}
    {entries : List BatchEntry} {validated : List AINormalizationBatchItemResult}
    (h : text.ownOutcomes input items entries = some validated) {i : ℕ}
    {item : AINormalizationBatchPromptItem} {entry : BatchEntry} (hitem : items[i]? = some item)
    (hentry : entries[i]? = some entry) :
    text.ownOutcome input item entry = validated[i]? := by
  induction items generalizing entries validated i with
  | nil => simp at hitem
  | cons first items ih =>
    cases entries with
    | nil => simp at hentry
    | cons firstEntry entries =>
      simp only [ownOutcomes, Option.bind_eq_bind, Option.bind_eq_some_iff, Option.pure_def,
        Option.some.injEq] at h
      obtain ⟨outcome, houtcome, outcomes, houtcomes, rfl⟩ := h
      cases i with
      | zero =>
        cases hitem
        cases hentry
        exact houtcome
      | succ i => exact ih houtcomes hitem hentry

/-- Every entry stands for its item and is accepted on its own. -/
def AllAccepted (text : NormalizationText) (input : AINormalizationBatchPromptInput)
    (entries : List BatchEntry) : Prop :=
  List.Forall₂ (fun item entry => (text.ownOutcome input item entry).isSome) input.items entries

theorem ownOutcomes_isSome_iff {items : List AINormalizationBatchPromptItem}
    {entries : List BatchEntry} :
    (text.ownOutcomes input items entries).isSome ↔
      List.Forall₂ (fun item entry => (text.ownOutcome input item entry).isSome) items entries := by
  induction items generalizing entries with
  | nil => cases entries <;> simp [ownOutcomes]
  | cons item items ih =>
    cases entries with
    | nil => simp [ownOutcomes]
    | cons entry entries =>
      rw [List.forall₂_cons, ← ih]
      cases hown : text.ownOutcome input item entry with
      | none => simp [ownOutcomes, hown]
      | some outcome =>
        cases hrest : text.ownOutcomes input items entries <;> simp [ownOutcomes, hown, hrest]

end NormalizationText

end Bisakerja
