import BisakerjaScraper.Eligibility.Known

/-! One decision a raw job.

    `resolve_for_raw_jobs` walks the batch with the keys it has seen and overwrites the decision of a
    raw job in place. A raw job that stands twice in the batch has one record, and the list returned
    holds that record twice, so the caller reads what the table holds after the call. -/

namespace Bisakerja
open Schemes

/-- A call of `resolve_for_raw_jobs`. Its raw jobs are rows of their table, so an id is one of them. -/
structure ResolverCall where
  resolver : EligibilityResolver
  stored : Table RawJob RawJob.id
  selected : ∀ raw ∈ resolver.rawJobs, raw ∈ stored.rows
  scrapeRunId : String

namespace ResolverCall

variable (call : ResolverCall) (decisions : EligibilityDecisions)

/-- The table after the call. -/
def after : EligibilityDecisions :=
  (call.resolver.resolveForRawJobs call.scrapeRunId decisions).2

/-- The list returned: the records of the session, as they are after the call. -/
def returned : List NormalizationEligibilityDecision :=
  (call.resolver.resolveForRawJobs call.scrapeRunId decisions).1.map fun row =>
    ((call.after decisions).find? row.rawJobId).getD row

/-- The table after some calls, whatever batches and tables they work with. -/
def afterAll (calls : List ResolverCall) (decisions : EligibilityDecisions) : EligibilityDecisions :=
  calls.foldl (fun decisions call => call.after decisions) decisions

/-- The decision returned at a position, with the raw job that stands there. -/
structure DecidedAt (i : ℕ) (raw : RawJob) (decision : NormalizationEligibilityDecision) : Prop where
  raw : call.resolver.rawJobs[i]? = some raw
  decision : (call.returned decisions)[i]? = some decision

/-- What the callers of `resolve_for_raw_jobs` rely on. -/
structure CompleteAndExclusive : Prop where
  aligned : (call.returned decisions).map NormalizationEligibilityDecision.rawJobId
    = call.resolver.rawJobs.map RawJob.id
  rows : ∀ later, ∀ raw ∈ call.resolver.rawJobs,
    ∃! row, row ∈ (afterAll later (call.after decisions)).rows ∧ row.rawJobId = raw.id
  exclusive : ∀ {i j raw raw' decision decision'},
    call.DecidedAt decisions i raw decision → call.DecidedAt decisions j raw' decision' →
    call.resolver.text.keyOf raw ≠ none →
    call.resolver.text.identityOf raw = call.resolver.text.identityOf raw' →
    decision.decision ≠ .duplicateInScrapeScope → decision'.decision ≠ .duplicateInScrapeScope → i = j
  missing : ∀ {i raw decision}, call.DecidedAt decisions i raw decision →
    (decision.decision = .missingIdentity ↔
      strip raw.sourcePlatform = "" ∨ strip raw.externalId = "")
  repeated : call.returned (call.after decisions) = call.returned decisions ∧
    call.after (call.after decisions) = call.after decisions

end ResolverCall

/-! ### The reasons of the loop -/

namespace IdentityText

variable {text : IdentityText}

theorem normalizeKey_eq_empty_iff (value : String) :
    text.normalizeKey value = "" ↔ strip value = "" := by
  unfold normalizeKey
  constructor
  · exact text.lower_nonempty _
  · intro h
    rw [h, text.lower_empty]

theorem keyOf_eq_none_iff_blank {raw : RawJob} :
    text.keyOf raw = none ↔ strip raw.sourcePlatform = "" ∨ strip raw.externalId = "" := by
  rw [keyOf_eq_none_iff]
  unfold identityOf
  rw [normalizeKey_eq_empty_iff, normalizeKey_eq_empty_iff]

end IdentityText

namespace EligibilityResolver

variable {r : EligibilityResolver} {scrapeRunId : String}

theorem decide_missing_iff {seen : List String} {raw : RawJob} :
    (r.decide seen raw).reason = .missingIdentity ↔ r.text.keyOf raw = none := by
  unfold decide
  cases hkey : r.text.keyOf raw with
  | none => simp
  | some key =>
    by_cases hseen : key ∈ seen
    · simp [hseen]
    · cases hbackend : r.backendExisting.get (r.text.identityOf raw) with
      | some hit => simp [hseen]
      | none =>
        cases hrow : r.normalizedByIdentity.get (r.text.identityOf raw) with
        | none => simp [hseen]
        | some row =>
          rcases r.existingReason_cases raw row (latestSyncState r.events row.id)
            with h | h | h | h <;> simp [hseen, h]

/-- A key that was seen makes a duplicate. -/
theorem decide_of_mem_seen {seen : List String} {raw : RawJob} {key : String}
    (hkey : r.text.keyOf raw = some key) (hseen : key ∈ seen) :
    (r.decide seen raw).reason = .duplicateInScrapeScope := by
  unfold decide
  simp [hkey, hseen]

/-- What the loop decides does not depend on the decisions in the table. -/
theorem resolveAll_fst (rawJobs : List RawJob) (seen : List String)
    (decisions decisions' : EligibilityDecisions) :
    (r.resolveAll scrapeRunId rawJobs seen decisions).1
      = (r.resolveAll scrapeRunId rawJobs seen decisions').1 := by
  induction rawJobs generalizing seen decisions decisions' with
  | nil => rfl
  | cons raw rest ih =>
    simp only [resolveAll]
    rw [ih]

/-- Overwriting keeps the rows in their places. -/
theorem keys_upsertDecision {decisions : EligibilityDecisions}
    (row : NormalizationEligibilityDecision) (h : decisions.find? row.rawJobId ≠ none) :
    (upsertDecision decisions row).rows.map NormalizationEligibilityDecision.rawJobId
      = decisions.rows.map NormalizationEligibilityDecision.rawJobId := by
  unfold upsertDecision
  split
  · next hnone => exact absurd hnone h
  · exact Table.keys_modify _ _ _ _

/-- A batch whose raw jobs all have a decision adds none. -/
theorem keys_resolveAll {rawJobs : List RawJob} {decisions : EligibilityDecisions}
    (h : ∀ raw ∈ rawJobs, decisions.find? raw.id ≠ none) (seen : List String) :
    (r.resolveAll scrapeRunId rawJobs seen decisions).2.rows.map
        NormalizationEligibilityDecision.rawJobId
      = decisions.rows.map NormalizationEligibilityDecision.rawJobId := by
  induction rawJobs generalizing seen decisions with
  | nil => rfl
  | cons raw rest ih =>
    have hfirst := h raw List.mem_cons_self
    have hkeys := keys_upsertDecision ((r.decide seen raw).row scrapeRunId raw) hfirst
    rw [resolveAll]
    dsimp only
    rw [ih, hkeys]
    intro other hother hnone
    refine h other (List.mem_cons_of_mem _ hother) ?_
    rw [Table.find?_eq_none_iff] at hnone ⊢
    rwa [hkeys] at hnone

end EligibilityResolver

/-! ### The parts of the contract -/

namespace ResolverCall

variable {call : ResolverCall} {decisions : EligibilityDecisions}

theorem ids_resolved (call : ResolverCall) (decisions : EligibilityDecisions) :
    (call.resolver.resolveForRawJobs call.scrapeRunId decisions).1.map
        NormalizationEligibilityDecision.rawJobId
      = call.resolver.rawJobs.map RawJob.id :=
  EligibilityResolver.ids_resolveAll _ _ _

/-- The table holds the decision made where a raw job stands last. -/
theorem find?_after {raw : RawJob} (hraw : raw ∈ call.resolver.rawJobs)
    (decisions : EligibilityDecisions) :
    ∃ before rest, call.resolver.rawJobs = before ++ raw :: rest ∧ raw ∉ rest ∧
      (call.after decisions).find? raw.id
        = some ((call.resolver.decide (call.resolver.seenKeys before) raw).row
            call.scrapeRunId raw) := by
  obtain ⟨following, before, hsplit, hlast⟩ :=
    List.eq_append_cons_of_mem (List.mem_reverse.mpr hraw)
  have hjobs : call.resolver.rawJobs = before.reverse ++ raw :: following.reverse := by
    rw [← List.reverse_reverse call.resolver.rawJobs, hsplit]
    simp
  have hids : raw.id ∉ following.reverse.map RawJob.id := by
    intro hid
    obtain ⟨other, hother, heq⟩ := List.mem_map.mp hid
    have hstored : other ∈ call.stored.rows := call.selected other (by
      rw [hjobs]
      exact List.mem_append_right _ (List.mem_cons_of_mem _ hother))
    have hsame : other = raw :=
      List.inj_on_of_nodup_map call.stored.unique hstored (call.selected raw hraw) heq
    rw [hsame, List.mem_reverse] at hother
    exact hlast hother
  refine ⟨before.reverse, following.reverse, hjobs, by rwa [List.mem_reverse], ?_⟩
  unfold after EligibilityResolver.resolveForRawJobs
  rw [hjobs, EligibilityResolver.find?_resolveAll_last hids]
  rfl

theorem returned_length (call : ResolverCall) (decisions : EligibilityDecisions) :
    (call.returned decisions).length = call.resolver.rawJobs.length := by
  unfold returned
  rw [List.length_map]
  exact EligibilityResolver.resolveAll_length _ _ _

/-- What is returned at a position is the row of the raw job there. -/
theorem DecidedAt.find? {i : ℕ} {raw : RawJob} {decision : NormalizationEligibilityDecision}
    (h : call.DecidedAt decisions i raw decision) :
    (call.after decisions).find? raw.id = some decision := by
  have hdecision := h.decision
  unfold returned at hdecision
  rw [List.getElem?_map] at hdecision
  obtain ⟨row, hrow, heq⟩ := Option.map_eq_some_iff.mp hdecision
  have hid : row.rawJobId = raw.id := by
    have hat := congrArg (·[i]?) (call.ids_resolved decisions)
    simp only [List.getElem?_map, hrow, h.raw, Option.map_some, Option.some.injEq] at hat
    exact hat
  obtain ⟨before, rest, -, -, hfind⟩ := find?_after (List.mem_of_getElem? h.raw) decisions
  rw [hid, hfind, Option.getD_some] at heq
  rw [hfind, heq]

/-- A raw job is decided on where it stands last, behind all its other positions. -/
theorem DecidedAt.reason {i : ℕ} {raw : RawJob} {decision : NormalizationEligibilityDecision}
    (h : call.DecidedAt decisions i raw decision) :
    ∃ before rest, call.resolver.rawJobs = before ++ raw :: rest ∧ i ≤ before.length ∧
      decision.decision
        = (call.resolver.decide (call.resolver.seenKeys before) raw).reason := by
  obtain ⟨before, rest, hjobs, hlast, hfind⟩ :=
    find?_after (List.mem_of_getElem? h.raw) decisions
  refine ⟨before, rest, hjobs, ?_, ?_⟩
  · by_contra hbehind
    have hat := h.raw
    obtain ⟨k, rfl⟩ : ∃ k, i = before.length + (k + 1) :=
      ⟨i - before.length - 1, by omega⟩
    rw [hjobs, List.getElem?_append_right (Nat.le_add_right _ _), Nat.add_sub_cancel_left,
      List.getElem?_cons_succ] at hat
    exact hlast (List.mem_of_getElem? hat)
  · rw [h.find?, Option.some.injEq] at hfind
    rw [hfind]
    rfl

theorem DecidedAt.missing {i : ℕ} {raw : RawJob} {decision : NormalizationEligibilityDecision}
    (h : call.DecidedAt decisions i raw decision) :
    decision.decision = .missingIdentity ↔
      strip raw.sourcePlatform = "" ∨ strip raw.externalId = "" := by
  obtain ⟨before, rest, -, -, hreason⟩ := h.reason
  rw [hreason, EligibilityResolver.decide_missing_iff, IdentityText.keyOf_eq_none_iff_blank]

/-- Behind a raw job with an identity, all others with that identity are duplicates. -/
theorem DecidedAt.duplicate {i j : ℕ} {raw raw' : RawJob}
    {decision decision' : NormalizationEligibilityDecision}
    (h : call.DecidedAt decisions i raw decision) (h' : call.DecidedAt decisions j raw' decision')
    (hlt : i < j) (hkey : call.resolver.text.keyOf raw ≠ none)
    (hidentity : call.resolver.text.identityOf raw = call.resolver.text.identityOf raw') :
    decision'.decision = .duplicateInScrapeScope := by
  obtain ⟨key, hsome⟩ := Option.ne_none_iff_exists'.mp hkey
  have hsome' : call.resolver.text.keyOf raw' = some key := by
    rw [← hsome]
    unfold IdentityText.keyOf
    rw [hidentity]
  obtain ⟨before, rest, hjobs, hle, hreason⟩ := h'.reason
  have hbefore : raw ∈ before := by
    have hat := h.raw
    rw [hjobs, List.getElem?_append_left (hlt.trans_le hle)] at hat
    exact List.mem_of_getElem? hat
  rw [hreason]
  exact EligibilityResolver.decide_of_mem_seen hsome'
    (EligibilityResolver.mem_seenKeys.mpr ⟨raw, hbefore, hsome⟩)

/-- A decision that is there is there after every call. -/
theorem find?_afterAll {rawJobId : String} (calls : List ResolverCall)
    (h : decisions.find? rawJobId ≠ none) : (afterAll calls decisions).find? rawJobId ≠ none := by
  induction calls generalizing decisions with
  | nil => exact h
  | cons call calls ih =>
    refine ih ?_
    unfold after EligibilityResolver.resolveForRawJobs
    rw [EligibilityResolver.find?_resolveAll_rows]
    intro hnone
    exact h (Option.or_eq_none_iff.mp hnone).2

/-- The second call writes what is there. -/
theorem after_after (call : ResolverCall) (decisions : EligibilityDecisions) :
    call.after (call.after decisions) = call.after decisions := by
  refine Table.ext_of_find? ?_ fun rawJobId => ?_
  · refine EligibilityResolver.keys_resolveAll (fun raw hraw => ?_) _
    obtain ⟨before, rest, -, -, hfind⟩ := find?_after hraw decisions
    rw [hfind]
    nofun
  · unfold after EligibilityResolver.resolveForRawJobs
    rw [EligibilityResolver.find?_resolveAll_rows, EligibilityResolver.find?_resolveAll_rows,
      EligibilityResolver.resolveAll_fst _ _ _ decisions, ← Option.or_assoc, Option.or_self]

/-- The decisions of a batch without repetitions are those of the loop. -/
theorem returned_eq (h : (call.resolver.rawJobs.map RawJob.id).Nodup)
    (decisions : EligibilityDecisions) :
    call.returned decisions = (call.resolver.resolveForRawJobs call.scrapeRunId decisions).1 := by
  have hrow : ∀ row ∈ (call.resolver.resolveForRawJobs call.scrapeRunId decisions).1,
      ((call.after decisions).find? row.rawJobId).getD row = row := by
    intro row hrow
    obtain ⟨i, hi⟩ := List.mem_iff_getElem?.mp hrow
    have hlt := (List.getElem?_eq_some_iff.mp hi).1
    unfold EligibilityResolver.resolveForRawJobs at hlt
    rw [EligibilityResolver.resolveAll_length] at hlt
    rw [EligibilityResolver.getElem?_resolveForRawJobs decisions (List.getElem?_eq_getElem hlt),
      Option.some.injEq] at hi
    have hsplit : call.resolver.rawJobs.take i ++
        call.resolver.rawJobs[i] :: call.resolver.rawJobs.drop (i + 1) = call.resolver.rawJobs := by
      rw [← List.drop_eq_getElem_cons, List.take_append_drop]
    have hfind : (call.after decisions).find? call.resolver.rawJobs[i].id = some row := by
      have hat := @EligibilityResolver.find?_resolveAll call.resolver call.scrapeRunId _ _ _
        (hsplit.symm ▸ h) [] decisions
      rw [hsplit, List.nil_append, hi] at hat
      exact hat
    have hid : row.rawJobId = call.resolver.rawJobs[i].id := by
      rw [← hi]
      rfl
    rw [hid, hfind, Option.getD_some]
  unfold returned
  rw [List.map_congr_left hrow, List.map_id']

/-- Every call of `resolve_for_raw_jobs` is complete and exclusive. -/
theorem completeAndExclusive (call : ResolverCall) (decisions : EligibilityDecisions) :
    call.CompleteAndExclusive decisions where
  aligned := by
    refine List.ext_getElem? fun i => ?_
    rw [List.getElem?_map, List.getElem?_map]
    cases hraw : call.resolver.rawJobs[i]? with
    | none =>
      rw [List.getElem?_eq_none_iff] at hraw
      rw [List.getElem?_eq_none (by rw [call.returned_length]; exact hraw)]
      rfl
    | some raw =>
      obtain ⟨hlt, -⟩ := List.getElem?_eq_some_iff.mp hraw
      rw [← call.returned_length decisions] at hlt
      have hat : call.DecidedAt decisions i raw (call.returned decisions)[i] :=
        ⟨hraw, List.getElem?_eq_getElem hlt⟩
      rw [hat.decision, Option.map_some, Option.map_some, Table.key_of_find? hat.find?]
  rows := by
    intro later raw hraw
    obtain ⟨before, rest, -, -, hfind⟩ := find?_after hraw decisions
    have hstays : (afterAll later (call.after decisions)).find? raw.id ≠ none :=
      find?_afterAll later (by rw [hfind]; nofun)
    obtain ⟨row, hrow⟩ := Option.ne_none_iff_exists'.mp hstays
    refine ⟨row, Table.find?_eq_some_iff.mp hrow, fun other ⟨hmem, hid⟩ => ?_⟩
    have hother := Table.find?_eq_some_iff.mpr ⟨hmem, hid⟩
    rw [hrow, Option.some.injEq] at hother
    exact hother.symm
  exclusive := by
    intro i j raw raw' decision decision' h h' hkey hidentity hfirst hsecond
    rcases Nat.lt_trichotomy i j with hlt | heq | hlt
    · exact absurd (h.duplicate h' hlt hkey hidentity) hsecond
    · exact heq
    · refine absurd (h'.duplicate h hlt ?_ hidentity.symm) hfirst
      unfold IdentityText.keyOf at hkey ⊢
      rwa [← hidentity]
  missing := fun h => h.missing
  repeated := by
    refine ⟨?_, call.after_after decisions⟩
    unfold returned
    rw [call.after_after decisions]
    unfold EligibilityResolver.resolveForRawJobs
    rw [EligibilityResolver.resolveAll_fst _ _ _ decisions]

end ResolverCall

end Bisakerja
