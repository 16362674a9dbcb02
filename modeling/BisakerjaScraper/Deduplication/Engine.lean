import Mathlib.Data.Finset.Card
import BisakerjaScraper.Schemes.Assign
import BisakerjaScraper.Schemes.Transaction
import BisakerjaScraper.Shared.Text
import BisakerjaScraper.Python.Json

/-! The deduplication of candidates.

    An identity is a platform with an external id, or with a fingerprint of the other texts where
    there is none. An engine remembers the last candidate under each key and compares the next one
    with it, so what it decides depends on the earlier candidates with the same key only. -/

namespace Bisakerja
open Schemes

/-- `DedupAction`. -/
inductive DedupAction where | insert | update | quarantine
  deriving DecidableEq

/-- `DedupReason`. -/
inductive DedupReason where
  | newIdentity
  | duplicateIdentity
  | missingIdentity
  | fallbackFingerprint
  | slugDrift
  | identityCollision
  deriving DecidableEq

/-- The value of a reason. -/
def DedupReason.value : DedupReason → String
  | .newIdentity => "new_identity"
  | .duplicateIdentity => "duplicate_identity"
  | .missingIdentity => "missing_identity"
  | .fallbackFingerprint => "fallback_fingerprint"
  | .slugDrift => "slug_drift"
  | .identityCollision => "identity_collision"

/-- `SourceIdentity`. -/
structure SourceIdentity where
  sourcePlatform : String
  externalId : Option String
  sourceSlug : Option String
  fingerprint : Option String
  key : Option String
  usesFallback : Bool := false

/-- `DedupCandidate`. -/
structure DedupCandidate where
  identity : SourceIdentity
  title : Option String := none
  companyName : Option String := none
  sourceUrl : Option String := none

/-- `DedupDecision`. -/
structure DedupDecision where
  action : DedupAction
  reason : DedupReason
  identity : SourceIdentity
  existing : Option DedupCandidate := none
  dedupReason : Option String := none

/-! ### Identities -/

/-- `str.lower`, and the hex digest of a payload dumped with its keys sorted. -/
structure FingerprintText where
  lower : String → String
  sha256 : Dict → String

/-- `_optional_text`. -/
def dedupOptionalText : Json → Option String
  | .str s => cleanText s
  | _ => none

namespace FingerprintText

variable (text : FingerprintText)

/-- `_required_text`. -/
def requiredText (value : Json) : String :=
  match dedupOptionalText value with
  | some s => text.lower s
  | none => ""

/-- `make_fallback_fingerprint`. -/
def makeFallbackFingerprint (sourcePlatform sourceSlug title companyName sourceUrl : Json) :
    Option String :=
  let platform := text.requiredText sourcePlatform
  let slug := dedupOptionalText sourceSlug
  let title := dedupOptionalText title
  let companyName := dedupOptionalText companyName
  let url := dedupOptionalText sourceUrl
  if platform = "" then none
  else if [slug, title, companyName, url].any Option.isSome then
    some (text.sha256
      [("source_platform", .str platform), ("source_slug", .ofOption slug),
        ("title", .ofOption title), ("company_name", .ofOption companyName),
        ("source_url", .ofOption url)])
  else none

/-- `resolve_source_identity`. -/
def resolveSourceIdentity (sourcePlatform externalId sourceSlug title companyName sourceUrl : Json) :
    SourceIdentity :=
  let platform := text.requiredText sourcePlatform
  let external := dedupOptionalText externalId
  let slug := dedupOptionalText sourceSlug
  if platform = "" then
    { sourcePlatform := "", externalId := external, sourceSlug := slug, fingerprint := none
      key := none }
  else
    match external with
    | some external =>
      { sourcePlatform := platform, externalId := some external, sourceSlug := slug
        fingerprint := none, key := some (platform ++ ":" ++ external) }
    | none =>
      let fingerprint := text.makeFallbackFingerprint (.str platform) (.ofOption slug) title
        companyName sourceUrl
      { sourcePlatform := platform, externalId := none, sourceSlug := slug, fingerprint
        key := fingerprint.map fun fingerprint => platform ++ ":fingerprint:" ++ fingerprint
        usesFallback := fingerprint.isSome }

end FingerprintText

/-! ### The engine -/

/-- A text that is there and not empty, given to `clean_text`. -/
def cleanOption (value : Option String) : Option String := value.bind cleanText

/-- `_duplicate_reason`. -/
def duplicateReason (existing incoming : DedupCandidate) : DedupReason :=
  let slugChanged :=
    existing.identity.sourceSlug ∉ [none, some ""] ∧ incoming.identity.sourceSlug ∉ [none, some ""] ∧
      existing.identity.sourceSlug ≠ incoming.identity.sourceSlug
  let identityTextChanged :=
    cleanOption existing.title ≠ cleanOption incoming.title ∧
      cleanOption existing.companyName ≠ cleanOption incoming.companyName
  if slugChanged ∧ identityTextChanged then .identityCollision
  else if slugChanged then .slugDrift
  else .duplicateIdentity

/-- A `DedupEngine`: `_seen`, the last candidate under each key. -/
abbrev DedupEngine := Assigned String DedupCandidate

namespace DedupEngine

/-- `evaluate`. -/
def evaluate (engine : DedupEngine) (candidate : DedupCandidate) : DedupDecision × DedupEngine :=
  match candidate.identity.key with
  | none =>
    ({ action := .quarantine
       reason := .missingIdentity
       identity := candidate.identity
       dedupReason := some DedupReason.missingIdentity.value }, engine)
  | some key =>
    match engine.get key with
    | none =>
      let reason : DedupReason :=
        if candidate.identity.usesFallback then .fallbackFingerprint else .newIdentity
      ({ action := .insert
         reason
         identity := candidate.identity
         dedupReason := some reason.value }, engine.assign key candidate)
    | some existing =>
      let reason := duplicateReason existing candidate
      ({ action := .update
         reason
         identity := candidate.identity
         existing := some existing
         dedupReason := some reason.value }, engine.assign key candidate)

/-- The engine after some candidates, and what it decided on them. -/
def evaluateAll (candidates : List DedupCandidate) : List DedupDecision × DedupEngine :=
  candidates.foldl (fun run candidate =>
    let evaluated := evaluate run.2 candidate
    (run.1 ++ [evaluated.1], evaluated.2)) ([], Table.empty _)

/-- The decisions on a sequence of candidates. -/
def decisions (candidates : List DedupCandidate) : List DedupDecision := (evaluateAll candidates).1

end DedupEngine

/-! ### What an engine decides -/

/-- The key of a candidate. -/
def DedupCandidate.key (candidate : DedupCandidate) : Option String := candidate.identity.key

/-- The most recent of some candidates under a key. -/
def mostRecent (candidates : List DedupCandidate) (key : Option String) : Option DedupCandidate :=
  lastWrite DedupCandidate.key candidates key

namespace DedupEngine

variable {engine : DedupEngine} {earlier : List DedupCandidate} {candidate : DedupCandidate}

/-- The engine remembers the most recent candidate under each key. -/
def Remembers (engine : DedupEngine) (earlier : List DedupCandidate) : Prop :=
  ∀ key, engine.get key = mostRecent earlier (some key)

theorem remembers_empty : Remembers (Table.empty _) [] := fun _ => rfl

/-- A candidate that is assigned under its key is the most recent one there. -/
theorem Remembers.assign {key : String} (h : engine.Remembers earlier)
    (hkey : candidate.key = some key) :
    Remembers (Assigned.assign engine key candidate) (earlier ++ [candidate]) := by
  intro key'
  unfold mostRecent
  rw [lastWrite_append, hkey]
  by_cases heq : key = key'
  · subst heq
    rw [if_pos rfl, Assigned.get_assign_self]
  · rw [if_neg (by simpa using heq), Assigned.get_assign_of_ne engine heq, h key']
    rfl

/-- A candidate without a key changes nothing that is remembered. -/
theorem Remembers.skip (h : engine.Remembers earlier) (hkey : candidate.key = none) :
    engine.Remembers (earlier ++ [candidate]) := by
  intro key'
  unfold mostRecent
  rw [lastWrite_append, hkey, if_neg nofun, h key']
  rfl

/-- What an engine that remembers some candidates decides on the next one. -/
structure DecidesAfter (earlier : List DedupCandidate) (candidate : DedupCandidate)
    (decision : DedupDecision) : Prop where
  quarantine : decision.action = .quarantine ↔ candidate.key = none
  insert : decision.action = .insert ↔
    candidate.key ≠ none ∧ mostRecent earlier candidate.key = none
  existing : decision.action = .update → decision.existing = mostRecent earlier candidate.key

/-- One candidate: the decision follows from what is remembered, and the candidate is remembered. -/
theorem evaluate_spec (h : engine.Remembers earlier) (candidate : DedupCandidate) :
    DecidesAfter earlier candidate (evaluate engine candidate).1 ∧
      (evaluate engine candidate).2.Remembers (earlier ++ [candidate]) := by
  unfold evaluate
  cases hkey : candidate.identity.key with
  | none =>
    have hnone : candidate.key = none := hkey
    exact ⟨⟨by simp [hnone], by simp [hnone], nofun⟩, h.skip hnone⟩
  | some key =>
    have hsome : candidate.key = some key := hkey
    dsimp only
    cases hget : engine.get key with
    | none =>
      have hfirst : mostRecent earlier candidate.key = none := by rw [hsome, ← h key, hget]
      exact ⟨⟨by simp [hsome], by simp [hsome, ← hfirst], nofun⟩, h.assign hsome⟩
    | some existing =>
      have hlast : mostRecent earlier candidate.key = some existing := by rw [hsome, ← h key, hget]
      exact ⟨⟨by simp [hsome], by simp [hlast], fun _ => hlast.symm⟩, h.assign hsome⟩

/-- Engines that remember the same under the key of a candidate decide alike. -/
theorem evaluate_congr {engine' : DedupEngine}
    (h : ∀ key, candidate.key = some key → engine.get key = engine'.get key) :
    (evaluate engine candidate).1 = (evaluate engine' candidate).1 := by
  unfold evaluate
  cases hkey : candidate.identity.key with
  | none => rfl
  | some key =>
    dsimp only
    rw [h key hkey]
    cases engine'.get key <;> rfl

/-! ### Runs -/

theorem evaluateAll_append (candidates : List DedupCandidate) (candidate : DedupCandidate) :
    evaluateAll (candidates ++ [candidate]) =
      (decisions candidates ++ [(evaluate (evaluateAll candidates).2 candidate).1],
        (evaluate (evaluateAll candidates).2 candidate).2) := by
  unfold decisions evaluateAll
  rw [List.foldl_append]
  rfl

theorem decisions_append (candidates : List DedupCandidate) (candidate : DedupCandidate) :
    decisions (candidates ++ [candidate]) =
      decisions candidates ++ [(evaluate (evaluateAll candidates).2 candidate).1] := by
  rw [decisions, evaluateAll_append]

@[simp] theorem length_decisions (candidates : List DedupCandidate) :
    (decisions candidates).length = candidates.length := by
  induction candidates using List.reverseRecOn with
  | nil => rfl
  | append_singleton candidates candidate ih => simp [decisions_append, ih]

/-- After a run the engine remembers the candidates of the run. -/
theorem remembers_evaluateAll (candidates : List DedupCandidate) :
    (evaluateAll candidates).2.Remembers candidates := by
  induction candidates using List.reverseRecOn with
  | nil => exact remembers_empty
  | append_singleton candidates candidate ih =>
    rw [evaluateAll_append]
    exact (evaluate_spec ih candidate).2

/-- Each decision follows from the candidates before it. -/
theorem decidesAfter_decisions {candidates : List DedupCandidate} {i : ℕ}
    {candidate : DedupCandidate} {decision : DedupDecision}
    (hcandidate : candidates[i]? = some candidate)
    (hdecision : (decisions candidates)[i]? = some decision) :
    DecidesAfter (candidates.take i) candidate decision := by
  induction candidates using List.reverseRecOn generalizing candidate decision with
  | nil => cases hcandidate
  | append_singleton candidates last ih =>
    rw [decisions_append] at hdecision
    rcases lt_or_ge i candidates.length with hlt | hge
    · rw [List.getElem?_append_left hlt] at hcandidate
      rw [List.getElem?_append_left (by simpa using hlt)] at hdecision
      rw [List.take_append_of_le_length hlt.le]
      exact ih hcandidate hdecision
    · have hi : i = candidates.length := by
        have hbound := (List.getElem?_eq_some_iff.mp hcandidate).1
        rw [List.length_append, List.length_singleton] at hbound
        omega
      subst hi
      rw [List.getElem?_concat_length] at hcandidate
      rw [← length_decisions, List.getElem?_concat_length] at hdecision
      cases hcandidate
      cases hdecision
      rw [List.take_left' rfl]
      exact (evaluate_spec (remembers_evaluateAll candidates) _).1

/-- The keys of some candidates. -/
def keys (candidates : List DedupCandidate) : Finset String :=
  (candidates.filterMap DedupCandidate.key).toFinset

/-- A key is new when no candidate has it. -/
theorem mostRecent_eq_none_iff {candidates : List DedupCandidate} {key : String} :
    mostRecent candidates (some key) = none ↔ key ∉ keys candidates := by
  simp [mostRecent, keys, lastWrite_eq_none_iff]

/-- There is one insert for each key. -/
theorem countP_insert (candidates : List DedupCandidate) :
    (decisions candidates).countP (fun decision => decision.action = .insert) =
      (keys candidates).card := by
  induction candidates using List.reverseRecOn with
  | nil => rfl
  | append_singleton candidates candidate ih =>
    have hspec := (evaluate_spec (remembers_evaluateAll candidates) candidate).1.insert
    rw [decisions_append, List.countP_append, ih, List.countP_singleton]
    cases hkey : candidate.key with
    | none =>
      rw [hkey] at hspec
      simp [keys, hkey, hspec]
    | some key =>
      have hkeys : keys (candidates ++ [candidate]) = insert key (keys candidates) := by
        ext key'
        simp [keys, hkey]
      rw [hkey] at hspec
      rw [hkeys, Finset.card_insert_eq_ite]
      simp only [hspec, ne_eq, reduceCtorEq, not_false_eq_true, true_and, mostRecent_eq_none_iff,
        decide_eq_true_eq]
      split <;> simp_all

/-- Leaving out the candidates with other keys leaves out their decisions and changes no other. -/
theorem decisions_filter (keep : Option String → Bool) (candidates : List DedupCandidate) :
    decisions (candidates.filter fun candidate => keep candidate.key) =
      ((candidates.zip (decisions candidates)).filter fun entry => keep entry.1.key).map
        Prod.snd := by
  induction candidates using List.reverseRecOn with
  | nil => rfl
  | append_singleton candidates candidate ih =>
    rw [decisions_append, List.zip_append (length_decisions candidates).symm, List.filter_append,
      List.filter_append, List.map_append, ← ih, List.zip_cons_cons, List.zip_nil_right]
    by_cases hkeep : keep candidate.key = true
    · rw [List.filter_cons_of_pos (p := fun c : DedupCandidate => keep c.key) hkeep,
        List.filter_cons_of_pos
          (p := fun entry : DedupCandidate × DedupDecision => keep entry.1.key) hkeep,
        List.filter_nil, List.filter_nil, decisions_append]
      refine congrArg (fun d => _ ++ [d]) (evaluate_congr fun key hkey => ?_)
      rw [remembers_evaluateAll _ key, remembers_evaluateAll _ key]
      exact lastWrite_filter (hkey ▸ hkeep) candidates
    · rw [List.filter_cons_of_neg (p := fun c : DedupCandidate => keep c.key) hkeep,
        List.filter_cons_of_neg
          (p := fun entry : DedupCandidate × DedupDecision => keep entry.1.key) hkeep,
        List.filter_nil, List.filter_nil, List.append_nil]
      simp

end DedupEngine

/-- What a deduplication promises of a sequence of candidates and the decisions on them. -/
structure DedupLaw (candidates : List DedupCandidate) (decisions : List DedupDecision) : Prop where
  /-- Every candidate is decided on. -/
  length : decisions.length = candidates.length
  quarantine : ∀ (i : ℕ) (candidate : DedupCandidate) (decision : DedupDecision),
    candidates[i]? = some candidate → decisions[i]? = some decision →
      (decision.action = .quarantine ↔ candidate.key = none)
  insert : ∀ (i : ℕ) (candidate : DedupCandidate) (decision : DedupDecision),
    candidates[i]? = some candidate → decisions[i]? = some decision →
      (decision.action = .insert ↔ ∃ key, candidate.key = some key ∧
        ∀ earlier ∈ candidates.take i, earlier.key ≠ some key)
  update : ∀ (i : ℕ) (candidate : DedupCandidate) (decision : DedupDecision),
    candidates[i]? = some candidate → decisions[i]? = some decision →
      (decision.action = .update ↔ ∃ key, candidate.key = some key ∧
        ∃ earlier ∈ candidates.take i, earlier.key = some key)
  /-- The existing candidate of an update is the most recent earlier one with the key. -/
  existing : ∀ (i : ℕ) (candidate : DedupCandidate) (decision : DedupDecision),
    candidates[i]? = some candidate → decisions[i]? = some decision → decision.action = .update →
      ∃ existing, decision.existing = some existing ∧
        mostRecent (candidates.take i) candidate.key = some existing
  inserts : decisions.countP (fun decision => decision.action = .insert) =
    (DedupEngine.keys candidates).card
  /-- Candidates with other keys do not matter. -/
  independent : ∀ keep : Option String → Bool,
    DedupEngine.decisions (candidates.filter fun candidate => keep candidate.key) =
      ((candidates.zip decisions).filter fun entry => keep entry.1.key).map Prod.snd

/-- A new engine quarantines what has no key, inserts what comes for the first time and updates the
    rest, whatever other keys come in between. -/
theorem DedupEngine.dedupLaw (candidates : List DedupCandidate) :
    DedupLaw candidates (DedupEngine.decisions candidates) := by
  have hupdate : ∀ i candidate decision, candidates[i]? = some candidate →
      (decisions candidates)[i]? = some decision → (decision.action = .update ↔
        ∃ key, candidate.key = some key ∧ mostRecent (candidates.take i) (some key) ≠ none) := by
    intro i candidate decision hcandidate hdecision
    have hspec := decidesAfter_decisions hcandidate hdecision
    have hquarantine := hspec.quarantine
    have hinsert := hspec.insert
    cases hkey : candidate.key with
    | none => simp [hquarantine.mpr hkey]
    | some key =>
      rw [hkey] at hquarantine hinsert
      cases haction : decision.action with
      | insert => simp_all
      | update => simp_all
      | quarantine => simp_all
  refine
    { length := length_decisions candidates
      quarantine := fun i candidate decision hcandidate hdecision =>
        (decidesAfter_decisions hcandidate hdecision).quarantine
      insert := fun i candidate decision hcandidate hdecision => ?_
      update := fun i candidate decision hcandidate hdecision => ?_
      existing := fun i candidate decision hcandidate hdecision haction => ?_
      inserts := countP_insert candidates
      independent := fun keep => decisions_filter keep candidates }
  · rw [(decidesAfter_decisions hcandidate hdecision).insert]
    cases hkey : candidate.key with
    | none => simp
    | some key => simp [mostRecent, lastWrite_eq_none_iff]
  · rw [hupdate i candidate decision hcandidate hdecision]
    refine exists_congr fun key => and_congr_right fun _ => ?_
    simp [mostRecent, lastWrite_eq_none_iff]
  · obtain ⟨key, hkey, hsome⟩ := (hupdate i candidate decision hcandidate hdecision).mp haction
    obtain ⟨existing, hexisting⟩ := Option.ne_none_iff_exists'.mp hsome
    rw [← hkey] at hexisting
    exact ⟨existing, ((decidesAfter_decisions hcandidate hdecision).existing haction).trans
      hexisting, hexisting⟩

end Bisakerja
