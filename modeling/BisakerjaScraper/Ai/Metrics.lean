import Mathlib.Logic.Function.Basic
import BisakerjaScraper.Ai.Client
import BisakerjaScraper.Pipeline.Identity

/-! The books of the AI clients.

    A call concludes when the provider's error is one of the caught classes, or the message parses
    and the validation passes or fails in the caught way. A call that concludes adds one request
    and one outcome to the books of its model and its request type; any other call adds the request
    alone. So the books balance through a sequence of calls exactly when all of them conclude. -/

namespace Bisakerja
open Schemes

/-! ### One call -/

/-- One request and one outcome are added under a key, and nothing under any other. -/
structure AddsOne (key : String) (before after : String → Metrics) : Prop where
  requests : (after key).requests = (before key).requests + 1
  outcomes : (after key).outcomes = (before key).outcomes + 1
  others : ∀ other, other ≠ key → after other = before other

namespace Metrics

variable {m : Metrics}

theorem balanced_empty : Balanced {} := ⟨rfl, Nat.le_refl 0⟩

/-- A request with its outcome keeps the balance. -/
theorem Balanced.settle (h : m.Balanced) {outcome : MetricsOutcome} (hne : outcome ≠ .request) :
    ((m.record .request).record outcome).Balanced := by
  obtain ⟨hrequests, hlimited⟩ := h
  cases outcome with
  | request => exact absurd rfl hne
  | success => constructor <;> simp only [record] <;> omega
  | rateLimited => constructor <;> simp only [record] <;> omega
  | failed => constructor <;> simp only [record] <;> omega

theorem outcomes_record {outcome : MetricsOutcome} (hne : outcome ≠ .request) :
    (m.record outcome).outcomes = m.outcomes + 1 := by
  cases outcome with
  | request => exact absurd rfl hne
  | success => exact Nat.add_right_comm _ _ _
  | rateLimited => rfl
  | failed => rfl

theorem requests_record {outcome : MetricsOutcome} (hne : outcome ≠ .request) :
    (m.record outcome).requests = m.requests := by
  cases outcome with
  | request => exact absurd rfl hne
  | _ => rfl

end Metrics

namespace OpenAIClient

variable {client : OpenAIClient} {model requestType : String}

theorem ofModel_recordMetrics (outcome : MetricsOutcome) (key : String) :
    (client.recordMetrics model requestType outcome).ofModel key
      = if key = model then (client.ofModel model).record outcome else client.ofModel key := by
  unfold recordMetrics ofModel
  split
  · next h => rw [h, Assigned.get_assign_self, Option.getD_some]
  · next h => rw [Assigned.get_assign_of_ne _ (Ne.symm h)]

theorem ofRequestType_recordMetrics (outcome : MetricsOutcome) (key : String) :
    (client.recordMetrics model requestType outcome).ofRequestType key
      = if key = requestType then (client.ofRequestType requestType).record outcome
        else client.ofRequestType key := by
  unfold recordMetrics ofRequestType
  split
  · next h => rw [h, Assigned.get_assign_self, Option.getD_some]
  · next h => rw [Assigned.get_assign_of_ne _ (Ne.symm h)]

/-- One request and one outcome are added for a model and for a request type. -/
structure AddsOne (model requestType : String) (before after : OpenAIClient) : Prop where
  byModel : Bisakerja.AddsOne model before.ofModel after.ofModel
  byRequestType : Bisakerja.AddsOne requestType before.ofRequestType after.ofRequestType

/-- The client after the request was counted. -/
def started (client : OpenAIClient) (model requestType : String) : OpenAIClient :=
  { client with lastModel := model }.recordMetrics model requestType .request

theorem ofModel_started (key : String) : (client.started model requestType).ofModel key
    = if key = model then (client.ofModel model).record .request else client.ofModel key := by
  have h : (recordMetrics { client with lastModel := model } model requestType .request).ofModel key
      = _ := ofModel_recordMetrics .request key
  exact h

theorem ofRequestType_started (key : String) :
    (client.started model requestType).ofRequestType key
      = if key = requestType then (client.ofRequestType requestType).record .request
        else client.ofRequestType key := by
  have h : (recordMetrics { client with lastModel := model } model requestType
      .request).ofRequestType key = _ := ofRequestType_recordMetrics .request key
  exact h

/-- The request alone is no outcome. -/
theorem not_addsOne_started :
    ¬ AddsOne model requestType client (client.started model requestType) := by
  intro h
  have houtcomes := h.byModel.outcomes
  rw [ofModel_started, if_pos rfl] at houtcomes
  exact absurd houtcomes (Nat.ne_of_lt (Nat.lt_succ_self _))

theorem addsOne_settled {outcome : MetricsOutcome} (hne : outcome ≠ .request) :
    AddsOne model requestType client
      ((client.started model requestType).recordMetrics model requestType outcome) := by
  constructor
  · constructor
    · rw [ofModel_recordMetrics, if_pos rfl, Metrics.requests_record hne, ofModel_started,
        if_pos rfl]
      rfl
    · rw [ofModel_recordMetrics, if_pos rfl, Metrics.outcomes_record hne, ofModel_started,
        if_pos rfl]
      rfl
    · intro other hother
      rw [ofModel_recordMetrics, if_neg hother, ofModel_started, if_neg hother]
  · constructor
    · rw [ofRequestType_recordMetrics, if_pos rfl, Metrics.requests_record hne,
        ofRequestType_started, if_pos rfl]
      rfl
    · rw [ofRequestType_recordMetrics, if_pos rfl, Metrics.outcomes_record hne,
        ofRequestType_started, if_pos rfl]
      rfl
    · intro other hother
      rw [ofRequestType_recordMetrics, if_neg hother, ofRequestType_started, if_neg hother]

theorem Balanced.settled (h : client.Balanced) {outcome : MetricsOutcome}
    (hne : outcome ≠ .request) :
    ((client.started model requestType).recordMetrics model requestType outcome).Balanced := by
  constructor
  · intro key
    rw [ofModel_recordMetrics, ofModel_started, ofModel_started, if_pos rfl]
    split
    · exact (h.byModel model).settle hne
    · exact h.byModel key
  · intro key
    rw [ofRequestType_recordMetrics, ofRequestType_started, ofRequestType_started, if_pos rfl]
    split
    · exact (h.byRequestType requestType).settle hne
    · exact h.byRequestType key

/-- A client that was just built. -/
def Fresh (client : OpenAIClient) : Prop :=
  client.metricsByModel = Table.empty _ ∧ client.metricsByRequestType = Table.empty _

theorem Fresh.balanced (h : client.Fresh) : client.Balanced := by
  constructor
  · intro model
    unfold ofModel
    rw [h.1]
    exact Metrics.balanced_empty
  · intro requestType
    unfold ofRequestType
    rw [h.2]
    exact Metrics.balanced_empty

end OpenAIClient

namespace AiRequest

variable {α β : Type} (request : AiRequest α β)

/-- The replies a call concludes on. -/
inductive Concludes : ProviderReply α → Prop where
  | authenticationError : Concludes .authenticationError
  | timeoutError : Concludes .timeoutError
  | rateLimitError : Concludes .rateLimitError
  | connectionError : Concludes .connectionError
  | statusError (statusCode : ℤ) : Concludes (.statusError statusCode)
  | parsed (refusal : Option String) (output : α) (hrefusal : orText refusal "" = "")
      (hcaught : ∀ exc, request.validate output = .error exc → request.catches exc = true) :
      Concludes (.response (.message refusal (some output)))

variable {request} {reply : ProviderReply α}

/-- What a call leaves behind: the request and an outcome if it concludes, else the request. -/
theorem run_cases (reply : ProviderReply α) (model : String) (client : OpenAIClient) :
    (request.Concludes reply ∧ ∃ outcome, outcome ≠ MetricsOutcome.request ∧
      (request.run reply model client).2 = (client.started model request.requestType).recordMetrics
        model request.requestType outcome) ∨
    (¬ request.Concludes reply ∧
      (request.run reply model client).2 = client.started model request.requestType) := by
  cases reply with
  | authenticationError => exact .inl ⟨.authenticationError, .failed, nofun, rfl⟩
  | timeoutError => exact .inl ⟨.timeoutError, .failed, nofun, rfl⟩
  | rateLimitError => exact .inl ⟨.rateLimitError, .rateLimited, nofun, rfl⟩
  | connectionError => exact .inl ⟨.connectionError, .failed, nofun, rfl⟩
  | statusError statusCode =>
    refine .inl ⟨.statusError statusCode, .failed, nofun, ?_⟩
    unfold run
    dsimp only
    split <;> rfl
  | raised exc => exact .inr ⟨nofun, rfl⟩
  | response lookup =>
    cases lookup with
    | missing => exact .inr ⟨nofun, rfl⟩
    | raised exc => exact .inr ⟨nofun, rfl⟩
    | message refusal parsed =>
      by_cases hrefusal : orText refusal "" = ""
      · cases parsed with
        | none =>
          refine .inr ⟨nofun, ?_⟩
          simp only [run, parse, hrefusal, ne_eq, not_true_eq_false, if_false]
          rfl
        | some output =>
          have hparse : request.parse (.message refusal (some output)) = .ok output := by
            simp only [parse, hrefusal, ne_eq, not_true_eq_false, if_false]
          unfold run
          simp only [hparse]
          cases hvalidate : request.validate output with
          | ok validated =>
            refine .inl ⟨.parsed refusal output hrefusal ?_, .success, nofun, rfl⟩
            rw [hvalidate]
            nofun
          | error exc =>
            by_cases hcaught : request.catches exc = true
            · refine .inl ⟨.parsed refusal output hrefusal ?_, .failed, nofun, ?_⟩
              · intro exc' hexc'
                rw [hvalidate] at hexc'
                cases hexc'
                exact hcaught
              · simp only [hcaught, if_true]
                rfl
            · refine .inr ⟨?_, ?_⟩
              · intro h
                cases h with
                | parsed _ _ _ hall => exact hcaught (hall exc hvalidate)
              · simp only [hcaught, Bool.false_eq_true, if_false]
                rfl
      · refine .inr ⟨?_, ?_⟩
        · intro h
          cases h with
          | parsed _ _ hnone _ => exact hrefusal hnone
        · simp only [run, parse, ne_eq, hrefusal, not_false_eq_true, if_true]
          rfl

/-- A call adds one request and one outcome exactly when it concludes. -/
theorem addsOne_run_iff (request : AiRequest α β) (reply : ProviderReply α) (model : String)
    (client : OpenAIClient) :
    OpenAIClient.AddsOne model request.requestType client (request.run reply model client).2 ↔
      request.Concludes reply := by
  rcases request.run_cases reply model client with ⟨hconcludes, outcome, hne, hrun⟩ | ⟨hnot, hrun⟩
  · rw [hrun]
    exact iff_of_true (OpenAIClient.addsOne_settled hne) hconcludes
  · rw [hrun]
    exact iff_of_false OpenAIClient.not_addsOne_started hnot

/-- A call that concludes keeps the balance. -/
theorem balanced_run (h : request.Concludes reply) (model : String) {client : OpenAIClient}
    (hclient : client.Balanced) : (request.run reply model client).2.Balanced := by
  rcases request.run_cases reply model client with ⟨-, outcome, hne, hrun⟩ | ⟨hnot, -⟩
  · rw [hrun]
    exact hclient.settled hne
  · exact absurd h hnot

end AiRequest

/-! ### Sequences of calls -/

/-- The two clients and the rotators they hold, which may be the same one. -/
structure AiClients where
  rotators : ℕ → OpenAIModelRotator
  enrichmentRotator : ℕ
  normalizationRotator : ℕ
  enrichment : OpenAIClient
  normalization : OpenAIClient

/-- A call with what the provider does about it. -/
inductive AiCall (text : NormalizationText) where
  | enrichJob (job : EnrichmentJobInput) (reply : ProviderReply (EnrichmentOutput text.casefold))
  | normalizeJob (promptInput : AINormalizationPromptInput)
      (reply : ProviderReply (Option CanonicalJobSchema))
  | normalizeJobs (promptInput : AINormalizationBatchPromptInput)
      (reply : ProviderReply (Option AINormalizationBatchOutput))

namespace AiClients

variable {text : NormalizationText}

/-- `next_model` of one of the rotators. -/
def nextModel (s : AiClients) (rotator : ℕ) : String × (ℕ → OpenAIModelRotator) :=
  ((s.rotators rotator).nextModel.1,
    Function.update s.rotators rotator (s.rotators rotator).nextModel.2)

/-- The enrichment client makes a call. -/
def enrich {α β : Type} (s : AiClients) (request : AiRequest α β) (reply : ProviderReply α) :
    AiClients :=
  let selected := s.nextModel s.enrichmentRotator
  { s with
    rotators := selected.2
    enrichment := (request.run reply selected.1 s.enrichment).2 }

/-- The normalization client makes a call. -/
def normalize {α β : Type} (s : AiClients) (request : AiRequest α β) (reply : ProviderReply α) :
    AiClients :=
  let selected := s.nextModel s.normalizationRotator
  { s with
    rotators := selected.2
    normalization := (request.run reply selected.1 s.normalization).2 }

/-- One call. -/
def call (s : AiClients) : AiCall text → AiClients
  | .enrichJob job reply => s.enrich (OpenAIEnrichmentClient.enrichJob text.casefold job) reply
  | .normalizeJob promptInput reply =>
    s.normalize (OpenAINormalizationClient.normalizeJob text promptInput) reply
  | .normalizeJobs promptInput reply =>
    s.normalize (OpenAINormalizationClient.normalizeJobs text promptInput) reply

/-- The calls of a process, in order. -/
def calls (s : AiClients) (history : List (AiCall text)) : AiClients := history.foldl call s

/-- The books of both clients balance. -/
structure Balanced (s : AiClients) : Prop where
  enrichment : s.enrichment.Balanced
  normalization : s.normalization.Balanced

/-- Both clients were just built. -/
structure Fresh (s : AiClients) : Prop where
  enrichment : s.enrichment.Fresh
  normalization : s.normalization.Fresh

theorem Fresh.balanced {s : AiClients} (h : s.Fresh) : s.Balanced :=
  ⟨h.enrichment.balanced, h.normalization.balanced⟩

end AiClients

namespace AiCall

variable {text : NormalizationText}

/-- The provider's reply lets the call conclude. -/
def Concludes : AiCall text → Prop
  | .enrichJob job reply =>
    (OpenAIEnrichmentClient.enrichJob text.casefold job).Concludes reply
  | .normalizeJob promptInput reply =>
    (OpenAINormalizationClient.normalizeJob text promptInput).Concludes reply
  | .normalizeJobs promptInput reply =>
    (OpenAINormalizationClient.normalizeJobs text promptInput).Concludes reply

/-- One request and one outcome are added for the model and the request type of the call, and
    nothing at the other client. -/
def Counts (s s' : AiClients) : AiCall text → Prop
  | .enrichJob _ _ =>
    OpenAIClient.AddsOne (s.nextModel s.enrichmentRotator).1 "enrichment" s.enrichment
        s'.enrichment ∧
      s'.normalization = s.normalization
  | .normalizeJob _ _ | .normalizeJobs _ _ =>
    OpenAIClient.AddsOne (s.nextModel s.normalizationRotator).1 "normalization" s.normalization
        s'.normalization ∧
      s'.enrichment = s.enrichment

theorem counts_iff (s : AiClients) (call : AiCall text) :
    call.Counts s (s.call call) ↔ call.Concludes := by
  cases call with
  | enrichJob job reply =>
    exact (and_iff_left rfl).trans (AiRequest.addsOne_run_iff
      (OpenAIEnrichmentClient.enrichJob text.casefold job) reply _ _)
  | normalizeJob promptInput reply =>
    exact (and_iff_left rfl).trans (AiRequest.addsOne_run_iff
      (OpenAINormalizationClient.normalizeJob text promptInput) reply _ _)
  | normalizeJobs promptInput reply =>
    exact (and_iff_left rfl).trans (AiRequest.addsOne_run_iff
      (OpenAINormalizationClient.normalizeJobs text promptInput) reply _ _)

theorem Concludes.balanced {call : AiCall text} (h : call.Concludes) {s : AiClients}
    (hs : s.Balanced) : (s.call call).Balanced := by
  cases call with
  | enrichJob job reply => exact ⟨AiRequest.balanced_run h _ hs.enrichment, hs.normalization⟩
  | normalizeJob promptInput reply =>
    exact ⟨hs.enrichment, AiRequest.balanced_run h _ hs.normalization⟩
  | normalizeJobs promptInput reply =>
    exact ⟨hs.enrichment, AiRequest.balanced_run h _ hs.normalization⟩

end AiCall

namespace AiClients

variable {text : NormalizationText}

/-- Every call of a history leaves balanced books behind and adds one request with one outcome. -/
def KeepsBooks (s : AiClients) (history : List (AiCall text)) : Prop :=
  ∀ earlier call later, history = earlier ++ call :: later →
    (s.calls (earlier ++ [call])).Balanced ∧
      call.Counts (s.calls earlier) (s.calls (earlier ++ [call]))

theorem calls_concat (s : AiClients) (history : List (AiCall text)) (call : AiCall text) :
    s.calls (history ++ [call]) = (s.calls history).call call := by
  unfold calls
  rw [List.foldl_concat]

/-- Calls that all conclude keep the books balanced. -/
theorem balanced_calls {s : AiClients} (hs : s.Balanced) {history : List (AiCall text)}
    (h : ∀ call ∈ history, call.Concludes) : (s.calls history).Balanced := by
  induction history generalizing s with
  | nil => exact hs
  | cons call history ih =>
    exact ih ((h call List.mem_cons_self).balanced hs) fun c hc => h c (List.mem_cons_of_mem _ hc)

/-- BUG: a response without a message, a refusal, a message that did not parse and an exception of
    another class leave the request without an outcome. From fresh clients, every call balances the
    books and adds one request with one outcome exactly when every call concludes. -/
theorem keepsBooks_iff {s : AiClients} (hs : s.Fresh) (history : List (AiCall text)) :
    s.KeepsBooks history ↔ ∀ call ∈ history, call.Concludes := by
  constructor
  · intro h call hcall
    obtain ⟨earlier, later, hsplit⟩ := List.append_of_mem hcall
    have hcounts := (h earlier call later hsplit).2
    rw [calls_concat] at hcounts
    exact (AiCall.counts_iff _ call).mp hcounts
  · rintro h earlier call later rfl
    have hcall : call.Concludes := h call (by simp)
    constructor
    · refine balanced_calls hs.balanced fun c hc => h c ?_
      rcases List.mem_append.mp hc with hc | hc
      · exact List.mem_append_left _ hc
      · rw [List.mem_singleton.mp hc]
        exact List.mem_append_right _ List.mem_cons_self
    · rw [calls_concat]
      exact (AiCall.counts_iff _ call).mpr hcall

end AiClients

/-- Clients that were just built and hold one rotator. -/
def freshAiClients : AiClients where
  rotators := fun _ => ⟨["m"], 0, by decide⟩
  enrichmentRotator := 0
  normalizationRotator := 0
  enrichment := { lastModel := "m" }
  normalization := { lastModel := "m" }

/-- A request about a Go job. -/
def goRequest : EnrichmentJobInput where
  title := ⟨"Go developer", goDeveloper_ne_empty⟩
  description := none
  requirements := none
  company := ⟨"Ac", ac_ne_empty⟩
  source := ⟨"dealls", by decide⟩
  clean := by decide

/-- The provider refuses: the request is counted, and no outcome. -/
theorem refusal_unbalances_books :
    let refused : AiCall plainNormalizationText :=
      .enrichJob goRequest (.response (.message (some "I cannot help with that") none))
    let after := freshAiClients.calls [refused]
    (after.enrichment.ofModel "m").requests = 1 ∧ (after.enrichment.ofModel "m").outcomes = 0 ∧
      ¬ after.Balanced ∧ ¬ freshAiClients.KeepsBooks [refused] := by
  refine ⟨by decide, by decide, ?_, ?_⟩
  · intro h
    exact absurd (h.enrichment.byModel "m").requests (by decide)
  · intro h
    exact absurd ((h [] _ [] rfl).1.enrichment.byModel "m").requests (by decide)

theorem keepsBooks_iff_timeout :
    freshAiClients.KeepsBooks
        [(.normalizeJob { sourcePlatform := .dealls, endpointType := .list, rawPayloadSubset := [] }
          .timeoutError : AiCall plainNormalizationText)] ↔
      ∀ call ∈ [(.normalizeJob
          { sourcePlatform := .dealls, endpointType := .list, rawPayloadSubset := [] }
          .timeoutError : AiCall plainNormalizationText)], call.Concludes :=
  AiClients.keepsBooks_iff ⟨⟨rfl, rfl⟩, ⟨rfl, rfl⟩⟩ _

end Bisakerja
