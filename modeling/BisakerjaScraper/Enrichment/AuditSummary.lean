import BisakerjaScraper.Enrichment.Service

/-! The summaries of the audit log.

    A summary is sanitized place by place: by the key of a value, by the words of a text, by the
    length of a list. What is sanitized is safe at every place, and a safe summary is left as it
    is, so the rows of the log are safe over every batch. -/

namespace Bisakerja
open Schemes

/-! ### Places -/

/-- A value stands somewhere in another, at any depth. -/
inductive Json.Part : Json → Json → Prop
  | refl (value : Json) : Part value value
  | item {part item : Json} {xs : List Json} (hmem : item ∈ xs) (h : Part part item) :
      Part part (.list xs)
  | entry {part item : Json} {key : String} {entries : Dict} (hmem : (key, item) ∈ entries)
      (h : Part part item) : Part part (.dict entries)

namespace Json

/-- A property of every value that stands in another. -/
def Everywhere (p : Json → Prop) (value : Json) : Prop := ∀ part, Part part value → p part

variable {p : Json → Prop}

theorem everywhere_list {xs : List Json} :
    Everywhere p (.list xs) ↔ p (.list xs) ∧ ∀ item ∈ xs, Everywhere p item := by
  constructor
  · intro h
    exact ⟨h _ (.refl _), fun item hitem part hpart => h part (.item hitem hpart)⟩
  · rintro ⟨hself, hitems⟩ part (_ | ⟨hmem, hpart⟩ | _)
    · exact hself
    · exact hitems _ hmem part hpart

theorem everywhere_dict {entries : Dict} :
    Everywhere p (.dict entries) ↔ p (.dict entries) ∧ ∀ entry ∈ entries, Everywhere p entry.2 := by
  constructor
  · intro h
    exact ⟨h _ (.refl _), fun entry hentry part hpart => h part (.entry hentry hpart)⟩
  · rintro ⟨hself, hentries⟩ part (_ | _ | ⟨hmem, hpart⟩)
    · exact hself
    · exact hentries _ hmem part hpart

theorem everywhere_str {s : String} : Everywhere p (.str s) ↔ p (.str s) := by
  refine ⟨fun h => h _ (.refl _), ?_⟩
  rintro hself part ⟨_⟩
  exact hself

end Json

/-! ### Safe values -/

/-- A value is safe at its place: a value under a key of the pattern is redacted, a text is
    redacted or is short and has no match of the pattern, a list has at most twenty items. -/
def SafeHere : Json → Prop
  | .dict entries => ∀ entry ∈ entries, secretKey entry.1 = true → entry.2 = .str "[REDACTED]"
  | .list xs => xs.length ≤ 20
  | .str s => s = "[REDACTED]" ∨ s.length ≤ 500 ∧ secretKey s = false
  | _ => True

/-- A summary is safe at every place. -/
def SafeSummary (summary : Dict) : Prop := (Json.dict summary).Everywhere SafeHere

theorem secretKey_redacted : secretKey "[REDACTED]" = false := by decide

theorem safeText_redacted : safeText "[REDACTED]" = "[REDACTED]" := by decide

/-- A piece of a text has no match that the text has not. -/
theorem secretKey_of_infix {piece value : String} (h : piece.toList <:+: value.toList)
    (hvalue : secretKey value = false) : secretKey piece = false := by
  unfold secretKey at hvalue ⊢
  rw [List.any_eq_false] at hvalue ⊢
  intro word hword hfound
  refine hvalue word hword (decide_eq_true ?_)
  exact (of_decide_eq_true hfound).trans (h.map foldLetter)

/-- A text is safe as `safe_message` leaves it. -/
theorem safeHere_safeText (value : String) : SafeHere (.str (safeText value)) := by
  unfold safeText
  split
  · exact .inl rfl
  · next hnone =>
    have hshort : (String.ofList (value.toList.take 500)).toList <:+: value.toList := by
      rw [String.toList_ofList]
      exact (List.take_prefix 500 _).isInfix
    refine .inr ⟨?_, secretKey_of_infix hshort (by simpa using hnone)⟩
    rw [String.length_ofList]
    exact List.length_take_le 500 _

theorem everywhere_redacted : (Json.str "[REDACTED]").Everywhere SafeHere :=
  Json.everywhere_str.mpr (.inl rfl)

/-! ### Sanitizing is safe -/

mutual

/-- A sanitized value is safe at every place. -/
theorem everywhere_safeSummaryValue : ∀ value : Json, (safeSummaryValue value).Everywhere SafeHere
  | .dict entries => by
    rw [safeSummaryValue]
    exact everywhere_sanitizeSummary entries
  | .list xs => by
    rw [safeSummaryValue, Json.everywhere_list]
    refine ⟨?_, fun item hitem => ?_⟩
    · exact List.length_take_le 20 _
    · exact everywhere_safeSummaryItems xs item (List.mem_of_mem_take hitem)
  | .str s => by
    rw [safeSummaryValue, Json.everywhere_str]
    exact safeHere_safeText s
  | .null | .bool _ | .int _ | .float _ => by
    simp only [safeSummaryValue]
    rintro part ⟨_⟩
    trivial

theorem everywhere_sanitizeSummary : ∀ summary : List (String × Json),
    (Json.dict (sanitizeSummary summary)).Everywhere SafeHere
  | [] => by
    rw [sanitizeSummary, Json.everywhere_dict]
    exact ⟨nofun, nofun⟩
  | (key, item) :: rest => by
    obtain ⟨hkeys, hrest⟩ := Json.everywhere_dict.mp (everywhere_sanitizeSummary rest)
    rw [sanitizeSummary, Json.everywhere_dict]
    refine ⟨List.forall_mem_cons.mpr ⟨fun hkey => if_pos hkey, hkeys⟩,
      List.forall_mem_cons.mpr ⟨?_, hrest⟩⟩
    dsimp only
    split
    · exact everywhere_redacted
    · exact everywhere_safeSummaryValue item

theorem everywhere_safeSummaryItems : ∀ xs : List Json,
    ∀ item ∈ safeSummaryItems xs, item.Everywhere SafeHere
  | [] => by
    rw [safeSummaryItems]
    nofun
  | first :: rest => by
    rw [safeSummaryItems, List.forall_mem_cons]
    exact ⟨everywhere_safeSummaryValue first, everywhere_safeSummaryItems rest⟩

end

/-! ### What is safe is left as it is -/

mutual

/-- A value that is safe at every place stays as it is. -/
theorem safeSummaryValue_of_everywhere : ∀ value : Json, value.Everywhere SafeHere →
    safeSummaryValue value = value
  | .dict entries, h => by
    rw [safeSummaryValue, sanitizeSummary_of_safe entries h]
  | .list xs, h => by
    obtain ⟨hlength, hitems⟩ := Json.everywhere_list.mp h
    rw [safeSummaryValue, safeSummaryItems_of_everywhere xs hitems, List.take_of_length_le hlength]
  | .str s, h => by
    rw [safeSummaryValue]
    rcases Json.everywhere_str.mp h with rfl | ⟨hlength, hnone⟩
    · rw [safeText_redacted]
    · rw [safeText, hnone, List.take_of_length_le hlength]
      simp
  | .null, _ | .bool _, _ | .int _, _ | .float _, _ => by
    simp only [safeSummaryValue]

/-- A safe summary stays as it is. -/
theorem sanitizeSummary_of_safe : ∀ summary : List (String × Json), SafeSummary summary →
    sanitizeSummary summary = summary
  | [], _ => by rw [sanitizeSummary]
  | (key, item) :: rest, h => by
    obtain ⟨hself, hentries⟩ := Json.everywhere_dict.mp h
    obtain ⟨hkey, hkeys⟩ := List.forall_mem_cons.mp hself
    obtain ⟨hitem, hitems⟩ := List.forall_mem_cons.mp hentries
    rw [sanitizeSummary, sanitizeSummary_of_safe rest (Json.everywhere_dict.mpr ⟨hkeys, hitems⟩)]
    split
    · next hmatch => rw [← hkey hmatch]
    · rw [safeSummaryValue_of_everywhere item hitem]

theorem safeSummaryItems_of_everywhere : ∀ xs : List Json, (∀ item ∈ xs, item.Everywhere SafeHere) →
    safeSummaryItems xs = xs
  | [], _ => by rw [safeSummaryItems]
  | first :: rest, h => by
    obtain ⟨hfirst, hrest⟩ := List.forall_mem_cons.mp h
    rw [safeSummaryItems, safeSummaryValue_of_everywhere first hfirst,
      safeSummaryItems_of_everywhere rest hrest]

end

/-- The safe summaries are those that sanitizing leaves as they are. -/
theorem safeSummary_iff {summary : Dict} :
    SafeSummary summary ↔ sanitizeSummary summary = summary := by
  refine ⟨sanitizeSummary_of_safe summary, fun h => ?_⟩
  rw [← h]
  exact everywhere_sanitizeSummary summary

/-- Audit summaries carry no text that looks like a secret, and sanitizing them again changes
    nothing. -/
theorem sanitizeSummary_safe (summary : Dict) : SafeSummary (sanitizeSummary summary) ∧
    sanitizeSummary (sanitizeSummary summary) = sanitizeSummary summary := by
  have hsafe : SafeSummary (sanitizeSummary summary) := everywhere_sanitizeSummary summary
  exact ⟨hsafe, safeSummary_iff.mp hsafe⟩

/-! ### The rows of the log -/

/-- A row of the log is safe: its summary and its message are. -/
structure AIRequestLog.Safe (log : AIRequestLog) : Prop where
  summary : ∀ summary ∈ log.responseSummary, SafeSummary summary
  message : ∀ message ∈ log.errorMessage, SafeHere (.str message)

/-- Every row of the log is safe. -/
def StageTables.SafeLogs (tables : StageTables) : Prop :=
  ∀ log ∈ tables.aiRequestLogs, log.Safe

theorem safeLogs_createAiRequestLog (hash : StableHash) (hostname : String → Option String)
    (item : AIRequestLogInput) {tables : StageTables} (h : tables.SafeLogs) :
    (createAiRequestLog hash hostname item tables).SafeLogs := by
  intro log hlog
  rcases List.mem_append.mp hlog with hold | hnew
  · exact h log hold
  · rw [List.mem_singleton.mp hnew]
    refine ⟨fun summary hsummary => ?_, fun message hmessage => ?_⟩
    · obtain ⟨given, -, rfl⟩ := Option.map_eq_some_iff.mp hsummary
      exact everywhere_sanitizeSummary given
    · obtain ⟨given, -, rfl⟩ := Option.map_eq_some_iff.mp hmessage
      exact safeHere_safeText given

namespace EnrichmentService

variable {casefold : String → String} (service : EnrichmentService casefold)

/-- One job leaves the log safe, whether it is enriched or not. -/
theorem safeLogs_enrichOne (scrapeRunId : Option String) (job : NormalizedJob)
    {s : EnrichmentSession} (h : s.tables.SafeLogs) :
    (service.enrichOne scrapeRunId job s).2.tables.SafeLogs := by
  unfold enrichOne
  cases service.enrichmentInputFromJob job with
  | none => exact safeLogs_createAiRequestLog _ _ _ h
  | some request =>
    dsimp only
    cases (service.attempts request service.config.maxAttempts 0 s.calls).1 with
    | error exc => exact safeLogs_createAiRequestLog _ _ _ h
    | ok output => exact safeLogs_createAiRequestLog service.hash service.hostname _ h

theorem safeLogs_enrichAll (scrapeRunId : Option String) (jobs : List NormalizedJob)
    {s : EnrichmentSession} (h : s.tables.SafeLogs) :
    (service.enrichAll scrapeRunId jobs s).2.tables.SafeLogs := by
  induction jobs generalizing s with
  | nil => exact h
  | cons job rest ih => exact ih (service.safeLogs_enrichOne scrapeRunId job h)

/-- Over every batch the rows of the log stay safe. -/
theorem safeLogs_enrichPendingBatch (scrapeRunId : Option String) {s : EnrichmentSession}
    (h : s.tables.SafeLogs) : (service.enrichPendingBatch scrapeRunId s).2.tables.SafeLogs :=
  service.safeLogs_enrichAll scrapeRunId _ h

end EnrichmentService

end Bisakerja
