import BisakerjaScraper.Pipeline.EarlierPages
import BisakerjaScraper.Schemes.Pages

/-! What a page loop collects of a list that its source serves in windows.

    Each page is a window of the list, and the loop goes from each window to the next. The windows
    leave no gap, so what is collected after so many pages is the front of the list that they reach,
    and a page without a new job is one behind the end. -/

namespace Bisakerja
open Schemes

/-! ### New jobs of a page -/

/-- Where no job is on a page twice, its new jobs are those that have not been seen. -/
theorem mem_dedupeNewJobs_iff {jobs : List RawSourceJob} {seen : List String}
    (hnodup : (jobs.map RawSourceJob.externalId).Nodup) {job : RawSourceJob} :
    job ∈ (dedupeNewJobs jobs seen).1 ↔ job ∈ jobs ∧ job.externalId ∉ seen := by
  have h := deduped_dedupeNewJobs jobs seen
  constructor
  · exact fun hjob => ⟨h.order.subset hjob, h.fresh job hjob⟩
  · rintro ⟨hjob, hfresh⟩
    have hkept := h.kept job hjob
    rw [h.ids] at hkept
    rcases List.mem_append.mp hkept with hseen | hnew
    · exact absurd hseen hfresh
    · obtain ⟨other, hother, hid⟩ := List.mem_map.mp hnew
      rwa [List.inj_on_of_nodup_map hnodup (h.order.subset hother) hjob hid] at hother

namespace PageLoop

variable {π : Type} (loop : PageLoop π)

/-- The pages the loop is answered with are the windows of a list, and it goes from each to the
    next. -/
structure Slides (rows : List RawSourceJob) (step width : ℕ) (position : ℕ → ℤ) : Prop where
  distinct : (rows.map RawSourceJob.externalId).Nodup
  pos : 0 < step
  step_le : step ≤ width
  first : loop.first = position 0
  window : ∀ k result, loop.answers.listPage (k + 1) (position k) loop.pageSize = .ok result →
    result.rawJobs = windowAt step width rows k
  advance : ∀ k result, loop.answers.listPage (k + 1) (position k) loop.pageSize = .ok result →
    loop.advance (position k) result = position (k + 1)

/-- The answers with the first windows. -/
def windowAnswers (rows : List RawSourceJob) (step width count : ℕ) :
    List (Except PyException (List RawSourceJob)) :=
  (List.range count).map fun index => .ok (windowAt step width rows index)

theorem windowAnswers_succ (rows : List RawSourceJob) (step width count : ℕ) :
    windowAnswers rows step width (count + 1)
      = windowAnswers rows step width count ++ [.ok (windowAt step width rows count)] := by
  simp [windowAnswers, List.range_succ]

/-- What is known of a state after so many windows: its jobs are those the windows reach, an empty
    page is behind the end, and no new job of the windows made the enrichment raise. -/
structure Covers (rows : List RawSourceJob) (step width count : ℕ) (s : PageState) : Prop where
  going : Going (windowAnswers rows step width count) s
  empty : s.emptyPages ≠ 0 → rows.length ≤ reach step width count
  enriched : ∀ index < count, ∀ row ∈ windowAt step width rows index,
    row ∉ rows.take (reach step width index) →
      ∀ exc, enrichJob loop.platform (loop.answers.detail (index + 1) row) row ≠ .error exc

variable {loop} {rows : List RawSourceJob} {step width count : ℕ} {position : ℕ → ℤ}
  {s s' : PageState} {result : ListResult π}

theorem mem_parsedRows_windowAnswers (hpos : 0 < step) (hstep : step ≤ width)
    {row : RawSourceJob} : row ∈ parsedRows (windowAnswers rows step width count) ↔
      row ∈ rows.take (reach step width count) := by
  rw [← mem_windows_iff hpos hstep]
  simp [parsedRows, windowAnswers, Except.toOption]

section Slides

variable (h : loop.Slides rows step width position)
include h

/-- The ids collected are those of the front of the list. -/
theorem Slides.perm_collected (hs : Going (windowAnswers rows step width count) s) :
    (s.collected.map RawSourceJob.externalId).Perm
      ((rows.take (reach step width count)).map RawSourceJob.externalId) := by
  refine (List.perm_ext_iff_of_nodup hs.distinct
    (h.distinct.sublist ((List.take_sublist _ _).map _))).mpr fun id => ?_
  constructor
  · intro hid
    obtain ⟨row, hrow, rfl⟩ := List.mem_map.mp (hs.order.subset hid)
    exact List.mem_map_of_mem ((mem_parsedRows_windowAnswers h.pos h.step_le).mp hrow)
  · intro hid
    obtain ⟨row, hrow, rfl⟩ := List.mem_map.mp hid
    exact hs.kept row ((mem_parsedRows_windowAnswers h.pos h.step_le).mpr hrow)

theorem Slides.length_collected (hs : Going (windowAnswers rows step width count) s) :
    s.collected.length = min (reach step width count) rows.length := by
  have hlength := (h.perm_collected hs).length_eq
  rwa [List.length_map, List.length_map, List.length_take] at hlength

/-- A job of the list has been seen when the windows reach it. -/
theorem Slides.seen_iff (hs : Going (windowAnswers rows step width count) s) {row : RawSourceJob}
    (hrow : row ∈ rows) :
    row.externalId ∈ s.seenExternalIds ↔ row ∈ rows.take (reach step width count) := by
  rw [hs.seen, (h.perm_collected hs).mem_iff]
  constructor
  · intro hid
    obtain ⟨other, hother, hid⟩ := List.mem_map.mp hid
    rwa [List.inj_on_of_nodup_map h.distinct (List.mem_of_mem_take hother) hrow hid] at hother
  · exact fun hmem => List.mem_map_of_mem hmem

end Slides

/-- A page without a new job adds nothing, and the enrichment of no new job raised. -/
theorem collect_spec (hcollect : loop.collect result s = .ok s') :
    (s'.emptyPages ≠ 0 → s'.collected.length = s.collected.length) ∧
      ∀ job ∈ (dedupeNewJobs result.rawJobs s.seenExternalIds).1, ∀ exc,
        enrichJob loop.platform (loop.answers.detail s.pagesAttempted job) job ≠ .error exc := by
  unfold PageLoop.collect at hcollect
  obtain ⟨enriched, henriched, rfl⟩ := ok_map_iff.mp hcollect
  dsimp only at henriched ⊢
  generalize (dedupeNewJobs result.rawJobs s.seenExternalIds).1 = pageJobs at henriched ⊢
  constructor
  · intro hempty
    cases pageJobs with
    | nil =>
      cases henriched
      exact congrArg List.length (List.append_nil s.collected)
    | cons job rest => exact absurd rfl hempty
  · intro job hjob exc hexc
    obtain ⟨exc', herror⟩ := (error_mapM_iff (f := fun job =>
      enrichJob loop.platform (loop.answers.detail s.pagesAttempted job) job)).mpr
        ⟨job, hjob, exc, hexc⟩
    rw [herror] at henriched
    cases henriched

/-- A page is collected unless the enrichment of one of its new jobs raises. -/
theorem exists_collect (h : ∀ job ∈ (dedupeNewJobs result.rawJobs s.seenExternalIds).1, ∀ exc,
      enrichJob loop.platform (loop.answers.detail s.pagesAttempted job) job ≠ .error exc) :
    ∃ s', loop.collect result s = .ok s' := by
  unfold PageLoop.collect
  dsimp only
  cases henriched : (dedupeNewJobs result.rawJobs s.seenExternalIds).1.mapM fun job =>
      enrichJob loop.platform (loop.answers.detail s.pagesAttempted job) job with
  | error exc =>
    obtain ⟨job, hjob, exc', hexc⟩ := error_mapM_iff.mp ⟨exc, henriched⟩
    exact absurd hexc (h job hjob exc')
  | ok enriched => exact ⟨_, rfl⟩

theorem covers_init : loop.Covers rows step width 0 loop.init :=
  ⟨going_init, fun hempty => absurd rfl hempty, fun _ hindex => absurd hindex (Nat.not_lt_zero _)⟩

section Slides

variable (h : loop.Slides rows step width position)
include h

/-- The new jobs of a window are those the windows before it do not reach. -/
theorem Slides.mem_newJobs_iff (hs : Going (windowAnswers rows step width count) s)
    {row : RawSourceJob} :
    row ∈ (dedupeNewJobs (windowAt step width rows count) s.seenExternalIds).1 ↔
      row ∈ windowAt step width rows count ∧ row ∉ rows.take (reach step width count) := by
  have hsub : (windowAt step width rows count).Sublist rows :=
    (List.take_sublist _ _).trans (List.drop_sublist _ _)
  rw [mem_dedupeNewJobs_iff (h.distinct.sublist (hsub.map _))]
  exact and_congr_right fun hrow => not_congr (h.seen_iff hs (hsub.subset hrow))

/-- A window that is collected is one more. -/
theorem Slides.collect (hs : loop.Covers rows step width count s)
    (hwindow : result.rawJobs = windowAt step width rows count)
    (hcollect : loop.collect result { s with pagesAttempted := s.pagesAttempted + 1 } = .ok s') :
    loop.Covers rows step width (count + 1) s' ∧
      (s'.emptyPages ≠ 0 → rows.length ≤ reach step width count) := by
  have hgoing : Going (windowAnswers rows step width (count + 1)) s' := by
    have hnext := hs.going.collect hcollect
    rwa [hwindow, ← windowAnswers_succ] at hnext
  have hreach := reach_lt_succ h.pos h.step_le count
  obtain ⟨hadds, hraises⟩ := collect_spec hcollect
  have hempty : s'.emptyPages ≠ 0 → rows.length ≤ reach step width count := by
    intro hne
    have hsame := hadds hne
    rw [h.length_collected hgoing] at hsame
    change _ = s.collected.length at hsame
    rw [h.length_collected hs.going] at hsame
    omega
  refine ⟨⟨hgoing, fun hne => (hempty hne).trans hreach.le, ?_⟩, hempty⟩
  intro index hindex row hrow hnew exc
  rcases Nat.lt_succ_iff_lt_or_eq.mp hindex with hlt | rfl
  · exact hs.enriched index hlt row hrow hnew exc
  · have hattempted : s.pagesAttempted = index := by
      simpa [windowAnswers] using hs.going.attempted
    rw [hwindow] at hraises
    have hjob := hraises row ((h.mem_newJobs_iff hs.going).mpr ⟨hrow, hnew⟩) exc
    rwa [hattempted] at hjob

end Slides

/-! ### How a loop over windows ends -/

/-- A turn that returns fails its page or collects it. -/
theorem turn_cases {next : Turn PageState} (hturn : loop.turn s = .ok next) :
    (∃ exc, next = .stop (loop.failed exc { s with pagesAttempted := s.pagesAttempted + 1 })) ∨
      ∃ result s', loop.answers.listPage (s.pagesAttempted + 1) s.position loop.pageSize = .ok result ∧
        loop.collect result { s with pagesAttempted := s.pagesAttempted + 1 } = .ok s' ∧
        next = loop.settle result s' := by
  cases hpage : loop.answers.listPage (s.pagesAttempted + 1) s.position loop.pageSize with
  | error exc =>
    by_cases hexc : exc.isFetchOrParse = true
    · rw [turn_of_fails hpage hexc] at hturn
      cases hturn
      exact .inl ⟨exc, rfl⟩
    · obtain ⟨exc', hraise⟩ := turn_raises_iff.mpr (.inl ⟨exc, hpage, Bool.eq_false_iff.mpr hexc⟩)
      rw [hraise] at hturn
      cases hturn
  | ok result =>
    rw [turn_of_answered hpage] at hturn
    obtain ⟨s', hcollect, rfl⟩ := ok_map_iff.mp hturn
    exact .inr ⟨result, s', rfl, hcollect, rfl⟩

/-- Where the loop is told that the source is exhausted, or finds it out. -/
theorem settle_exhausted (hstop : loop.settle result s = .stop s')
    (hreason : s'.stopReason = "source_exhausted") :
    (s.collected.length : ℤ) < loop.targetLimit ∧ s'.collected = s.collected ∧
      (s.emptyPages ≠ 0 ∨ loop.exhausted s.position result = true) := by
  unfold settle at hstop
  split at hstop
  · cases hstop
    exact absurd hreason (by decide : "target_reached" ≠ "source_exhausted")
  · next hshort =>
    split at hstop
    · next hexhausted =>
      cases hstop
      exact ⟨not_le.mp hshort, rfl, hexhausted.imp_left fun htwo => by omega⟩
    · cases hstop

theorem settle_next (hnext : loop.settle result s = .next s') :
    s' = { s with position := loop.advance s.position result } := by
  unfold settle at hnext
  split at hnext
  · cases hnext
  · split at hnext
    · cases hnext
    · cases hnext
      rfl

theorem Covers.attempted (hs : loop.Covers rows step width count s) : s.pagesAttempted = count := by
  simpa [windowAnswers] using hs.going.attempted

theorem Covers.moved (hs : loop.Covers rows step width count s) (position : ℤ) :
    loop.Covers rows step width count { s with position := position } :=
  ⟨⟨⟨hs.going.attempted, hs.going.succeeded, hs.going.failed, hs.going.distinct, hs.going.order,
    hs.going.total, hs.going.kept⟩, hs.going.seen, hs.going.reason⟩, hs.empty, hs.enriched⟩

section Slides

variable (h : loop.Slides rows step width position)
include h

/-- A turn that goes on has covered one more window. -/
theorem Slides.next (hs : loop.Covers rows step width count s)
    (hposition : s.position = position count) (hturn : loop.turn s = .ok (.next s')) :
    loop.Covers rows step width (count + 1) s' ∧ s'.position = position (count + 1) := by
  rcases turn_cases hturn with ⟨exc, hfailed⟩ | ⟨result, s₁, hpage, hcollect, hnext⟩
  · cases hfailed
  · rw [hs.attempted, hposition] at hpage
    have hcovers := (h.collect hs (h.window count result hpage) hcollect).1
    have hsame : s₁.position = s.position := (collect_ok hcollect).2.2.2.2.1
    rw [settle_next hnext.symm, hsame, hposition, h.advance count result hpage]
    exact ⟨hcovers.moved _, rfl⟩

theorem Slides.covers_of_reaches (hreach : loop.pages.Reaches loop.init s) :
    ∃ count, loop.Covers rows step width count s ∧ s.position = position count := by
  refine hreach.inv (I := fun s => ∃ count, loop.Covers rows step width count s ∧
    s.position = position count) ⟨0, covers_init, h.first⟩ ?_
  rintro s s' ⟨count, hs, hposition⟩ - hturn
  exact ⟨count + 1, h.next hs hposition hturn⟩

/-- A loop that stops because the source is exhausted has covered its windows, the target is not
    reached, and the last page was behind the end or was taken for the last one. -/
theorem Slides.of_exhausted (hrun : loop.run = .ok s') (hreason : s'.stopReason = "source_exhausted") :
    ∃ count result s, count < loop.maxPages ∧
      loop.answers.listPage (count + 1) (position count) loop.pageSize = .ok result ∧
      loop.Covers rows step width (count + 1) s ∧ s'.collected = s.collected ∧
      (s.collected.length : ℤ) < loop.targetLimit ∧
      (rows.length ≤ reach step width count ∨ loop.exhausted (position count) result = true) := by
  obtain ⟨s, hreach, hends⟩ := While.exists_ends pages_lowersRank loop.maxPages loop.init rank_init
  change loop.pages.Ends s loop.run at hends
  rw [hrun] at hends
  obtain ⟨count, hs, hposition⟩ := h.covers_of_reaches hreach
  cases hends with
  | stop htest hturn =>
    rcases turn_cases hturn with ⟨exc, hfailed⟩ | ⟨result, s₁, hpage, hcollect, hstop⟩
    · cases hfailed
      have hregular : (loop.failed exc { s with pagesAttempted := s.pagesAttempted + 1 }).stopReason
          ∈ regularStopReasons := by
        rw [hreason]
        decide
      exact absurd hregular (failed_not_regular exc _)
    · rw [hs.attempted, hposition] at hpage
      obtain ⟨hcovers, hempty⟩ := h.collect hs (h.window count result hpage) hcollect
      obtain ⟨hshort, hsame, hlast⟩ := settle_exhausted hstop.symm hreason
      have hplace : s₁.position = position count :=
        (collect_ok hcollect).2.2.2.2.1.trans hposition
      rw [hplace] at hlast
      refine ⟨count, result, s₁, ?_, hpage, hcovers, hsame, hshort, hlast.imp_left hempty⟩
      rw [← hs.attempted]
      exact (test_iff.mp htest).2
  | exit htest =>
    change (if _ then _ else _ : PageState).stopReason = _ at hreason
    split at hreason
    · exact absurd hreason (by decide : "max_pages_reached" ≠ "source_exhausted")
    · rw [hs.going.reason] at hreason
      exact absurd hreason (by decide)

/-- Where the windows reach the end, every job of the list is collected. -/
theorem Slides.all_collected (hs : loop.Covers rows step width count s)
    (hend : rows.length ≤ reach step width count) :
    ∀ row ∈ rows, row.externalId ∈ s.collected.map RawSourceJob.externalId := by
  intro row hrow
  refine hs.going.kept row ((mem_parsedRows_windowAnswers h.pos h.step_le).mpr ?_)
  rwa [List.take_of_length_le hend]

/-- Where a window that is taken for the last one reaches the end, a loop that stops because the source
    is exhausted has collected every job of the list. -/
theorem Slides.collects_all
    (hlast : ∀ count result,
      loop.answers.listPage (count + 1) (position count) loop.pageSize = .ok result →
        loop.exhausted (position count) result = true → rows.length ≤ reach step width (count + 1))
    (hrun : loop.run = .ok s') (hreason : s'.stopReason = "source_exhausted") :
    ∀ row ∈ rows, row.externalId ∈ s'.collected.map RawSourceJob.externalId := by
  obtain ⟨count, result, s, -, hpage, hcovers, hsame, -, hend⟩ := h.of_exhausted hrun hreason
  rw [hsame]
  refine h.all_collected hcovers ?_
  rcases hend with hend | hend
  · exact hend.trans (reach_lt_succ h.pos h.step_le count).le
  · exact hlast count result hpage hend

/-- A window that is answered is collected, unless the enrichment of one of its new jobs raises. -/
theorem Slides.collects (hs : loop.Covers rows step width count s)
    (hposition : s.position = position count)
    (hpage : loop.answers.listPage (count + 1) (position count) loop.pageSize = .ok result)
    (hdetail : ∀ row ∈ windowAt step width rows count, row ∉ rows.take (reach step width count) →
      ∀ exc, enrichJob loop.platform (loop.answers.detail (count + 1) row) row ≠ .error exc) :
    ∃ s', loop.turn s = .ok (loop.settle result s') ∧
      loop.Covers rows step width (count + 1) s' ∧ s'.position = position count := by
  have hwindow := h.window count result hpage
  have hnew : ∀ job ∈ (dedupeNewJobs result.rawJobs s.seenExternalIds).1, ∀ exc,
      enrichJob loop.platform (loop.answers.detail (s.pagesAttempted + 1) job) job ≠ .error exc := by
    intro job hjob
    rw [hwindow] at hjob
    obtain ⟨hmem, hfresh⟩ := (h.mem_newJobs_iff hs.going).mp hjob
    rw [hs.attempted]
    exact hdetail job hmem hfresh
  obtain ⟨s', hcollect⟩ : ∃ s', loop.collect result
      { s with pagesAttempted := s.pagesAttempted + 1 } = .ok s' := exists_collect hnew
  rw [← hposition, ← hs.attempted] at hpage
  refine ⟨s', ?_, (h.collect hs hwindow hcollect).1, (collect_ok hcollect).2.2.2.2.1.trans hposition⟩
  rw [turn_of_answered hpage, hcollect]
  rfl

/-- Short of the target and of the end of the list, the loop goes on from window to window as long
    as none is taken for the last and no enrichment raises. -/
theorem Slides.reaches (count : ℕ)
    (hpage : ∀ index < count, ∃ result,
      loop.answers.listPage (index + 1) (position index) loop.pageSize = .ok result ∧
        loop.exhausted (position index) result = false)
    (hdetail : ∀ index < count, ∀ row ∈ windowAt step width rows index,
      row ∉ rows.take (reach step width index) →
        ∀ exc, enrichJob loop.platform (loop.answers.detail (index + 1) row) row ≠ .error exc)
    (hmax : count ≤ loop.maxPages) (hmore : count ≠ 0 → reach step width count < rows.length)
    (hshort : (reach step width count : ℤ) < loop.targetLimit) :
    ∃ s, loop.pages.Reaches loop.init s ∧ loop.Covers rows step width count s ∧
      s.position = position count := by
  induction count with
  | zero => exact ⟨loop.init, .start, covers_init, h.first⟩
  | succ count ih =>
    have hreach := reach_lt_succ h.pos h.step_le count
    have hend := hmore (Nat.succ_ne_zero count)
    obtain ⟨s, hs, hcovers, hposition⟩ := ih (fun index hindex => hpage index (by omega))
      (fun index hindex => hdetail index (by omega)) (by omega) (fun _ => by omega) (by omega)
    obtain ⟨result, hresult, hgoes⟩ := hpage count (by omega)
    obtain ⟨s', hturn, hcovers', hposition'⟩ :=
      h.collects hcovers hposition hresult (hdetail count (by omega))
    have htest : loop.pages.test s = true := by
      have hlength := h.length_collected hcovers.going
      have hattempted := hcovers.attempted
      exact test_iff.mpr ⟨by omega, by omega⟩
    have hnonempty : s'.emptyPages = 0 := by
      by_contra hne
      have hover := hcovers'.empty hne
      omega
    have hnext : loop.settle result s'
        = .next { s' with position := loop.advance s'.position result } := by
      have hlength := h.length_collected hcovers'.going
      unfold settle
      rw [if_neg (by omega), if_neg]
      rw [hposition', hgoes, hnonempty]
      simp
    rw [hnext, hposition', h.advance count result hresult] at hturn
    exact ⟨_, .next hs htest hturn, hcovers'.moved _, rfl⟩

/-- A window that is taken for the last one ends the loop with the jobs up to it. -/
theorem Slides.run_of_last (hs : loop.pages.Reaches loop.init s)
    (hcovers : loop.Covers rows step width count s) (hposition : s.position = position count)
    (hpage : loop.answers.listPage (count + 1) (position count) loop.pageSize = .ok result)
    (hlast : loop.exhausted (position count) result = true)
    (hdetail : ∀ row ∈ windowAt step width rows count, row ∉ rows.take (reach step width count) →
      ∀ exc, enrichJob loop.platform (loop.answers.detail (count + 1) row) row ≠ .error exc)
    (hmax : count < loop.maxPages) (hshort : (reach step width (count + 1) : ℤ) < loop.targetLimit) :
    ∃ s', loop.run = .ok s' ∧ s'.stopReason = "source_exhausted" ∧
      s'.collected.length = min (reach step width (count + 1)) rows.length := by
  have hreach := reach_lt_succ h.pos h.step_le count
  obtain ⟨s', hturn, hcovers', hposition'⟩ := h.collects hcovers hposition hpage hdetail
  have hlength := h.length_collected hcovers.going
  have hlength' := h.length_collected hcovers'.going
  have hattempted := hcovers.attempted
  have htest : loop.pages.test s = true := test_iff.mpr ⟨by omega, by omega⟩
  have hstop : loop.settle result s' = .stop { s' with stopReason := "source_exhausted" } := by
    unfold settle
    rw [if_neg (by omega), if_pos]
    exact .inr (hposition' ▸ hlast)
  rw [hstop] at hturn
  exact ⟨_, While.run_eq_of_ends pages_lowersRank rank_init hs (.stop htest hturn), rfl, hlength'⟩

end Slides

end PageLoop

end Bisakerja
