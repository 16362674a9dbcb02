import BisakerjaScraper.Pipeline.Normalize
import BisakerjaScraper.Sources.MapperContract

/-! The live sources as the normalize stage uses them.

    A stored raw job is turned back into the raw job of its source before its mapper sees it. No
    mapper gets through without the title of the job, so none maps a raw job without a payload. -/

namespace Bisakerja
open Schemes

/-- `_raw_model` of a stored raw job: none of its texts may be empty. -/
def rawModel (raw : RawJob) : Except PyException RawSourceJob := do
  let sourceUrl := raw.sourceUrl.getD ""
  checkModel "RawSourceJob"
    (raw.sourcePlatform ≠ "" && raw.externalId ≠ "" && sourceUrl ≠ "")
  pure
    { sourcePlatform := raw.sourcePlatform
      externalId := raw.externalId
      sourceUrl
      rawPayload := raw.rawPayload }

namespace MapperText

variable (text : MapperText)

/-- `LivePipelineSource` with the mapper of a platform. -/
def livePipelineSource (platform : SourcePlatform) : NormalizeSource where
  platform := platform
  describe raw := do
    let sourceJob ← rawModel raw
    text.mapJob platform sourceJob raw.scrapedAt

/-- Where each mapper finds the title of the job. -/
def sourceTitle : SourcePlatform → Dict → Json
  | .dealls, raw => (listPayloadOf raw).get "role"
  | .glints, raw => (listPayloadOf raw).get "title"
  | .jobstreet, raw =>
    (((raw.get "detail").get "job").get "title").orElse ((listPayloadOf raw).get "title")
  | .kalibrr, raw => (listPayloadOf raw).get "name"
  | .kitalulus, raw =>
    ((detailPayloadOf raw).get "positionName").orElse ((listPayloadOf raw).get "positionName")

variable {text}

theorem title_mappedPayload {platform : SourcePlatform} {raw : RawSourceJob}
    {payload : MappedPayload} (h : text.mappedPayload platform raw = .ok payload) :
    payload.title = sourceTitle platform raw.rawPayload := by
  cases platform with
  | dealls =>
    obtain ⟨_, -, h⟩ := ok_bind_iff.mp h
    obtain ⟨_, -, h⟩ := ok_bind_iff.mp h
    obtain ⟨_, -, h⟩ := ok_bind_iff.mp h
    obtain ⟨_, -, h⟩ := ok_bind_iff.mp h
    obtain ⟨_, -, h⟩ := ok_bind_iff.mp h
    obtain ⟨_, -, h⟩ := ok_bind_iff.mp h
    obtain ⟨_, -, h⟩ := ok_bind_iff.mp h
    cases h
    rfl
  | glints =>
    obtain ⟨_, -, h⟩ := ok_bind_iff.mp h
    obtain ⟨_, -, h⟩ := ok_bind_iff.mp h
    obtain ⟨_, -, h⟩ := ok_bind_iff.mp h
    obtain ⟨_, -, h⟩ := ok_bind_iff.mp h
    obtain ⟨_, -, h⟩ := ok_bind_iff.mp h
    obtain ⟨_, -, h⟩ := ok_bind_iff.mp h
    cases h
    rfl
  | jobstreet =>
    obtain ⟨_, -, h⟩ := ok_bind_iff.mp h
    obtain ⟨_, -, h⟩ := ok_bind_iff.mp h
    obtain ⟨_, -, h⟩ := ok_bind_iff.mp h
    obtain ⟨_, -, h⟩ := ok_bind_iff.mp h
    obtain ⟨_, -, h⟩ := ok_bind_iff.mp h
    obtain ⟨_, -, h⟩ := ok_bind_iff.mp h
    obtain ⟨_, -, h⟩ := ok_bind_iff.mp h
    cases h
    rfl
  | kalibrr =>
    obtain ⟨_, -, h⟩ := ok_bind_iff.mp h
    obtain ⟨_, -, h⟩ := ok_bind_iff.mp h
    obtain ⟨_, -, h⟩ := ok_bind_iff.mp h
    obtain ⟨_, -, h⟩ := ok_bind_iff.mp h
    obtain ⟨_, -, h⟩ := ok_bind_iff.mp h
    obtain ⟨_, -, h⟩ := ok_bind_iff.mp h
    cases h
    rfl
  | kitalulus =>
    obtain ⟨_, -, h⟩ := ok_bind_iff.mp h
    obtain ⟨_, -, h⟩ := ok_bind_iff.mp h
    obtain ⟨_, -, h⟩ := ok_bind_iff.mp h
    obtain ⟨_, -, h⟩ := ok_bind_iff.mp h
    cases h
    rfl

/-- A job that is mapped has the title its source gives it. -/
theorem title_mapJob {platform : SourcePlatform} {raw : RawSourceJob} {scrapedAt : Time}
    {job : CanonicalJobSchema} (h : text.mapJob platform raw scrapedAt = .ok job) :
    nonEmptyField (sourceTitle platform raw.rawPayload) = some job.title := by
  obtain ⟨payload, hpayload, hvalid⟩ := ok_bind_iff.mp h
  rw [← title_mappedPayload hpayload]
  exact (validated_of_validateMappedJob hvalid).title

/-- Without a payload there is no title. -/
theorem sourceTitle_nil (platform : SourcePlatform) : sourceTitle platform [] = .null := by
  cases platform <;> rfl

/-- No mapper maps a raw job without a payload. -/
theorem mapJob_ne_ok_of_empty {platform : SourcePlatform} {raw : RawSourceJob}
    (hempty : raw.rawPayload = []) {scrapedAt : Time} {job : CanonicalJobSchema} :
    text.mapJob platform raw scrapedAt ≠ .ok job := by
  intro h
  have htitle := title_mapJob h
  rw [hempty, sourceTitle_nil] at htitle
  cases htitle

/-- A live source gives what its mapper gives: platform and id are those of the raw job. -/
theorem mapRawJob_livePipelineSource (text : MapperText) (platform : SourcePlatform) (raw : RawJob) :
    (text.livePipelineSource platform).mapRawJob raw
      = (rawModel raw).bind fun sourceJob => text.mapJob platform sourceJob raw.scrapedAt := by
  unfold NormalizeSource.mapRawJob livePipelineSource
  dsimp only
  rcases hmodel : rawModel raw with exc | sourceJob
  · rfl
  · change (text.mapJob platform sourceJob raw.scrapedAt).bind _
      = text.mapJob platform sourceJob raw.scrapedAt
    rcases hjob : text.mapJob platform sourceJob raw.scrapedAt with exc | job
    · rfl
    · obtain ⟨_, -, hmodel⟩ := ok_bind_iff.mp hmodel
      cases hmodel
      obtain ⟨payload, -, hvalid⟩ := ok_bind_iff.mp hjob
      have hsource := validated_of_validateMappedJob hvalid
      have hid : job.source.externalJobId.val = raw.externalId := hsource.externalJobId
      have hne : raw.externalId ≠ "" := by
        rw [← hid]
        exact job.source.externalJobId.2
      have hsame : (⟨raw.externalId, hne⟩ : NonEmptyStr) = job.source.externalJobId :=
        Subtype.ext hid.symm
      refine (dif_pos hne).trans ?_
      rw [hsame, ← hsource.platform]

/-- A live source maps no stored raw job without a payload. -/
theorem mapRawJob_ne_ok_of_empty {platform : SourcePlatform} {raw : RawJob}
    (hempty : raw.rawPayload = []) {job : CanonicalJobSchema} :
    (text.livePipelineSource platform).mapRawJob raw ≠ .ok job := by
  intro h
  rw [mapRawJob_livePipelineSource] at h
  obtain ⟨sourceJob, hmodel, hjob⟩ := ok_bind_iff.mp h
  obtain ⟨_, -, hmodel⟩ := ok_bind_iff.mp hmodel
  cases hmodel
  exact mapJob_ne_ok_of_empty hempty hjob

end MapperText

end Bisakerja
