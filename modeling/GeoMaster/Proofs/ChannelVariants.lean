import GeoMaster.Domain.DistributionRepository

/-!
# What a variant carries

However a variant was prepared, it names its revision and the placement it was made for, its identity is drawn
from these and its payload, and it passes the check that is made when a stored publication is read back.
-/

namespace GeoMaster

open Except Uuid

open MemoryDistributionRepository

variable [Sha256] [UrlParser]

/-- A variant of a revision for a placement. -/
structure Renders (revision : ContentRevision) (placement : PlatformPlacement) (variant : ChannelVariant) : Prop where
  revisionId : variant.contentRevisionId = revision.revisionId
  platformId : variant.platformId = placement.platformId
  placementSlot : variant.placementSlot = placement.placementSlot
  identified : variant.variantId
    = identity (variantParts variant.contentRevisionId variant.platformId variant.placementSlot
      variant.policyVersion variant.payloadHash)
  valid : ∀ intent origin command,
    PublicationBundle.validateRevision { revision, variant, intent, origin, command } = .ok ()

variable {revision : ContentRevision} {placement : PlatformPlacement} {variant : ChannelVariant}

theorem prepareVariant_renders (h : prepareVariant revision placement = .ok variant) :
    Renders revision placement variant := by
  simp only [prepareVariant, prepareVersionedVariant, eq_ok_iff] at h
  obtain ⟨_, hplain, _, -, _, -, _, -, rfl⟩ := h
  refine ⟨rfl, rfl, rfl, rfl, fun intent origin command => ?_⟩
  have hpolicy : ¬ revision.document.requiresRichPublication = true := hplain
  simp only [PublicationBundle.validateRevision, eq_ok_iff]
  refine ⟨(), hpolicy, ?_⟩
  rintro ⟨hshort, hmarkdown | htitle⟩
  · rw [if_pos hshort] at hmarkdown
    exact hmarkdown rfl
  · exact htitle rfl

theorem prepareVariant_plain (h : prepareVariant revision placement = .ok variant) :
    variant.policyVersion = channelVariantPolicy ∧ variant.richPayload = none := by
  simp only [prepareVariant, prepareVersionedVariant, eq_ok_iff] at h
  obtain ⟨_, -, _, -, _, -, _, -, rfl⟩ := h
  exact ⟨rfl, rfl⟩

variable {scope : TenantScope} {bindings : List ContentMediaBinding}

theorem prepareRichVariantAuthorized_rich
    (h : prepareRichVariantAuthorized revision placement scope bindings = .ok variant) :
    variant.policyVersion = richChannelVariantPolicy ∧ variant.richPayload.isSome := by
  simp only [prepareRichVariantAuthorized, prepareRichVariantWithMedia, eq_ok_iff] at h
  obtain ⟨_, -, _, -, _, -, _, -, _, -, _, -, _, -, _, -, rfl⟩ := h
  exact ⟨rfl, rfl⟩

theorem prepareRichVariantWithMedia_renders {media : List PublicationMediaItem}
    (h : prepareRichVariantWithMedia revision placement media = .ok variant) : Renders revision placement variant := by
  simp only [prepareRichVariantWithMedia, eq_ok_iff, not_or, not_not] at h
  obtain ⟨_, ⟨hschema, -⟩, _, hdocument, _, hmarkdown, _, hmedia, rfl⟩ := h
  refine ⟨rfl, rfl, rfl, rfl, fun intent origin command => ?_⟩
  simp only [PublicationBundle.validateRevision, validateRichPublicationPayload, eq_ok_iff]
  refine ⟨(), ⟨_, rfl, (), ?_, (), hdocument, (), hmedia, ?_⟩, ?_⟩
  · simpa using hschema
  · simp [hmarkdown, variantParts]
  · simp

theorem prepareRichVariantAuthorized_renders
    (h : prepareRichVariantAuthorized revision placement scope bindings = .ok variant) :
    Renders revision placement variant := by
  simp only [prepareRichVariantAuthorized, bind_eq_ok] at h
  obtain ⟨_, -, _, -, _, -, _, -, hprepared⟩ := h
  exact prepareRichVariantWithMedia_renders hprepared

theorem Renders.payload (h : Renders revision placement variant)
    (hrich : variant.richPayload.isSome) : validateRichPublicationPayload variant = .ok () := by
  obtain ⟨payload, hpayload⟩ := Option.isSome_iff_exists.mp hrich
  let intent : PublicationIntent :=
    { intentId := nil, projectId := ⟨nil⟩, channelTargetId := nil
      variantId := nil, contentRevisionId := nil, platformId := "", placementSlot := ""
      accountId := nil, payloadHash := "", logicalKey := "", verification := .unverified
      verificationEvidenceId := none, createdAt := 0 }
  let target : DistributionTarget :=
    { targetId := nil, manifestId := nil, ordinal := 0, documentItemId := nil
      contentRevisionId := none, platformId := "", placementSlot := "", variantId := none
      accountId := none, publicationIntentId := none, status := .pending, reason := none
      version := 0 }
  -- The check of a stored publication makes the one of the payload first, whatever it belongs to.
  have hvalid := h.valid intent (.coverageTarget target)
    { commandId := nil, intentId := nil, targetId := nil, payloadHash := ""
      fixture := false }
  simp only [PublicationBundle.validateRevision, hpayload, bind_eq_ok] at hvalid
  obtain ⟨_, hchecked, -⟩ := hvalid
  exact hchecked

theorem materializedVariant_renders (h : materializedVariant scope revision placement bindings = .ok variant) :
    Renders revision placement variant := by
  unfold materializedVariant at h
  split at h
  · exact prepareRichVariantAuthorized_renders h
  · obtain ⟨_, -, hprepared⟩ := bind_eq_ok.mp h
    exact prepareVariant_renders hprepared

end GeoMaster
