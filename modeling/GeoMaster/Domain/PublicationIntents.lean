import GeoMaster.Domain.Distribution

/-!
# Variants and intents

A variant is the exact payload a revision becomes on a placement, plain or rich. An intent is the logical
publication of a variant through an account: its key is a digest of the scope, the revision, the variant,
the placement, the account and the payload, and neither the cycle nor the coverage target enters it.
-/

namespace GeoMaster

open Except

def richDistributionFormat : String :=
  "rich_markdown.v2"

/-! ### Variants -/

/-- What the identity of a variant is drawn from. -/
def variantParts (revisionId : Uuid) (platformId placementSlot policy payloadHash : String) : List String :=
  [revisionId.toString, platformId, placementSlot, policy, payloadHash]

def prepareVersionedVariant [Sha256] [UrlParser] (revision : ContentRevision)
    (placement : PlatformPlacement) (policy : String) : Except AppError ChannelVariant := do
  revision.document.validate revision.evidence
  failIf (revision.document.mediaReferences ≠ [])
    (.invalidRequest "media publication requires a media-capable channel adapter")
  failIf (revision.markdown ≠ revision.document.markdown) (.invalidRequest "content revision markdown is inconsistent")
  let title := revision.document.title
  let markdown :=
    if placement.placementSlot = "short_post" then revision.document.markdownBody
    else revision.markdown
  let payloadHash := digest [title, markdown]
  pure
    { variantId :=
        identity
          (variantParts revision.revisionId placement.platformId placement.placementSlot policy payloadHash)
      contentRevisionId := revision.revisionId
      platformId := placement.platformId
      placementSlot := placement.placementSlot
      policyVersion := policy
      title
      markdown
      payloadHash
      evidence := revision.evidence
      richPayload := none }

def prepareVariant [Sha256] [UrlParser] (revision : ContentRevision)
    (placement : PlatformPlacement) : Except AppError ChannelVariant := do
  failIf revision.document.requiresRichPublication
    (.invalidRequest "existing publication outbox cannot publish rich content")
  prepareVersionedVariant revision placement channelVariantPolicy

def prepareRichVariantWithMedia [Sha256] [UrlParser] (revision : ContentRevision)
    (placement : PlatformPlacement) (media : List PublicationMediaItem) : Except AppError ChannelVariant := do
  failIf (revision.document.schemaVersion ≠ 2 ∨ richMarkdownFormat ∉ placement.supportedFormats)
    (.invalidRequest "rich content requires an explicitly supported rich publication format")
  revision.document.validate revision.evidence
  failIf (revision.markdown ≠ revision.document.markdown)
    (.invalidRequest "content revision markdown is inconsistent")
  let title := revision.document.title
  let payload : RichPublicationPayload :=
    { schemaVersion := 2
      format := richMarkdownFormat
      contentRevisionId := revision.revisionId
      policyVersion := richChannelVariantPolicy
      document := revision.document
      media }
  validateRichMedia payload
  let payloadHash := richPayloadHash payload title revision.markdown
  pure
    { variantId :=
        identity
          (variantParts revision.revisionId placement.platformId placement.placementSlot
            richChannelVariantPolicy payloadHash)
      contentRevisionId := revision.revisionId
      platformId := placement.platformId
      placementSlot := placement.placementSlot
      policyVersion := richChannelVariantPolicy
      title
      markdown := revision.markdown
      payloadHash
      evidence := revision.evidence
      richPayload := some payload }

/-- The bindings by their objects: each active in the scope, verified, and named once. -/
def bindingsByKey (scope : TenantScope) (found : AssocMap MediaObjectKey ContentMediaBinding) :
    List ContentMediaBinding → Except AppError (AssocMap MediaObjectKey ContentMediaBinding)
  | [] => pure found
  | binding :: rest => do
    failIf
      (binding.operatorId ≠ scope.operatorId ∨ binding.tenantId ≠ scope.tenantId
        ∨ some binding.projectId ≠ scope.projectId ∨ binding.state ≠ .active
        ∨ binding.withdrawnAt.isSome ∨ binding.bindingId.isNil)
      (.forbidden "media binding is not active in project")
    binding.image.validate
    failIf (binding.image.key ∈ found) (.invalidRequest "duplicate media binding")
    bindingsByKey scope (found.insert binding.image.key binding) rest

/-- The object a reference names. -/
def MediaReference.key (reference : MediaReference) : MediaObjectKey :=
  { objectId := reference.objectId
    objectVersion := reference.objectVersion
    sha256 := reference.sha256 }

/-- One occurrence of an image, through its binding. -/
def publicationMediaItem (byKey : AssocMap MediaObjectKey ContentMediaBinding)
    (reference : MediaReference) : Except AppError PublicationMediaItem := do
  reference.key.validate
  let binding ← okOr (byKey.lookup reference.key)
    (.invalidRequest "media binding missing or media identity differs")
  pure
    { bindingId := binding.bindingId
      object := reference.key
      mediaType := binding.image.mediaType
      byteLen := binding.image.byteLen
      width := binding.image.width
      height := binding.image.height
      alt := reference.alt
      caption := reference.caption
      role := .image }

/-- Bind each occurrence in document order to an active, verified image of the same project. This is
preparation, not send authorization. -/
def prepareRichVariantAuthorized [Sha256] [UrlParser] (revision : ContentRevision)
    (placement : PlatformPlacement) (scope : TenantScope) (bindings : List ContentMediaBinding) :
    Except AppError ChannelVariant := do
  failIf scope.projectId.isNone (.forbidden "rich publication requires project scope")
  let byKey ← bindingsByKey scope ∅ bindings
  let references := revision.document.mediaReferences
  let media ← references.mapM (publicationMediaItem byKey)
  failIf ((references.map MediaReference.key).dedup.length ≠ byKey.entries.length)
    (.invalidRequest "media binding is not referenced by publication")
  prepareRichVariantWithMedia revision placement media

/-! ### Intents -/

/-- What the key of a logical publication is drawn from. -/
def publicationParts (scope : TenantScope) (variant : ChannelVariant)
    (platformId placementSlot : String) (accountId : Uuid) : List String :=
  [scope.storageKey, variant.contentRevisionId.toString, variant.variantId.toString, platformId,
    placementSlot, accountId.toString, variant.payloadHash]

/-- The identity of the publish command of an intent. -/
def publishCommandId [Sha256] (intentId : Uuid) : Uuid :=
  identity [intentId.toString, "publish"]

def preparePublicationIdentity [Sha256] (scope : TenantScope) (projectId : ProjectId)
    (platformId placementSlot : String) (originTargetId : Uuid) (variant : ChannelVariant)
    (accountId : Uuid) (fixture : Bool) (at_ : DateTime) : PublicationIntent × PublicationCommand :=
  let logicalKey := digest (publicationParts scope variant platformId placementSlot accountId)
  let intentId := identity [logicalKey]
  ({ intentId
     projectId
     channelTargetId := originTargetId
     variantId := variant.variantId
     contentRevisionId := variant.contentRevisionId
     platformId
     placementSlot
     accountId
     payloadHash := variant.payloadHash
     logicalKey
     verification := .unverified
     verificationEvidenceId := none
     createdAt := at_ },
    { commandId := publishCommandId intentId
      intentId
      targetId := originTargetId
      payloadHash := variant.payloadHash
      fixture })

/-- Whether the placement of a target is a fixture. -/
def DistributionManifest.fixtureAt (manifest : DistributionManifest) (target : DistributionTarget) : Bool :=
  manifest.platformScope.any fun placement =>
    placement.platformId = target.platformId && placement.placementSlot = target.placementSlot && placement.fixture

/-- The intent of a coverage target. A stored intent of the same key takes precedence. -/
def preparePublicationIntent [Sha256] (scope : TenantScope) (manifest : DistributionManifest)
    (target : DistributionTarget) (variant : ChannelVariant) (accountId : Uuid) (at_ : DateTime) :
    PublicationIntent × PublicationCommand :=
  preparePublicationIdentity scope manifest.projectId target.platformId target.placementSlot
    target.targetId variant accountId (manifest.fixtureAt target) at_

/-- The intent of a request: the same logical identity, no coverage target, never a fixture. -/
def prepareRequestPublicationIntent [Sha256] (scope : TenantScope)
    (request : ContentDistributionRequest) (variant : ChannelVariant) (at_ : DateTime) :
    Except AppError (PublicationIntent × PublicationCommand) := do
  let project ← okOr request.scope.projectId (.forbidden "project scope required")
  checkScope scope project
  failIf
    (request.scope ≠ scope ∨ request.contentRevisionId ≠ variant.contentRevisionId
      ∨ request.platformId ≠ variant.platformId ∨ request.placementSlot ≠ variant.placementSlot)
    (.conflict "request variant binding differs")
  pure
    (preparePublicationIdentity scope project request.platformId request.placementSlot Uuid.nil
      variant request.accountId false at_)

end GeoMaster
