import GeoMaster.Domain.Channels
import GeoMaster.Domain.ConnectorCapabilities
import GeoMaster.Domain.ProjectSettings
import GeoMaster.Domain.PublicationIntents

/-!
# Distribution requests

A request to publish one article is an immutable acceptance and an optional link to the publication ledger.
Accepting one freezes the revision, the account and the surface it names; before it is materialized, the
authorities that may have changed since are asked again.
-/

namespace GeoMaster

open Except Text

def contentDistributionRequestSchemaVersion : Int :=
  1

def plainTextArticleFormat : String :=
  "plain_text_article.v1"

def contentEvidenceMaxQuoteChars : Nat :=
  1600

/-! ### Deferrals -/

/-- An explicitly classified failure of a live dependency. -/
structure ContentRequestMaterializationFailure where
  error : AppError
  reason : ContentRequestDeferralReason
  deriving DecidableEq

/-- `From<AppError>`. -/
def ContentRequestMaterializationFailure.ofError (error : AppError) : ContentRequestMaterializationFailure where
  error
  reason :=
    if error.code = .dependencyUnavailable ∨ error.code = .capabilityMissing then .temporaryFailure
    else .internalError

def nextRequestDeferral (reason : ContentRequestDeferralReason)
    (prior : Option ContentRequestDeferral) (now : DateTime) : ContentRequestDeferral :=
  let attempts := (prior.map fun old => min (old.attempts + 1) (2 ^ 32 - 1)).getD 1
  { reason
    attempts
    nextRetryAt := now + DateTime.seconds (min (2 * 2 ^ min (attempts - 1) 8) 300) }

/-! ### Accepting -/

/-- These values are resolved from trusted repositories of the project. -/
structure AcceptContentDistributionRequest where
  revision : ContentRevision
  account : ChannelAccount
  (placementSlot format : String)
  withdrawAfterPublish : Bool
  idempotencyKey : String

def ownerKindText : ChannelOwnerKind → String
  | .customer => "customer"
  | .operatorPool => "operator_pool"

/-- The opaque key is hashed without consulting mutable state. -/
def distributionRequestKeyHash [Sha256] (key : String) : Except AppError String := do
  failIf (len key = 0 ∨ len key > 256) (.invalidRequest "invalid Idempotency-Key header")
  pure (digest [key])

/-- What the hash of a request is drawn from. -/
def requestParts (input : AcceptContentDistributionRequest) : List String :=
  [input.revision.revisionId.toString, input.revision.assetId.toString, input.account.platform,
    input.placementSlot, input.account.accountId.toString, ownerKindText input.account.ownerKind,
    input.format, if input.withdrawAfterPublish then "withdraw" else "retain"]

def prepareContentDistributionRequest [Sha256] (scope : TenantScope)
    (input : AcceptContentDistributionRequest) (requestId : Uuid) (now : DateTime) :
    Except AppError ContentDistributionRequest := do
  let projectId ← okOr scope.projectId (.forbidden "project scope required")
  failIf (input.account.projectId ≠ projectId) (.notFound "account not found")
  failIf
    (len input.account.platform = 0 ∨ len input.account.platform > 120
      ∨ len input.placementSlot = 0 ∨ len input.placementSlot > 120
      ∨ input.format ∉ [textDistributionFormat, richDistributionFormat]
      ∨ len input.idempotencyKey = 0 ∨ len input.idempotencyKey > 256)
    (.invalidRequest "invalid single-article distribution request")
  failIf (input.revision.document.requiresRichPublication ≠ (input.format = richDistributionFormat))
    (.invalidRequest "single-article format does not match content structure")
  failIf
    (input.withdrawAfterPublish
      ∧ (input.account.ownerKind ≠ .customer ∨ input.account.platform ≠ "zhihu"
        ∨ input.placementSlot ≠ "short_post" ∨ input.format ≠ textDistributionFormat))
    (.invalidRequest "automatic withdrawal requires a supported owned plain short post")
  pure
    { requestId
      scope
      schemaVersion := contentDistributionRequestSchemaVersion
      contentRevisionId := input.revision.revisionId
      contentAssetId := input.revision.assetId
      platformId := input.account.platform
      placementSlot := input.placementSlot
      accountId := input.account.accountId
      accountOwnerKind := ownerKindText input.account.ownerKind
      format := input.format
      withdrawAfterPublish := input.withdrawAfterPublish
      idempotencyKeyHash := digest [input.idempotencyKey]
      requestHash := digest (requestParts input)
      publicationIntentId := none
      materializationDeferral := none
      createdAt := now }

/-! ### Agreeing with an intent -/

/-- The variant policy of a format. -/
def formatPolicy (format : String) : Option String :=
  if format = textDistributionFormat then some channelVariantPolicy
  else if format = richDistributionFormat then some richChannelVariantPolicy
  else none

def validateDistributionRequestIntent [Sha256] [UrlParser] (request : ContentDistributionRequest)
    (intent : PublicationIntent) (variant : ChannelVariant) : Except AppError Unit := do
  let policy ← okOr (formatPolicy request.format) (.conflict "request format not supported")
  -- The source expects a project here; only requests of a project are accepted.
  let projectId ← okOr request.scope.projectId (.new .internal "validated project")
  failIf
    (intent.projectId ≠ projectId ∨ intent.contentRevisionId ≠ request.contentRevisionId
      ∨ intent.platformId ≠ request.platformId
      ∨ intent.placementSlot ≠ request.placementSlot
      ∨ intent.accountId ≠ request.accountId
      ∨ intent.variantId ≠ variant.variantId
      ∨ intent.payloadHash ≠ variant.payloadHash
      ∨ variant.contentRevisionId ≠ request.contentRevisionId
      ∨ variant.platformId ≠ request.platformId
      ∨ variant.placementSlot ≠ request.placementSlot
      ∨ variant.policyVersion ≠ policy
      ∨ (request.format = richDistributionFormat) ≠ variant.richPayload.isSome)
    (.conflict "publication intent differs from frozen request")
  if variant.richPayload.isSome then validateRichPublicationPayload variant else pure ()

/-! ### The authorities -/

/-- What the media repository answers. A page is numbered by how many may still be read. -/
structure RequestMedia where
  snapshotAuthorizedImages : TenantScope → List MediaObjectKey → Except AppError (List VerifiedImage)
  listBindings : Nat → TenantScope → Option Uuid → Nat → Except AppError (List ContentMediaBinding)

/-- What the other repositories answer while a request is checked. The detail of a source may be read more
than once and differ, so each read has a number. An item answers with its content type. -/
structure MemoryRequestAuthorities where
  project : TenantScope → ProjectId → Except AppError (Option Project)
  listAccounts : TenantScope → Except AppError (List ChannelAccount)
  listAssignedPoolAccounts : TenantScope → Except AppError (List PoolAccount)
  connector : OperatorId → ConnectorKey → Except AppError (Option ConnectorSettings)
  connectorHistory : OperatorId → ConnectorKey → Except AppError (List ConnectorVerification)
  getAsset : TenantScope → Uuid → Except AppError (Option ContentAsset)
  getItemType : TenantScope → Uuid → Uuid → Except AppError (Option String)
  getRevision : TenantScope → Uuid → Uuid → Except AppError (Option ContentRevision)
  listChecks : TenantScope → Uuid → Except AppError (List ContentCheck)
  listSources : TenantScope → Except AppError (List Source)
  getSourceDetail : Nat → TenantScope → Uuid → Except AppError (Option SourceDetail)
  media : Option RequestMedia

def PoolAccount.assignedView (account : PoolAccount) (projectId : ProjectId) : ChannelAccount where
  accountId := account.accountId
  projectId
  ownerKind := .operatorPool
  platform := account.platform
  groupId := account.groupId
  status := account.status
  displayName := account.displayName
  platformAccountId := account.platformAccountId
  avatarUrl := account.avatarUrl
  enabled := account.enabled
  proxyConfigured := account.proxyConfigured
  -- The operator's infrastructure stays private.
  proxyServer := none
  createdAt := account.createdAt
  updatedAt := account.updatedAt

def publicationFormatForSemanticType (contentType : String) : Option String :=
  if contentType ∈ ["faq", "guide", "article", "comparison", "case_study", "landing_page",
      "product_page", "how_to", "company_profile"] then some plainTextArticleFormat
  else none

/-! ### Live checks -/

/-- A check that may fail with a reason. -/
abbrev LiveCheck (α : Type) : Type :=
  Except ContentRequestMaterializationFailure α

/-- `?` on the answer of another repository. -/
def answered {α : Type} : Except AppError α → LiveCheck α
  | .ok a => .ok a
  | .error e => .error (.ofError e)

/-- The account of a request, if it may publish now. -/
def readyAccount (request : ContentDistributionRequest) (account : ChannelAccount) : Bool :=
  account.accountId = request.accountId ∧ account.platform = request.platformId ∧ account.enabled ∧ account.status
    = .ready ∧ request.accountOwnerKind = ownerKindText account.ownerKind

/-- The operator's settings allow the format of a request. -/
def permittedFormat (request : ContentDistributionRequest) (semantic : Option String)
    (settings : ConnectorSettings) : Bool :=
  if request.format = richDistributionFormat then settings.contentTypes.contains richMarkdownFormat
  else
    settings.contentTypes.contains plainTextArticleFormat
      || semantic.any fun contentType =>
        (publicationFormatForSemanticType contentType).isSome && settings.contentTypes.contains contentType

/-- The connector may publish a request. A first plain text needs no proof, rich content does. -/
def checkConnector (authority : MemoryRequestAuthorities) (request : ContentDistributionRequest) : LiveCheck Unit := do
  let key : ConnectorKey :=
    { platformId := request.platformId, placementSlot := request.placementSlot }
  let configured ← answered (authority.connector request.scope.operatorId key)
  let asset ← answered (authority.getAsset request.scope request.contentAssetId)
  let semantic ←
    match asset with
    | some asset => answered (authority.getItemType request.scope asset.executionId asset.itemId)
    | none => pure none
  let unavailable : ContentRequestMaterializationFailure :=
    { reason := .connectorUnavailable, error := .conflict "publication format is not available" }
  failIf (configured.any fun settings => ¬ settings.enabled ∨ ¬ permittedFormat request semantic settings) unavailable
  if request.format = richDistributionFormat then do
    failIf configured.isNone unavailable
    let history ← answered (authority.connectorHistory request.scope.operatorId key)
    failIf (¬ history.any fun verified => verified.contentType = richMarkdownFormat) unavailable
  else pure ()

/-- The text of a chunk is what a quote repeats. -/
def quotes (chunk : Chunk) (quote : ContentEvidence) : Bool :=
  match chunk.locator with
  | .csv .. => chunk.text = quote.exactQuote
  | _ => String.ofList (chunk.text.toList.take contentEvidenceMaxQuoteChars) = quote.exactQuote

/-- Each reference is quoted from a public source that has not changed. -/
def checkEvidence (authority : MemoryRequestAuthorities) (scope : TenantScope) (sources : List Source)
    (quoted : List ContentEvidence) (reads : Nat) : List EvidenceRef → LiveCheck Unit
  | [] => pure ()
  | reference :: rest => do
    let unavailable (message : String) : ContentRequestMaterializationFailure :=
      { reason := .sourceUnavailable, error := .conflict message }
    let source ← okOr
      (sources.find? fun source =>
        source.currentVersionId = some reference.sourceVersionId ∧ source.state = .active ∧ source.purpose = .publicUse)
      (unavailable "publication source is not public")
    let found ← answered (authority.getSourceDetail reads scope source.sourceId)
    let detail ← okOr found (unavailable "publication source unavailable")
    let quote ← okOr (quoted.find? fun quote => quote.reference = reference)
      (unavailable "publication quote unavailable")
    failIf
      (¬ detail.chunks.any fun chunk =>
        some chunk.chunkId = reference.chunkId ∧ chunk.sourceVersionId = reference.sourceVersionId
          ∧ chunk.locator = reference.locator ∧ quotes chunk quote)
      (unavailable "publication quote changed")
    checkEvidence authority scope sources quoted (reads + 1) rest

/-- Ask every authority again. What comes back is the revision that was accepted. -/
def checkLive (authorities : Option MemoryRequestAuthorities) (request : ContentDistributionRequest)
    (acceptedRevision : ContentRevision) : LiveCheck ContentRevision := do
  let authority ← answered
    (okOr authorities
      (.capabilityMissing "publication validation authorities unavailable"))
  let scope := request.scope
  -- The source expects a project here; only requests of a project are accepted.
  let projectId ← answered (okOr scope.projectId (.new .internal "validated request scope"))
  let found ← answered (authority.project scope projectId)
  let project ← answered (okOr found (.notFound "project not found"))
  failIf (project.status = .paused ∨ project.status = .archived)
    { reason := .projectPaused, error := .conflict "project is not active" }
  let own ← answered (authority.listAccounts scope)
  let pool ← answered (authority.listAssignedPoolAccounts scope)
  let accounts := own ++ pool.map fun account => account.assignedView project.id
  failIf (¬ accounts.any (readyAccount request))
    { reason := .accountUnavailable, error := .conflict "publication account is not ready" }
  failIf (request.format ≠ textDistributionFormat ∧ request.format ≠ richDistributionFormat)
    { reason := .formatUnsupported, error := .conflict "publication format is not supported" }
  checkConnector authority request
  let stored ← answered
    (authority.getRevision scope request.contentAssetId request.contentRevisionId)
  let revision ← okOr stored
    { reason := .contentNotReady, error := .conflict "publication revision unavailable" }
  failIf
    (revision.document.requiresRichPublication ≠ (request.format = richDistributionFormat))
    { reason := .formatUnsupported
      error := .conflict "publication format differs from revision structure" }
  let notReady : ContentRequestMaterializationFailure :=
    { reason := .contentNotReady, error := .conflict "independent content check unavailable" }
  failIf (revision ≠ acceptedRevision ∨ revision.findings.any fun finding => finding.blocking)
    notReady
  let checks ← answered (authority.listChecks scope request.contentRevisionId)
  failIf
    (¬ checks.any fun check =>
      check.revisionId = request.contentRevisionId
        ∧ ¬ check.findings.any fun finding => finding.blocking)
    notReady
  let sources ← answered (authority.listSources scope)
  failIf (revision.evidence = [] ∨ revision.quotes = [])
    { reason := .sourceUnavailable, error := .conflict "publication requires public evidence" }
  checkEvidence authority scope sources revision.quotes 0 revision.evidence
  pure revision

/-! ### Rich media -/

/-- The order of the derived `Ord`. -/
def MediaObjectKey.le (a b : MediaObjectKey) : Prop :=
  a.objectId < b.objectId
    ∨ a.objectId = b.objectId
      ∧ (a.objectVersion < b.objectVersion ∨ a.objectVersion = b.objectVersion ∧ a.sha256 ≤ b.sha256)

instance (a b : MediaObjectKey) : Decidable (a.le b) :=
  inferInstanceAs (Decidable (_ ∨ _ ∧ (_ ∨ _ ∧ _)))

/-- The distinct keys, each of them valid. -/
def distinctKeys (distinct : List MediaObjectKey) : List MediaObjectKey → Except AppError (List MediaObjectKey)
  | [] => pure distinct
  | key :: rest => do
    key.validate
    let distinct := distinct.insert key
    failIf (distinct.length > maxMediaSnapshotImages) (.invalidRequest "too many images in media export")
    distinctKeys distinct rest

/-- Stable object order also prevents a version of an object from being asked for under two digests. -/
def orderedMediaSnapshotKeys (keys : List MediaObjectKey) : Except AppError (List MediaObjectKey) := do
  let distinct ← distinctKeys [] keys
  let ordered := distinct.insertionSort MediaObjectKey.le
  failIf
    ((ordered.zip ordered.tail).any fun pair =>
      pair.1.objectId = pair.2.objectId ∧ pair.1.objectVersion = pair.2.objectVersion)
    (.conflict "conflicting digests for media object version")
  pure ordered

/-- The bindings of a page whose image was verified. -/
def verifiedBindings (verified : AssocMap MediaObjectKey VerifiedImage)
    (found : AssocMap MediaObjectKey ContentMediaBinding) :
    List ContentMediaBinding → Except AppError (AssocMap MediaObjectKey ContentMediaBinding)
  | [] => pure found
  | binding :: rest =>
    match verified.lookup binding.image.key with
    | some image => do
      failIf (binding.image ≠ image) (.conflict "publication image metadata changed")
      verifiedBindings verified (found.insert binding.image.key binding) rest
    | none => verifiedBindings verified found rest

/-- Walk the pages until every image has its binding or a page is not full. -/
def walkBindings (media : RequestMedia) (scope : TenantScope) (verified : AssocMap MediaObjectKey VerifiedImage) :
    Nat → Option Uuid → AssocMap MediaObjectKey ContentMediaBinding →
      Except AppError (AssocMap MediaObjectKey ContentMediaBinding)
  | 0, _, found => pure found
  | pages + 1, after, found => do
    let page ← media.listBindings pages scope after 100
    if page = [] then pure found
    else do
      let found ← verifiedBindings verified found page
      if found.entries.length = verified.entries.length ∨ page.length < 100 then pure found
      else
        walkBindings media scope verified pages (page.getLast?.map fun binding => binding.bindingId) found

/-- The bindings of the keys in order, each used once. -/
def takeBindings (found : AssocMap MediaObjectKey ContentMediaBinding) :
    List MediaObjectKey → Except AppError (List ContentMediaBinding)
  | [] => pure []
  | key :: rest => do
    let binding ← okOr (found.lookup key) (.conflict "publication media binding unavailable")
    let bindings ← takeBindings (found.erase key) rest
    pure (binding :: bindings)

/-- The bindings of the images of a revision. They are not authorization to send. -/
def richMediaBindings (authorities : Option MemoryRequestAuthorities) (scope : TenantScope)
    (revision : ContentRevision) : Except AppError (List ContentMediaBinding) := do
  let ordered ←
    orderedMediaSnapshotKeys (revision.document.mediaReferences.map MediaReference.key)
  if ordered = [] then pure []
  else do
    let media ← okOr (authorities.bind fun authority => authority.media)
      (.capabilityMissing "media authority unavailable")
    let snapshots ← media.snapshotAuthorizedImages scope ordered
    failIf (snapshots.length ≠ ordered.length) (.conflict "publication media snapshot is incomplete")
    let verified := snapshots.foldl (fun verified image => verified.insert image.key image) ∅
    let found ← walkBindings media scope verified 1000 none ∅
    takeBindings found ordered

end GeoMaster
