import GeoMaster.Domain.Content
import GeoMaster.Domain.RichPublication

/-!
# Frozen coverage

A distribution manifest freezes which documents go to which placements. Each pair is one coverage cell,
numbered document by document, and the cell of a number is computed from the manifest alone. A cell whose
document is ready and whose placement takes it is published through a variant of the document's revision,
an intent and an outbox command. The intent's identity does not mention the cycle, so the same publication
is found again in a later cycle or by a single-article request.
-/

namespace GeoMaster

open Except Json

def channelVariantPolicy : String :=
  "deterministic-markdown-v1"

structure PlatformPlacement where
  (platformId placementSlot capabilityVersion : String)
  supportedFormats : List String
  unavailableReason : Option String
  fixture : Bool
  deriving DecidableEq

structure DistributionDocument where
  documentItemId : Uuid
  (documentKey contentType : String)
  status : ContentItemStatus
  reason : Option String
  contentRevisionId : Option Uuid
  deriving DecidableEq

structure DistributionManifest where
  manifestId : Uuid
  projectId : ProjectId
  cycleId : Uuid
  revision : Int
  documentManifestId : Uuid
  documentManifestRevision : Int
  (contentExecutionId contentHandoffId : Uuid)
  platformScope : List PlatformPlacement
  documentRoster : List DistributionDocument
  inputHash : String
  expectedCount : Nat
  sealedAt : DateTime
  expansionCursor : Nat
  complete : Bool

structure FreezeDistribution where
  cycleId : Uuid
  revision : Int
  documentManifest : DocumentManifest
  contentExecution : ContentExecution
  contentHandoff : ContentHandoff
  placements : List PlatformPlacement
  sealedAt : DateTime

inductive DistributionDeferralReason where
  | sourceUnavailable
  | sourceChanged
  | contentUnsupported

def DistributionDeferralReason.code : DistributionDeferralReason → String
  | .sourceUnavailable => "source_unavailable"
  | .sourceChanged => "source_changed"
  | .contentUnsupported => "content_unsupported"

structure PreparedDistribution where
  (manifestId targetId : Uuid)
  revision : Option ContentRevision
  accountId : Option Uuid
  deferReason : Option DistributionDeferralReason

/-! ### JSON of the frozen inputs -/

/-- The text `chrono` serializes an instant as. -/
class InstantJson where
  text : DateTime → String

/-- An optional field that is written as null when it is missing. -/
def Json.nullable {α : Type} (json : α → Json) (value : Option α) : Json :=
  value.elim .null json

def DocumentManifestState.json : DocumentManifestState → Json
  | .awaitingKnowledge => .string "awaiting_knowledge"
  | .planning => .string "planning"
  | .ready => .string "ready"
  | .closed => .string "closed"

def DocumentManifestItemState.json : DocumentManifestItemState → Json
  | .planned => .string "planned"
  | .blocked => .string "blocked"
  | .deferred => .string "deferred"
  | .notApplicable => .string "not_applicable"

def ContentItemStatus.json : ContentItemStatus → Json
  | .pending => .string "pending"
  | .prepared => .string "prepared"
  | .drafted => .string "drafted"
  | .needsRepair => .string "needs_repair"
  | .ready => .string "ready"
  | .blocked => .string "blocked"
  | .deferred => .string "deferred"
  | .notApplicable => .string "not_applicable"
  | .cancelled => .string "cancelled"

def DocumentManifestItem.json (item : DocumentManifestItem) : Json :=
  .object
    ([("document_manifest_item_id", item.documentManifestItemId.json), ("manifest_id", item.manifestId.json),
        ("knowledge_release_id", item.knowledgeReleaseId.json), ("document_key", .string item.documentKey),
        ("content_type", .string item.contentType)]
      ++ Json.optionalField "product_id" (item.productId.map Uuid.json)
      ++ [("market", .string item.market), ("language", .string item.language), ("state", item.state.json)]
      ++ Json.optionalField "block_reason" (item.blockReason.map .string)
      ++ [("dependency_hash", .string item.dependencyHash),
        ("source_version_refs", .array (item.sourceVersionRefs.map Uuid.json))])

def DocumentManifest.json (manifest : DocumentManifest) : Json :=
  .object
    [("manifest_id", manifest.manifestId.json), ("operator_id", manifest.operatorId.asUuid.json),
      ("tenant_id", manifest.tenantId.asUuid.json), ("project_id", manifest.projectId.asUuid.json),
      ("revision", .ofInt manifest.revision), ("knowledge_release_id", manifest.knowledgeReleaseId.json),
      ("planner_version", .string manifest.plannerVersion), ("state", manifest.state.json),
      ("sealed", .bool manifest.sealed), ("expected_count", nullable .ofInt manifest.expectedCount),
      ("scope_hash", .string manifest.scopeHash), ("items", .array (manifest.items.map DocumentManifestItem.json)),
      ("coverage",
        .object
          [("total", .ofNat manifest.coverage.total), ("planned", .ofNat manifest.coverage.planned),
            ("blocked", .ofNat manifest.coverage.blocked), ("deferred", .ofNat manifest.coverage.deferred),
            ("not_applicable", .ofNat manifest.coverage.notApplicable)])]

def DistributionDocument.json (document : DistributionDocument) : Json :=
  .object
    [("document_item_id", document.documentItemId.json), ("document_key", .string document.documentKey),
      ("content_type", .string document.contentType), ("status", document.status.json),
      ("reason", nullable .string document.reason),
      ("content_revision_id", nullable Uuid.json document.contentRevisionId)]

def PlatformPlacement.json (placement : PlatformPlacement) : Json :=
  .object
    [("platform_id", .string placement.platformId), ("placement_slot", .string placement.placementSlot),
      ("capability_version", .string placement.capabilityVersion),
      ("supported_formats", .array (placement.supportedFormats.map .string)),
      ("unavailable_reason", nullable .string placement.unavailableReason), ("fixture", .bool placement.fixture)]

def ContentCoverage.json (coverage : ContentCoverage) : Json :=
  .object
    [("total", .ofNat coverage.total), ("ready", .ofNat coverage.ready), ("blocked", .ofNat coverage.blocked),
      ("deferred", .ofNat coverage.deferred), ("not_applicable", .ofNat coverage.notApplicable),
      ("cancelled", .ofNat coverage.cancelled), ("incomplete", .ofNat coverage.incomplete)]

def ContentHandoffItem.json (item : ContentHandoffItem) : Json :=
  .object
    [("item_id", item.itemId.json), ("document_key", .string item.documentKey), ("status", item.status.json),
      ("reason", nullable .string item.reason), ("revision_id", nullable Uuid.json item.revisionId)]

def ContentHandoff.json [InstantJson] (handoff : ContentHandoff) : Json :=
  .object
    [("handoff_id", handoff.handoffId.json), ("execution_id", handoff.executionId.json),
      ("revision", .ofInt handoff.revision),
      ("supersedes_handoff_id", nullable Uuid.json handoff.supersedesHandoffId),
      ("coverage", handoff.coverage.json), ("items", .array (handoff.items.map ContentHandoffItem.json)),
      ("created_at", .string (InstantJson.text handoff.createdAt))]

/-! ### Freezing -/

def checkScope (scope : TenantScope) (project : ProjectId) : Except AppError Unit :=
  failIf (scope.projectId ≠ some project) (.forbidden "distribution requires project scope")

/-- How many items of a handoff have a status. -/
def ContentHandoff.count (handoff : ContentHandoff) (status : ContentItemStatus) : Nat :=
  handoff.items.countP fun item => item.status = status

/-- The inputs are one closed execution of one sealed roster. -/
def FreezeDistribution.matching (input : FreezeDistribution) : Bool :=
  input.documentManifest.sealed ∧ input.documentManifest.expectedCount = some
    (input.documentManifest.items.length : Int) ∧ 0 < input.revision ∧ input.placements ≠ []
    ∧ input.contentExecution.projectId = input.documentManifest.projectId ∧ input.contentExecution.cycleId = some
    input.cycleId ∧ input.contentExecution.manifestId = input.documentManifest.manifestId
    ∧ input.contentExecution.manifestRevision = input.documentManifest.revision ∧ input.contentExecution.status
    = .closed ∧ input.contentExecution.expectedCount = input.documentManifest.items.length
    ∧ input.contentExecution.handoffId = some input.contentHandoff.handoffId ∧ input.contentHandoff.executionId
    = input.contentExecution.executionId ∧ input.contentHandoff.coverage.total = input.documentManifest.items.length
    ∧ input.contentHandoff.items.length = input.documentManifest.items.length

/-- The coverage of the handoff is that of its items, and nothing is left to do. -/
def FreezeDistribution.covered (input : FreezeDistribution) : Bool :=
  let handoff := input.contentHandoff
  handoff.coverage = input.contentExecution.coverage ∧ handoff.coverage.incomplete = 0 ∧ handoff.count .ready
    = handoff.coverage.ready ∧ handoff.count .blocked = handoff.coverage.blocked ∧ handoff.count .deferred
    = handoff.coverage.deferred ∧ handoff.count .notApplicable = handoff.coverage.notApplicable ∧ handoff.count
    .cancelled = handoff.coverage.cancelled

/-- A distinct publication surface. -/
def PlatformPlacement.key (placement : PlatformPlacement) : String × String :=
  (placement.platformId, placement.placementSlot)

/-- The order of placements: by platform, then by slot. -/
def PlatformPlacement.le (a b : PlatformPlacement) : Prop :=
  a.platformId < b.platformId ∨ a.platformId = b.platformId ∧ a.placementSlot ≤ b.placementSlot

instance (a b : PlatformPlacement) : Decidable (a.le b) :=
  inferInstanceAs (Decidable (_ ∨ _))

/-- The placements are named and pairwise different, with the keys seen so far. -/
def checkPlacements (seen : List (String × String)) : List PlatformPlacement → Except AppError Unit
  | [] => pure ()
  | place :: rest => do
    failIf
      (Text.isBlank place.platformId ∨ Text.isBlank place.placementSlot
        ∨ Text.isBlank place.capabilityVersion ∨ place.key ∈ seen)
      (.invalidRequest "invalid or duplicate platform placement")
    checkPlacements (place.key :: seen) rest

/-- The items of a handoff by their identities. -/
def handoffById (found : AssocMap Uuid ContentHandoffItem) :
    List ContentHandoffItem → Except AppError (AssocMap Uuid ContentHandoffItem)
  | [] => pure found
  | item :: rest => do
    failIf (item.itemId ∈ found) (.invalidRequest "handoff repeats document identity")
    handoffById (found.insert item.itemId item) rest

/-- The planned documents with what became of them. Each item of the handoff is used up. -/
def freezeRoster (items : AssocMap Uuid ContentHandoffItem) :
    List DocumentManifestItem → Except AppError (List DistributionDocument)
  | [] => pure []
  | planned :: rest => do
    let item ← okOr (items.lookup planned.documentManifestItemId)
      (.invalidRequest "handoff misses planned document")
    failIf
      (item.documentKey ≠ planned.documentKey
        ∨ ¬ (item.status = .ready ↔ item.revisionId.isSome))
      (.invalidRequest "handoff item is inconsistent")
    let roster ← freezeRoster (items.erase planned.documentManifestItemId) rest
    pure
      ({ documentItemId := item.itemId
         documentKey := item.documentKey
         contentType := planned.contentType
         status := item.status
         reason := item.reason
         contentRevisionId := item.revisionId } :: roster)

/-- The identity of a manifest: its cycle and revision, and the documents it covers. -/
def distributionManifestId [Sha256] (scope : TenantScope) (cycleId : Uuid) (revision : Int)
    (documents : DocumentManifest) : Uuid :=
  identity
    [scope.storageKey, cycleId.toString, toString revision, documents.manifestId.toString, toString documents.revision]

def freezeDistribution [Sha256] [InstantJson] (scope : TenantScope) (input : FreezeDistribution) :
    Except AppError DistributionManifest := do
  let documents := input.documentManifest
  checkScope scope documents.projectId
  failIf (scope.operatorId ≠ documents.operatorId ∨ scope.tenantId ≠ documents.tenantId)
    (.forbidden "document manifest is outside tenant scope")
  failIf (¬ input.matching) (.invalidRequest "distribution inputs are not a closed matching roster")
  failIf (¬ input.covered) (.invalidRequest "handoff coverage does not match terminal item states")
  checkPlacements [] input.placements
  let placements := input.placements.insertionSort PlatformPlacement.le
  let items ← handoffById ∅ input.contentHandoff.items
  let roster ← freezeRoster items documents.items
  failIf (2 ^ 64 ≤ roster.length * placements.length)
    (.invalidRequest "distribution coverage exceeds capacity")
  let expectedCount := roster.length * placements.length
  let frozen :=
    (array
      [documents.json, .array (roster.map DistributionDocument.json), .array (placements.map PlatformPlacement.json),
        .string input.contentExecution.inputHash, input.contentHandoff.json]).toText
  pure
    { manifestId := distributionManifestId scope input.cycleId input.revision documents
      projectId := documents.projectId
      cycleId := input.cycleId
      revision := input.revision
      documentManifestId := documents.manifestId
      documentManifestRevision := documents.revision
      contentExecutionId := input.contentExecution.executionId
      contentHandoffId := input.contentHandoff.handoffId
      platformScope := placements
      documentRoster := roster
      inputHash := digest [scope.storageKey, frozen]
      expectedCount
      sealedAt := input.sealedAt
      expansionCursor := 0
      complete := expectedCount = 0 }

/-! ### Cells -/

/-- The document and the placement of a cell. -/
def DistributionManifest.place (manifest : DistributionManifest) (ordinal : Nat) :
    Option (DistributionDocument × PlatformPlacement) := do
  let document ← manifest.documentRoster[ordinal / manifest.platformScope.length]?
  let placement ← manifest.platformScope[ordinal % manifest.platformScope.length]?
  pure (document, placement)

/-- What a document comes to on a placement. -/
def cellStatus (document : DistributionDocument) (placement : PlatformPlacement) :
    DistributionTargetStatus × Option String :=
  match document.status with
  | .blocked => (.blocked, document.reason)
  | .deferred => (.deferred, document.reason)
  | .notApplicable => (.notApplicable, document.reason)
  | .cancelled => (.cancelled, document.reason)
  | .ready =>
    match placement.unavailableReason with
    | some reason => (.deferred, some reason)
    | none =>
      if document.contentType ∈ placement.supportedFormats then (.pending, none)
      else (.notApplicable, some "unsupported_format")
  | _ => (.deferred, some "content_not_ready")

/-- What the identity of a target is drawn from. -/
def targetParts (manifestId : Uuid) (document : DistributionDocument) (placement : PlatformPlacement) : List String :=
  [manifestId.toString, document.documentItemId.toString, placement.platformId, placement.placementSlot]

/-- The cell of a document and a placement. -/
def cellOf [Sha256] (manifestId : Uuid) (ordinal : Nat) (document : DistributionDocument)
    (placement : PlatformPlacement) : DistributionTarget :=
  { targetId := identity (targetParts manifestId document placement)
    manifestId
    ordinal
    documentItemId := document.documentItemId
    contentRevisionId := document.contentRevisionId
    platformId := placement.platformId
    placementSlot := placement.placementSlot
    variantId := none
    accountId := none
    publicationIntentId := none
    status := (cellStatus document placement).1
    reason := (cellStatus document placement).2
    version := 1 }

/-- The cell of a number. There is none where the source would index out of bounds. -/
def distributionCell [Sha256] (manifest : DistributionManifest) (ordinal : Nat) : Option DistributionTarget :=
  (manifest.place ordinal).map fun pair => cellOf manifest.manifestId ordinal pair.1 pair.2

end GeoMaster
