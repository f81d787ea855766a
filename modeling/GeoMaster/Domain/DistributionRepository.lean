import GeoMaster.Domain.PublicationIntents
import GeoMaster.Lib.Calls
import GeoMaster.Lib.History

/-!
# The memory repository of distributions

Seven maps behind one lock: the manifests, the history of each target, the intents by their logical keys,
and the immutable variants, revisions, commands and request origins. Every operation holds the lock until it
returns. Identities are global to a tenant scope, so every map is keyed by the scope's text as well.
-/

namespace GeoMaster

open Except

structure DistributionTargetVersion where
  recordedAt : DateTime
  target : DistributionTarget

/-- The versions of a target, oldest first. A history is stored with its first version, so it is never
empty. -/
abbrev TargetHistory : Type :=
  History DistributionTargetVersion

namespace TargetHistory

/-- The time of the next version: now, or just after the last version. -/
def recordedAt (history : TargetHistory) (now : DateTime) : DateTime :=
  max now (history.last.recordedAt + 1)

/-- The version in force at a cutoff. -/
def versionAt (history : TargetHistory) (at_ : DateTime) : Option DistributionTargetVersion :=
  history.asOf DistributionTargetVersion.recordedAt at_

end TargetHistory

structure MemoryDistributionState where
  manifests : AssocMap (String × Uuid) DistributionManifest
  histories : AssocMap (String × Uuid) TargetHistory
  intents : AssocMap (String × String) PublicationIntent
  variants : AssocMap (String × Uuid) ChannelVariant
  revisions : AssocMap (String × Uuid) ContentRevision
  commands : AssocMap (String × Uuid) PublicationCommand
  requests : AssocMap (String × Uuid) ContentDistributionRequest

structure DistributionExpansionPage where
  manifestId : Uuid
  (cursor nextCursor : Nat)
  rows : List DistributionTarget

structure DistributionTargetPage where
  manifestId : Uuid
  rows : List DistributionTarget
  nextOrdinal : Option Nat
  expectedCount : Nat

structure MaterializedDistribution where
  target : DistributionTarget
  variant : Option ChannelVariant
  intent : Option PublicationIntent
  publicationCommands : List PublicationCommand

structure DistributionSnapshot where
  manifest : DistributionManifest
  targets : List DistributionTarget
  asOf : DateTime

structure DistributionCycleInputs where
  manifest : Option DistributionManifest
  targets : List DistributionTarget
  temporallyComplete : Bool

namespace MemoryDistributionState

def empty : MemoryDistributionState where
  manifests := ∅
  histories := ∅
  intents := ∅
  variants := ∅
  revisions := ∅
  commands := ∅
  requests := ∅

section Writes

variable (s : MemoryDistributionState)

variable (key : String × Uuid)

def insertManifest (manifest : DistributionManifest) : MemoryDistributionState :=
  { s with manifests := s.manifests.insert key manifest }

def insertHistory (history : TargetHistory) : MemoryDistributionState :=
  { s with histories := s.histories.insert key history }

def insertIntent (key : String × String) (intent : PublicationIntent) : MemoryDistributionState :=
  { s with intents := s.intents.insert key intent }

def insertCommand (command : PublicationCommand) : MemoryDistributionState :=
  { s with commands := s.commands.insert key command }

/-- Keep the variant that is there, or store this one. -/
def keepVariant (variant : ChannelVariant) : MemoryDistributionState :=
  if key ∈ s.variants then s else { s with variants := s.variants.insert key variant }

/-- Keep the revision that is there, or store this one. -/
def keepRevision (revision : ContentRevision) : MemoryDistributionState :=
  if key ∈ s.revisions then s else { s with revisions := s.revisions.insert key revision }

/-- Keep the origin that is there, or store this one. -/
def keepRequest (request : ContentDistributionRequest) : MemoryDistributionState :=
  if key ∈ s.requests then s else { s with requests := s.requests.insert key request }

end Writes

end MemoryDistributionState

namespace MemoryDistributionRepository

open MemoryDistributionState

/-- An operation of the repository. -/
abbrev DistributionOp (α : Type) : Type :=
  Op MemoryDistributionState AppError α

/-! ### Reads -/

def scopedManifest (s : MemoryDistributionState) (scope : TenantScope) (id : Uuid) :
    Except AppError DistributionManifest := do
  let manifest ← okOr (s.manifests.lookup (scope.storageKey, id)) (.notFound "distribution manifest not found")
  checkScope scope manifest.projectId
  pure manifest

/-- The stored histories of a scope, in the order of the map. -/
def scopedHistories (s : MemoryDistributionState) (scope : TenantScope) : List TargetHistory :=
  (s.histories.entries.filter fun e => e.1.1 = scope.storageKey).map (·.2)

def sortByOrdinal (targets : List DistributionTarget) : List DistributionTarget :=
  targets.insertionSort fun a b => a.ordinal ≤ b.ordinal

def get (s : MemoryDistributionState) (scope : TenantScope) (id : Uuid) : Except AppError DistributionManifest :=
  scopedManifest s scope id

def getTarget (s : MemoryDistributionState) (scope : TenantScope) (manifestId targetId : Uuid) :
    Except AppError DistributionTarget := do
  let _ ← scopedManifest s scope manifestId
  okOr
    (((s.histories.lookup (scope.storageKey, targetId)).map fun history =>
      history.last.target).filter fun target => target.manifestId = manifestId)
    (.notFound "distribution target not found")

/-- The length of the run `0, 1, 2, …` the ordinals begin with, below a bound. -/
def denseFrom (bound index : Nat) : List DistributionTarget → Nat
  | [] => 0
  | target :: rest =>
    if target.ordinal < bound ∧ index = target.ordinal then denseFrom bound (index + 1) rest + 1
    else 0

def asOf (s : MemoryDistributionState) (scope : TenantScope) (id : Uuid) (at_ : DateTime) :
    Except AppError DistributionSnapshot := do
  let manifest ← scopedManifest s scope id
  failIf (at_ < manifest.sealedAt) (.notFound "manifest was not frozen at cutoff")
  let versions := (scopedHistories s scope).filterMap fun history => TargetHistory.versionAt history at_
  let targets := sortByOrdinal ((versions.filter fun version => version.target.manifestId = id).map (·.target))
  let cursor := denseFrom manifest.expectedCount 0 targets
  pure
    { manifest :=
        { manifest with
          expansionCursor := cursor
          complete := cursor = manifest.expectedCount }
      targets
      asOf := at_ }

def expansionPage [Sha256] (s : MemoryDistributionState) (scope : TenantScope) (id : Uuid)
    (cursor limit : Nat) : Except AppError DistributionExpansionPage := do
  let manifest ← get s scope id
  failIf (limit = 0 ∨ cursor > manifest.expectedCount)
    (.invalidRequest "invalid expansion cursor or page limit")
  let last := min (cursor + limit) manifest.expectedCount
  pure
    { manifestId := id
      cursor
      nextCursor := last
      rows := (List.range' cursor (last - cursor)).filterMap (distributionCell manifest) }

/-- The targets of a manifest after an ordinal, in order, and where the next page begins. -/
def listTargets (s : MemoryDistributionState) (scope : TenantScope) (id : Uuid)
    (afterOrdinal : Option Nat) (limit : Nat) : Except AppError DistributionTargetPage := do
  failIf (limit = 0) (.invalidRequest "target page limit must be positive")
  let manifest ← scopedManifest s scope id
  let found := (scopedHistories s scope).filter fun history =>
    history.last.target.manifestId = id
      ∧ ∀ cursor ∈ afterOrdinal, cursor < history.last.target.ordinal
  let targets := (sortByOrdinal (found.map fun history => history.last.target)).take limit
  pure
    { manifestId := id
      rows := targets
      nextOrdinal :=
        (targets.getLast?.map (·.ordinal)).filter fun ordinal => ordinal + 1 < manifest.expansionCursor
      expectedCount := manifest.expectedCount }

/-- `max_by_key`: the last of the elements with the greatest key. -/
def maxByRevision : List DistributionManifest → Option DistributionManifest
  | [] => none
  | manifest :: rest =>
    match maxByRevision rest with
    | none => some manifest
    | some best => if manifest.revision ≤ best.revision then some best else some manifest

/-- The manifests of a cycle that meet a condition, in the order of the map. -/
def cycleManifests (s : MemoryDistributionState) (scope : TenantScope) (cycle : Uuid)
    (keep : DistributionManifest → Bool) : List DistributionManifest :=
  (s.manifests.entries.filter fun e =>
    e.1.1 = scope.storageKey ∧ scope.projectId = some e.2.projectId ∧ e.2.cycleId = cycle ∧ keep e.2).map (·.2)

def latestForCycle (s : MemoryDistributionState) (scope : TenantScope) (cycle : Uuid) : Option DistributionManifest :=
  maxByRevision (cycleManifests s scope cycle fun _ => true)

/-- The manifest in force at a cutoff. -/
def sealedManifest (s : MemoryDistributionState) (scope : TenantScope) (cycle : Uuid)
    (at_ : DateTime) : Option DistributionManifest :=
  maxByRevision (cycleManifests s scope cycle fun manifest => manifest.sealedAt ≤ at_)

/-- The lock is released between the choice of the manifest and the reading of its targets, so the two
read different states. -/
def cycleInputs (s s' : MemoryDistributionState) (scope : TenantScope) (cycle : Uuid)
    (at_ : DateTime) : Except AppError DistributionCycleInputs :=
  match sealedManifest s scope cycle at_ with
  | some manifest => do
    let snapshot ← asOf s' scope manifest.manifestId at_
    pure
      { manifest := some snapshot.manifest
        targets := snapshot.targets
        temporallyComplete := snapshot.targets.length = manifest.expectedCount }
  | none => pure { manifest := none, targets := [], temporallyComplete := false }

/-- The first intent of a scope with an identity, in the order of the map. -/
def findIntent (s : MemoryDistributionState) (scope : TenantScope) (intentId : Uuid) :
    Option ((_ : String × String) × PublicationIntent) :=
  s.intents.entries.find? fun e => e.1.1 = scope.storageKey ∧ e.2.intentId = intentId

/-- The first command of an intent, in the order of the map. -/
def findCommand (s : MemoryDistributionState) (scope : TenantScope) (intentId : Uuid) : Option PublicationCommand :=
  (s.commands.entries.find? fun e => e.1.1 = scope.storageKey ∧ e.2.intentId = intentId).map (·.2)

/-- The origin a command names. -/
def publicationOrigin (s : MemoryDistributionState) (scope : TenantScope)
    (intent : PublicationIntent) (command : PublicationCommand) : Except AppError PublicationOrigin :=
  if command.targetId.isNil then do
    let request ← okOr (s.requests.lookup (scope.storageKey, intent.intentId))
      (.notFound "distribution request not found")
    pure (.contentRequest request)
  else do
    let history ← okOr (s.histories.lookup (scope.storageKey, command.targetId))
      (.notFound "distribution target not found")
    pure (.coverageTarget history.last.target)

def getPublicationBundle [Sha256] [UrlParser] (s : MemoryDistributionState) (scope : TenantScope)
    (intentId : Uuid) : Except AppError PublicationBundle := do
  let found ← okOr (findIntent s scope intentId) (.notFound "publication intent not found")
  let intent := found.2
  let variant ← okOr (s.variants.lookup (scope.storageKey, intent.variantId))
    (.notFound "publication variant not found")
  let revision ← okOr (s.revisions.lookup (scope.storageKey, intent.contentRevisionId))
    (.notFound "content revision not found")
  let command ← okOr (findCommand s scope intentId) (.notFound "publication command not found")
  let origin ← publicationOrigin s scope intent command
  let bundle : PublicationBundle := { revision, variant, intent, origin, command }
  bundle.validateOrigin
  pure bundle

/-! ### Freezing and expanding -/

def freeze [Sha256] [InstantJson] (scope : TenantScope) (input : FreezeDistribution)
    (now : DateTime) : DistributionOp DistributionManifest := do
  let manifest ← Op.lift (freezeDistribution scope input)
  let key := (scope.storageKey, manifest.manifestId)
  let old ← Op.read fun s => s.manifests.lookup key
  match old with
  | some old => do
    Op.failIf (old.inputHash ≠ manifest.inputHash) (.conflict "frozen distribution inputs differ")
    pure old
  | none => do
    let manifest := { manifest with sealedAt := now }
    Op.modify fun s => s.insertManifest key manifest
    pure manifest

/-- The rows are the cells of a manifest from an ordinal on. -/
def matchesRoster [Sha256] (manifest : DistributionManifest) (cursor : Nat) (rows : List DistributionTarget) : Bool :=
  rows.zipIdx.all fun row => some row.1 = distributionCell manifest (cursor + row.2)

/-- The rows are the first versions of stored histories. -/
def alreadyCommitted (s : MemoryDistributionState) (scope : TenantScope) (rows : List DistributionTarget) : Bool :=
  rows.all fun row =>
    (s.histories.lookup (scope.storageKey, row.targetId)).any fun history => history.first.target = row

/-- Put a target behind the versions that are there. -/
def appendVersion (key : String × Uuid) (target : DistributionTarget) (now : DateTime)
    (s : MemoryDistributionState) : MemoryDistributionState :=
  s.insertHistory key (match s.histories.lookup key with
    | some history => history.push { recordedAt := TargetHistory.recordedAt history now, target }
    | none => .start { recordedAt := now, target })

/-- Record the rows one after the other. The clock is read for each. -/
def recordRows (scope : TenantScope) (clock : Nat → DateTime) :
    Nat → List DistributionTarget → MemoryDistributionState → MemoryDistributionState
  | _, [], s => s
  | i, row :: rest, s =>
    recordRows scope clock (i + 1) rest (appendVersion (scope.storageKey, row.targetId) row (clock i) s)

def commitExpansionPage [Sha256] (scope : TenantScope) (id : Uuid) (expectedCursor : Nat)
    (rows : List DistributionTarget) (clock : Nat → DateTime) : DistributionOp DistributionManifest := do
  Op.failIf (rows = []) (.invalidRequest "expansion page is empty")
  let s ← Op.read fun s => s
  let manifest ← Op.lift (scopedManifest s scope id)
  Op.failIf (2 ^ 64 ≤ expectedCursor + rows.length) (.invalidRequest "expansion cursor overflow")
  let last := expectedCursor + rows.length
  Op.failIf (last > manifest.expectedCount ∨ ¬ matchesRoster manifest expectedCursor rows)
    (.conflict "expansion rows do not match frozen roster")
  if manifest.expansionCursor ≠ expectedCursor then do
    Op.failIf (¬ (last ≤ manifest.expansionCursor ∧ alreadyCommitted s scope rows))
      (.conflict "expansion cursor changed")
    pure manifest
  else do
    let manifest :=
      { manifest with expansionCursor := last, complete := last = manifest.expectedCount }
    Op.modify fun s => (recordRows scope clock 0 rows s).insertManifest (scope.storageKey, id) manifest
    pure manifest

/-! ### Materializing coverage -/

/-- Reasons a later materialization may clear. -/
def temporaryReasons : List String :=
  ["account_unassigned", "source_unavailable", "source_changed", "content_unsupported"]

/-- Whether a target may be materialized in a status. -/
def materializable (status : DistributionTargetStatus) : Bool :=
  status ∈ [.pending, .deferred, .ready, .reusedUnknown, .reusedVerified]

/-- Record a target if it differs from its last version, under the next version number. -/
def changeTarget (key : String × Uuid) (old next : DistributionTarget) (now : DateTime) :
    DistributionOp DistributionTarget :=
  if next = old then pure next
  else do
    let next := { next with version := next.version + 1 }
    Op.modify (appendVersion key next now)
    pure next

/-- The target put off for a reason. -/
def putOff (old : DistributionTarget) (reason : String) : DistributionTarget :=
  { old with status := .deferred, reason := some reason }

variable (scope : TenantScope)

/-- Put a target off for a temporary reason. -/
def deferTarget (key : String × Uuid) (old : DistributionTarget)
    (reason : DistributionDeferralReason) (now : DateTime) : DistributionOp MaterializedDistribution := do
  let next ← changeTarget key old (putOff old reason.code) now
  let s ← Op.read id
  pure
    { target := next
      variant := old.variantId.bind fun id => s.variants.lookup (scope.storageKey, id)
      intent := (old.publicationIntentId.bind fun id => findIntent s scope id).map (·.2)
      publicationCommands := [] }

/-- No account was assigned. -/
def unassignTarget (key : String × Uuid) (old : DistributionTarget) (now : DateTime) :
    DistributionOp MaterializedDistribution := do
  Op.failIf old.publicationIntentId.isSome (.conflict "assigned intent cannot be unassigned")
  let next ← changeTarget key old (putOff old "account_unassigned") now
  pure { target := next, variant := none, intent := none, publicationCommands := [] }

/-- The variant a prepared revision becomes on a placement. -/
def materializedVariant [Sha256] [UrlParser] (scope : TenantScope) (revision : ContentRevision)
    (placement : PlatformPlacement) (bindings : List ContentMediaBinding) : Except AppError ChannelVariant :=
  if revision.document.requiresRichPublication then
    prepareRichVariantAuthorized revision placement scope bindings
  else do
    failIf (bindings ≠ []) (.invalidRequest "plain publication cannot contain rich media bindings")
    prepareVariant revision placement

/-- The revision or the variant is stored with another content. -/
def payloadDiffers (s : MemoryDistributionState) (scope : TenantScope) (revision : ContentRevision)
    (variant : ChannelVariant) : Bool :=
  ((s.revisions.lookup (scope.storageKey, revision.revisionId)).any fun prior => prior ≠ revision)
    || (s.variants.lookup (scope.storageKey, variant.variantId)).any fun prior => prior ≠ variant

/-- The request a publication came from asks for its withdrawal. -/
def withdrawsAfterPublish (s : MemoryDistributionState) (scope : TenantScope) (intentId : Uuid) : Bool :=
  (s.requests.lookup (scope.storageKey, intentId)).any fun request => request.withdrawAfterPublish

/-- The status of a target bound to an intent that was there before, or to a new one. -/
def boundStatus (old : DistributionTarget) : Option PublicationIntent → DistributionTargetStatus
  | none => .ready
  | some prior =>
    if prior.verification = .verified then .reusedVerified
    else if prior.verification = .unknown then .reusedUnknown
    else if prior.channelTargetId = old.targetId then
      if old.status = .deferred then .ready else old.status
    else .reusedUnknown

/-- Store an intent with its command if the logical publication is new, and the payload it carries. -/
def storePublication (previous : Option PublicationIntent) (intent : PublicationIntent) (command : PublicationCommand)
    (variant : ChannelVariant) (revision : ContentRevision) (s : MemoryDistributionState) : MemoryDistributionState :=
  let s :=
    match previous with
    | some _ => s
    | none =>
      (s.insertCommand (scope.storageKey, command.commandId) command).insertIntent
        (scope.storageKey, intent.logicalKey) intent
  (s.keepVariant (scope.storageKey, variant.variantId) variant).keepRevision
    (scope.storageKey, revision.revisionId) revision

/-- The times one materialization reads. -/
structure MaterializeClock where
  (createdAt recordedAt : DateTime)

/-- Bind a target to the intent of its publication through an account. -/
def bindTarget [Sha256] [UrlParser] (scope : TenantScope) (key : String × Uuid) (manifest : DistributionManifest)
    (placement : PlatformPlacement) (old : DistributionTarget) (prepared : Option ContentRevision) (accountId : Uuid)
    (bindings : List ContentMediaBinding) (clock : MaterializeClock) : DistributionOp MaterializedDistribution := do
  let revision ← Op.okOr prepared (.invalidRequest "content revision required")
  Op.failIf (some revision.revisionId ≠ old.contentRevisionId)
    (.conflict "content revision differs from frozen handoff")
  let variant ← Op.lift (materializedVariant scope revision placement bindings)
  let s ← Op.read id
  Op.failIf (payloadDiffers s scope revision variant)
    (.conflict "immutable content revision or channel variant changed")
  let (candidate, command) := preparePublicationIntent scope manifest old variant accountId clock.createdAt
  let previous := s.intents.lookup (scope.storageKey, candidate.logicalKey)
  Op.failIf (previous.any fun intent => withdrawsAfterPublish s scope intent.intentId)
    (.conflict "logical publication withdrawal policy differs")
  let intent := previous.getD candidate
  Op.failIf (∃ bound ∈ old.publicationIntentId, bound ≠ intent.intentId ∨ old.accountId ≠ some accountId)
    (.conflict "target is already bound to another intent")
  Op.modify (storePublication scope previous intent command variant revision)
  let next ← changeTarget key old
    { old with
      variantId := some variant.variantId
      accountId := some accountId
      publicationIntentId := some intent.intentId
      status := boundStatus old previous
      reason := none } clock.recordedAt
  pure
    { target := next
      variant := some variant
      intent := some intent
      publicationCommands := if previous.isNone then [command] else [] }

def materializeRich [Sha256] [UrlParser] (scope : TenantScope) (prepared : PreparedDistribution)
    (bindings : List ContentMediaBinding) (clock : MaterializeClock) : DistributionOp MaterializedDistribution := do
  let s ← Op.read id
  let manifest ← Op.lift (scopedManifest s scope prepared.manifestId)
  let key := (scope.storageKey, prepared.targetId)
  let history ← Op.okOr (s.histories.lookup key) (.notFound "distribution target not found")
  let old := history.last.target
  Op.failIf (old.manifestId ≠ manifest.manifestId) (.notFound "target belongs to another manifest")
  Op.failIf (¬ materializable old.status) (.conflict "target is not publishable")
  -- The source panics here; a stored target always has its frozen placement.
  let placement ← Op.okOr
    (manifest.platformScope.find? fun placement =>
      placement.platformId = old.platformId && placement.placementSlot = old.placementSlot)
    (.new .internal "frozen placement")
  match prepared.deferReason with
  | some reason => deferTarget scope key old reason clock.recordedAt
  | none => do
    Op.failIf (old.status = .deferred ∧ ¬ old.reason.any fun reason => reason ∈ temporaryReasons)
      (.conflict "target is deferred by capability or content")
    match prepared.accountId with
    | none => unassignTarget key old clock.recordedAt
    | some accountId => bindTarget scope key manifest placement old prepared.revision accountId bindings clock

def materialize [Sha256] [UrlParser] (scope : TenantScope) (prepared : PreparedDistribution)
    (clock : MaterializeClock) : DistributionOp MaterializedDistribution := do
  Op.failIf (prepared.revision.any fun revision => revision.document.requiresRichPublication)
    (.invalidRequest "rich distribution requires explicit media authorization")
  materializeRich scope prepared [] clock

/-! ### Materializing requests -/

/-- Keep the first request as the immutable origin of a publication without a coverage target. -/
def keepOrigin (request : ContentDistributionRequest)
    (intent : PublicationIntent) (s : MemoryDistributionState) : MemoryDistributionState :=
  if intent.channelTargetId.isNil then
    s.keepRequest (scope.storageKey, intent.intentId) { request with publicationIntentId := some intent.intentId }
  else s

def materializePreparedRequest [Sha256] (scope : TenantScope) (request : ContentDistributionRequest)
    (revision : ContentRevision) (variant : ChannelVariant) (now : DateTime) : DistributionOp PublicationIntent := do
  let (candidate, command) ← Op.lift (prepareRequestPublicationIntent scope request variant now)
  let s ← Op.read id
  let previous := s.intents.lookup (scope.storageKey, candidate.logicalKey)
  let intent := previous.getD candidate
  Op.failIf (previous.isSome ∧ withdrawsAfterPublish s scope intent.intentId ≠ request.withdrawAfterPublish)
    (.conflict "logical publication withdrawal policy differs")
  Op.failIf
    (intent.intentId ≠ candidate.intentId ∨ intent.accountId ≠ request.accountId ∨ intent.variantId ≠ variant.variantId
      ∨ ∃ id ∈ request.publicationIntentId, id ≠ intent.intentId)
    (.conflict "logical publication differs from request")
  Op.failIf (payloadDiffers s scope revision variant) (.conflict "immutable publication payload differs")
  Op.modify (storePublication scope previous intent command variant revision)
  Op.modify (keepOrigin scope request intent)
  pure intent

/-- The surface a request publishes on. -/
def requestPlacement (request : ContentDistributionRequest) (capabilityVersion : String)
    (supportedFormats : List String) : PlatformPlacement where
  platformId := request.platformId
  placementSlot := request.placementSlot
  capabilityVersion
  supportedFormats
  unavailableReason := none
  fixture := false

/-- The revision a request names may be published. -/
def eligible (request : ContentDistributionRequest) (revision : ContentRevision) : Bool :=
  request.scope = scope ∧ request.contentRevisionId = revision.revisionId ∧ request.contentAssetId = revision.assetId
    ∧ ¬ (revision.findings.any fun finding => finding.blocking) ∧ revision.evidence ≠ []

def materializeRequestOrigin [Sha256] [UrlParser] (scope : TenantScope)
    (request : ContentDistributionRequest) (revision : ContentRevision) (now : DateTime) :
    DistributionOp PublicationIntent := do
  Op.failIf (¬ eligible scope request revision) (.conflict "request revision is not eligible")
  Op.failIf (request.format ≠ textDistributionFormat) (.conflict "publication format is not supported")
  let variant ← Op.lift (prepareVariant revision (requestPlacement request "request-text-v1" [request.format]))
  materializePreparedRequest scope request revision variant now

def materializeRichRequestOrigin [Sha256] [UrlParser] (scope : TenantScope)
    (request : ContentDistributionRequest) (revision : ContentRevision)
    (bindings : List ContentMediaBinding) (now : DateTime) : DistributionOp PublicationIntent := do
  Op.failIf (¬ (eligible scope request revision ∧ request.format = richDistributionFormat))
    (.conflict "rich request revision is not eligible")
  let variant ← Op.lift
    (prepareRichVariantAuthorized revision
      (requestPlacement request "request-rich-v2" [richMarkdownFormat]) scope bindings)
  materializePreparedRequest scope request revision variant now

/-! ### Verification -/

def recordIntentVerification (intentId : Uuid)
    (verification : IntentVerification) (evidenceId : Uuid) : DistributionOp PublicationIntent := do
  Op.failIf (evidenceId.isNil ∨ verification = .unverified)
    (.invalidRequest "receipt evidence and a resolved verification state are required")
  let s ← Op.read id
  let found ← Op.okOr (findIntent s scope intentId) (.notFound "publication intent not found")
  let intent := found.2
  Op.lift (checkScope scope intent.projectId)
  Op.failIf (intent.verification = .verified ∧ verification = .unknown)
    (.conflict "verified asset cannot revert to unknown")
  let intent := { intent with verification, verificationEvidenceId := some evidenceId }
  Op.modify fun s => s.insertIntent found.1 intent
  pure intent

end MemoryDistributionRepository

end GeoMaster
