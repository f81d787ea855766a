import GeoMaster.Domain.ChannelLedger

/-!
# One-shot authorization of a rich send

The trusted preflight registers a browser session, a deadline and the digest of the encrypted binding
for an attempt; the runner's callback then asks, once, for the permission to send. Both work under
the ledger lock, which they share with `finish`.
-/

namespace GeoMaster

/-- The original preflight's browser session and immutable encrypted binding. -/
structure RegisterPublicationSend where
  (targetId attemptId accountId runnerSessionId : Uuid)
  encryptedBindingSha256 : String
  sendNotAfter : DateTime

/-- Comparison-only callback input. -/
structure AuthorizePublicationSend where
  (targetId attemptId accountId runnerSessionId publicationIntentId : Uuid)
  (payloadHash encryptedBindingSha256 : String)

/-- The only executable response. -/
structure PublicationSendGrant where
  (attemptId runnerSessionId : Uuid)
  payloadHash : String
  sendNotAfter : DateTime

inductive PublicationSendDecision where
  | granted (grant : PublicationSendGrant)
  /-- A lost response cannot be replayed as another executable permission. -/
  | alreadyConsumed

namespace ChannelLedger

def registerRichSend [Sha256] (scope : TenantScope) (request : RegisterPublicationSend)
    (now : DateTime) : Op ChannelLedger AppError Unit := do
  let key ← Op.lift (scopeKey scope)
  let all ← Op.read id
  let (entry, cycle) ← Op.okOr (findTarget all key request.targetId) (.notFound "publication target not found")
  let target ← Op.okOr (cycle.target request.targetId) (.notFound "publication target not found")
  Op.failIf (¬ target.input.isRich ∨ target.input.accountId ≠ request.accountId)
    (.conflict "publication preflight target differs")
  let attempt ← Op.okOr (cycle.attempt request.targetId request.attemptId) (.notFound "publication attempt not found")
  Op.failIf (attempt.outcome.isSome ∨ attempt.receivedAt.isSome) (.conflict "publication attempt already completed")
  let binding ← Op.okOr (cycle.publicationBindings.lookup request.attemptId)
    (.conflict "preflight binding is unavailable")
  Op.failIf (sha256Hex binding.encryptedBytes ≠ request.encryptedBindingSha256)
    (.conflict "preflight binding identity differs")
  match cycle.publicationSend.lookup request.attemptId with
  | some registered =>
    Op.failIf
      (¬ (registered.sessionId = request.runnerSessionId
        ∧ registered.deadline = request.sendNotAfter
        ∧ registered.bindingSha256 = request.encryptedBindingSha256))
      (.conflict "publication preflight already registered")
  | none => do
    Op.failIf
      (request.runnerSessionId.isNil ∨ request.attemptId.isNil
        ∨ request.sendNotAfter ≤ now
        ∨ request.sendNotAfter > now + DateTime.minutes 5
        ∨ request.sendNotAfter ≤ attempt.claimedAt
        ∨ attempt.claimedAt > now
        ∨ now - attempt.claimedAt > DateTime.minutes 5)
      (.conflict "publication preflight deadline or session invalid")
    Op.modify fun all =>
      all.insert entry
        { cycle with
          publicationSend :=
            cycle.publicationSend.insert request.attemptId
              { sessionId := request.runnerSessionId
                deadline := request.sendNotAfter
                bindingSha256 := request.encryptedBindingSha256
                sendAuthorizedAt := none } }

/-- A generated publication with its rich payload. -/
def richPublication : ChannelTargetInput → Option (GeneratedPublishInput × RichPublicationPayload)
  | .generatedPublish input => input.richPayload.map fun frozen => (input, frozen)
  | _ => none

/-- The origin of the bundle names the request the target was made for, and a coverage cell comes
from none. -/
def originDiffers (origin : PublicationOrigin) (originRequestId : Option Uuid) : Bool :=
  match origin with
  | .contentRequest request => some request.requestId ≠ originRequestId
  | .coverageTarget _ => originRequestId.isSome

/-- The frozen target, the registration, the callback and the bundle disagree somewhere. -/
def sendDiffers [Sha256] (cycle : MemoryCycle) (input : GeneratedPublishInput) (frozen : RichPublicationPayload)
    (attempt : ChannelAttempt) (registered : MemorySendRegistration) (expected : AuthorizePublicationSend)
    (bundle : PublicationBundle) : Bool :=
  attempt.outcome.isSome ∨ attempt.receivedAt.isSome ∨ input.accountId ≠ expected.accountId
    ∨ registered.sessionId ≠ expected.runnerSessionId
    ∨ registered.bindingSha256 ≠ expected.encryptedBindingSha256
    ∨ expected.publicationIntentId ≠ input.publicationIntentId
    ∨ expected.payloadHash ≠ input.payloadHash
    ∨ bundle.intent.intentId ≠ input.publicationIntentId
    ∨ bundle.intent.accountId ≠ input.accountId
    ∨ bundle.intent.platformId ≠ input.platform
    ∨ bundle.intent.placementSlot ≠ input.placementSlot
    ∨ bundle.intent.payloadHash ≠ input.payloadHash
    ∨ bundle.variant.variantId ≠ input.variantId
    ∨ bundle.variant.contentRevisionId ≠ input.contentRevisionId
    ∨ bundle.variant.placementSlot ≠ input.placementSlot
    ∨ bundle.variant.title ≠ input.title
    ∨ bundle.variant.markdown ≠ input.body
    ∨ bundle.variant.richPayload ≠ some frozen
    ∨ bundle.revision.revisionId ≠ input.contentRevisionId
    ∨ bundle.revision.document ≠ frozen.document
    ∨ bundle.command.commandId ≠ expected.targetId
    ∨ bundle.command.targetId ≠ input.distributionTargetId
    ∨ originDiffers bundle.origin input.originRequestId
    ∨ bundle.command.fixture
    ∨ sha256Hex (Text.bytes input.body) ≠ input.bodySha256
    ∨ ∀ binding ∈ cycle.publicationBindings.lookup expected.attemptId,
      sha256Hex binding.encryptedBytes ≠ expected.encryptedBindingSha256

/-- Every frozen image is among the authorized ones, with the same bytes and size. -/
def mediaVerified (frozen : RichPublicationPayload) (verified : List ContentMediaBinding) : Bool :=
  frozen.media.all fun item =>
    verified.any fun binding =>
      binding.bindingId = item.bindingId ∧ binding.image.key = item.object ∧ binding.image.mediaType = item.mediaType
        ∧ binding.image.byteLen = item.byteLen ∧ binding.image.width = item.width ∧ binding.image.height = item.height

def authorizeRichSend [Sha256] [UrlParser] (scope : TenantScope) (expected : AuthorizePublicationSend)
    (bundle : PublicationBundle) (verified : List ContentMediaBinding) (now : DateTime) :
    Op ChannelLedger AppError PublicationSendDecision := do
  let key ← Op.lift (scopeKey scope)
  let all ← Op.read id
  let (entry, cycle) ← Op.okOr (findTarget all key expected.targetId) (.notFound "publication target not found")
  let target ← Op.okOr (cycle.target expected.targetId) (.notFound "publication target not found")
  let (input, frozen) ← Op.okOr (richPublication target.input)
    (.conflict "only a frozen rich publication may be authorized")
  let attempt ← Op.okOr (cycle.attempt expected.targetId expected.attemptId)
    (.notFound "publication attempt not found")
  let registered ← Op.okOr (cycle.publicationSend.lookup expected.attemptId)
    (.conflict "publication preflight is unregistered")
  Op.failIf (sendDiffers cycle input frozen attempt registered expected bundle)
    (.conflict "publication frozen intent or attempt differs")
  Op.lift bundle.validateOrigin
  Op.lift (validateRichPublicationPayload bundle.variant)
  Op.failIf (¬ mediaVerified frozen verified) (.conflict "publication media grant differs")
  if registered.sendAuthorizedAt.isSome then
    pure .alreadyConsumed
  else do
    Op.failIf (now > registered.deadline ∨ now < attempt.claimedAt)
      (.conflict "publication send authorization expired")
    Op.modify fun all =>
      all.insert entry
        { cycle with
          publicationSend :=
            cycle.publicationSend.insert expected.attemptId
              { registered with sendAuthorizedAt := some now } }
    pure
      (.granted
        { attemptId := expected.attemptId
          runnerSessionId := expected.runnerSessionId
          payloadHash := input.payloadHash
          sendNotAfter := registered.deadline })

end ChannelLedger

end GeoMaster
