import GeoMaster.Domain.Document

/-!
# Publications

The frozen input of a publication, plain or rich, and the records that lead to it: the variant, the
intent, the outbox command and the origin it serves. A rich variant carries its whole payload, and
its identity is a digest of it, so an immutable payload can be checked again after storage.
-/

namespace GeoMaster

open Except Text

def richChannelVariantPolicy : String :=
  "deterministic-rich-markdown-v2"

def richMarkdownFormat : String :=
  "rich_markdown.v2"

def textDistributionFormat : String :=
  "markdown.v1"

/-! ### Digests -/

/-- The big-endian bytes of a length of 64 bits. -/
def lengthBytes (n : Nat) : List UInt8 :=
  (List.range 8).map fun i => UInt8.ofNat (n / 256 ^ (7 - i))

/-- The digest of some parts, each behind its length. -/
def digest [Sha256] (parts : List String) : String :=
  sha256Hex (parts.flatMap fun part => lengthBytes (len part) ++ bytes part)

/-- A UUID from the first half of the digest, with the version and variant bits set. -/
def identity [Sha256] (parts : List String) : Uuid :=
  let value := ((digest parts).toList.take 32).foldl (fun n c => n * 16 + hexValue c) 0
  let versionMask : BitVec 128 := 0xF000 <<< 64
  let variantMask : BitVec 128 := 0xC0 <<< 56
  ⟨(BitVec.ofNat 128 value &&& ~~~ versionMask &&& ~~~ variantMask)
    ||| (0x5000 <<< 64) ||| (0x80 <<< 56)⟩

/-- Hash of the exact normalized title and body submitted to the plain text runner. -/
def plainTextArticleReadbackHash [Sha256] (title body : String) : String :=
  let normalized (text : String) : String := join " " (splitWhitespace text)
  sha256Hex (bytes (normalized title ++ "\n" ++ normalized body))

/-- Short posts expose only their body; the title remains an internal label. -/
def plainTextPublicationReadbackHash [Sha256] (placementSlot title body : String) : String :=
  plainTextArticleReadbackHash (if placementSlot = "short_post" then "" else title) body

/-! ### Media -/

structure MediaObjectKey where
  objectId : Uuid
  objectVersion : Int
  sha256 : String
  deriving DecidableEq

namespace MediaObjectKey

def validate (key : MediaObjectKey) : Except AppError Unit := do
  failIf (key.objectId.isNil ∨ key.objectVersion < 1) (.invalidRequest "invalid media object identity")
  failIf (len key.sha256 ≠ 64 ∨ ¬ key.sha256.toList.all fun c => isAsciiDigit c || ('a' ≤ c && c ≤ 'f'))
    (.invalidRequest "media sha256 must be 64 lowercase hexadecimal characters")

end MediaObjectKey

def maxImageDimension : Nat :=
  16384

def maxImagePixels : Nat :=
  100000000

def maxMediaSnapshotBytes : Nat :=
  512 * 1024 * 1024

def maxMediaSnapshotImages : Nat :=
  256

structure VerifiedImage where
  key : MediaObjectKey
  mediaType : String
  (byteLen width height : Nat)
  deriving DecidableEq

namespace VerifiedImage

def validate (image : VerifiedImage) : Except AppError Unit := do
  image.key.validate
  failIf (image.mediaType ∉ ["image/png", "image/jpeg", "image/webp"]) (.invalidRequest "unsupported image media type")
  failIf (image.byteLen = 0 ∨ image.byteLen > maxUploadBytes) (.invalidRequest "image byte length is out of range")
  failIf
    (image.width = 0 ∨ image.height = 0 ∨ image.width > maxImageDimension
      ∨ image.height > maxImageDimension ∨ image.width * image.height > maxImagePixels)
    (.invalidRequest "image dimensions are out of range")

end VerifiedImage

inductive ContentMediaBindingState where
  | active
  | withdrawn
  deriving DecidableEq

structure ContentMediaBinding where
  bindingId : Uuid
  operatorId : OperatorId
  tenantId : TenantId
  projectId : ProjectId
  image : VerifiedImage
  state : ContentMediaBindingState
  createdAt : DateTime
  withdrawnAt : Option DateTime
  deriving DecidableEq

inductive PublicationMediaRole where
  | image
  deriving DecidableEq

structure PublicationMediaItem where
  bindingId : Uuid
  object : MediaObjectKey
  mediaType : String
  (byteLen width height : Nat)
  (alt caption : String)
  role : PublicationMediaRole
  deriving DecidableEq

/-! ### Records -/

/-- Structure and ordered image occurrences belong to the frozen variant. -/
structure RichPublicationPayload where
  schemaVersion : UInt8
  format : String
  contentRevisionId : Uuid
  policyVersion : String
  document : StructuredDocument
  media : List PublicationMediaItem
  deriving DecidableEq

structure ChannelVariant where
  (variantId contentRevisionId : Uuid)
  (platformId placementSlot policyVersion title markdown payloadHash : String)
  evidence : List EvidenceRef
  richPayload : Option RichPublicationPayload
  deriving DecidableEq

inductive DistributionTargetStatus where
  | pending
  | blocked
  | deferred
  | notApplicable
  | cancelled
  | ready
  | reusedVerified
  | reusedUnknown
  deriving DecidableEq

structure DistributionTarget where
  (targetId manifestId : Uuid)
  ordinal : Nat
  documentItemId : Uuid
  contentRevisionId : Option Uuid
  (platformId placementSlot : String)
  (variantId accountId publicationIntentId : Option Uuid)
  status : DistributionTargetStatus
  reason : Option String
  version : Nat
  deriving DecidableEq

inductive IntentVerification where
  | unverified
  | unknown
  | verified
  deriving DecidableEq

structure PublicationIntent where
  intentId : Uuid
  projectId : ProjectId
  (channelTargetId variantId contentRevisionId : Uuid)
  (platformId placementSlot : String)
  accountId : Uuid
  (payloadHash logicalKey : String)
  verification : IntentVerification
  verificationEvidenceId : Option Uuid
  createdAt : DateTime

/-- A durable outbox record, not proof of a send. -/
structure PublicationCommand where
  (commandId intentId targetId : Uuid)
  payloadHash : String
  fixture : Bool

inductive ContentRequestDeferralReason where
  | projectPaused
  | accountUnavailable
  | connectorUnavailable
  | contentNotReady
  | sourceUnavailable
  | formatUnsupported
  | temporaryFailure
  | internalError
  deriving DecidableEq

structure ContentRequestDeferral where
  reason : ContentRequestDeferralReason
  attempts : Nat
  nextRetryAt : DateTime
  deriving DecidableEq

structure ContentDistributionRequest where
  requestId : Uuid
  scope : TenantScope
  schemaVersion : Int
  (contentRevisionId contentAssetId : Uuid)
  (platformId placementSlot : String)
  accountId : Uuid
  (accountOwnerKind format : String)
  withdrawAfterPublish : Bool
  (idempotencyKeyHash requestHash : String)
  publicationIntentId : Option Uuid
  materializationDeferral : Option ContentRequestDeferral
  createdAt : DateTime
  deriving DecidableEq

/-- A publication originates from exactly one frozen coverage cell or from an accepted
single-article request. -/
inductive PublicationOrigin where
  | coverageTarget (target : DistributionTarget)
  | contentRequest (request : ContentDistributionRequest)

/-- Trusted read of the immutable payload and its authoritative dependencies. -/
structure PublicationBundle where
  revision : ContentRevision
  variant : ChannelVariant
  intent : PublicationIntent
  origin : PublicationOrigin
  command : PublicationCommand

end GeoMaster
