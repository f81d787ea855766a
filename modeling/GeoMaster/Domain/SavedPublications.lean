import GeoMaster.Domain.DistributionRequests
import GeoMaster.Domain.ReportProjection

/-!
# Saved publications

A publication that was sent and read back proves its connector. The proof is read off the saved target and the saved
attempt: one live receipt of the runner, bound to the attempt, and one readback of the frozen title and body under the
public address.
-/

namespace GeoMaster

open Text

/-- The query of an absolute address. -/
class UrlQueries where
  query : String → Option String

/-- The text of a publication as it was frozen. -/
structure FrozenArticle where
  (platform placementSlot title body bodySha256 : String)

/-- A rich publication is more than its text, and a measurement has none. -/
def ChannelTargetInput.frozenArticle : ChannelTargetInput → Option FrozenArticle
  | .publish input =>
    some
      { platform := input.platform, placementSlot := input.placementSlot, title := input.title
        body := input.body, bodySha256 := input.bodySha256 }
  | .generatedPublish input =>
    if input.richPayload.isSome then none
    else
      some
        { platform := input.platform, placementSlot := input.placementSlot, title := input.title
          body := input.body, bodySha256 := input.bodySha256 }
  | .measure _ => none

/-! ### The evidence -/

/-- The runner confirms an execution. -/
def isRunnerReceipt (proof : Json) : Bool :=
  proof.str "kind" = some "runner_receipt"

/-- The confirmation is of a live execution: of this attempt, by this version, at this time. -/
def isLiveReceipt [InstantText] (attemptId : Uuid) (version : String) (occurredAt : DateTime) (proof : Json) : Bool :=
  proof.str "schema_version" = some "geo.runner.receipt.v1" ∧ proof.str "provenance" = some "live" ∧ proof.str
    "execution_id" = some attemptId.toString ∧ proof.str "connector_version" = some version ∧ proof.instant
    "occurred_at" = some occurredAt

/-- The text with this digest was read back under an address, owned by the account. -/
def isOwnedReadback (publicUrl : Option String) (hash : String) (proof : Json) : Bool :=
  proof.str "kind" = some "public_readback" ∧ proof.str "url" = publicUrl ∧ proof.flag "content_matched" = some true
    ∧ proof.flag "owned_by_account" = some true ∧ proof.str "expected_sha256" = some hash ∧ proof.str "readback_sha256"
    = some hash

/-- `str::trim_end_matches` of a slash. -/
def Text.trimEndSlashes (s : String) : String :=
  String.ofList (s.toList.reverse.dropWhile (· = '/')).reverse

/-- The number of a post in the path of an address. -/
def zhihuPost (placementSlot path : String) : String :=
  trimEndSlashes ((stripPrefix path (if placementSlot = "short_post" then "/pin/" else "/p/")).getD "")

/-- The addresses of the posts of one platform. -/
def isZhihuPost [UrlQueries] (placementSlot raw : String) (url : UrlParts) : Bool :=
  (placementSlot = "primary" || placementSlot = "short_post")
    && (url.host = some "www.zhihu.com" || url.host = some "zhuanlan.zhihu.com")
    && (placementSlot ≠ "short_post" || url.host = some "www.zhihu.com") && !(zhihuPost placementSlot url.path).isEmpty
    && (zhihuPost placementSlot url.path).toList.all isAsciiDigit && (UrlQueries.query raw).isNone

def isArticleUrl [UrlParser] [UrlFragments] [UrlQueries] (article : FrozenArticle) (raw : String) : Bool :=
  match UrlParser.parse raw with
  | some url =>
    url.scheme = "https" && url.host.isSome && url.username.isEmpty && url.password.isNone
      && (UrlFragments.fragment raw).isNone && (article.platform ≠ "zhihu" || isZhihuPost article.placementSlot raw url)
  | none => false

/-! ### The verification -/

variable [Sha256] [InstantText] [UrlParser] [UrlFragments] [UrlQueries]

/-- The attempt is one of the target, in the order of its events, and the text is the one that was frozen. -/
def isSavedPublication (target : ChannelTarget) (attempt : ChannelAttempt) (article : FrozenArticle)
    (outcome : ChannelOutcome) (receivedAt : DateTime) : Bool :=
  attempt.targetId = target.targetId ∧ outcome.fixture = false ∧ outcome.status = .verified
    ∧ attempt.claimedAt.timestampMicros ≤ outcome.occurredAt.timestampMicros ∧ outcome.occurredAt.timestampMicros
    ≤ receivedAt.timestampMicros ∧ validLabel article.platform ∧ validLabel article.placementSlot ∧ ¬ isBlank
    article.title ∧ ¬ isBlank article.body ∧ sha256Hex (bytes article.body) = article.bodySha256

/-- One receipt, which is live, and one readback. -/
def isProved (attempt : ChannelAttempt) (article : FrozenArticle) (outcome : ChannelOutcome) (version : String) :
    Bool :=
  let receipts := outcome.runnerEvidence.filter isRunnerReceipt
  let hash := plainTextPublicationReadbackHash article.placementSlot article.title article.body
  let readbacks := outcome.runnerEvidence.filter (isOwnedReadback outcome.publicUrl hash)
  validLabel version ∧ ¬ isFixtureVersion version ∧ receipts.length = 1 ∧ receipts.any
    (isLiveReceipt attempt.attemptId version outcome.occurredAt) ∧ readbacks.length = 1 ∧ outcome.publicUrl.any
    (isArticleUrl article)

/-- The proof that an attempt gives of its connector. -/
def attemptVerification (attempt : ChannelAttempt) (article : FrozenArticle) (outcome : ChannelOutcome)
    (version : String) : ConnectorVerification where
  verificationId :=
    stableUuid ("connector-saved-attempt:" ++ attempt.attemptId.toString ++ ":" ++ plainTextArticleFormat)
  key := { platformId := article.platform, placementSlot := article.placementSlot }
  connectorVersion := version
  contentType := plainTextArticleFormat
  publicationReceipt := outcome
  publicReadback := outcome
  verifiedAt := outcome.occurredAt

def savedPublicationVerification (target : ChannelTarget) (attempt : ChannelAttempt) :
    Except AppError (Option ConnectorVerification) :=
  match target.input.frozenArticle, attempt.outcome, attempt.receivedAt with
  | some article, some outcome, some receivedAt =>
    if isSavedPublication target attempt article outcome receivedAt then
      match outcome.connectorVersion with
      | some version =>
        if isProved attempt article outcome version then do
          let verification := attemptVerification attempt article outcome version
          verification.validateSaved
          pure (some verification)
        else pure none
      | none => pure none
    else pure none
  | _, _, _ => pure none

end GeoMaster
