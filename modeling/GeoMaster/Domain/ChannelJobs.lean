import GeoMaster.Domain.Report
import GeoMaster.Domain.RichPublication

/-!
# Channel targets, attempts and withdrawals

Frozen external channel targets and server-owned execution evidence: the targets of a plan, the one
attempt a target gets with its outcome, and the withdrawal authority frozen with a publication's
claim. The two projections of a cycle are here too: the rows it contributes to a report as of a
cutoff, and the observations the optimizer may see.
-/

namespace GeoMaster

open Except Text

/-- Reversible preflight and publication retain their existing five-minute window. -/
def channelExecutionLease : Int :=
  DateTime.minutes 5

def channelBrowserRequestTimeoutSeconds : Int :=
  60

def channelMeasurementRunnerTimeoutSeconds : Int :=
  240

def channelMeasurementRequestTimeoutSeconds : Int :=
  channelMeasurementRunnerTimeoutSeconds + 10

/-- Identity recheck, execution, session renewal, close, and bookkeeping margin. -/
def channelMeasurementLease : Int :=
  DateTime.seconds (3 * channelBrowserRequestTimeoutSeconds + channelMeasurementRequestTimeoutSeconds + 30)

/-! ### Targets and plans -/

structure PublishInput where
  (sourceId sourceVersionId : Uuid)
  (platform placementSlot : String)
  accountId : Uuid
  (title body bodySha256 : String)
  deriving DecidableEq

/-- Database-owned immutable distribution input. -/
structure GeneratedPublishInput where
  (contentRevisionId variantId publicationIntentId distributionTargetId : Uuid)
  originRequestId : Option Uuid
  (platform placementSlot : String)
  accountId : Uuid
  (title body bodySha256 payloadHash : String)
  evidence : List EvidenceRef
  richPayload : Option RichPublicationPayload
  deriving DecidableEq

structure MeasureInput where
  accountId : Uuid
  (provider model surface searchMode protocolVersion questionSetVersion question market : String)
  language : String
  scheduledAt : DateTime
  sampleOrdinal : UInt32
  questionBinding : Option FrozenQuestionBinding
  deriving DecidableEq

inductive ChannelTargetInput where
  | publish (input : PublishInput)
  | generatedPublish (input : GeneratedPublishInput)
  | measure (input : MeasureInput)
  deriving DecidableEq

namespace ChannelTargetInput

def accountId : ChannelTargetInput → Uuid
  | .publish input => input.accountId
  | .generatedPublish input => input.accountId
  | .measure input => input.accountId

def isPublication : ChannelTargetInput → Bool
  | .publish _ | .generatedPublish _ => true
  | .measure _ => false

/-- A generated publication with a rich payload. -/
def isRich : ChannelTargetInput → Bool
  | .generatedPublish input => input.richPayload.isSome
  | _ => false

def isGenerated : ChannelTargetInput → Bool
  | .generatedPublish _ => true
  | _ => false

def isMeasure : ChannelTargetInput → Bool
  | .measure _ => true
  | _ => false

end ChannelTargetInput

def QuestionPurpose.text : QuestionPurpose → String
  | .optimization => "optimization"
  | .frozenEvaluation => "frozen_evaluation"

def MeasureInput.comparisonKey (input : MeasureInput) : String :=
  let legacy :=
    join "|"
      [input.provider, input.model, input.surface, input.searchMode, input.protocolVersion,
        input.questionSetVersion, input.market, input.language]
  match input.questionBinding with
  | none => legacy
  | some binding => join "|" [legacy, binding.purpose.text, binding.splitPolicyVersion]

structure ChannelTarget where
  targetId : Uuid
  input : ChannelTargetInput
  deriving DecidableEq

structure ChannelPlan where
  planId : Uuid
  projectId : ProjectId
  cycleId : Uuid
  inputHash : String
  revision : Int
  createdAt : DateTime
  /-- Complete and sealed. -/
  targets : List ChannelTarget
  deriving DecidableEq

/-- Project-owned measurement, independent of knowledge or optimization cycles. -/
structure StandaloneMeasurementPlan where
  planId : Uuid
  projectId : ProjectId
  (title inputHash : String)
  revision : Int
  createdAt : DateTime
  targets : List ChannelTarget

namespace StandaloneMeasurementPlan

def validate (plan : StandaloneMeasurementPlan) (scope : TenantScope) : Except AppError Unit := do
  failIf (scope.projectId ≠ some plan.projectId) (.forbidden "measurement plan outside project")
  failIf
    (isBlank plan.title ∨ plan.revision ≤ 0 ∨ plan.targets = [] ∨ ∃ target ∈ plan.targets, ¬ target.input.isMeasure)
    (.invalidRequest "invalid standalone measurement plan")
  failIf (¬ (plan.targets.map (·.targetId)).Nodup) (.invalidRequest "duplicate measurement target")

end StandaloneMeasurementPlan

/-! ### Attempts -/

inductive ChannelOutcomeStatus where
  | published
  | verified
  | unknown
  | failed
  | loginRequired
  | unsupported
  | observed
  | refused
  | missing
  deriving DecidableEq

/-- The name `{:?}` prints. -/
def ChannelOutcomeStatus.debug : ChannelOutcomeStatus → String
  | .published => "Published"
  | .verified => "Verified"
  | .unknown => "Unknown"
  | .failed => "Failed"
  | .loginRequired => "LoginRequired"
  | .unsupported => "Unsupported"
  | .observed => "Observed"
  | .refused => "Refused"
  | .missing => "Missing"

structure ChannelOutcome where
  status : ChannelOutcomeStatus
  detail : Option String
  occurredAt : DateTime
  rawAnswer : Option String
  citations : List String
  (publicUrl screenshotRef connectorVersion : Option String)
  /-- Original structured runner evidence, never client-supplied. -/
  runnerEvidence : List Json
  /-- Fixture responses must never claim a real observation. -/
  fixture : Bool
  deriving DecidableEq

structure ChannelAttempt where
  (attemptId targetId : Uuid)
  claimedAt : DateTime
  outcome : Option ChannelOutcome
  receivedAt : Option DateTime
  deriving DecidableEq

structure ChannelTargetView where
  target : ChannelTarget
  attempts : List ChannelAttempt

/-! ### Withdrawals -/

inductive PublicationWithdrawalState where
  | awaitingPublication
  | ready
  | claimed
  | unknown
  | withdrawn
  deriving DecidableEq

/-- Cleanup authority is frozen with the original publication claim. -/
structure PublicationWithdrawal where
  scope : TenantScope
  (requestId targetId attemptId accountId : Uuid)
  state : PublicationWithdrawalState
  (externalId publicUrl : Option String)
  executionId : Option Uuid
  claimedAt : Option DateTime
  evidence : Json
  finishedAt : Option DateTime
  errorCode : Option String

/-- `v["observed_at"]` as an instant. -/
def observedAt [InstantText] (v : Json) : Option DateTime :=
  (v.index "observed_at").asStr.bind InstantText.parse

/-- A status code of success. -/
def isSuccessStatus (v : Json) : Bool :=
  v.asU64.any fun s => 200 ≤ s ∧ s < 300

namespace PublicationWithdrawal

/-- The target is the frozen short post the withdrawal was created for. -/
def matchesBinding (row : PublicationWithdrawal) (target : ChannelTarget)
    (attempt : ChannelAttempt) : Option GeneratedPublishInput :=
  match target.input with
  | .generatedPublish input =>
    if input.richPayload.isNone ∧ input.originRequestId = some row.requestId ∧ target.targetId = row.targetId
        ∧ attempt.attemptId = row.attemptId ∧ attempt.targetId = row.targetId ∧ input.accountId = row.accountId
        ∧ input.placementSlot = "short_post" ∧ input.platform = "zhihu" then
      some input
    else none
  | _ => none

/-- The outcome comes from a live connector. -/
def liveConnector (outcome : ChannelOutcome) : Bool :=
  !outcome.fixture
    && outcome.connectorVersion.any fun v => !v.isEmpty && len v ≤ 100 && !startsWith v "fixture"

/-- Only the original operation's correlated creation response authorizes destructive cleanup. The
proof names the post by its address; it must agree with the claim in every field. -/
def creationProof [Sha256] [InstantText] (row : PublicationWithdrawal)
    (input : GeneratedPublishInput) (attempt : ChannelAttempt) (outcome : ChannelOutcome)
    (receivedAt : DateTime) (p : Json) : Option (String × String × String) := do
  let url ← (p.index "url").asStr
  let id ← stripPrefix url "https://www.zhihu.com/pin/"
  let expected := plainTextPublicationReadbackHash input.placementSlot input.title input.body
  if id.isEmpty || startsWith id "0" || len id > 40 || !id.toList.all isAsciiDigit
      || p.index "schema_version" ≠ .string "geo.publication.created.v1"
      || p.index "external_id" ≠ .string id
      || p.index "request_method" ≠ .string "POST"
      || p.index "request_url" ≠ .string "https://www.zhihu.com/api/v4/content/publish"
      || !isSuccessStatus (p.index "http_status")
      || p.index "expected_sha256" ≠ .string expected
      || p.index "attempt_id" ≠ .string row.attemptId.toString
      || p.index "target_id" ≠ .string row.targetId.toString
      || p.index "account_id" ≠ .string row.accountId.toString
      || (p.index "connector_version").asStr ≠ outcome.connectorVersion
      || !(observedAt p).any fun at_ => attempt.claimedAt ≤ at_ ∧ at_ ≤ receivedAt then
    none
  else some (id, url, expected)

/-- The creation records among the runner's evidence. -/
def creationRecords (outcome : ChannelOutcome) : List Json :=
  outcome.runnerEvidence.filter fun p => p.index "kind" = .string "publication_created"

end PublicationWithdrawal

/-- The connector version as a JSON value. -/
def versionJson (version : Option String) : Json :=
  version.elim .null .string

def resolvePublicationWithdrawal [Sha256] [InstantText] (row : PublicationWithdrawal)
    (target : ChannelTarget) (attempt : ChannelAttempt) : Except AppError PublicationWithdrawal :=
  if row.state ≠ .awaitingPublication then .ok row
  else
    match row.matchesBinding target attempt with
    | none => .error (.conflict "withdrawal publication binding differs")
    | some input =>
      match attempt.outcome, attempt.receivedAt with
      | some outcome, some receivedAt =>
        if ¬ PublicationWithdrawal.liveConnector outcome then .ok row
        else
          match PublicationWithdrawal.creationRecords outcome with
          | [p] =>
            match row.creationProof input attempt outcome receivedAt p with
            | none => .ok row
            | some (id, url, expected) =>
              .ok
                { row with
                  externalId := some id
                  publicUrl := some url
                  evidence :=
                    .ofFields
                      [("expected_sha256", .string expected),
                        ("connector_version", versionJson outcome.connectorVersion)]
                  state := .ready }
          | _ => .ok row
      | _, _ => .ok row

/-- The completion proves the deletion and the absence of the very post the claim was for. -/
def withdrawalVerified [InstantText] (row : PublicationWithdrawal) (executionId : Uuid)
    (evidence : Json) (receivedAt : DateTime) : Bool :=
  evidence.index "schema_version" = .string "geo.publication.withdrawal.v1" ∧ evidence.index "execution_id" = .string
    executionId.toString ∧ (evidence.index "external_id").asStr = row.externalId ∧ row.externalId.isSome
    ∧ row.publicUrl.isSome ∧ (evidence.index "public_url").asStr = row.publicUrl ∧ evidence.index "expected_sha256"
    = row.evidence.index "expected_sha256" ∧ evidence.index "connector_version" = row.evidence.index "connector_version"
    ∧ evidence.index "provenance" = .string "live" ∧ evidence.index "delete_confirmed" = .bool true ∧ isSuccessStatus
    (evidence.index "delete_status") ∧ ((evidence.index "absence_status").asU64.any fun s => s = 404 ∨ s = 410)
    ∧ ((observedAt evidence).any fun at_ => (row.claimedAt.any fun claimed => claimed ≤ at_) ∧ at_ ≤ receivedAt)

def finishPublicationWithdrawal [InstantText] (row : PublicationWithdrawal) (executionId : Uuid)
    (evidence : Json) (receivedAt : DateTime) : Except AppError PublicationWithdrawal := do
  failIf
    (row.state ≠ .claimed ∨ row.executionId ≠ some executionId
      ∨ (∀ at_ ∈ row.claimedAt, at_ > receivedAt) ∨ evidence.toVecLen > 4096)
    (.conflict "withdrawal completion differs from claim")
  let verified := withdrawalVerified row executionId evidence receivedAt
  pure
    { row with
      state := if verified then .withdrawn else .unknown
      errorCode := if verified then none else some "withdrawal_unverified"
      evidence := if verified then evidence else row.evidence
      finishedAt := some receivedAt }

end GeoMaster
