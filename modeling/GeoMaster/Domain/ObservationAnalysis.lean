import GeoMaster.Domain.ObservationCaptures
import GeoMaster.Lib.Selection

/-!
# Interpretations of saved evidence

Revisions of the interpretation of an attempt. They never replace the outcome of a measurement, increase its
denominator, or authorize any cleanup. A reader takes one interpretation of the current attempt, the newest one
that keeps the contract of the grounder, and the outcome of the attempt itself if there is none.
-/

namespace GeoMaster

open Text

def maxAnalysisCandidateBytes : Nat :=
  150000

def maxAnalysisAnswerBytes : Nat :=
  100000

def maxAnalysisAuditBytes : Nat :=
  512000

def maxAnalysisProjectionAttempts : Nat :=
  1000

structure ObservationAnalysisRequest where
  (revisionId targetId attemptId : Uuid)
  source : ObservationAnalysisSource
  sourceSha256 : String
  observedAt : DateTime
  (promptVersion parserVersion : String)
  deriving DecidableEq

inductive ObservationAnalysisState where
  | queued
  | running
  | completed
  deriving DecidableEq

inductive ObservationAnalysisOutcome where
  | grounded (rawAnswer : String) (citations : List String) (audit : Json)
  | unverified (reason : String)
  | failed (code : String)
  deriving DecidableEq

namespace ObservationAnalysisOutcome

def isGrounded : ObservationAnalysisOutcome → Bool
  | .grounded _ _ _ => true
  | _ => false

def isFailed : ObservationAnalysisOutcome → Bool
  | .failed _ => true
  | _ => false

end ObservationAnalysisOutcome

structure ObservationAnalysisResult where
  configRevision : Option Int
  (actualModel candidateJson : Option String)
  outcome : ObservationAnalysisOutcome
  (promptTokens completionTokens : UInt64)
  deriving DecidableEq

structure ObservationAnalysisRevision where
  request : ObservationAnalysisRequest
  requestDigest : String
  state : ObservationAnalysisState
  createdAt : DateTime
  (startedAt analyzedAt : Option DateTime)
  result : Option ObservationAnalysisResult
  /-- A completed response, or proof that no request was sent; not the end of a lease. -/
  inferenceResolved : Bool
  deriving DecidableEq

/-! ### Checks -/

def boundedLabel (value : String) (max : Nat) : Bool :=
  !isBlank value && len value ≤ max && !value.toList.any isControl

def fixedCode (value : String) : Bool :=
  value ≠ "" && len value ≤ 64 && value.toList.all fun c => c.isLower || c = '_'

namespace ObservationAnalysisRequest

end ObservationAnalysisRequest

/-- An address that an interpretation may cite. -/
def isCitable [UrlParser] (citation : String) : Bool :=
  len citation ≤ 2048
    && (UrlParser.parse citation).any fun url =>
      (url.scheme = "https" || url.scheme = "http") && url.host.isSome && url.username.isEmpty && url.password.isNone

namespace ObservationAnalysisResult

variable [JsonText] [UrlParser]

def isValidOutcome (result : ObservationAnalysisResult) : Bool :=
  match result.outcome with
  | .grounded rawAnswer citations audit =>
    !isBlank rawAnswer && len rawAnswer ≤ maxAnalysisAnswerBytes && citations.length ≤ 50 && citations.all isCitable
      && audit.isObject && (audit.index "refs").asArray.any (fun refs => refs ≠ [])
      && audit.toVecLen ≤ maxAnalysisAuditBytes && result.candidateJson.isSome
  | .unverified reason => fixedCode reason
  | .failed code => fixedCode code

def isValid (result : ObservationAnalysisResult) : Bool :=
  result.actualModel.all (fun model => boundedLabel model 256)
    && result.configRevision.all (fun revision => 0 ≤ revision)
    && result.candidateJson.all (fun candidate =>
      len candidate ≤ maxAnalysisCandidateBytes && (JsonText.parse candidate).isSome)
    && (result.outcome.isFailed || result.actualModel.isSome)
    && result.isValidOutcome

end ObservationAnalysisResult

/-! ### The effective observation -/

namespace ObservationAnalysisRevision

/-- Revisions in the order of their creation. -/
def order (revision : ObservationAnalysisRevision) : ℤ ×ₗ ℕ :=
  toLex (revision.createdAt, revision.request.revisionId.bits.toNat)

/-- The target and the attempt of a revision. -/
def pair (revision : ObservationAnalysisRevision) : Uuid × Uuid :=
  (revision.request.targetId, revision.request.attemptId)

end ObservationAnalysisRevision

/-- Persisted acceptance and time; the meaning of an interpretation is the grounder's. -/
def observationAnalysisProjectionEligible (revision : ObservationAnalysisRevision) (asOf : DateTime) : Bool :=
  revision.state = .completed && revision.createdAt ≤ asOf && revision.request.observedAt ≤ asOf
    && revision.analyzedAt.any (fun at_ => at_ ≤ asOf) && revision.result.any fun result => result.outcome.isGrounded

/-- The protocol an audit has to name. -/
def expectedProtocol (measure : MeasureInput) : Json :=
  .ofFields
    [("provider", .string measure.provider), ("model", .string measure.model), ("surface", .string measure.surface),
      ("search_mode", .string measure.searchMode), ("protocol_version", .string measure.protocolVersion),
      ("market", .string measure.market), ("language", .string measure.language)]

/-- The contract of the grounder. -/
def keepsContract (audit : Json) (request : ObservationAnalysisRequest) (protocol : Json) : Bool :=
  audit.index "kind" = .string "observation_extraction" && audit.index "method" = .string "llm_grounded" && audit.index
    "prompt_version" = .string request.promptVersion && audit.index "source_sha256" = .string request.sourceSha256
    && audit.index "protocol" = protocol
    && ["completion", "search_activity", "answer_segment"].all fun role =>
      (audit.index "refs").asArray.any fun refs => refs.any fun entry => entry.index "role" = .string role

/-- A revision that interprets an attempt. -/
def interprets [JsonText] [UrlParser] (view : ChannelTargetView) (measure : MeasureInput)
    (attempt : ChannelAttempt) (receivedAt asOf : DateTime) (revision : ObservationAnalysisRevision) : Bool :=
  revision.request.targetId = view.target.targetId && revision.request.attemptId = attempt.attemptId
    && observationAnalysisProjectionEligible revision asOf
    && attempt.claimedAt ≤ revision.request.observedAt && revision.request.observedAt ≤ receivedAt
    && revision.result.any fun result =>
      result.isValid && match result.outcome with
        | .grounded _ _ audit => keepsContract audit revision.request (expectedProtocol measure)
        | _ => false

/-- What is read from the interpretation that is selected. -/
def ofInterpretation (receivedAt : DateTime) (revision : ObservationAnalysisRevision) :
    Option EffectiveObservation := do
  let result ← revision.result
  match result.outcome with
  | .grounded rawAnswer citations _ => do
    let analyzedAt ← revision.analyzedAt
    let actualModel ← result.actualModel
    pure
      { rawAnswer, citations, observedAt := revision.request.observedAt, receivedAt
        provenance := some
          { revisionId := revision.request.revisionId, source := revision.request.source
            sourceSha256 := revision.request.sourceSha256, observedAt := revision.request.observedAt
            analyzedAt, actualModel, configRevision := result.configRevision
            promptVersion := revision.request.promptVersion
            parserVersion := revision.request.parserVersion } }
  | _ => none

/-- What is read from the outcome of an attempt that has no interpretation. -/
def ofOutcome (outcome : ChannelOutcome) (receivedAt asOf : DateTime) (trusted : Bool) : Option EffectiveObservation :=
  if outcome.status = .observed ∧ outcome.fixture = false ∧ outcome.occurredAt ≤ asOf ∧ trusted = true then
    some
      { rawAnswer := outcome.rawAnswer.getD "", citations := outcome.citations
        observedAt := outcome.occurredAt, receivedAt, provenance := none }
  else none

/-- One interpretation of the current attempt, never a union of revisions. -/
def effectiveObservation [JsonText] [UrlParser] (view : ChannelTargetView)
    (analyses : List ObservationAnalysisRevision) (asOf : DateTime)
    (isTrustedSearch : ChannelTargetView → ChannelAttempt → Bool) : Option EffectiveObservation := do
  let attempt ← view.attempts.getLast?
  let outcome ← attempt.outcome
  let receivedAt ← attempt.receivedAt.filter fun at_ => at_ ≤ asOf
  match view.target.input with
  | .measure measure =>
    let selected :=
      Selection.maxByKey ObservationAnalysisRevision.order
        (analyses.filter (interprets view measure attempt receivedAt asOf))
    match selected with
    | some revision => ofInterpretation receivedAt revision
    | none => ofOutcome outcome receivedAt asOf (isTrustedSearch view attempt)
  | _ => none

end GeoMaster
