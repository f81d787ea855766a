import GeoMaster.Domain.ChannelLedger

/-!
# What a cycle shows to a report and to the optimizer

`frozenCycleInputs` is the contribution of a cycle to a report as of a cutoff: an attempt exists once
it was claimed by then, and its outcome counts once it was received by then.
`optimizationEligibleProjection` names the observations an optimizer may use, and nothing else.
-/

namespace GeoMaster

open Text

structure ChannelCycleInputs where
  manifests : List ReportManifestRef
  publications : Option (List ReportPublicationTarget)
  measurements : Option (List ReportMeasurementTarget)

structure OptimizationEligibleObservation where
  (targetId observationId : Uuid)
  question : QuestionReference
  protocolComparisonKey : String

structure OptimizationEligibleProjection where
  cycleId : Uuid
  observations : List OptimizationEligibleObservation

/-! ### The report of a cycle -/

/-- The attempts of each target. -/
abbrev Attempts : Type :=
  AssocMap Uuid (List ChannelAttempt)

/-- The kind of evidence an outcome is. -/
def evidenceKind (outcome : ChannelOutcome) : String :=
  if (outcome.status = .observed ∨ outcome.status = .refused) ∧ ¬ outcome.fixture then
    "observation"
  else if outcome.status = .verified ∧ ¬ outcome.fixture then "public_verification"
  else if outcome.status = .published ∧ ¬ outcome.fixture then "publication_receipt"
  else "channel_execution"

/-- The evidence a known attempt gives. -/
def attemptEvidence (targetId : Uuid) (attempt : ChannelAttempt) : Option ReportEvidenceReference :=
  attempt.outcome.map fun outcome =>
    { evidenceId := attempt.attemptId
      kind := evidenceKind outcome
      resourceId := targetId
      resourceVersion := outcome.connectorVersion
      occurredAt := some outcome.occurredAt
      receivedAt := attempt.receivedAt
      summary := outcome.detail.getD outcome.status.debug }

variable (attempts : Attempts)

/-- The last attempt claimed by the cutoff. -/
def lastEligible (targetId : Uuid) (asOf : DateTime) : Option ChannelAttempt :=
  (((attempts.lookup targetId).getD []).filter fun attempt => attempt.claimedAt ≤ asOf).getLast?

/-- That attempt, if it was received by the cutoff. -/
def knownAttempt (targetId : Uuid) (asOf : DateTime) : Option ChannelAttempt :=
  (lastEligible attempts targetId asOf).filter fun attempt => attempt.receivedAt.any fun at_ => at_ ≤ asOf

def publicationStatus (status : Option ChannelOutcomeStatus) (attempted : Bool) : ReportPublicationStatus :=
  match status with
  | some .verified => .verified
  | some .published => .published
  | some .failed => .failed
  | some .loginRequired | some .unsupported => .deferred
  | some .unknown => .unknown
  | _ => if attempted then .unknown else .planned

def measurementStatus (status : Option ChannelOutcomeStatus) (attempted : Bool) : ReportMeasurementStatus :=
  match status with
  | some .observed => .observed
  | some .refused => .refused
  | some .missing | some .unsupported | some .loginRequired => .missing
  | _ => if attempted then .missing else .pending

/-- The row of a publication target. -/
def publicationRow (asOf : DateTime) (targetId : Uuid) (platform : String) : ReportPublicationTarget :=
  let known := knownAttempt attempts targetId asOf
  let outcome := known.bind (·.outcome)
  { targetId
    platformId := platform
    status := publicationStatus (outcome.map (·.status)) (lastEligible attempts targetId asOf).isSome
    reason := outcome.bind (·.detail)
    evidence := (known.bind (attemptEvidence targetId)).toList }

/-- The row of a measurement target. -/
def measurementRow (asOf : DateTime) (targetId : Uuid) (input : MeasureInput) : ReportMeasurementTarget :=
  let known := knownAttempt attempts targetId asOf
  let outcome := known.bind (·.outcome)
  { targetId
    comparisonKey := input.comparisonKey
    questionBinding := input.questionBinding
    scheduledAt := input.scheduledAt
    status := measurementStatus (outcome.map (·.status)) (lastEligible attempts targetId asOf).isSome
    missingReason := outcome.bind (·.detail)
    evidence := (known.bind (attemptEvidence targetId)).toList }

/-- The platform of a publication target. -/
def ChannelTargetInput.platform : ChannelTargetInput → Option String
  | .publish input => some input.platform
  | .generatedPublish input => some input.platform
  | .measure _ => none

/-- What a measurement target asks. -/
def ChannelTargetInput.measureInput : ChannelTargetInput → Option MeasureInput
  | .measure input => some input
  | _ => none

def publicationRows (asOf : DateTime) (targets : List ChannelTarget) : List ReportPublicationTarget :=
  targets.filterMap fun target => target.input.platform.map (publicationRow attempts asOf target.targetId)

def measurementRows (asOf : DateTime) (targets : List ChannelTarget) : List ReportMeasurementTarget :=
  targets.filterMap fun target => target.input.measureInput.map (measurementRow attempts asOf target.targetId)

def frozenCycleInputs (plan : ChannelPlan) (attempts : Attempts) (asOf : DateTime) : ChannelCycleInputs :=
  let publications := publicationRows attempts asOf plan.targets
  let measurements := measurementRows attempts asOf plan.targets
  { manifests :=
      [{ kind := .distribution
         manifestId := plan.planId
         revision := plan.revision
         sealed := true
         expectedCount := some publications.length },
        { kind := .measurement
          manifestId := plan.planId
          revision := plan.revision
          sealed := true
          expectedCount := some measurements.length }]
    publications := some publications
    measurements := some measurements }

namespace ChannelLedger

def cycleInputs (scope : TenantScope) (cycleId : Uuid) (asOf : DateTime) :
    Op ChannelLedger AppError ChannelCycleInputs := do
  let key ← Op.lift (scopeKey scope)
  let cycle ← Op.read fun all => all.lookup ⟨key, .cycle cycleId⟩
  match cycle with
  | some cycle =>
    match cycle.plan with
    | some plan =>
      if plan.createdAt ≤ asOf then pure (frozenCycleInputs plan cycle.attempts asOf)
      else pure { manifests := [], publications := none, measurements := none }
    | none => pure { manifests := [], publications := none, measurements := none }
  | none => pure { manifests := [], publications := none, measurements := none }

end ChannelLedger

/-! ### The optimizer's projection -/

/-- The reader of JSON text. -/
class JsonText where
  parse : String → Option Json

/-- `value.get(key).and_then(as_str)`. -/
def Json.str (v : Json) (key : String) : Option String :=
  (v.get key).bind Json.asStr

/-- `value.get(key)` as an instant. -/
def Json.instant [InstantText] (v : Json) (key : String) : Option DateTime :=
  (v.str key).bind InstantText.parse

/-- A short text without control characters. -/
def isLabel (v : Json) : Bool :=
  v.asStr.any fun text => !isBlank text && len text ≤ 200 && !text.toList.any isControl

/-- A hexadecimal digest. -/
def isDigest (v : Json) : Bool :=
  v.asStr.any fun text => len text = 64 && text.toList.all isAsciiHexdigit

/-- Semantic provenance of persisted evidence: exactly one extraction audit, about the very source
the search event names. -/
def semanticSearchProjectionValid [Sha256] [JsonText] (proof : Json) (outcome : ChannelOutcome) : Bool :=
  let event := proof.index "search_event"
  if event.index "source" ≠ .string "browser_response_ai" ∨ event.index "search_used" ≠ .string "yes" ∨ event.index
      "extraction_prompt_version" ≠ .string "geo.observation.extract.v5" ∨ event.index "request_model" ≠ proof.index
      "model" ∨ ¬ isLabel (event.index "request_model") ∨ event.index "request_question_sha256" ≠ proof.index
      "question_sha256" ∨ ¬ isDigest (event.index "request_question_sha256") ∨ ¬ isLabel
      (event.index "extraction_model") ∨ ¬ isDigest (event.index "source_sha256") then
    false
  else
    match outcome.runnerEvidence.filter fun v =>
        v.index "kind" = .string "observation_extraction" with
    | [audit] =>
      match (audit.index "source_json").asStr with
      | some sourceJson =>
        len sourceJson ≤ 750000 ∧ some (sha256Hex (bytes sourceJson)) = (event.index "source_sha256").asStr
          ∧ ((JsonText.parse sourceJson).any fun source => source.isObject && (source.index "messages").isArray)
          ∧ audit.index "method" = .string "llm_grounded"
          ∧ audit.index "model" = event.index "extraction_model"
          ∧ audit.index "prompt_version" = event.index "extraction_prompt_version"
          ∧ audit.index "source_sha256" = event.index "source_sha256"
          ∧ ((audit.index "surface").asStr = some "signed_in_browser"
            ∨ (audit.index "surface").asStr = some "model_api")
          ∧ ((audit.index "refs").asArray.any fun refs => !refs.isEmpty)
      | none => false
    | _ => false

/-- The outcome is a live observation with an answer, received in time. -/
def timelyObservation (input : MeasureInput) (attempt : ChannelAttempt) (outcome : ChannelOutcome)
    (asOf : DateTime) : Bool :=
  ¬ outcome.fixture ∧ outcome.status = .observed ∧ (outcome.rawAnswer.any fun answer => !isBlank answer)
    ∧ (outcome.connectorVersion.any fun version => !version.isEmpty && !startsWith version "fixture")
    ∧ (attempt.receivedAt.any fun received =>
      attempt.claimedAt ≤ outcome.occurredAt ∧ input.scheduledAt ≤ outcome.occurredAt
        ∧ outcome.occurredAt ≤ received ∧ received ≤ asOf ∧ input.scheduledAt ≤ received)

/-- The search event of a proof: live, on the consumer surface, grounded in the audited source, and
seen during the attempt. -/
def searchEventValid [Sha256] [JsonText] [InstantText] (input : MeasureInput)
    (attempt : ChannelAttempt) (outcome : ChannelOutcome) (proof : Json) : Bool :=
  match proof.get "search_event" with
  | some event =>
    event.isObject ∧ event.str "kind" = some "official_search_event" ∧ event.str "provenance" = some "live"
      ∧ input.surface = "consumer_web" ∧ input.searchMode = "web_search" ∧ semanticSearchProjectionValid proof outcome
      ∧ ((event.instant "observed_at").any fun at_ => attempt.claimedAt ≤ at_ ∧ at_ ≤ outcome.occurredAt)
  | none => false

/-- The runner's original proof matches the frozen target and the outcome in every field. -/
def proofMatches [Sha256] [JsonText] [InstantText] (targetId : Uuid) (input : MeasureInput)
    (attempt : ChannelAttempt) (outcome : ChannelOutcome) (proof : Json) : Bool :=
  proof.str "kind" = some "official_search_observation" ∧ proof.str "target_id" = some targetId.toString ∧ proof.str
    "account_id" = some input.accountId.toString ∧ proof.str "question_sha256" = some (sha256Hex (bytes input.question))
    ∧ proof.str "provider" = some input.provider ∧ proof.str "model" = some input.model ∧ proof.str "surface" = some
    input.surface ∧ proof.str "search_mode" = some input.searchMode ∧ proof.str "protocol_version" = some
    input.protocolVersion ∧ proof.str "question_set_version" = some input.questionSetVersion ∧ proof.str "market" = some
    input.market ∧ proof.str "language" = some input.language ∧ proof.instant "scheduled_at" = some input.scheduledAt
    ∧ (proof.get "sample_ordinal").bind Json.asU64 = some input.sampleOrdinal.toUInt64 ∧ proof.str "provenance" = some
    "live" ∧ proof.str "disposition" = some "observed" ∧ proof.index "schema_version" = .string
    "geo.measure.official_search.v4" ∧ searchEventValid input attempt outcome proof ∧ proof.str "raw_answer"
    = outcome.rawAnswer ∧ proof.str "connector_version" = outcome.connectorVersion

/-- The question binding of a target the optimizer may look at. -/
def optimizationBinding (target : ChannelTarget) : Option (MeasureInput × FrozenQuestionBinding) :=
  match target.input with
  | .measure input =>
    match input.questionBinding with
    | some binding =>
      if binding.purpose = .optimization
          ∧ input.questionSetVersion = binding.reference.questionSetVersionId.toString then
        some (input, binding)
      else none
    | none => none
  | _ => none

/-- The observation of one target, from its last attempt. -/
def eligibleObservation [Sha256] [JsonText] [InstantText] (attempts : Attempts) (asOf : DateTime)
    (target : ChannelTarget) : Option OptimizationEligibleObservation := do
  let (input, binding) ← optimizationBinding target
  let attempt ← ((attempts.lookup target.targetId).getD []).getLast?
  let outcome ← attempt.outcome
  if timelyObservation input attempt outcome asOf
      ∧ (outcome.runnerEvidence.filter
          (proofMatches target.targetId input attempt outcome)).length = 1 then
    some
      { targetId := target.targetId
        observationId := attempt.attemptId
        question := binding.reference
        protocolComparisonKey := input.comparisonKey }
  else none

def optimizationEligibleProjection [Sha256] [JsonText] [InstantText] (scope : TenantScope)
    (plan : ChannelPlan) (attempts : Attempts) (asOf : DateTime) :
    Except AppError OptimizationEligibleProjection := do
  Except.failIf (scope.projectId ≠ some plan.projectId) (.forbidden "optimization projection outside project scope")
  pure
    { cycleId := plan.cycleId
      observations := plan.targets.filterMap (eligibleObservation attempts asOf) }

end GeoMaster
