import GeoMaster.Domain.ChannelJobs

/-!
# The channel ledger

The first map of the memory repository: one `MemoryCycle` for each cycle and each standalone
measurement of a project, with its plan, its generated targets, and the attempts, bindings, send
registrations and withdrawals under them. Each operation looks its cycle up among the cycles of the
caller's project and works on that cycle only.
-/

namespace GeoMaster

/-! ### The stored state -/

/-- What an entry of the ledger belongs to. -/
inductive ChannelOwner where
  | cycle (cycleId : Uuid)
  | measurement (planId : Uuid)
  deriving DecidableEq

/-- The project part of a ledger key. -/
structure ProjectKey where
  (operator tenant project : Uuid)
  deriving DecidableEq

structure ChannelScopeKey where
  scope : ProjectKey
  owner : ChannelOwner
  deriving DecidableEq

structure MemorySendRegistration where
  sessionId : Uuid
  deadline : DateTime
  bindingSha256 : String
  sendAuthorizedAt : Option DateTime

structure MemoryCycle where
  plan : Option ChannelPlan
  measurement : Option StandaloneMeasurementPlan
  measurementRequest : Option (String × String)
  generated : AssocMap Uuid ChannelTarget
  attempts : AssocMap Uuid (List ChannelAttempt)
  publicationBindings : AssocMap Uuid ChannelSecret
  withdrawals : AssocMap Uuid PublicationWithdrawal
  publicationSend : AssocMap Uuid MemorySendRegistration

namespace MemoryCycle

def default : MemoryCycle where
  plan := none
  measurement := none
  measurementRequest := none
  generated := ∅
  attempts := ∅
  publicationBindings := ∅
  withdrawals := ∅
  publicationSend := ∅

/-- The targets of the plan, if there is one. -/
def planTargets (cycle : MemoryCycle) : List ChannelTarget :=
  cycle.plan.elim [] (·.targets)

/-- The targets of the standalone measurement, if there is one. -/
def measurementTargets (cycle : MemoryCycle) : List ChannelTarget :=
  cycle.measurement.elim [] (·.targets)

def target (cycle : MemoryCycle) (id : Uuid) : Option ChannelTarget :=
  (cycle.generated.lookup id).orElse fun _ =>
    (cycle.planTargets.find? fun target => target.targetId = id).orElse fun _ =>
      cycle.measurementTargets.find? fun target => target.targetId = id

def targets (cycle : MemoryCycle) : List ChannelTarget :=
  AssocMap.values cycle.generated ++ cycle.planTargets ++ cycle.measurementTargets

/-- The attempts of a target. -/
def attemptsOf (cycle : MemoryCycle) (targetId : Uuid) : List ChannelAttempt :=
  (cycle.attempts.lookup targetId).getD []

/-- The attempt of a target under an id. -/
def attempt (cycle : MemoryCycle) (targetId attemptId : Uuid) : Option ChannelAttempt :=
  (cycle.attemptsOf targetId).find? fun attempt => attempt.attemptId = attemptId

end MemoryCycle

abbrev ChannelLedger : Type :=
  AssocMap ChannelScopeKey MemoryCycle

def scopeKey (scope : TenantScope) : Except AppError ProjectKey := do
  let project ← Except.okOr scope.projectId (.forbidden "project scope required")
  pure
    { operator := scope.operatorId.asUuid
      tenant := scope.tenantId.asUuid
      project := project.asUuid }

namespace ChannelLedger

variable (all : ChannelLedger) (scope : TenantScope) (key : ProjectKey)

/-- The first entry of the project that passes a test. -/
def findEntry (p : MemoryCycle → Bool) : Option (ChannelScopeKey × MemoryCycle) :=
  (all.entries.find? fun e => e.1.scope = key ∧ p e.2).map fun e => (e.1, e.2)

/-- The entry of the project that knows the target. -/
def findTarget (targetId : Uuid) : Option (ChannelScopeKey × MemoryCycle) :=
  all.findEntry key fun cycle => (cycle.target targetId).isSome

/-- The entry of the project that holds the withdrawal. -/
def findWithdrawal (attemptId : Uuid) : Option (ChannelScopeKey × MemoryCycle) :=
  all.findEntry key fun cycle => (cycle.withdrawals.lookup attemptId).isSome

/-! ### Plans and generated targets -/

/-- The measurement plan already accepted under an idempotency key, with its request hash. -/
def findRequest (request : String) : Option (String × MemoryCycle) :=
  (all.findEntry key fun cycle => cycle.measurementRequest.any fun r => r.1 = request).bind
    fun entry => entry.2.measurementRequest.map fun r => (r.2, entry.2)

def createMeasurementPlan (key requestHash : String)
    (plan : StandaloneMeasurementPlan) : Op ChannelLedger AppError StandaloneMeasurementPlan := do
  Op.lift (plan.validate scope)
  Op.failIf (Text.isBlank key ∨ requestHash = "") (.invalidRequest "measurement idempotency identity required")
  let identity ← Op.lift (scopeKey scope)
  let all ← Op.read id
  match findRequest all identity key with
  | some (hash, entry) => do
    Op.failIf (hash ≠ requestHash) (.conflict "measurement idempotency key differs")
    -- An entry with a request always has its measurement.
    Op.okOr entry.measurement (.conflict "measurement owner")
  | none => do
    Op.failIf
      ((⟨identity, .measurement plan.planId⟩ : ChannelScopeKey) ∈ all
        ∨ ∃ entry ∈ AssocMap.values all, ∃ target ∈ plan.targets, (entry.target target.targetId).isSome)
      (.conflict "measurement plan or target already exists")
    Op.modify fun all =>
      all.insert ⟨identity, .measurement plan.planId⟩
        { MemoryCycle.default with
          measurement := some plan
          measurementRequest := some (key, requestHash) }
    pure plan

/-- `entry(key).or_default()`. -/
def entryOrDefault (key : ChannelScopeKey) : MemoryCycle :=
  (all.lookup key).getD MemoryCycle.default

def insertGeneratedTarget (cycleId commandId : Uuid)
    (target : ChannelTarget) : Op ChannelLedger AppError ChannelTarget := do
  Op.failIf (target.targetId ≠ commandId ∨ ¬ target.input.isGenerated)
    (.invalidRequest "invalid generated command target")
  let key ← Op.lift (scopeKey scope)
  let all ← Op.read id
  match (findTarget all key commandId).bind fun entry => entry.2.target commandId with
  | some existing => do
    Op.failIf (existing ≠ target) (.conflict "generated command target differs")
    pure existing
  | none => do
    Op.modify fun all =>
      let cycle := entryOrDefault all ⟨key, .cycle cycleId⟩
      all.insert ⟨key, .cycle cycleId⟩ { cycle with generated := cycle.generated.insert commandId target }
    pure target

def createPlan (plan : ChannelPlan) : Op ChannelLedger AppError ChannelPlan := do
  Op.failIf (scope.projectId ≠ some plan.projectId) (.forbidden "plan outside project")
  Op.failIf (∃ target ∈ plan.targets, target.input.isGenerated)
    (.invalidRequest "generated publication cannot be frozen into a legacy plan")
  let key ← Op.lift (scopeKey scope)
  Op.modify fun all => all.insert ⟨key, .cycle plan.cycleId⟩ (entryOrDefault all ⟨key, .cycle plan.cycleId⟩)
  let cycle ← Op.read fun all => entryOrDefault all ⟨key, .cycle plan.cycleId⟩
  match cycle.plan with
  | some existing => do
    Op.failIf (existing.inputHash ≠ plan.inputHash) (.conflict "channel plan already frozen")
    pure existing
  | none => do
    Op.modify fun all => all.insert ⟨key, .cycle plan.cycleId⟩ { cycle with plan := some plan }
    pure plan

/-! ### Attempts -/

def getTarget (targetId : Uuid) : Op ChannelLedger AppError ChannelTargetView := do
  let key ← Op.lift (scopeKey scope)
  let all ← Op.read id
  let (_, cycle) ← Op.okOr (findTarget all key targetId) (.notFound "target not found")
  let target ← Op.okOr (cycle.target targetId) (.notFound "target not found")
  pure { target, attempts := cycle.attemptsOf targetId }

/-- An attempt on a publication target of the account that has not been received yet. -/
def publicationInFlight (operator accountId : Uuid) : Bool :=
  all.entries.any fun e =>
    e.1.scope.operator = operator
      ∧ ∃ target ∈ e.2.targets, target.input.isPublication ∧ target.input.accountId = accountId
        ∧ ∃ attempt ∈ e.2.attemptsOf target.targetId, attempt.receivedAt.isNone

/-- The target `claim` checks for a publication in flight: the first of the project under the id. -/
def pendingTarget (targetId : Uuid) : Option ChannelTarget :=
  ((all.entries.filter fun e => e.1.scope = key).flatMap fun e => e.2.targets).find?
    fun target => target.targetId = targetId

/-- How the accepted requests answer, when the repository is connected to them. -/
abbrev WithdrawalRequests : Type :=
  Option (TenantScope → Uuid → Except AppError ContentDistributionRequest)

/-- The request asks for a plain short post of a customer account, the one the target publishes. -/
def withdrawable (request : ContentDistributionRequest) (input : GeneratedPublishInput) : Bool :=
  input.richPayload.isNone ∧ input.platform = "zhihu" ∧ input.placementSlot = "short_post" ∧ input.accountId
    = request.accountId ∧ request.platformId = input.platform ∧ request.placementSlot = input.placementSlot
    ∧ request.accountOwnerKind = "customer" ∧ request.format = textDistributionFormat

/-- The withdrawal authority a claim creates, when the request behind the target asks for one. -/
def claimWithdrawalRow (requests : WithdrawalRequests) (scope : TenantScope)
    (target : ChannelTarget) (targetId attemptId : Uuid) : Except AppError (Option PublicationWithdrawal) :=
  match target.input, requests with
  | .generatedPublish input, some get =>
    match input.originRequestId with
    | some requestId => do
      let request ← get scope requestId
      Except.failIf (request.withdrawAfterPublish ∧ ¬ withdrawable request input)
        (.conflict "withdrawal publication authority differs")
      pure
        (if request.withdrawAfterPublish then
          some
            { scope
              requestId
              targetId
              attemptId
              accountId := input.accountId
              state := .awaitingPublication
              externalId := none
              publicUrl := none
              executionId := none
              claimedAt := none
              evidence := .object []
              finishedAt := none
              errorCode := none }
        else none)
    | none => pure none
  | _, _ => pure none

/-- Add an attempt to its target, and its withdrawal row when there is one. -/
def pushAttempt (cycle : MemoryCycle) (attempt : ChannelAttempt)
    (withdrawal : Option PublicationWithdrawal) : MemoryCycle :=
  { cycle with
    attempts := cycle.attempts.insert attempt.targetId (cycle.attemptsOf attempt.targetId ++ [attempt])
    withdrawals := withdrawal.elim cycle.withdrawals (cycle.withdrawals.insert attempt.attemptId) }

def claim (requests : WithdrawalRequests) (scope : TenantScope) (targetId attemptId : Uuid)
    (at_ : DateTime) : Op ChannelLedger AppError (ChannelTarget × ChannelAttempt) := do
  let key ← Op.lift (scopeKey scope)
  let all ← Op.read id
  let pending ← Op.okOr (pendingTarget all key targetId) (.notFound "target not found")
  -- A pool account can serve several tenants and projects under one operator; its write lease is
  -- account-wide, not project-wide.
  Op.failIf (pending.input.isPublication ∧ publicationInFlight all key.operator pending.input.accountId)
    (.conflict "channel account already has a publication in flight")
  let (entry, cycle) ← Op.okOr (findTarget all key targetId) (.notFound "target not found")
  let target ← Op.okOr (cycle.target targetId) (.notFound "target not found")
  Op.failIf (cycle.attemptsOf targetId ≠ [])
    (.conflict "target already attempted; inspect or reconcile existing outcome")
  let attempt : ChannelAttempt :=
    { attemptId, targetId, claimedAt := at_, outcome := none, receivedAt := none }
  let withdrawal ← Op.lift (claimWithdrawalRow requests scope target targetId attemptId)
  Op.modify fun all => all.insert entry (pushAttempt cycle attempt withdrawal)
  pure (target, attempt)

/-- Text-only readback never proves rich media, and a published result cannot predate the one-shot
send authorization. -/
def recordedOutcome (cycle : MemoryCycle) (target : ChannelTarget) (attemptId : Uuid)
    (outcome : ChannelOutcome) : ChannelOutcome :=
  if target.input.isRich
      ∧ (outcome.status = .verified
        ∨ (outcome.status = .published
          ∧ ¬ ∃ r ∈ cycle.publicationSend.lookup attemptId, r.sendAuthorizedAt.isSome)) then
    { outcome with status := .unknown }
  else outcome

/-- Record the outcome of the attempt under an id, the first of the list that has it. -/
def recordOutcome (attemptId : Uuid) (outcome : ChannelOutcome) (receivedAt : DateTime) :
    List ChannelAttempt → List ChannelAttempt
  | [] => []
  | attempt :: rest =>
    if attempt.attemptId = attemptId then
      { attempt with outcome := some outcome, receivedAt := some receivedAt } :: rest
    else attempt :: recordOutcome attemptId outcome receivedAt rest

def finish (targetId attemptId : Uuid) (outcome : ChannelOutcome)
    (receivedAt : DateTime) : Op ChannelLedger AppError ChannelTargetView := do
  let key ← Op.lift (scopeKey scope)
  let all ← Op.read id
  let (entry, cycle) ← Op.okOr (findTarget all key targetId) (.notFound "target not found")
  let target ← Op.okOr (cycle.target targetId) (.notFound "target not found")
  let outcome := recordedOutcome cycle target attemptId outcome
  let attempts ← Op.okOr (cycle.attempts.lookup targetId) (.notFound "attempt not found")
  let attempt ← Op.okOr (attempts.find? fun attempt => attempt.attemptId = attemptId) (.notFound "attempt not found")
  match attempt.outcome with
  | some previous => do
    Op.failIf (previous ≠ outcome) (.conflict "attempt outcome already recorded")
    pure { target, attempts }
  | none => do
    let attempts := recordOutcome attemptId outcome receivedAt attempts
    Op.modify fun all => all.insert entry { cycle with attempts := cycle.attempts.insert targetId attempts }
    pure { target, attempts }

/-- Save an opaque encrypted execution envelope on the publication attempt before its outcome. -/
def storePublicationBinding (targetId attemptId : Uuid) (binding : ChannelSecret) : Op ChannelLedger AppError Unit := do
  Op.failIf (binding.encryptedBytes = []) (.invalidRequest "empty encrypted publication binding")
  let key ← Op.lift (scopeKey scope)
  let all ← Op.read id
  let (entry, cycle) ← Op.okOr (findTarget all key targetId) (.notFound "target not found")
  Op.failIf (¬ ∃ target ∈ cycle.target targetId, target.input.isPublication)
    (.invalidRequest "binding requires a publication target")
  let attempt ← Op.okOr (cycle.attempt targetId attemptId) (.notFound "attempt not found")
  match cycle.publicationBindings.lookup attemptId with
  | some existing =>
    Op.failIf (existing.encryptedBytes ≠ binding.encryptedBytes) (.conflict "publication binding already recorded")
  | none => do
    Op.failIf attempt.receivedAt.isSome (.conflict "publication attempt already finished")
    Op.modify fun all =>
      all.insert entry { cycle with publicationBindings := cycle.publicationBindings.insert attemptId binding }

end ChannelLedger

end GeoMaster
