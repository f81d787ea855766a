import GeoMaster.Domain.AccountNetworks

/-!
# Browser operations

Durable, fail-closed ownership of a browser and its account gate. An operation is prepared, may be
started once, and ends disposed. It owns the account it was begun for and, after a login that turned
out to belong to an already connected account, that second account too.
-/

namespace GeoMaster

open Except

/-- An already connected customer account discovered by a new login. The browser keeps its original
owner; only the credential destination changes. -/
structure VerifiedLoginReconnect where
  (sourceAccountId reservationId networkBindingId : Uuid)

/-- Trusted verification result plus the account and session snapshot read before verification. -/
structure VerifiedLoginStorage where
  reconnect : Option VerifiedLoginReconnect
  accountId : Uuid
  secretScope : TenantScope
  ownerKind : ChannelOwnerKind
  platform : String
  expectedPlatformAccountId : Option String
  expectedSession : Option ChannelSecret
  (platformAccountId displayName : String)
  avatarUrl : Option String
  session : ChannelSecret

structure BrowserOperationScope where
  operatorId : OperatorId
  tenantId : Option TenantId
  projectId : Option ProjectId
  ownerId : Uuid
  deriving DecidableEq

inductive BrowserOperationPurpose where
  | login
  | discovery
  | measure
  | publish
  | withdraw
  | lookup
  | cleanup
  | completionRecovery
  deriving DecidableEq

inductive BrowserOperationState where
  | prepared
  | startRequested
  | closing
  | disposed
  deriving DecidableEq

structure BeginBrowserOperation where
  networkSelection : Option BrowserNetworkSelection
  (operationId sessionId accountId : Uuid)
  purpose : BrowserOperationPurpose
  runnerGeneration : Uuid
  effectiveNetwork : ChannelSecret
  reservationId : Option Uuid
  expiresAt : DateTime

structure BrowserOperation where
  loginVerifiedAt : Option DateTime
  (loginVerifiedAccountId networkBindingId : Option Uuid)
  networkScope : Option AccountNetworkScope
  (operationId sessionId accountId : Uuid)
  scope : BrowserOperationScope
  purpose : BrowserOperationPurpose
  runnerGeneration : Uuid
  effectiveNetwork : ChannelSecret
  reservationId : Uuid
  state : BrowserOperationState
  version : Int
  (expiresAt createdAt updatedAt nextCheckAt : DateTime)
  releasedUnstarted : Bool

inductive BrowserOperationTransition where
  | start
  | close
  | releaseUnstarted
  | disposed (sessionId runnerGeneration : Uuid)
  | defer (nextCheckAt : DateTime)

namespace BrowserOperation

variable (op : BrowserOperation)

def ownsAccount (accountId : Uuid) : Bool :=
  op.accountId = accountId ∨ op.loginVerifiedAccountId = some accountId

/-- The operation belongs to the operator, owns the account and is not disposed. -/
def liveOwner (operator : OperatorId) (accountId : Uuid) (op : BrowserOperation) : Bool :=
  op.scope.operatorId = operator ∧ op.ownsAccount accountId ∧ op.state ≠ .disposed

def pinNetwork (selection : BrowserNetworkSelection)
    (binding : AccountNetworkBinding) : Except AppError BrowserOperation := do
  selection.scope.validate
  failIf
    (binding.scope ≠ selection.scope ∨ binding.scope.operatorId ≠ op.scope.operatorId
      ∨ binding.scope.accountId ≠ op.accountId
      ∨ (binding.scope.tenantId.isSome
        ∧ (binding.scope.tenantId ≠ op.scope.tenantId ∨ binding.scope.projectId ≠ op.scope.projectId))
      ∨ ∃ id ∈ selection.historicalBindingId, id ≠ binding.bindingId)
    (.forbidden "browser network ownership differs")
  pure
    { op with
      networkScope := some binding.scope
      networkBindingId := some binding.bindingId
      effectiveNetwork := binding.effectiveNetwork }

def replayNetwork (selection : Option BrowserNetworkSelection)
    (existing : BrowserOperation) : Except AppError BrowserOperation :=
  match selection, existing.networkScope, existing.networkBindingId with
  | some s, some scope, some id =>
    if s.scope = scope ∧ ∀ pin ∈ s.historicalBindingId, pin = id then
      .ok
        { op with
          networkScope := some scope
          networkBindingId := some id
          effectiveNetwork := existing.effectiveNetwork }
    else .error (.conflict "browser network request differs")
  | none, none, none => .ok op
  | _, _, _ => .error (.conflict "browser network request differs")

def validateLoginCommit (scope : BrowserOperationScope) (storage : VerifiedLoginStorage) : Except AppError Unit := do
  failIf
    (op.scope ≠ scope ∨ op.accountId ≠ storage.reconnect.elim storage.accountId (·.sourceAccountId)
      ∨ op.purpose ≠ .login
      ∨ op.state ≠ .startRequested
      ∨ scope.operatorId ≠ storage.secretScope.operatorId
      ∨ (∃ id ∈ storage.expectedPlatformAccountId, id ≠ storage.platformAccountId)
      ∨ Text.isBlank storage.platformAccountId
      ∨ storage.session.encryptedBytes = [])
    (.conflict "login no longer owns browser operation")
  failIf
    (storage.reconnect.isSome
      ∧ (storage.ownerKind ≠ .customer ∨ op.accountId = storage.accountId
        ∨ storage.expectedPlatformAccountId ≠ some storage.platformAccountId))
    (.conflict "login reconnect destination differs")
  match storage.ownerKind with
  | .customer =>
    failIf
      (¬ (scope.tenantId = some storage.secretScope.tenantId ∧ scope.projectId.isSome
        ∧ scope.projectId = storage.secretScope.projectId))
      (.forbidden "login storage scope differs")
  | .operatorPool =>
    failIf (¬ (scope.tenantId.isNone ∧ scope.projectId.isNone)) (.forbidden "login storage scope differs")

def prepare (scope : BrowserOperationScope) (input : BeginBrowserOperation) (at_ : DateTime) :
    Except AppError BrowserOperation := do
  failIf
    (input.operationId.isNil
      ∨ input.sessionId.isNil
      ∨ input.accountId.isNil
      ∨ input.runnerGeneration.isNil
      ∨ scope.ownerId.isNil
      ∨ (scope.projectId.isSome ∧ scope.tenantId.isNone)
      ∨ input.effectiveNetwork.encryptedBytes = [])
    (.invalidRequest "invalid browser ownership")
  pure
    { loginVerifiedAt := none
      loginVerifiedAccountId := none
      networkBindingId := none
      networkScope := none
      operationId := input.operationId
      sessionId := input.sessionId
      accountId := input.accountId
      scope
      purpose := input.purpose
      runnerGeneration := input.runnerGeneration
      effectiveNetwork := input.effectiveNetwork
      reservationId := input.reservationId.getD input.operationId
      state := .prepared
      version := 1
      expiresAt := input.expiresAt
      createdAt := at_
      updatedAt := at_
      nextCheckAt := input.expiresAt
      releasedUnstarted := false }

def matchesBegin (op other : BrowserOperation) : Bool :=
  op.networkBindingId = other.networkBindingId ∧ op.networkScope = other.networkScope ∧ op.operationId
    = other.operationId ∧ op.sessionId = other.sessionId ∧ op.accountId = other.accountId ∧ op.scope = other.scope
    ∧ op.purpose = other.purpose ∧ op.runnerGeneration = other.runnerGeneration ∧ op.reservationId = other.reservationId
    ∧ DateTime.timestampMicros op.expiresAt = DateTime.timestampMicros other.expiresAt
    ∧ op.effectiveNetwork.encryptedBytes = other.effectiveNetwork.encryptedBytes

/-- The end of `transition`: a change of state counts as a new version. -/
def enter (next : BrowserOperationState) (at_ : DateTime) : BrowserOperation :=
  if op.state ≠ next then
    { op with state := next, version := op.version + 1, updatedAt := at_ }
  else op

def transition (scope : BrowserOperationScope) (action : BrowserOperationTransition) (at_ : DateTime) :
    Except AppError BrowserOperation := do
  failIf (op.scope ≠ scope) (.forbidden "browser ownership scope mismatch")
  match action with
  | .start =>
    match op.state with
    | .prepared => do
      failIf (¬ at_ < op.expiresAt) (.conflict "browser cannot start")
      pure (op.enter .startRequested at_)
    | .startRequested => pure op
    | _ => throw (.conflict "browser cannot start")
  | .close =>
    match op.state with
    | .disposed => pure op
    | .closing => pure op
    | _ => pure ({ op with nextCheckAt := at_ }.enter .closing at_)
  | .releaseUnstarted =>
    match op.state with
    | .prepared => pure ({ op with releasedUnstarted := true }.enter .disposed at_)
    | .disposed => do
      failIf (¬ op.releasedUnstarted) (.conflict "browser start may have occurred")
      pure op
    | _ => throw (.conflict "browser start may have occurred")
  | .defer nextCheckAt => do
    failIf (op.state = .disposed ∨ nextCheckAt ≤ at_) (.conflict "invalid browser reconciliation schedule")
    pure { op with nextCheckAt, version := op.version + 1, updatedAt := at_ }
  | .disposed sessionId runnerGeneration => do
    failIf (op.sessionId ≠ sessionId ∨ op.runnerGeneration ≠ runnerGeneration)
      (.conflict "browser disposal identity mismatch")
    pure (op.enter .disposed at_)

end BrowserOperation

end GeoMaster
