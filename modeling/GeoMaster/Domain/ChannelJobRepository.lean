import GeoMaster.Domain.CycleInputs
import GeoMaster.Domain.LoginQueue
import GeoMaster.Domain.RichSend
import GeoMaster.Domain.Withdrawals

/-!
# The memory repository of channel jobs

Five maps behind one repository: the ledger, the account gates, the browser operations, the account
networks and the login queues. Every operation holds the locks of the maps it touches until it
returns, so an operation is one step on the whole state. The account store is another repository;
what it answers to an operation is an argument of that operation.
-/

namespace GeoMaster

open Except AssocMap

/-- What the account store answers during one operation. -/
structure ChannelReplies where
  saveNetworkMetadata : AccountNetworkScope → AccountNetworkMetadataUpdate → Except AppError Unit
  compareSetNetworkSettings : TenantScope → Option ChannelSettingsRecord → ChannelSettingsRecord → Except AppError Unit
  validateAccountNetworkAssignment : AccountNetworkScope → AccountNetworkSource → Except AppError Unit
  saveVerifiedLoginStorage : VerifiedLoginStorage → DateTime → Except AppError Unit
  accountLoginSessions : OperatorId → Uuid → Except AppError (List Uuid)
  listImportRows : OperatorId → String → Except AppError (List ChannelImportRecord)
  getPoolAccount : OperatorId → Uuid → Except AppError PoolAccountRecord
  savePoolLogin : OperatorId → PoolLoginSession → Except AppError Unit
  listAccounts : TenantScope → Except AppError (List ChannelAccount)
  getAccount : TenantScope → Uuid → Except AppError ChannelAccountRecord

/-- The owner of a gate and when its reservation expires. -/
abbrev AccountReservation : Type :=
  Uuid × DateTime

abbrev Gates : Type :=
  AssocMap (Uuid × Uuid) AccountReservation

abbrev Operations : Type :=
  AssocMap Uuid BrowserOperation

structure MemoryChannelJobRepository where
  ledger : ChannelLedger
  gates : Gates
  operations : Operations
  networks : MemoryAccountNetworks
  queues : AssocMap Uuid OperatorLoginQueue

/-- The browser operation that holds an account, if there is one. -/
def Operations.activeOwner (operations : Operations) (operator : OperatorId) (accountId : Uuid) :
    Option BrowserOperation :=
  (values operations).find? fun op => op.liveOwner operator accountId

/-- Some browser operation holds the account. -/
def Operations.busy (operations : Operations) (operator : OperatorId) (accountId : Uuid) : Bool :=
  (values operations).any fun op => op.liveOwner operator accountId

namespace MemoryChannelJobRepository

def default : MemoryChannelJobRepository where
  ledger := ∅
  gates := ∅
  operations := ∅
  networks := { heads := ∅, bindings := ∅ }
  queues := ∅

/-- An operation of the repository. -/
abbrev JobOp (α : Type) : Type :=
  Op MemoryChannelJobRepository AppError α

/-- An operation on the ledger alone. -/
def onLedger {α : Type} (x : Op ChannelLedger AppError α) : JobOp α :=
  Op.zoom (·.ledger) (fun ledger s => { s with ledger }) x

/-! ### Account networks -/

variable (s : MemoryChannelJobRepository) (scope : BrowserOperationScope) (channels : ChannelReplies)

/-- Accounts whose route follows the project default, by their head. -/
def inheritedHeads (scope : TenantScope) (project : ProjectId) : List Uuid :=
  (values s.networks.heads).filterMap fun head =>
    let desired := head.pending.getD head.active
    if desired.scope.operatorId = scope.operatorId ∧ desired.scope.tenantId = some scope.tenantId
        ∧ desired.scope.projectId = some project ∧ (desired.source matches .projectDefault _) then
      some desired.scope.accountId
    else none

/-- Customer accounts without a head that a browser holds and that have no proxy of their own. -/
def inheritedBusy (s : MemoryChannelJobRepository) (channels : ChannelReplies)
    (scope : TenantScope) : List ChannelAccount → Except AppError (List Uuid)
  | [] => pure []
  | account :: rest =>
    if account.ownerKind = .customer ∧ (scope.operatorId.asUuid, account.accountId) ∉ s.networks.heads
        ∧ s.operations.busy scope.operatorId account.accountId then do
      let record ← channels.getAccount scope account.accountId
      let more ← inheritedBusy s channels scope rest
      pure (if record.proxy.isNone then account.accountId :: more else more)
    else inheritedBusy s channels scope rest

/-- The accounts a change of the project default has to update. -/
def requiredAccounts (scope : TenantScope) (project : ProjectId) (expected : Option ChannelSettingsRecord)
    (record : ChannelSettingsRecord) : Except AppError (List Uuid) :=
  if (expected.bind (·.proxy)).map (·.encryptedBytes) ≠ record.proxy.map (·.encryptedBytes) then do
    let accounts ← channels.listAccounts scope
    let busy ← inheritedBusy s channels scope accounts
    pure (inheritedHeads s scope project ++ busy)
  else pure []

/-- Stage the updates one after the other, on the networks the earlier ones left. -/
def stageUpdates (s : MemoryChannelJobRepository) (channels : ChannelReplies) (scope : TenantScope)
    (project : ProjectId) (updatedAt : DateTime) (staged : MemoryAccountNetworks) :
    List ProjectNetworkBindingUpdate → Except AppError MemoryAccountNetworks
  | [] => pure staged
  | update :: rest => do
    let binding := update.binding
    failIf
      (binding.scope.operatorId ≠ scope.operatorId ∨ binding.scope.tenantId ≠ some scope.tenantId
        ∨ binding.scope.projectId ≠ some project
        ∨ binding.source ≠ .projectDefault (some updatedAt))
      (.conflict "project default binding differs")
    channels.validateAccountNetworkAssignment binding.scope .legacySnapshot
    let activeOp := (s.operations.activeOwner scope.operatorId binding.scope.accountId).map (·.operationId)
    let (_, staged) ←
      staged.set binding.scope update.expectedVersion binding update.legacy activeOp
    stageUpdates s channels scope project updatedAt staged rest

def setProjectNetworkDefaults (scope : TenantScope)
    (expected : Option ChannelSettingsRecord) (record : ChannelSettingsRecord)
    (updates : List ProjectNetworkBindingUpdate) : JobOp ChannelSettings := do
  let project ← Op.okOr scope.projectId (.forbidden "project scope required")
  Op.failIf (record.settings.projectId ≠ project) (.forbidden "settings outside project")
  let s ← Op.read id
  let required ← Op.lift (s.requiredAccounts channels scope project expected record)
  let supplied := updates.map fun update => update.binding.scope.accountId
  Op.failIf (¬ ((∀ a ∈ required, a ∈ supplied) ∧ ∀ a ∈ supplied, a ∈ required) ∨ ¬ supplied.Nodup)
    (.conflict "inherited account network set changed")
  let staged ← Op.lift (s.stageUpdates channels scope project record.settings.updatedAt s.networks updates)
  Op.lift (channels.compareSetNetworkSettings scope expected record)
  Op.modify fun s => { s with networks := staged }
  pure record.settings

def setAccountNetworkWithMetadata (scope : AccountNetworkScope)
    (expected : Option Int) (binding : AccountNetworkBinding)
    (legacy : Option LegacyNetworkBootstrap) (metadata : Option AccountNetworkMetadataUpdate) :
    JobOp AccountNetworkBindings := do
  Op.lift (validateNetworkBinding scope binding)
  Op.lift (channels.validateAccountNetworkAssignment scope binding.source)
  let s ← Op.read id
  let activeOp := (s.operations.activeOwner scope.operatorId scope.accountId).map (·.operationId)
  let (result, staged) ← Op.lift (s.networks.set scope expected binding legacy activeOp)
  match metadata with
  | some metadata => Op.lift (channels.saveNetworkMetadata scope metadata)
  | none => pure ()
  Op.modify fun s => { s with networks := staged }
  pure result

/-! ### Browser operations -/

/-- A begin with a reservation needs a live gate of its own; a begin without one needs no gate, or an
expired one. -/
def gateAvailable (reservationId : Option Uuid) (gate : Option AccountReservation) (at_ : DateTime) : Bool :=
  match reservationId, gate with
  | some owner, some (existing, expiry) => owner = existing ∧ expiry > at_
  | none, none => true
  | none, some (_, expiry) => expiry ≤ at_
  | some _, none => false

/-- The binding a selection names: the historical one, or the active one. -/
def selectedBinding (networks : MemoryAccountNetworks) (head : AccountNetworkBindings)
    (selection : BrowserNetworkSelection) : Except AppError AccountNetworkBinding :=
  match selection.historicalBindingId with
  | some id => okOr (networks.bindings.lookup id) (.notFound "historical network binding not found")
  | none => pure head.active

/-- The new operation of a begin, or the stored one of a replay. -/
def prepareMemoryBrowser (input : BeginBrowserOperation) (at_ : DateTime) : Except AppError BrowserOperation := do
  let operation ← BrowserOperation.prepare scope input at_
  match s.operations.lookup input.operationId with
  | some existing => do
    let operation ← operation.replayNetwork input.networkSelection existing
    failIf (¬ existing.matchesBegin operation) (.conflict "browser operation differs")
    pure existing
  | none => do
    let key := (scope.operatorId.asUuid, input.accountId)
    failIf (input.expiresAt ≤ at_) (.invalidRequest "browser ownership deadline elapsed")
    failIf (∃ op ∈ values s.operations, op.sessionId = input.sessionId ∨ op.liveOwner scope.operatorId input.accountId)
      (.conflict "browser ownership busy")
    failIf (¬ gateAvailable input.reservationId (s.gates.lookup key) at_) (.conflict "channel account preflight busy")
    match input.networkSelection with
    | some selection => do
      let head ← okOr ((s.networks.heads.lookup key).filter fun h => h.active.scope = selection.scope)
        (.conflict "account network is not initialized")
      let binding ← selectedBinding s.networks head selection
      operation.pinNetwork selection binding
    | none => pure operation

/-- A begun operation takes the gate of its account. -/
def admitBrowser (operation : BrowserOperation) : MemoryChannelJobRepository :=
  { s with
    gates :=
      s.gates.insert (operation.scope.operatorId.asUuid, operation.accountId)
        (operation.reservationId, operation.expiresAt)
    operations := s.operations.insert operation.operationId operation }

def beginBrowserOperation (input : BeginBrowserOperation) (at_ : DateTime) : JobOp BrowserOperation := do
  let s ← Op.read id
  let operation ← Op.lift (s.prepareMemoryBrowser scope input at_)
  if operation.operationId ∈ s.operations then pure operation
  else do
    Op.modify fun s => s.admitBrowser operation
    pure operation

def claimBrowserStart (id : Uuid) (at_ : DateTime) : JobOp (Option BrowserOperation) := do
  let op ← Op.read fun s => s.operations.lookup id
  let op ← Op.okOr op (.notFound "browser operation not found")
  Op.failIf (op.scope ≠ scope) (.forbidden "browser ownership scope mismatch")
  if op.state = .startRequested then pure none
  else do
    Op.failIf (op.state ≠ .prepared) (.conflict "browser cannot start")
    let op ← Op.lift (op.transition scope .start at_)
    Op.modify fun s => { s with operations := s.operations.insert id op }
    pure (some op)

/-- The reconnect destination is reserved for this login, nobody holds it, and its route is the one
the login was verified on. -/
def checkReconnect (storage : VerifiedLoginStorage) (reconnect : VerifiedLoginReconnect) (at_ : DateTime) :
    Except AppError Unit := do
  let key := (scope.operatorId.asUuid, storage.accountId)
  failIf
    (¬ ((s.gates.lookup key).any fun gate => gate.1 = reconnect.reservationId ∧ gate.2 > at_)
      ∨ s.operations.busy scope.operatorId storage.accountId)
    (.conflict "reconnect account is in use")
  failIf
    (¬ ((s.networks.heads.lookup key).any fun head =>
      head.active.bindingId = reconnect.networkBindingId ∧ head.active.scope.tenantId = some
        storage.secretScope.tenantId ∧ head.active.scope.projectId = storage.secretScope.projectId))
    (.conflict "reconnect account network changed")

def saveOwnedLoginSession (scope : BrowserOperationScope)
    (operationId : Uuid) (storage : VerifiedLoginStorage) (at_ : DateTime) : JobOp Unit := do
  let s ← Op.read id
  let op ← Op.okOr (s.operations.lookup operationId) (.notFound "browser operation not found")
  Op.lift (op.validateLoginCommit scope storage)
  Op.failIf
    (¬ ((s.gates.lookup (scope.operatorId.asUuid, op.accountId)).any fun gate => gate.1 = op.reservationId))
    (.conflict "login account gate differs")
  match storage.reconnect with
  | some reconnect => Op.lift (s.checkReconnect scope storage reconnect at_)
  | none => pure ()
  -- Disposal takes the same locks, so a credential write cannot pass the terminal state.
  Op.lift (channels.saveVerifiedLoginStorage storage at_)
  if storage.reconnect.isSome then
    Op.modify fun s =>
      { s with
        gates := s.gates.insert (scope.operatorId.asUuid, storage.accountId) (op.reservationId, op.expiresAt) }
  Op.modify fun s =>
    { s with
      operations :=
        s.operations.insert operationId
          { op with
            loginVerifiedAt := some (op.loginVerifiedAt.getD at_)
            loginVerifiedAccountId := some storage.accountId } }

/-- The accounts an operation owns, each once. -/
def ownedAccounts (op : BrowserOperation) : List Uuid :=
  match op.loginVerifiedAccountId with
  | some other => if other = op.accountId then [op.accountId] else [op.accountId, other]
  | none => [op.accountId]

/-- The pending route of a head becomes its active one. -/
def promoteHead (head : AccountNetworkBindings) : AccountNetworkBindings :=
  match head.pending with
  | some pending =>
    { active := pending, pending := none, version := head.version + 1, busy := false }
  | none => { head with busy := false }

/-- Give one account of a disposed operation up, unless its gate is another's. -/
def releaseOwned (id : Uuid) (result : BrowserOperation)
    (s : MemoryChannelJobRepository) (accountId : Uuid) : MemoryChannelJobRepository :=
  let key := (scope.operatorId.asUuid, accountId)
  let anotherOwner := (values s.operations).any fun other =>
    other.operationId ≠ id ∧ other.liveOwner scope.operatorId accountId
  if ¬ anotherOwner ∧ ((s.gates.lookup key).any fun gate => gate.1 = result.reservationId) then
    { s with
      gates := s.gates.erase key
      networks := { s.networks with heads := modify key promoteHead s.networks.heads } }
  else s

def transitionBrowserOperation (id : Uuid)
    (action : BrowserOperationTransition) (at_ : DateTime) : JobOp BrowserOperation := do
  let op ← Op.read fun s => s.operations.lookup id
  let op ← Op.okOr op (.notFound "browser operation not found")
  let result ← Op.lift (op.transition scope action at_)
  Op.modify fun s => { s with operations := s.operations.insert id result }
  if op.state ≠ .disposed ∧ result.state = .disposed then
    Op.modify fun s => (ownedAccounts result).foldl (releaseOwned scope id result) s
  pure result

/-! ### Reservations and claims -/

def reserveAccount (scope : TenantScope) (accountId reservationId : Uuid) (at_ expiresAt : DateTime) : JobOp Unit := do
  let _ ← Op.lift (scopeKey scope)
  Op.failIf (expiresAt ≤ at_ ∨ expiresAt - at_ > channelExecutionLease)
    (.invalidRequest "invalid account reservation duration")
  let s ← Op.read id
  let key := (scope.operatorId.asUuid, accountId)
  Op.failIf (s.operations.busy scope.operatorId accountId) (.conflict "channel account browser busy")
  Op.failIf ((s.gates.lookup key).any fun gate => gate.2 > at_) (.conflict "channel account preflight busy")
  Op.modify fun s => { s with gates := s.gates.insert key (reservationId, expiresAt) }

def releaseAccount (scope : TenantScope) (accountId reservationId : Uuid) : JobOp Unit := do
  let _ ← Op.lift (scopeKey scope)
  let s ← Op.read id
  let key := (scope.operatorId.asUuid, accountId)
  if s.operations.busy scope.operatorId accountId then pure ()
  else
    if (s.gates.lookup key).any fun gate => gate.1 = reservationId then
      Op.modify fun s => { s with gates := s.gates.erase key }
    else pure ()

/-- How long a claimed target keeps its account. -/
def claimLease (target : ChannelTarget) : Int :=
  if target.input.isMeasure then channelMeasurementLease else channelExecutionLease

def claimReserved (requests : ChannelLedger.WithdrawalRequests) (scope : TenantScope)
    (targetId attemptId reservationId : Uuid) (at_ : DateTime) : JobOp (ChannelTarget × ChannelAttempt) := do
  let view ← onLedger (ChannelLedger.getTarget scope targetId)
  let accountId := view.target.input.accountId
  let s ← Op.read id
  Op.failIf (¬ ChannelLedger.liveReservation s.gates scope.operatorId.asUuid accountId reservationId at_)
    (.conflict "account preflight reservation expired")
  let claimed ← onLedger (ChannelLedger.claim requests scope targetId attemptId at_)
  -- Preflight may have consumed most of the reservation: renew it for its current owner.
  Op.modify fun s =>
    { s with
      gates := s.gates.insert (scope.operatorId.asUuid, accountId) (reservationId, at_ + claimLease view.target) }
  pure claimed

def claimWithdrawal (scope : TenantScope) (attemptId executionId reservationId : Uuid)
    (at_ : DateTime) : JobOp PublicationWithdrawal := do
  let reservations ← Op.read (·.gates)
  onLedger (ChannelLedger.claimWithdrawal reservations scope attemptId executionId reservationId at_)

/-! ### Login queues -/

/-- A selected row names an import row that still needs a login, for an account in service. -/
def checkSelection (channels : ChannelReplies) (scope : OperatorLoginQueueScope) (imports : List ChannelImportRecord) :
    List OperatorLoginQueueSelection → Except AppError Unit
  | [] => pure ()
  | selected :: rest => do
    failIf
      (¬ ∃ record ∈ imports, record.row.rowKey = selected.rowKey
        ∧ record.row.accountId = some selected.accountId ∧ record.row.status = .needsLogin)
      (.conflict "login queue import mapping differs")
    let account ← channels.getPoolAccount scope.operatorId selected.accountId
    failIf (¬ account.account.enabled ∨ account.account.status = .disabled) (.conflict "login queue account disabled")
    checkSelection channels scope imports rest

def createLoginQueue (scope : OperatorLoginQueueScope)
    (queueId : Uuid) (importKey : String) (selections : List OperatorLoginQueueSelection)
    (at_ : DateTime) : JobOp OperatorLoginQueue := do
  let candidate ← Op.lift (OperatorLoginQueue.new scope queueId importKey selections at_)
  let queues ← Op.read (·.queues)
  match queues.lookup queueId with
  | some existing => do
    Op.failIf (¬ existing.matchesCreation candidate) (.conflict "login queue creation differs")
    pure existing
  | none => do
    Op.failIf (∃ q ∈ values queues, q.scope = scope ∧ q.status ≠ .completed) (.conflict "login queue already active")
    let imports ← Op.lift (channels.listImportRows scope.operatorId importKey)
    Op.lift (checkSelection channels scope imports selections)
    Op.modify fun s => { s with queues := s.queues.insert queueId candidate }
    pure candidate

/-- The stored queue of a scope. -/
def ownQueue (scope : OperatorLoginQueueScope) (id : Uuid) : JobOp OperatorLoginQueue := do
  let queues ← Op.read (·.queues)
  Op.okOr ((queues.lookup id).filter fun q => q.scope = scope) (.notFound "login queue not found")

def applyLoginQueueAction (scope : OperatorLoginQueueScope) (id : Uuid) (expected : Int)
    (action : OperatorLoginQueueAction) (at_ : DateTime) : JobOp OperatorLoginQueue := do
  let queue ← ownQueue scope id
  let operations ← Op.read (·.operations)
  let op := (queue.current.bind (·.operationId)).bind fun id => operations.lookup id
  let staged ← Op.lift (queue.apply expected action op at_)
  Op.modify fun s => { s with queues := s.queues.insert id staged }
  pure staged

def beginLoginQueueItem (scope : OperatorLoginQueueScope) (id : Uuid)
    (expected : Int) (owner : Uuid) (input : BeginBrowserOperation) (at_ : DateTime) :
    JobOp (OperatorLoginQueue × BrowserOperation) := do
  let queue ← ownQueue scope id
  let staged ← Op.lift (queue.claim expected owner input at_)
  let s ← Op.read fun s => s
  let account ← Op.lift (channels.getPoolAccount scope.operatorId input.accountId)
  Op.failIf (¬ account.account.enabled ∨ account.account.status = .disabled) (.conflict "login queue account disabled")
  let sessions ← Op.lift (channels.accountLoginSessions scope.operatorId input.accountId)
  Op.failIf
    (∃ session ∈ sessions, ¬ ∃ op ∈ values s.operations,
      op.scope.operatorId = scope.operatorId ∧ op.sessionId = session)
    (.conflict "retained login requires browser ownership reconciliation")
  let browserScope : BrowserOperationScope :=
    { operatorId := scope.operatorId, tenantId := none, projectId := none, ownerId := owner }
  let op ← Op.lift (s.prepareMemoryBrowser browserScope input at_)
  Op.failIf (op.operationId ∈ s.operations) (.conflict "login queue operation already used")
  match input.networkSelection with
  | some selection => Op.lift (channels.validateAccountNetworkAssignment selection.scope .legacySnapshot)
  | none => pure ()
  Op.lift
    (channels.savePoolLogin scope.operatorId { sessionId := op.sessionId, accountId := op.accountId, createdAt := at_ })
  Op.modify fun s => { s.admitBrowser op with queues := s.queues.insert id staged }
  pure (staged, op)

def pauseLoginQueueError (scope : OperatorLoginQueueScope) (id : Uuid) (expected : Int)
    (operationId : Option Uuid) (code : String) (at_ : DateTime) : JobOp OperatorLoginQueue := do
  let queue ← ownQueue scope id
  let queue ← Op.lift (queue.pauseError expected operationId code at_)
  Op.modify fun s => { s with queues := s.queues.insert id queue }
  pure queue

end MemoryChannelJobRepository

end GeoMaster
