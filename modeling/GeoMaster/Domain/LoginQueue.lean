import GeoMaster.Domain.BrowserOperations
import GeoMaster.Lib.Machine

/-!
# Operator login queue

Creator-scoped, ordered operator account onboarding. A queue works through its items in order, one
current item at a time, each behind the browser operation that logs it in.
-/

namespace GeoMaster

open Except Text

structure OperatorLoginQueueScope where
  operatorId : OperatorId
  creatorUserId : Uuid
  deriving DecidableEq

inductive OperatorLoginQueueStatus where
  | running
  | paused
  | completed
  deriving DecidableEq

inductive OperatorLoginQueueItemStatus where
  | pending
  | current
  | succeeded
  | skipped
  deriving DecidableEq

structure OperatorLoginQueueSelection where
  rowKey : String
  accountId : Uuid

structure OperatorLoginQueueItem where
  position : Nat
  rowKey : String
  accountId : Uuid
  status : OperatorLoginQueueItemStatus
  attempt : Nat
  (operationId ownerSessionId : Option Uuid)
  errorCode : Option String
  deriving DecidableEq

structure OperatorLoginQueue where
  queueId : Uuid
  scope : OperatorLoginQueueScope
  importKey : String
  status : OperatorLoginQueueStatus
  version : Int
  items : List OperatorLoginQueueItem
  (createdAt updatedAt : DateTime)
  deriving DecidableEq

inductive OperatorLoginQueueAction where
  | pause
  | resume
  | reconcileCurrent
  | retryCurrent
  | skipCurrent

/-- `u32::MAX`, the last attempt number. -/
def maxAttempt : Nat :=
  4294967295

def loginQueueErrorCodes : List String :=
  ["login_not_completed", "login_failed", "identity_mismatch", "network_unavailable", "account_disabled",
    "start_failed", "runner_unavailable", "session_recovery_required", "disposal_unconfirmed", "browser_unavailable"]

def validateLoginQueueError (code : String) : Except AppError Unit :=
  failIf (code ∉ loginQueueErrorCodes) (.invalidRequest "invalid login queue error code")

/-- Change the first item that passes the test. -/
def updateFirst {α : Type} (p : α → Bool) (f : α → α) : List α → List α
  | [] => []
  | x :: xs => if p x then f x :: xs else x :: updateFirst p f xs

namespace OperatorLoginQueue

/-- The row checks of `new`, in order: a row is refused when it is malformed or repeats a row key or
an account of an earlier row. -/
def checkSelections (rows : List String) (accounts : List Uuid) :
    List OperatorLoginQueueSelection → Except AppError Unit
  | [] => pure ()
  | row :: rest => do
    failIf
      (isBlank row.rowKey ∨ len row.rowKey > 200 ∨ row.rowKey.toList.any isControl ∨ row.accountId.isNil
        ∨ row.rowKey ∈ rows ∨ row.accountId ∈ accounts)
      (.invalidRequest "invalid or duplicate login queue item")
    checkSelections (row.rowKey :: rows) (row.accountId :: accounts) rest

def new (scope : OperatorLoginQueueScope) (queueId : Uuid) (importKey : String)
    (selections : List OperatorLoginQueueSelection) (at_ : DateTime) : Except AppError OperatorLoginQueue := do
  failIf
    (queueId.isNil ∨ scope.creatorUserId.isNil ∨ scope.operatorId.asUuid.isNil
      ∨ isBlank importKey ∨ len importKey > 200
      ∨ importKey.toList.any isControl ∨ selections = [] ∨ selections.length > 200)
    (.invalidRequest "invalid login queue selection")
  checkSelections [] [] selections
  pure
    { queueId
      scope
      importKey
      status := .running
      version := 1
      items := selections.mapIdx fun position row =>
        { position
          rowKey := row.rowKey
          accountId := row.accountId
          status := .pending
          attempt := 0
          operationId := none
          ownerSessionId := none
          errorCode := none }
      createdAt := at_
      updatedAt := at_ }

def isCurrent (item : OperatorLoginQueueItem) : Bool :=
  item.status = .current

def isPending (item : OperatorLoginQueueItem) : Bool :=
  item.status = .pending

variable (queue : OperatorLoginQueue)

def current : Option OperatorLoginQueueItem :=
  queue.items.find? isCurrent

def matchesCreation (queue candidate : OperatorLoginQueue) : Bool :=
  queue.scope = candidate.scope ∧ queue.importKey = candidate.importKey ∧ queue.items.length = candidate.items.length
    ∧ ∀ pair ∈ queue.items.zip candidate.items,
      pair.1.position = pair.2.position ∧ pair.1.rowKey = pair.2.rowKey ∧ pair.1.accountId = pair.2.accountId

def checkVersion (expected : Int) : Except AppError Unit :=
  failIf (queue.version ≠ expected) (.conflict "login queue version differs")

def changed (at_ : DateTime) : OperatorLoginQueue :=
  { queue with version := queue.version + 1, updatedAt := at_ }

def finishIfEmpty : OperatorLoginQueue :=
  if ∀ item ∈ queue.items, item.status = .succeeded ∨ item.status = .skipped then
    { queue with status := .completed }
  else queue

def validateCurrentOperation (operation : Option BrowserOperation) : Except AppError Unit :=
  match queue.current, operation with
  | none, none => .ok ()
  | some item, some op =>
    failIf
      (¬ (item.operationId = some op.operationId ∧ item.ownerSessionId = some op.scope.ownerId
        ∧ item.accountId = op.accountId
        ∧ op.scope.operatorId = queue.scope.operatorId
        ∧ op.scope.tenantId.isNone
        ∧ op.scope.projectId.isNone
        ∧ op.purpose = .login))
      (.conflict "login queue operation differs")
  | _, _ => .error (.conflict "login queue operation differs")

/-- The retry and the skip of the current item, once its browser is disposed. -/
def leaveCurrent (retry : Bool) (operation : Option BrowserOperation) : Except AppError OperatorLoginQueue := do
  failIf (∀ op ∈ operation, op.state ≠ .disposed) (.conflict "login queue browser disposal required")
  let item ← okOr queue.current (.conflict "login queue has no current item")
  if retry then do
    failIf (item.attempt ≥ maxAttempt) (.conflict "login queue attempts exhausted")
    pure
      { queue with
        status := .paused
        items := updateFirst isCurrent
          (fun i =>
            { i with
              operationId := none
              ownerSessionId := none
              errorCode := none
              status := .pending
              attempt := i.attempt + 1 })
          queue.items }
  else
    pure
      { queue with
        items := updateFirst isCurrent
          (fun i =>
            { i with
              operationId := none
              ownerSessionId := none
              errorCode := none
              status := .skipped })
          queue.items }

/-- What the disposal of its browser means for the current item. -/
def settleCurrent (operation : Option BrowserOperation) : OperatorLoginQueue :=
  match operation.filter fun op => op.state = .disposed with
  | none => queue
  | some op =>
    if op.loginVerifiedAt.isSome then
      { queue with
        items := updateFirst isCurrent
          (fun i =>
            { i with
              status := .succeeded
              operationId := none
              ownerSessionId := none
              errorCode := none })
          queue.items }
    else
      { queue with
        status := .paused
        items := updateFirst isCurrent (fun i => { i with errorCode := some "login_not_completed" }) queue.items }

/-- The change of status an action asks for. -/
def switch (action : OperatorLoginQueueAction) : Except AppError OperatorLoginQueue :=
  match action with
  | .pause =>
    if queue.status ≠ .completed then pure { queue with status := .paused } else pure queue
  | .resume =>
    if queue.status ≠ .completed then do
      failIf (∃ i ∈ queue.current, i.errorCode = some "login_not_completed")
        (.conflict "login queue requires retry or skip")
      pure { queue with status := .running }
    else pure queue
  | _ => pure queue

def apply (expected : Int) (action : OperatorLoginQueueAction)
    (operation : Option BrowserOperation) (at_ : DateTime) : Except AppError OperatorLoginQueue := do
  queue.checkVersion expected
  queue.validateCurrentOperation operation
  let next ←
    match action with
    | .retryCurrent => queue.leaveCurrent true operation
    | .skipCurrent => queue.leaveCurrent false operation
    | _ => (queue.settleCurrent operation).switch action
  let next := next.finishIfEmpty
  pure (if next ≠ queue then next.changed at_ else next)

def claim (expected : Int) (owner : Uuid)
    (input : BeginBrowserOperation) (at_ : DateTime) : Except AppError OperatorLoginQueue := do
  queue.checkVersion expected
  failIf (queue.status ≠ .running ∨ queue.current.isSome ∨ owner.isNil ∨ input.purpose ≠ .login)
    (.conflict "login queue cannot claim item")
  let item ← okOr (queue.items.find? isPending) (.conflict "login queue has no pending item")
  failIf (item.accountId ≠ input.accountId) (.conflict "login queue account differs")
  failIf
    (∀ s ∈ input.networkSelection, s.scope.operatorId ≠ queue.scope.operatorId
      ∨ s.scope.accountId ≠ item.accountId ∨ s.scope.tenantId.isSome ∨ s.scope.projectId.isSome)
    (.forbidden "login queue pool network scope differs")
  pure
    ({ queue with
        items := updateFirst isPending
          (fun i =>
            { i with
              status := .current
              operationId := some input.operationId
              ownerSessionId := some owner
              errorCode := none })
          queue.items }.changed at_)

def pauseError (expected : Int) (operationId : Option Uuid)
    (code : String) (at_ : DateTime) : Except AppError OperatorLoginQueue := do
  queue.checkVersion expected
  validateLoginQueueError code
  failIf (queue.status = .completed ∨ queue.current.bind (·.operationId) ≠ operationId)
    (.conflict "login queue failure no longer current")
  -- The failure is noted on the current item, or on the next one when none is current.
  let test := if queue.current.isSome then isCurrent else isPending
  pure
    ({ queue with
        status := .paused
        items := updateFirst test (fun i => { i with errorCode := some code }) queue.items }.changed
      at_)

end OperatorLoginQueue

/-! ### Runs of a queue -/

/-- A change of a queue, with its arguments. -/
inductive LoginQueueCall where
  | claim (expected : Int) (owner : Uuid) (input : BeginBrowserOperation) (at_ : DateTime)
  | apply (expected : Int) (action : OperatorLoginQueueAction) (operation : Option BrowserOperation) (at_ : DateTime)
  | pauseError (expected : Int) (operationId : Option Uuid) (code : String) (at_ : DateTime)

/-- The queue a call leaves. -/
def LoginQueueCall.run : LoginQueueCall → OperatorLoginQueue → Except AppError OperatorLoginQueue
  | .claim expected owner input at_, queue => queue.claim expected owner input at_
  | .apply expected action operation at_, queue => queue.apply expected action operation at_
  | .pauseError expected operationId code at_, queue => queue.pauseError expected operationId code at_

/-- A queue under the calls that succeed. -/
def loginQueueMachine : Machine OperatorLoginQueue LoginQueueCall where
  step queue call queue' := call.run queue = .ok queue'

end GeoMaster
