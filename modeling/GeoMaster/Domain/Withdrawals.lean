import GeoMaster.Domain.ChannelLedger

/-!
# Withdrawing a publication

The four operations on a withdrawal row: the scan that gives up interrupted executions, the
resolution against the recorded outcome, the claim of the one execution and its completion.
-/

namespace GeoMaster

open AssocMap

namespace ChannelLedger

def getWithdrawal (scope : TenantScope) (attemptId : Uuid) : Op ChannelLedger AppError PublicationWithdrawal := do
  let key ← Op.lift (scopeKey scope)
  let all ← Op.read id
  Op.okOr ((findWithdrawal all key attemptId).bind fun entry => entry.2.withdrawals.lookup attemptId)
    (.notFound "publication withdrawal not found")

/-- An execution whose lease ran out is interrupted: nobody knows what it did. -/
def expireWithdrawal (now : DateTime) (row : PublicationWithdrawal) : PublicationWithdrawal :=
  if row.state = .claimed ∧ ∃ at_ ∈ row.claimedAt, at_ + channelExecutionLease ≤ now then
    { row with state := .unknown, errorCode := some "withdrawal_interrupted" }
  else row

/-- The rows a worker still has to look at. -/
def scannable (afterAttemptId : Option Uuid) (row : PublicationWithdrawal) : Bool :=
  (∀ after ∈ afterAttemptId, after < row.attemptId) ∧ (row.state = .awaitingPublication ∨ row.state = .ready)

/-- The clock is read again for every row. -/
def scanWithdrawals (afterAttemptId : Option Uuid) (limit : Nat) (now : ChannelScopeKey → Uuid → DateTime) :
    Op ChannelLedger AppError (List PublicationWithdrawal) := do
  Op.failIf (limit = 0 ∨ limit > 1000) (.invalidRequest "invalid withdrawal page size")
  Op.modify fun all =>
    mapValues
      (fun entry cycle =>
        { cycle with
          withdrawals :=
            mapValues (fun attemptId row => expireWithdrawal (now entry attemptId) row) cycle.withdrawals })
      all
  let all ← Op.read id
  let rows := ((values all).flatMap fun cycle => values cycle.withdrawals).filter (scannable afterAttemptId)
  pure ((rows.mergeSort fun a b => a.attemptId ≤ b.attemptId).take limit)

/-- Put a changed row back under its attempt. -/
def setWithdrawal (entry : ChannelScopeKey) (cycle : MemoryCycle) (attemptId : Uuid)
    (row : PublicationWithdrawal) : Op ChannelLedger AppError Unit :=
  Op.modify fun all => all.insert entry { cycle with withdrawals := cycle.withdrawals.insert attemptId row }

def resolveWithdrawal [Sha256] [InstantText] (scope : TenantScope) (attemptId : Uuid) :
    Op ChannelLedger AppError PublicationWithdrawal := do
  let key ← Op.lift (scopeKey scope)
  let all ← Op.read id
  let (entry, cycle) ← Op.okOr (findWithdrawal all key attemptId) (.notFound "publication withdrawal not found")
  let row ← Op.okOr (cycle.withdrawals.lookup attemptId) (.notFound "publication withdrawal not found")
  let target ← Op.okOr (cycle.target row.targetId) (.notFound "publication target not found")
  let attempt ← Op.okOr (cycle.attempt row.targetId attemptId) (.notFound "publication attempt not found")
  let row ← Op.lift (resolvePublicationWithdrawal row target attempt)
  setWithdrawal entry cycle attemptId row
  pure row

/-- A live reservation of the account by the caller. -/
def liveReservation (reservations : AssocMap (Uuid × Uuid) (Uuid × DateTime))
    (operator accountId reservationId : Uuid) (at_ : DateTime) : Bool :=
  (reservations.lookup (operator, accountId)).any fun gate => gate.1 = reservationId ∧ gate.2 > at_

def claimWithdrawal (reservations : AssocMap (Uuid × Uuid) (Uuid × DateTime)) (scope : TenantScope)
    (attemptId executionId reservationId : Uuid) (at_ : DateTime) :
    Op ChannelLedger AppError PublicationWithdrawal := do
  let key ← Op.lift (scopeKey scope)
  let all ← Op.read id
  let (entry, cycle) ← Op.okOr (findWithdrawal all key attemptId) (.notFound "publication withdrawal not found")
  let row ← Op.okOr (cycle.withdrawals.lookup attemptId) (.notFound "publication withdrawal not found")
  Op.failIf
    (row.state ≠ .ready ∨ row.executionId.isSome
      ∨ ¬ liveReservation reservations scope.operatorId.asUuid row.accountId reservationId at_)
    (.conflict "withdrawal already claimed or reservation expired")
  let row :=
    { row with state := .claimed, executionId := some executionId, claimedAt := some at_ }
  setWithdrawal entry cycle attemptId row
  pure row

def finishWithdrawal [InstantText] (scope : TenantScope) (attemptId executionId : Uuid)
    (evidence : Json) (receivedAt : DateTime) : Op ChannelLedger AppError PublicationWithdrawal := do
  let key ← Op.lift (scopeKey scope)
  let all ← Op.read id
  let (entry, cycle) ← Op.okOr (findWithdrawal all key attemptId) (.notFound "publication withdrawal not found")
  let row ← Op.okOr (cycle.withdrawals.lookup attemptId) (.notFound "publication withdrawal not found")
  let row ← Op.lift (finishPublicationWithdrawal row executionId evidence receivedAt)
  setWithdrawal entry cycle attemptId row
  pure row

end ChannelLedger

end GeoMaster
