import GeoMaster.Domain.Channels
import GeoMaster.Lib.AssocMap
import GeoMaster.Lib.Op

/-!
# Account network routes

Immutable account routes. An account has a head with its active binding and, while a browser holds
the account, at most one pending binding. `MemoryAccountNetworks.set` is the only way a new binding
is stored: a free account takes it at once, a busy one keeps it pending.
-/

namespace GeoMaster

open Except

structure AccountNetworkScope where
  operatorId : OperatorId
  accountId : Uuid
  tenantId : Option TenantId
  projectId : Option ProjectId
  deriving DecidableEq

namespace AccountNetworkScope

def validate (scope : AccountNetworkScope) : Except AppError Unit :=
  failIf (scope.accountId.isNil ∨ scope.tenantId.isSome ≠ scope.projectId.isSome)
    (.invalidRequest "invalid account network scope")

end AccountNetworkScope

inductive AccountNetworkSource where
  | direct
  | standalone
  | legacySnapshot
  | projectDefault (settingsUpdatedAt : Option DateTime)
  | poolRevision (poolId memberId revisionId : Uuid)
  deriving DecidableEq

/-- Server-only envelope authenticated to this immutable binding identity. -/
structure AccountNetworkBinding where
  bindingId : Uuid
  scope : AccountNetworkScope
  source : AccountNetworkSource
  effectiveNetwork : ChannelSecret
  createdAt : DateTime

/-- The head of an account. -/
structure AccountNetworkBindings where
  version : Int
  active : AccountNetworkBinding
  pending : Option AccountNetworkBinding
  busy : Bool

structure BrowserNetworkSelection where
  scope : AccountNetworkScope
  /-- Only trusted historical execution may name an old binding. -/
  historicalBindingId : Option Uuid

structure LegacyNetworkBootstrap where
  binding : AccountNetworkBinding
  operationId : Option Uuid

structure ProjectNetworkBindingUpdate where
  expectedVersion : Option Int
  binding : AccountNetworkBinding
  legacy : Option LegacyNetworkBootstrap

inductive AccountNetworkMetadataUpdate where
  | customer (expected updated : ChannelAccountRecord)
  | operatorPool (expected updated : PoolAccountRecord)

def validateNetworkBinding (scope : AccountNetworkScope) (binding : AccountNetworkBinding) : Except AppError Unit := do
  scope.validate
  failIf (binding.scope ≠ scope ∨ binding.bindingId.isNil ∨ binding.effectiveNetwork.encryptedBytes = [])
    (.invalidRequest "invalid account network binding")

/-- Heads by operator and account, and every binding ever stored. -/
structure MemoryAccountNetworks where
  heads : AssocMap (Uuid × Uuid) AccountNetworkBindings
  bindings : AssocMap Uuid AccountNetworkBinding

/-- The largest version a head can have: `i64::MAX`. -/
def maxVersion : Int :=
  9223372036854775807

namespace MemoryAccountNetworks

/-- The head a successful `set` stores: the new binding waits while the account is busy. -/
def nextHead (networks : MemoryAccountNetworks) (current : Option AccountNetworkBindings)
    (binding : AccountNetworkBinding) (legacy : Option LegacyNetworkBootstrap) (busy : Bool) :
    Except AppError AccountNetworkBindings :=
  match current with
  | some head => do
    failIf (head.version ≥ maxVersion) (.conflict "network version exhausted")
    pure
      { version := head.version + 1
        active := if busy then head.active else binding
        pending := if busy then some binding else none
        busy }
  | none =>
    if busy then do
      let legacy ← okOr legacy (.conflict "busy legacy network requires initialization")
      failIf
        (legacy.binding.bindingId ∈ networks.bindings
          ∨ legacy.binding.bindingId = binding.bindingId)
        (.conflict "legacy binding already exists")
      pure { version := 1, active := legacy.binding, pending := some binding, busy }
    else
      pure { version := 1, active := binding, pending := none, busy }

/-- Store a new binding for an account, as its active or its pending route. `activeOp` is the browser
operation that holds the account. -/
def set (networks : MemoryAccountNetworks) (scope : AccountNetworkScope) (expected : Option Int)
    (binding : AccountNetworkBinding) (legacy : Option LegacyNetworkBootstrap) (activeOp : Option Uuid) :
    Except AppError (AccountNetworkBindings × MemoryAccountNetworks) := do
  validateNetworkBinding scope binding
  let key := (scope.operatorId.asUuid, scope.accountId)
  let current := networks.heads.lookup key
  failIf (current.map (·.version) ≠ expected ∨ ∃ head ∈ current, head.active.scope ≠ scope)
    (.conflict "account network version changed")
  failIf (binding.bindingId ∈ networks.bindings) (.conflict "network binding already exists")
  let busy := activeOp.isSome
  match legacy with
  | some legacy => do
    validateNetworkBinding scope legacy.binding
    failIf (legacy.binding.source ≠ .legacySnapshot ∨ legacy.operationId ≠ activeOp)
      (.conflict "legacy network owner changed")
  | none => pure ()
  let initializeLegacy := current.isNone && busy
  let result ← networks.nextHead current binding legacy busy
  let bindings := networks.bindings.insert binding.bindingId binding
  let bindings :=
    match legacy with
    | some legacy =>
      if initializeLegacy then bindings.insert legacy.binding.bindingId legacy.binding else bindings
    | none => bindings
  pure (result, { heads := networks.heads.insert key result, bindings })

end MemoryAccountNetworks

end GeoMaster
