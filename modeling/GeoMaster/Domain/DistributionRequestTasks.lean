import GeoMaster.Domain.DistributionCalls
import GeoMaster.Domain.DistributionRequests

/-!
# The memory repository of distribution requests

Three maps behind one lock, over a distribution repository with a lock of its own. Linking a request reads the
publication first and takes the request lock afterwards. Materializing one reads the acceptance, asks the
authorities without any lock, commits under both locks, and records a failure in a step of its own. Any
number of these tasks may be under way, and other callers use the distribution repository between the steps.
-/

namespace GeoMaster

open MemoryDistributionRepository Except

structure MemoryRequestState where
  byKey : AssocMap (TenantScope × String) Uuid
  byId : AssocMap (TenantScope × Uuid) ContentDistributionRequest
  revisions : AssocMap (TenantScope × Uuid) ContentRevision

namespace MemoryRequestState

def empty : MemoryRequestState where
  byKey := ∅
  byId := ∅
  revisions := ∅

/-- Store a new request with its key and its accepted revision. -/
def insertRequest (scope : TenantScope) (request : ContentDistributionRequest)
    (revision : ContentRevision) (s : MemoryRequestState) : MemoryRequestState where
  byKey := s.byKey.insert (scope, request.idempotencyKeyHash) request.requestId
  byId := s.byId.insert (scope, request.requestId) request
  revisions := s.revisions.insert (scope, request.requestId) revision

/-- Change the stored request of an identity. -/
def modifyRequest (scope : TenantScope) (requestId : Uuid)
    (f : ContentDistributionRequest → ContentDistributionRequest) (s : MemoryRequestState) : MemoryRequestState :=
  { s with byId := AssocMap.modify (scope, requestId) f s.byId }

end MemoryRequestState

/-- The request with its publication. Nothing is left to be retried. -/
def ContentDistributionRequest.linkTo (intentId : Uuid) (request : ContentDistributionRequest) :
    ContentDistributionRequest :=
  { request with publicationIntentId := some intentId, materializationDeferral := none }

/-- The withdrawal policy a publication was created under. -/
def PublicationOrigin.withdrawsAfterPublish : PublicationOrigin → Bool
  | .contentRequest request => request.withdrawAfterPublish
  | .coverageTarget _ => false

/-! ### Tasks -/

/-- What a task under way holds between two of its steps. -/
inductive RequestTask where
  /-- The publication to link to was read. -/
  | linking (scope : TenantScope) (requestId intentId : Uuid) (bundle : PublicationBundle)
  /-- The acceptance was read. -/
  | accepted (scope : TenantScope) (requestId : Uuid) (request : ContentDistributionRequest)
      (revision : ContentRevision)
  /-- The authorities agreed. Rich content comes with its bindings. -/
  | validated (scope : TenantScope) (requestId : Uuid) (request : ContentDistributionRequest)
      (revision : ContentRevision) (bindings : Option (List ContentMediaBinding))
  /-- The failure is still to be recorded. -/
  | failed (scope : TenantScope) (requestId : Uuid) (failure : ContentRequestMaterializationFailure)

structure RequestSystem where
  state : MemoryRequestState
  distribution : MemoryDistributionState
  tasks : AssocMap Nat RequestTask

namespace RequestSystem

def empty : RequestSystem where
  state := .empty
  distribution := .empty
  tasks := ∅

/-- A task goes on. -/
def goOn (s : RequestSystem) (id : Nat) (task : RequestTask) : RequestSystem :=
  { s with tasks := s.tasks.insert id task }

/-- A task is done. -/
def finish (s : RequestSystem) (id : Nat) : RequestSystem :=
  { s with tasks := s.tasks.erase id }

end RequestSystem

namespace MemoryContentDistributionRequestRepository

/-- An operation under the request lock. -/
abbrev RequestOp (α : Type) : Type :=
  Op MemoryRequestState AppError α

def stateGet (s : MemoryRequestState) (scope : TenantScope) (requestId : Uuid) :
    Except AppError ContentDistributionRequest :=
  okOr (s.byId.lookup (scope, requestId)) (.notFound "distribution request not found")

def getByIdempotencyKey [Sha256] (s : MemoryRequestState) (scope : TenantScope) (key : String) :
    Except AppError (Option ContentDistributionRequest) := do
  failIf scope.projectId.isNone (.forbidden "project scope required")
  let keyHash ← distributionRequestKeyHash key
  pure ((s.byKey.lookup (scope, keyHash)).bind fun id => s.byId.lookup (scope, id))

def accept [Sha256] (scope : TenantScope) (input : AcceptContentDistributionRequest)
    (requestId : Uuid) (now : DateTime) : RequestOp ContentDistributionRequest := do
  let request ← Op.lift (prepareContentDistributionRequest scope input requestId now)
  let s ← Op.read id
  match s.byKey.lookup (scope, request.idempotencyKeyHash) with
  | some id => do
    -- The source indexes here; a key always has its request.
    let old ← Op.okOr (s.byId.lookup (scope, id)) (.new .internal "by_id")
    Op.failIf (old.requestHash ≠ request.requestHash) (.conflict "idempotency key reused for another request")
    pure old
  | none => do
    Op.modify (MemoryRequestState.insertRequest scope request input.revision)
    pure request

/-- The second half of `link_intent`, under the request lock. -/
def linkIntent [Sha256] [UrlParser] (scope : TenantScope) (requestId intentId : Uuid)
    (bundle : PublicationBundle) : RequestOp ContentDistributionRequest := do
  let s ← Op.read id
  let request ← Op.lift (stateGet s scope requestId)
  Op.lift (validateDistributionRequestIntent request bundle.intent bundle.variant)
  Op.failIf (bundle.origin.withdrawsAfterPublish ≠ request.withdrawAfterPublish)
    (.conflict "logical publication withdrawal policy differs")
  Op.failIf (request.publicationIntentId.any fun old => old ≠ intentId)
    (.conflict "distribution request already linked to another intent")
  Op.modify (MemoryRequestState.modifyRequest scope requestId (·.linkTo intentId))
  pure (request.linkTo intentId)

/-- The first read of `materialize`: the request, with its accepted revision unless it is linked. -/
def readAcceptance (s : MemoryRequestState) (scope : TenantScope) (requestId : Uuid) :
    Except AppError (ContentDistributionRequest × Option ContentRevision) := do
  let request ← stateGet s scope requestId
  if request.publicationIntentId.isSome then pure (request, none)
  else do
    let revision ← okOr (s.revisions.lookup (scope, requestId)) (.notFound "accepted revision not found")
    pure (request, some revision)

/-- The live checks of `materialize`, without any lock. -/
def validateLive (authorities : Option MemoryRequestAuthorities) (scope : TenantScope)
    (request : ContentDistributionRequest) (acceptedRevision : ContentRevision) :
    LiveCheck (ContentRevision × Option (List ContentMediaBinding)) := do
  let revision ← checkLive authorities request acceptedRevision
  if request.format = richDistributionFormat then do
    let bindings ← answered (richMediaBindings authorities scope revision)
    pure (revision, some bindings)
  else pure (revision, none)

/-- The call that creates or reuses the publication of a request. -/
def originCall (scope : TenantScope) (request : ContentDistributionRequest) (revision : ContentRevision)
    (now : DateTime) : Option (List ContentMediaBinding) → DistributionCall
  | none => .materializeRequestOrigin scope request revision now
  | some bindings => .materializeRichRequestOrigin scope request revision bindings now

def materializeOrigin [Sha256] [UrlParser] (scope : TenantScope) (request : ContentDistributionRequest)
    (revision : ContentRevision) (now : DateTime) : Option (List ContentMediaBinding) → DistributionOp PublicationIntent
  | none => materializeRequestOrigin scope request revision now
  | some bindings => materializeRichRequestOrigin scope request revision bindings now

/-- The final commit of `materialize`. The request lock is held while the distribution lock is taken. -/
def commit [Sha256] [UrlParser] (scope : TenantScope) (requestId : Uuid) (request : ContentDistributionRequest)
    (revision : ContentRevision) (bindings : Option (List ContentMediaBinding)) (now : DateTime) :
    Op RequestSystem AppError ContentDistributionRequest := do
  let s ← Op.read id
  let latest ← Op.lift (stateGet s.state scope requestId)
  if latest.publicationIntentId.isSome then pure latest
  else do
    Op.failIf (latest.requestHash ≠ request.requestHash ∨ latest.contentRevisionId ≠ request.contentRevisionId)
      (.conflict "accepted request changed during validation")
    let intent ←
      Op.zoom RequestSystem.distribution (fun distribution s => { s with distribution })
        (materializeOrigin scope request revision now bindings)
    Op.modify fun s =>
      { s with state := s.state.modifyRequest scope requestId (·.linkTo intent.intentId) }
    pure (latest.linkTo intent.intentId)

/-- A linked request has nothing to retry, however late a failure is recorded. -/
def recordDeferral (scope : TenantScope) (requestId : Uuid) (reason : ContentRequestDeferralReason)
    (now : DateTime) (s : MemoryRequestState) : MemoryRequestState :=
  s.modifyRequest scope requestId fun request =>
    if request.publicationIntentId.isNone then
      { request with
        materializationDeferral := some (nextRequestDeferral reason request.materializationDeferral now) }
    else request

def listUnlinked (s : MemoryRequestState) (now : DateTime) (afterRequestId : Option Uuid)
    (limit : Nat) : Except AppError (List ContentDistributionRequest) := do
  failIf (¬ (1 ≤ limit ∧ limit ≤ 1000)) (.invalidRequest "invalid request scan page size")
  let rows := (AssocMap.values s.byId).filter fun request =>
    request.publicationIntentId.isNone ∧ (∀ deferral ∈ request.materializationDeferral, deferral.nextRetryAt ≤ now)
      ∧ ∀ after ∈ afterRequestId, after < request.requestId
  pure ((rows.insertionSort fun a b => a.requestId ≤ b.requestId).take limit)

end MemoryContentDistributionRequestRepository

open MemoryContentDistributionRequestRepository

/-! ### Steps -/

/-- A step of some task or of another caller, with what it was given and what it answered. -/
inductive RequestEvent where
  | accept (scope : TenantScope) (input : AcceptContentDistributionRequest) (requestId : Uuid)
      (now : DateTime) (reply : Except AppError ContentDistributionRequest)
  | readPublication (scope : TenantScope) (requestId intentId : Uuid)
  | linkIntent (scope : TenantScope) (requestId intentId : Uuid) (reply : Except AppError ContentDistributionRequest)
  | readAcceptance (scope : TenantScope) (requestId : Uuid)
  | alreadyLinked (scope : TenantScope) (request : ContentDistributionRequest)
  | checkLive (authorities : Option MemoryRequestAuthorities)
  | commit (scope : TenantScope) (requestId : Uuid) (call : DistributionCall)
      (reply : Except AppError ContentDistributionRequest)
  | recordDeferral (scope : TenantScope) (requestId : Uuid) (now : DateTime)
  | distribution (event : DistributionEvent)

variable [Sha256] [UrlParser] [InstantJson]

/-- One step of the system. A task may be stopped at any time, by never stepping again. -/
inductive RequestStep : RequestSystem → RequestEvent → RequestSystem → Prop where
  | accept {s : RequestSystem} (scope : TenantScope) (input : AcceptContentDistributionRequest)
      (requestId : Uuid) (now : DateTime) :
      RequestStep s (.accept scope input requestId now ((accept scope input requestId now).run s.state).1)
        { s with state := ((accept scope input requestId now).run s.state).2 }
  /-- `link_intent` reads the publication. If that fails it is done, and nothing was changed. -/
  | readPublication {s : RequestSystem} {id : Nat} {scope : TenantScope} {requestId intentId : Uuid}
      {bundle : PublicationBundle} (hnew : s.tasks.lookup id = none)
      (hbundle : getPublicationBundle s.distribution scope intentId = .ok bundle) :
      RequestStep s (.readPublication scope requestId intentId) (s.goOn id (.linking scope requestId intentId bundle))
  | linkIntent {s : RequestSystem} {id : Nat} {scope : TenantScope} {requestId intentId : Uuid}
      {bundle : PublicationBundle} (htask : s.tasks.lookup id = some (.linking scope requestId intentId bundle)) :
      RequestStep s (.linkIntent scope requestId intentId ((linkIntent scope requestId intentId bundle).run s.state).1)
        ({ s with state := ((linkIntent scope requestId intentId bundle).run s.state).2 }.finish id)
  | readAcceptance {s : RequestSystem} {id : Nat} {scope : TenantScope} {requestId : Uuid}
      {request : ContentDistributionRequest} {revision : ContentRevision} (hnew : s.tasks.lookup id = none)
      (hread : readAcceptance s.state scope requestId = .ok (request, some revision)) :
      RequestStep s (.readAcceptance scope requestId) (s.goOn id (.accepted scope requestId request revision))
  | alreadyLinked {s : RequestSystem} {scope : TenantScope} {requestId : Uuid} {request : ContentDistributionRequest}
      (hread : readAcceptance s.state scope requestId = .ok (request, none)) :
      RequestStep s (.alreadyLinked scope request) s
  | notAccepted {s : RequestSystem} {id : Nat} {scope : TenantScope} {requestId : Uuid} {error : AppError}
      (hnew : s.tasks.lookup id = none) (hread : readAcceptance s.state scope requestId = .error error) :
      RequestStep s (.readAcceptance scope requestId) (s.goOn id (.failed scope requestId (.ofError error)))
  | agreed {s : RequestSystem} {id : Nat} {scope : TenantScope} {requestId : Uuid}
      {request : ContentDistributionRequest} {acceptedRevision revision : ContentRevision}
      {bindings : Option (List ContentMediaBinding)} {authorities : Option MemoryRequestAuthorities}
      (htask : s.tasks.lookup id = some (.accepted scope requestId request acceptedRevision))
      (hlive : validateLive authorities scope request acceptedRevision = .ok (revision, bindings)) :
      RequestStep s (.checkLive authorities) (s.goOn id (.validated scope requestId request revision bindings))
  | disagreed {s : RequestSystem} {id : Nat} {scope : TenantScope} {requestId : Uuid}
      {request : ContentDistributionRequest} {acceptedRevision : ContentRevision}
      {authorities : Option MemoryRequestAuthorities} {failure : ContentRequestMaterializationFailure}
      (htask : s.tasks.lookup id = some (.accepted scope requestId request acceptedRevision))
      (hlive : validateLive authorities scope request acceptedRevision = .error failure) :
      RequestStep s (.checkLive authorities) (s.goOn id (.failed scope requestId failure))
  | commit {s s' : RequestSystem} {id : Nat} {scope : TenantScope} {requestId : Uuid}
      {request saved : ContentDistributionRequest} {revision : ContentRevision}
      {bindings : Option (List ContentMediaBinding)} (now : DateTime)
      (htask : s.tasks.lookup id = some (.validated scope requestId request revision bindings))
      (hcommit : (commit scope requestId request revision bindings now).run s = (.ok saved, s')) :
      RequestStep s (.commit scope requestId (originCall scope request revision now bindings) (.ok saved))
        (s'.finish id)
  | notCommitted {s s' : RequestSystem} {id : Nat} {scope : TenantScope} {requestId : Uuid}
      {request : ContentDistributionRequest} {revision : ContentRevision}
      {bindings : Option (List ContentMediaBinding)} {error : AppError} (now : DateTime)
      (htask : s.tasks.lookup id = some (.validated scope requestId request revision bindings))
      (hcommit : (commit scope requestId request revision bindings now).run s = (.error error, s')) :
      RequestStep s (.commit scope requestId (originCall scope request revision now bindings) (.error error))
        (s'.goOn id (.failed scope requestId (.ofError error)))
  | recordDeferral {s : RequestSystem} {id : Nat} {scope : TenantScope} {requestId : Uuid}
      {failure : ContentRequestMaterializationFailure} (now : DateTime)
      (htask : s.tasks.lookup id = some (.failed scope requestId failure)) :
      RequestStep s (.recordDeferral scope requestId now)
        ({ s with state := recordDeferral scope requestId failure.reason now s.state }.finish id)
  /-- Any other use of the distribution repository. -/
  | distribution {s : RequestSystem} {event : DistributionEvent} {distribution : MemoryDistributionState}
      (hstep : distributionMachine.step s.distribution event distribution) :
      RequestStep s (.distribution event) { s with distribution }

def requestMachine : Machine RequestSystem RequestEvent where
  step := RequestStep

/-- The identity of a new request is fresh, and the distribution repository digests only some texts. -/
def RequestsOnly (used : List String → Prop) (s : RequestSystem) : RequestEvent → Prop
  | .accept scope _ requestId _ _ => s.state.byId.lookup (scope, requestId) = none
  | .commit _ _ call _ => ∀ text, Digests s.distribution call text → used text
  | .distribution event => DigestsOnly used s.distribution event
  | _ => True

end GeoMaster
