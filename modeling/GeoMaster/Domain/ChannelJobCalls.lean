import GeoMaster.Domain.ChannelJobRepository

/-!
# Runs of the channel job repository

A caller sends one call at a time to the repository and receives a reply or an error. The machine
below takes any call with any arguments in any order; the arguments include what a call takes from
outside, the clock and the answers of the other stores. Between two calls the maps that operations
search may be rehashed: a `reorder` step lists their entries in another order, so nothing a run shows
depends on the order in which a hash table is walked.
-/

namespace GeoMaster

open ChannelLedger (WithdrawalRequests)

/-- A call, with its arguments. -/
inductive JobCall where
  | insertGeneratedTarget (scope : TenantScope) (cycleId commandId : Uuid) (target : ChannelTarget)
  | createPlan (scope : TenantScope) (plan : ChannelPlan)
  | createMeasurementPlan (scope : TenantScope) (key requestHash : String) (plan : StandaloneMeasurementPlan)
  | reserveAccount (scope : TenantScope) (accountId reservationId : Uuid) (at_ expiresAt : DateTime)
  | releaseAccount (scope : TenantScope) (accountId reservationId : Uuid)
  | claim (requests : WithdrawalRequests) (scope : TenantScope) (targetId attemptId : Uuid) (at_ : DateTime)
  | claimReserved (requests : WithdrawalRequests) (scope : TenantScope)
      (targetId attemptId reservationId : Uuid) (at_ : DateTime)
  | finish (scope : TenantScope) (targetId attemptId : Uuid) (outcome : ChannelOutcome) (receivedAt : DateTime)
  | storePublicationBinding (scope : TenantScope) (targetId attemptId : Uuid) (binding : ChannelSecret)
  | registerRichSend (scope : TenantScope) (request : RegisterPublicationSend) (now : DateTime)
  | authorizeRichSend (scope : TenantScope) (expected : AuthorizePublicationSend)
      (bundle : PublicationBundle) (verified : List ContentMediaBinding) (now : DateTime)
  | scanWithdrawals (afterAttemptId : Option Uuid) (limit : Nat) (now : ChannelScopeKey → Uuid → DateTime)
  | resolveWithdrawal (scope : TenantScope) (attemptId : Uuid)
  | claimWithdrawal (scope : TenantScope) (attemptId executionId reservationId : Uuid) (at_ : DateTime)
  | finishWithdrawal (scope : TenantScope) (attemptId executionId : Uuid) (evidence : Json) (receivedAt : DateTime)
  | setProjectNetworkDefaults (channels : ChannelReplies) (scope : TenantScope)
      (expected : Option ChannelSettingsRecord) (record : ChannelSettingsRecord)
      (updates : List ProjectNetworkBindingUpdate)
  | setAccountNetworkWithMetadata (channels : ChannelReplies) (scope : AccountNetworkScope)
      (expected : Option Int) (binding : AccountNetworkBinding)
      (legacy : Option LegacyNetworkBootstrap) (metadata : Option AccountNetworkMetadataUpdate)
  | beginBrowserOperation (scope : BrowserOperationScope) (input : BeginBrowserOperation) (at_ : DateTime)
  | claimBrowserStart (scope : BrowserOperationScope) (id : Uuid) (at_ : DateTime)
  | saveOwnedLoginSession (channels : ChannelReplies) (scope : BrowserOperationScope)
      (operationId : Uuid) (storage : VerifiedLoginStorage) (at_ : DateTime)
  | transitionBrowserOperation (scope : BrowserOperationScope) (id : Uuid)
      (action : BrowserOperationTransition) (at_ : DateTime)
  | createLoginQueue (channels : ChannelReplies) (scope : OperatorLoginQueueScope) (queueId : Uuid)
      (importKey : String) (selections : List OperatorLoginQueueSelection) (at_ : DateTime)
  | applyLoginQueueAction (scope : OperatorLoginQueueScope) (id : Uuid) (expected : Int)
      (action : OperatorLoginQueueAction) (at_ : DateTime)
  | beginLoginQueueItem (channels : ChannelReplies) (scope : OperatorLoginQueueScope) (id : Uuid)
      (expected : Int) (owner : Uuid) (input : BeginBrowserOperation) (at_ : DateTime)
  | pauseLoginQueueError (scope : OperatorLoginQueueScope) (id : Uuid) (expected : Int)
      (operationId : Option Uuid) (code : String) (at_ : DateTime)

/-- What a call returns. -/
inductive JobReply where
  | unit
  | target (target : ChannelTarget)
  | plan (plan : ChannelPlan)
  | measurementPlan (plan : StandaloneMeasurementPlan)
  | claimed (target : ChannelTarget) (attempt : ChannelAttempt)
  | view (view : ChannelTargetView)
  | decision (decision : PublicationSendDecision)
  | withdrawal (row : PublicationWithdrawal)
  | withdrawals (rows : List PublicationWithdrawal)
  | settings (settings : ChannelSettings)
  | networks (networks : AccountNetworkBindings)
  | operation (operation : BrowserOperation)
  | started (operation : Option BrowserOperation)
  | queue (queue : OperatorLoginQueue)
  | queueOperation (queue : OperatorLoginQueue) (operation : BrowserOperation)

namespace MemoryChannelJobRepository

/-- Give the result of an operation a reply. -/
def answer {α : Type} (f : α → JobReply) (x : JobOp α) : JobOp JobReply := do
  let a ← x
  pure (f a)

/-- What the repository does with a call. -/
def run [Sha256] [UrlParser] [InstantText] : JobCall → JobOp JobReply
  | .insertGeneratedTarget scope cycleId commandId target =>
    answer .target (onLedger (ChannelLedger.insertGeneratedTarget scope cycleId commandId target))
  | .createPlan scope plan => answer .plan (onLedger (ChannelLedger.createPlan scope plan))
  | .createMeasurementPlan scope key requestHash plan =>
    answer .measurementPlan (onLedger (ChannelLedger.createMeasurementPlan scope key requestHash plan))
  | .reserveAccount scope accountId reservationId at_ expiresAt =>
    answer (fun _ => .unit) (reserveAccount scope accountId reservationId at_ expiresAt)
  | .releaseAccount scope accountId reservationId =>
    answer (fun _ => .unit) (releaseAccount scope accountId reservationId)
  | .claim requests scope targetId attemptId at_ =>
    answer (fun r => .claimed r.1 r.2) (onLedger (ChannelLedger.claim requests scope targetId attemptId at_))
  | .claimReserved requests scope targetId attemptId reservationId at_ =>
    answer (fun r => .claimed r.1 r.2) (claimReserved requests scope targetId attemptId reservationId at_)
  | .finish scope targetId attemptId outcome receivedAt =>
    answer .view (onLedger (ChannelLedger.finish scope targetId attemptId outcome receivedAt))
  | .storePublicationBinding scope targetId attemptId binding =>
    answer (fun _ => .unit) (onLedger (ChannelLedger.storePublicationBinding scope targetId attemptId binding))
  | .registerRichSend scope request now =>
    answer (fun _ => .unit) (onLedger (ChannelLedger.registerRichSend scope request now))
  | .authorizeRichSend scope expected bundle verified now =>
    answer .decision (onLedger (ChannelLedger.authorizeRichSend scope expected bundle verified now))
  | .scanWithdrawals afterAttemptId limit now =>
    answer .withdrawals (onLedger (ChannelLedger.scanWithdrawals afterAttemptId limit now))
  | .resolveWithdrawal scope attemptId =>
    answer .withdrawal (onLedger (ChannelLedger.resolveWithdrawal scope attemptId))
  | .claimWithdrawal scope attemptId executionId reservationId at_ =>
    answer .withdrawal (claimWithdrawal scope attemptId executionId reservationId at_)
  | .finishWithdrawal scope attemptId executionId evidence receivedAt =>
    answer .withdrawal (onLedger (ChannelLedger.finishWithdrawal scope attemptId executionId evidence receivedAt))
  | .setProjectNetworkDefaults channels scope expected record updates =>
    answer .settings (setProjectNetworkDefaults channels scope expected record updates)
  | .setAccountNetworkWithMetadata channels scope expected binding legacy metadata =>
    answer .networks (setAccountNetworkWithMetadata channels scope expected binding legacy metadata)
  | .beginBrowserOperation scope input at_ => answer .operation (beginBrowserOperation scope input at_)
  | .claimBrowserStart scope id at_ => answer .started (claimBrowserStart scope id at_)
  | .saveOwnedLoginSession channels scope operationId storage at_ =>
    answer (fun _ => .unit) (saveOwnedLoginSession channels scope operationId storage at_)
  | .transitionBrowserOperation scope id action at_ =>
    answer .operation (transitionBrowserOperation scope id action at_)
  | .createLoginQueue channels scope queueId importKey selections at_ =>
    answer .queue (createLoginQueue channels scope queueId importKey selections at_)
  | .applyLoginQueueAction scope id expected action at_ =>
    answer .queue (applyLoginQueueAction scope id expected action at_)
  | .beginLoginQueueItem channels scope id expected owner input at_ =>
    answer (fun r => .queueOperation r.1 r.2) (beginLoginQueueItem channels scope id expected owner input at_)
  | .pauseLoginQueueError scope id expected operationId code at_ =>
    answer .queue (pauseLoginQueueError scope id expected operationId code at_)

/-- The same entries in every map, listed in some other order. -/
structure Reordered (s s' : MemoryChannelJobRepository) : Prop where
  ledger : AssocMap.SameEntries s.ledger s'.ledger
  gates : AssocMap.SameEntries s.gates s'.gates
  operations : AssocMap.SameEntries s.operations s'.operations
  heads : AssocMap.SameEntries s.networks.heads s'.networks.heads
  bindings : AssocMap.SameEntries s.networks.bindings s'.networks.bindings
  queues : AssocMap.SameEntries s.queues s'.queues

end MemoryChannelJobRepository

/-- A step of a run: a call with its reply or error, or a rehash. -/
inductive JobEvent where
  | call (call : JobCall) (reply : Except AppError JobReply)
  | reorder

/-- The repository as a machine. -/
def jobMachine [Sha256] [UrlParser] [InstantText] : Machine MemoryChannelJobRepository JobEvent where
  step s e s' :=
    match e with
    | .call call reply => (MemoryChannelJobRepository.run call).run s = (reply, s')
    | .reorder => s.Reordered s'

namespace MemoryChannelJobRepository

variable [Sha256] [UrlParser] [InstantText]

/-- The repository after some calls, one after the other. -/
def after (s : MemoryChannelJobRepository) : List JobCall → MemoryChannelJobRepository
  | [] => s
  | call :: rest => (((run call).run s).2).after rest

/-- The calls with their replies. -/
def trace (s : MemoryChannelJobRepository) : List JobCall → List JobEvent
  | [] => []
  | call :: rest => .call call ((run call).run s).1 :: (((run call).run s).2).trace rest

/-- Each call meets the condition in the state it finds. -/
def Allowed (ok : MemoryChannelJobRepository → JobEvent → Prop) (s : MemoryChannelJobRepository) : List JobCall → Prop
  | [] => True
  | call :: rest => ok s (.call call ((run call).run s).1) ∧ (((run call).run s).2).Allowed ok rest

/-- Calls that meet the condition everywhere meet it here. -/
theorem allowed_of_forall {ok : MemoryChannelJobRepository → JobEvent → Prop}
    {calls : List JobCall} (hok : ∀ call ∈ calls, ∀ s reply, ok s (.call call reply))
    (s : MemoryChannelJobRepository) : s.Allowed ok calls := by
  induction calls generalizing s with
  | nil => trivial
  | cons call rest ih => exact ⟨hok call List.mem_cons_self s _, ih (fun c hc => hok c (List.mem_cons_of_mem _ hc)) _⟩

theorem run_trace {ok : MemoryChannelJobRepository → JobEvent → Prop} (calls : List JobCall)
    (s : MemoryChannelJobRepository) (hok : s.Allowed ok calls) :
    (jobMachine.restrict ok).Run s (s.trace calls) (s.after calls) := by
  induction calls generalizing s with
  | nil => exact .refl
  | cons call rest ih =>
    have hfirst : (jobMachine.restrict ok).Run s [.call call ((run call).run s).1] ((run call).run s).2 := by
      refine .single ⟨hok.1, ?_⟩
      rfl
    exact hfirst.append (ih _ hok.2)

end MemoryChannelJobRepository

namespace Sample

/-- The project of the scope. -/
def project : ProjectKey :=
  { operator := uuid 1, tenant := uuid 2, project := uuid 3 }

/-- A generated publication without a rich payload. -/
def plainInput (account : Uuid) : GeneratedPublishInput :=
  { contentRevisionId := uuid 20, variantId := uuid 21, publicationIntentId := uuid 22
    distributionTargetId := uuid 23, originRequestId := none, platform := "zhihu"
    placementSlot := "short_post", accountId := account, title := "T", body := "B"
    bodySha256 := "", payloadHash := "", evidence := [], richPayload := none }

/-- A target for it. -/
def plainTarget (id account : Uuid) : ChannelTarget :=
  { targetId := id, input := .generatedPublish (plainInput account) }

/-- Libraries for runs that never ask them anything. -/
@[reducible] def urlParser : UrlParser :=
  ⟨fun _ => none, fun _ _ => none⟩

@[reducible] def instantText : InstantText :=
  ⟨fun _ => none⟩

end Sample

end GeoMaster
