import GeoMaster.Proofs.FailedCalls

/-!
# What a step does to the ledger

A step of the repository changes at most one entry of the ledger, except for the scan, which gives up
interrupted withdrawals in all of them. `CycleEffect` lists what can happen to the one entry, with
everything the operation checked first, and `step_effect` shows that every step is one of these.
Every invariant of the ledger is proved from this list and never opens an operation again.
-/

namespace GeoMaster

open Option AList

namespace ChannelLedger

/-! ### Finding an entry -/

section Find

variable {l : ChannelLedger} {key : ProjectKey}

variable {c : MemoryCycle} {k : ChannelScopeKey}

variable {p : MemoryCycle → Bool} {targetId : Uuid}

/-- A found entry is stored, lies in the project and passes the test. -/
theorem findEntry_some (h : findEntry l key p = some (k, c)) : l.lookup k = some c ∧ k.scope = key ∧ p c = true := by
  unfold findEntry at h
  obtain ⟨e, hfind, heq⟩ := map_eq_some_iff.mp h
  obtain ⟨rfl, rfl⟩ : e.1 = k ∧ e.2 = c := by simpa using heq
  have htest := List.find?_some hfind
  simp only [decide_eq_true_eq] at htest
  exact ⟨mem_lookup_iff.mpr (List.mem_of_find?_eq_some hfind), htest⟩

/-- When no entry is found, every stored entry of the project fails the test. -/
theorem findEntry_none (h : findEntry l key p = none) (hk : l.lookup k = some c)
    (hscope : k.scope = key) : p c = false := by
  unfold findEntry at h
  rw [map_eq_none_iff] at h
  have := List.find?_eq_none.mp h ⟨k, c⟩ (mem_lookup_iff.mp hk)
  simpa [hscope] using this

theorem findTarget_some (h : findTarget l key targetId = some (k, c)) : l.lookup k = some c ∧ k.scope = key := by
  obtain ⟨hk, hscope, -⟩ := findEntry_some h
  exact ⟨hk, hscope⟩

/-- When no entry is found for a target, no entry of the project knows it. -/
theorem findTarget_none (h : findTarget l key targetId = none) (hk : l.lookup k = some c)
    (hscope : k.scope = key) : c.target targetId = none := by
  simpa using findEntry_none h hk hscope

theorem findWithdrawal_some {attemptId : Uuid} (h : findWithdrawal l key attemptId = some (k, c)) :
    l.lookup k = some c ∧ k.scope = key := by
  obtain ⟨hk, hscope, -⟩ := findEntry_some h
  exact ⟨hk, hscope⟩

theorem findTarget_bind_none (h : ((findTarget l key targetId).bind fun entry => entry.2.target targetId) = none) :
    findTarget l key targetId = none := by
  cases hfind : findTarget l key targetId with
  | none => rfl
  | some entry =>
    obtain ⟨_, _⟩ := entry
    obtain ⟨-, -, hp⟩ := findEntry_some hfind
    simp only [hfind, bind_some] at h
    simp [h] at hp

end Find

theorem entryOrDefault_of_lookup {l : ChannelLedger} {k : ChannelScopeKey} {c : MemoryCycle}
    (h : l.lookup k = some c) : entryOrDefault l k = c := by
  simp [entryOrDefault, h]

theorem scopeKey_operator {scope : TenantScope} {key : ProjectKey} (h : scopeKey scope = .ok key) :
    key.operator = scope.operatorId.asUuid := by
  simp only [scopeKey, Except.eq_ok_iff] at h
  obtain ⟨_, -, rfl⟩ := h
  rfl

/-! ### The two send operations -/

theorem isRich_of_richPublication {target : ChannelTargetInput} {found : GeneratedPublishInput × RichPublicationPayload}
    (h : richPublication target = some found) : target.isRich = true := by
  cases target with
  | generatedPublish input =>
    obtain ⟨_, hfrozen, -⟩ := map_eq_some_iff.mp h
    simp [ChannelTargetInput.isRich, hfrozen]
  | publish | measure => simp [richPublication] at h

section Send

variable [Sha256]

/-- What both send operations find: a rich target of the project and its open attempt. -/
structure SendTarget (l : ChannelLedger) (scope : TenantScope) (targetId attemptId : Uuid)
    (k : ChannelScopeKey) (c : MemoryCycle) (attempt : ChannelAttempt) : Prop where
  stored : l.lookup k = some c
  scope : scopeKey scope = .ok k.scope
  rich : ∃ target, c.target targetId = some target ∧ target.input.isRich = true
  found : c.attempt targetId attemptId = some attempt
  outcome : attempt.outcome = none
  received : attempt.receivedAt = none

/-- A stored registration with the given session and digest. -/
structure RegisteredAs (c : MemoryCycle) (attemptId sessionId : Uuid) (digest : String)
    (registered : MemorySendRegistration) : Prop where
  lookup : c.publicationSend.lookup attemptId = some registered
  session : registered.sessionId = sessionId
  digest : registered.bindingSha256 = digest

variable {l l' : ChannelLedger} {scope : TenantScope} {now : DateTime}

theorem registerRichSend_cases {request : RegisterPublicationSend} {reply : Unit} (h : Op.Returns (registerRichSend scope request now) l reply l') :
    ∃ k c attempt, SendTarget l scope request.targetId request.attemptId k c attempt ∧
      ((∃ registered, RegisteredAs c request.attemptId request.runnerSessionId
            request.encryptedBindingSha256 registered
          ∧ registered.deadline = request.sendNotAfter ∧ l = l')
        ∨ (c.publicationSend.lookup request.attemptId = none
          ∧ l.insert k
              { c with
                publicationSend :=
                  c.publicationSend.insert request.attemptId
                    { sessionId := request.runnerSessionId
                      deadline := request.sendNotAfter
                      bindingSha256 := request.encryptedBindingSha256
                      sendAuthorizedAt := none } } = l')) := by
  simp only [registerRichSend, Op.returns_iff] at h
  obtain ⟨key, _, ⟨hkey, rfl⟩, all, _, ⟨rfl, rfl⟩, ⟨k, c⟩, _, ⟨hfind, rfl⟩, target, _,
    ⟨htarget, rfl⟩, _, _, ⟨hrich, rfl⟩, attempt, _, ⟨hattempt, rfl⟩, _, _, ⟨hopen, rfl⟩, binding, _,
    ⟨hbinding, rfl⟩, _, _, ⟨-, rfl⟩, h⟩ := h
  obtain ⟨hstored, rfl⟩ := findTarget_some hfind
  simp only [not_or, not_not] at hrich
  simp only [not_or, not_isSome_iff_eq_none] at hopen
  refine ⟨k, c, attempt, ⟨hstored, hkey, ⟨target, htarget, hrich.1⟩, hattempt, hopen.1, hopen.2⟩, ?_⟩
  split at h
  · next registered hregistered =>
    simp only [Op.returns_failIf, not_not] at h
    obtain ⟨⟨hsession, hdeadline, hdigest⟩, rfl⟩ := h
    exact .inl ⟨registered, ⟨hregistered, hsession, hdigest⟩, hdeadline, rfl⟩
  · next hnone =>
    simp only [Op.returns_iff] at h
    obtain ⟨_, _, ⟨-, rfl⟩, hl⟩ := h
    exact .inr ⟨hnone, hl⟩

/-- An authorization finds the registration it names; it grants once, by the deadline. -/
theorem authorizeRichSend_cases [UrlParser] {expected : AuthorizePublicationSend} {bundle : PublicationBundle}
    {verified : List ContentMediaBinding} {reply : PublicationSendDecision}
    (h : Op.Returns (authorizeRichSend scope expected bundle verified now) l reply l') :
    ∃ k c attempt registered,
      SendTarget l scope expected.targetId expected.attemptId k c attempt ∧
      RegisteredAs c expected.attemptId expected.runnerSessionId expected.encryptedBindingSha256 registered ∧
      ((reply = .alreadyConsumed ∧ registered.sendAuthorizedAt.isSome = true ∧ l = l')
        ∨ (registered.sendAuthorizedAt = none ∧ now ≤ registered.deadline
          ∧ (∃ payloadHash, reply = .granted
              { attemptId := expected.attemptId
                runnerSessionId := expected.runnerSessionId
                payloadHash
                sendNotAfter := registered.deadline })
          ∧ l.insert k
              { c with
                publicationSend :=
                  c.publicationSend.insert expected.attemptId
                    { registered with sendAuthorizedAt := some now } } = l')) := by
  simp only [authorizeRichSend, Op.returns_iff] at h
  obtain ⟨key, _, ⟨hkey, rfl⟩, all, _, ⟨rfl, rfl⟩, ⟨k, c⟩, _, ⟨hfind, rfl⟩, target, _,
    ⟨htarget, rfl⟩, ⟨input, frozen⟩, _, ⟨hinput, rfl⟩, attempt, _, ⟨hattempt, rfl⟩, registered, _,
    ⟨hregistered, rfl⟩, _, _, ⟨hdiffers, rfl⟩, _, _, ⟨-, rfl⟩, _, _, ⟨-, rfl⟩, _, _, ⟨-, rfl⟩, h⟩ := h
  obtain ⟨hstored, rfl⟩ := findTarget_some hfind
  simp only [sendDiffers, Bool.not_eq_true, decide_eq_false_iff_not, not_or,
    isSome_eq_false_iff, isNone_iff_eq_none, not_not] at hdiffers
  obtain ⟨houtcome, hreceived, -, hsession, hdigest, -⟩ := hdiffers
  refine ⟨k, c, attempt, registered,
    ⟨hstored, hkey, ⟨target, htarget, isRich_of_richPublication hinput⟩, hattempt, houtcome, hreceived⟩,
    ⟨hregistered, hsession, hdigest⟩, ?_⟩
  split at h
  · next hsent =>
    simp only [Op.returns_pure] at h
    exact .inl ⟨h.1.symm, hsent, h.2⟩
  · next hnone =>
    simp only [Op.returns_iff, not_or, not_lt] at h
    obtain ⟨_, _, ⟨⟨hdeadline, -⟩, rfl⟩, _, _, rfl, hreply, rfl⟩ := h
    exact .inr ⟨by simpa using hnone, hdeadline, ⟨input.payloadHash, hreply.symm⟩, rfl⟩

end Send

end ChannelLedger

open ChannelLedger MemoryChannelJobRepository

/-! ### The effects -/

/-- The calls that work on the ledger; the others write the maps of the browser side. -/
def JobCall.onLedger : JobCall → Bool
  | .insertGeneratedTarget .. | .createPlan .. | .createMeasurementPlan .. | .claim ..
  | .claimReserved .. | .finish .. | .storePublicationBinding .. | .registerRichSend ..
  | .authorizeRichSend .. | .scanWithdrawals .. | .resolveWithdrawal .. | .claimWithdrawal ..
  | .finishWithdrawal .. => true
  | _ => false

/-- The instant a call claims an attempt at. -/
def JobCall.claimTime : JobCall → Option DateTime
  | .claim _ _ _ _ at_ => some at_
  | .claimReserved _ _ _ _ _ at_ => some at_
  | _ => none

/-- The scope, the target and the attempt id of a claim. -/
def JobCall.claims : JobCall → Option (TenantScope × Uuid × Uuid)
  | .claim _ scope targetId attemptId _ => some (scope, targetId, attemptId)
  | .claimReserved _ scope targetId attemptId _ _ => some (scope, targetId, attemptId)
  | _ => none

/-- The instant a call receives an outcome at. -/
def JobCall.receivedTime : JobCall → Option DateTime
  | .finish _ _ _ _ receivedAt => some receivedAt
  | _ => none

/-- The event is a successful call. -/
def JobEvent.Did (e : JobEvent) (call : JobCall) : Prop :=
  ∃ reply, e = .call call (.ok reply)

theorem JobEvent.Did.unique {e : JobEvent} {call call' : JobCall} (h : e.Did call)
    (h' : e.Did call') : call = call' := by
  obtain ⟨_, rfl⟩ := h
  obtain ⟨_, heq⟩ := h'
  cases heq
  rfl

/-- A withdrawal row as its claim creates it. -/
structure FreshRow (row : PublicationWithdrawal) (scope : ProjectKey) (target : ChannelTarget)
    (attempt : ChannelAttempt) : Prop where
  scope : scopeKey row.scope = .ok scope
  targetId : row.targetId = attempt.targetId
  attemptId : row.attemptId = attempt.attemptId
  accountId : row.accountId = target.input.accountId
  state : row.state = .awaitingPublication
  externalId : row.externalId = none
  publicUrl : row.publicUrl = none
  executionId : row.executionId = none
  claimedAt : row.claimedAt = none
  evidence : row.evidence = .object []

theorem claimWithdrawalRow_fresh {requests : WithdrawalRequests} {scope : TenantScope}
    {key : ProjectKey} {target : ChannelTarget} {attempt : ChannelAttempt}
    {withdrawal : Option PublicationWithdrawal} (hkey : scopeKey scope = .ok key)
    (h : claimWithdrawalRow requests scope target attempt.targetId attempt.attemptId = .ok withdrawal) :
    ∀ row ∈ withdrawal, FreshRow row key target attempt := by
  intro row hrow
  unfold claimWithdrawalRow at h
  split at h
  · next input get hinput =>
    split at h
    · simp only [Except.eq_ok_iff] at h
      obtain ⟨_, -, _, -, h⟩ := h
      split at h
      · subst h
        obtain rfl := mem_some.mp hrow
        exact ⟨hkey, rfl, rfl, by simp [hinput, ChannelTargetInput.accountId], rfl, rfl, rfl, rfl, rfl, rfl⟩
      · subst h
        simp at hrow
    · rw [Except.pure_eq_ok] at h
      subst h
      simp at hrow
  · rw [Except.pure_eq_ok] at h
    subst h
    simp at hrow

theorem ledger_foldl_releaseOwned (scope : BrowserOperationScope) (id : Uuid)
    (result : BrowserOperation) (accounts : List Uuid) (s : MemoryChannelJobRepository) :
    (accounts.foldl (releaseOwned scope id result) s).ledger = s.ledger := by
  induction accounts generalizing s with
  | nil => rfl
  | cons _ _ ih =>
    rw [List.foldl_cons, ih]
    unfold releaseOwned
    dsimp only
    split <;> rfl

section Effects

variable [Sha256] [InstantText]

/-- What a step does to one withdrawal row of an entry. -/
inductive RowEffect (s : MemoryChannelJobRepository) (e : JobEvent) (k : ChannelScopeKey) (c : MemoryCycle)
    (attemptId : Uuid) (r : PublicationWithdrawal) : PublicationWithdrawal → Prop where
  | resolved (target : ChannelTarget) (attempt : ChannelAttempt) (r' : PublicationWithdrawal)
      (htarget : c.target r.targetId = some target) (hattempt : c.attempt r.targetId attemptId = some attempt)
      (h : resolvePublicationWithdrawal r target attempt = .ok r') :
      RowEffect s e k c attemptId r r'
  | claimed (scope : TenantScope) (executionId reservationId : Uuid) (at_ : DateTime)
      (hcall : e.Did (.claimWithdrawal scope attemptId executionId reservationId at_))
      (hscope : scopeKey scope = .ok k.scope) (hstate : r.state = .ready) (hexecution : r.executionId = none)
      (hlive : liveReservation s.gates k.scope.operator r.accountId reservationId at_ = true) :
      RowEffect s e k c attemptId r { r with state := .claimed, executionId := some executionId, claimedAt := some at_ }
  | finished (scope : TenantScope) (executionId : Uuid) (evidence : Json) (receivedAt : DateTime)
      (r' : PublicationWithdrawal) (hcall : e.Did (.finishWithdrawal scope attemptId executionId evidence receivedAt))
      (hscope : scopeKey scope = .ok k.scope)
      (h : finishPublicationWithdrawal r executionId evidence receivedAt = .ok r') :
      RowEffect s e k c attemptId r r'

/-- What a step does to the entry it changes, with what it checked. -/
inductive CycleEffect (s : MemoryChannelJobRepository) (e : JobEvent) (k : ChannelScopeKey)
    (c : MemoryCycle) : MemoryCycle → Prop where
  | touched : CycleEffect s e k c c
  | generated (target : ChannelTarget) (hgenerated : target.input.isGenerated = true)
      (howner : ∃ id, k.owner = .cycle id)
      (hnew : ∀ j d, s.ledger.lookup j = some d → j.scope = k.scope →
        d.target target.targetId = none) :
      CycleEffect s e k c { c with generated := c.generated.insert target.targetId target }
  | planned (scope : TenantScope) (plan : ChannelPlan) (hcall : e.Did (.createPlan scope plan))
      (hscope : scopeKey scope = .ok k.scope) (howner : k.owner = .cycle plan.cycleId) (hnone : c.plan = none)
      (hgenerated : ∀ target ∈ plan.targets, target.input.isGenerated = false) :
      CycleEffect s e k c { c with plan := some plan }
  | measured (plan : StandaloneMeasurementPlan) (request : String × String)
      (howner : k.owner = .measurement plan.planId) (hfree : s.ledger.lookup k = none)
      (hmeasure : ∀ target ∈ plan.targets, target.input.isMeasure = true)
      (hnodup : (plan.targets.map (·.targetId)).Nodup)
      (hnew : ∀ j d, s.ledger.lookup j = some d → ∀ target ∈ plan.targets, d.target target.targetId = none) :
      CycleEffect s e k c
        { MemoryCycle.default with measurement := some plan, measurementRequest := some request }
  | claimed (call : JobCall) (scope : TenantScope) (pending target : ChannelTarget) (attempt : ChannelAttempt)
      (withdrawal : Option PublicationWithdrawal) (hstored : s.ledger.lookup k = some c) (hcall : e.Did call)
      (hclaims : call.claims = some (scope, attempt.targetId, attempt.attemptId))
      (hscope : scopeKey scope = .ok k.scope) (htime : call.claimTime = some attempt.claimedAt)
      (htarget : c.target attempt.targetId = some target)
      (hpending : pendingTarget s.ledger k.scope attempt.targetId = some pending)
      (hfree : pending.input.isPublication = true →
        publicationInFlight s.ledger k.scope.operator pending.input.accountId = false)
      (hnone : c.attemptsOf attempt.targetId = []) (houtcome : attempt.outcome = none)
      (hreceived : attempt.receivedAt = none)
      (hrow : ∀ row ∈ withdrawal, FreshRow row k.scope target attempt) :
      CycleEffect s e k c (pushAttempt c attempt withdrawal)
  | finished (scope : TenantScope) (target : ChannelTarget) (targetId attemptId : Uuid) (outcome : ChannelOutcome)
      (receivedAt : DateTime) (attempts : List ChannelAttempt) (attempt : ChannelAttempt)
      (hstored : s.ledger.lookup k = some c) (hcall : e.Did (.finish scope targetId attemptId outcome receivedAt))
      (htarget : c.target targetId = some target) (hattempts : c.attempts.lookup targetId = some attempts)
      (hfind : attempts.find? (fun attempt => attempt.attemptId = attemptId) = some attempt)
      (hopen : attempt.outcome = none) :
      CycleEffect s e k c
        { c with
          attempts :=
            c.attempts.insert targetId
              (recordOutcome attemptId (recordedOutcome c target attemptId outcome) receivedAt
                attempts) }
  | bound (attemptId : Uuid) (binding : ChannelSecret) (hstored : s.ledger.lookup k = some c)
      (hnone : c.publicationBindings.lookup attemptId = none) :
      CycleEffect s e k c
        { c with publicationBindings := c.publicationBindings.insert attemptId binding }
  | registered (scope : TenantScope) (request : RegisterPublicationSend) (now : DateTime)
      (attempt : ChannelAttempt) (hcall : e.Did (.registerRichSend scope request now))
      (htarget : SendTarget s.ledger scope request.targetId request.attemptId k c attempt)
      (hnone : c.publicationSend.lookup request.attemptId = none) :
      CycleEffect s e k c
        { c with
          publicationSend :=
            c.publicationSend.insert request.attemptId
              { sessionId := request.runnerSessionId
                deadline := request.sendNotAfter
                bindingSha256 := request.encryptedBindingSha256
                sendAuthorizedAt := none } }
  | authorized (scope : TenantScope) (expected : AuthorizePublicationSend) (bundle : PublicationBundle)
      (verified : List ContentMediaBinding) (now : DateTime) (grant : PublicationSendGrant) (attempt : ChannelAttempt)
      (registered : MemorySendRegistration)
      (hcall : e = .call (.authorizeRichSend scope expected bundle verified now)
        (.ok (.decision (.granted grant))))
      (htarget : SendTarget s.ledger scope expected.targetId expected.attemptId k c attempt)
      (hregistered : c.publicationSend.lookup expected.attemptId = some registered)
      (hnone : registered.sendAuthorizedAt = none) :
      CycleEffect s e k c
        { c with
          publicationSend :=
            c.publicationSend.insert expected.attemptId
              { registered with sendAuthorizedAt := some now } }
  | row (attemptId : Uuid) (r r' : PublicationWithdrawal) (hstored : s.ledger.lookup k = some c)
      (hrow : c.withdrawals.lookup attemptId = some r) (heffect : RowEffect s e k c attemptId r r') :
      CycleEffect s e k c { c with withdrawals := c.withdrawals.insert attemptId r' }

/-- Give up the interrupted withdrawals of an entry. -/
def expireRows (now : Uuid → DateTime) (c : MemoryCycle) : MemoryCycle :=
  { c with
    withdrawals := AssocMap.mapValues (fun attemptId row => expireWithdrawal (now attemptId) row) c.withdrawals }

/-- What a step does to the ledger. -/
inductive LedgerEffect (s : MemoryChannelJobRepository) (e : JobEvent) (l' : ChannelLedger) : Prop where
  | same (h : ∀ k, l'.lookup k = s.ledger.lookup k)
  | entry (k : ChannelScopeKey) (c' : MemoryCycle) (h : ∀ j, l'.lookup j = if j = k then some c' else s.ledger.lookup j)
      (heffect : CycleEffect s e k (entryOrDefault s.ledger k) c')
  | expired (now : ChannelScopeKey → Uuid → DateTime)
      (h : ∀ k, l'.lookup k = (s.ledger.lookup k).map (expireRows (now k)))

/-! ### One lemma for each operation on the ledger -/

variable {s : MemoryChannelJobRepository} {e : JobEvent} {l' : ChannelLedger}

variable {k : ChannelScopeKey} {c' : MemoryCycle} {call : JobCall} {requests : WithdrawalRequests}
  {at_ receivedAt now : DateTime} {reply : PublicationWithdrawal} {executionId reservationId : Uuid}
  {s' : MemoryChannelJobRepository}

theorem LedgerEffect.insert (heffect : CycleEffect s e k (entryOrDefault s.ledger k) c')
    (hl : s.ledger.insert k c' = l') : LedgerEffect s e l' :=
  .entry k c' (fun j => by rw [← hl, AssocMap.lookup_insert]) heffect

theorem LedgerEffect.insert_stored {c : MemoryCycle} (hstored : s.ledger.lookup k = some c)
    (heffect : CycleEffect s e k c c') (hl : s.ledger.insert k c' = l') : LedgerEffect s e l' :=
  .insert (by rwa [entryOrDefault_of_lookup hstored]) hl

variable {attemptId targetId : Uuid} {scope : TenantScope}

theorem insertGeneratedTarget_effect {cycleId commandId : Uuid} {target reply : ChannelTarget}
    (h : Op.Returns (insertGeneratedTarget scope cycleId commandId target) s.ledger reply l') :
    LedgerEffect s e l' := by
  simp only [insertGeneratedTarget, Op.returns_iff] at h
  obtain ⟨_, _, ⟨hvalid, rfl⟩, _, _, ⟨_, rfl⟩, _, _, ⟨rfl, rfl⟩, h⟩ := h
  obtain ⟨rfl, hgenerated⟩ : target.targetId = commandId ∧ target.input.isGenerated = true := by simpa using hvalid
  simp only [id] at h
  split at h
  · simp only [Op.returns_iff] at h
    obtain ⟨_, _, ⟨-, rfl⟩, -, rfl⟩ := h
    exact .same fun _ => rfl
  · next hnone =>
    simp only [Op.returns_iff] at h
    obtain ⟨_, _, rfl, -, rfl⟩ := h
    have hnew := findTarget_bind_none hnone
    refine LedgerEffect.insert (.generated target hgenerated ⟨cycleId, rfl⟩ ?_) rfl
    intro j d hj hscope
    exact findTarget_none hnew hj hscope

theorem createPlan_effect {plan reply : ChannelPlan} (hcall : e.Did (.createPlan scope plan))
    (h : Op.Returns (createPlan scope plan) s.ledger reply l') : LedgerEffect s e l' := by
  simp only [createPlan, Op.returns_iff] at h
  obtain ⟨_, _, ⟨-, rfl⟩, _, _, ⟨hgenerated, rfl⟩, key, _, ⟨hkey, rfl⟩, _, _, rfl, cycle, _, ⟨hcycle, rfl⟩, h⟩ := h
  have hentry : cycle = entryOrDefault s.ledger ⟨key, .cycle plan.cycleId⟩ := by
    rw [← hcycle]
    simp [entryOrDefault]
  subst hentry
  split at h
  · simp only [Op.returns_iff] at h
    obtain ⟨_, _, ⟨-, rfl⟩, -, rfl⟩ := h
    exact LedgerEffect.insert .touched rfl
  · next hnone =>
    simp only [Op.returns_iff, insert_insert] at h
    obtain ⟨_, _, rfl, -, rfl⟩ := h
    refine LedgerEffect.insert (.planned scope plan hcall hkey rfl hnone ?_) rfl
    simpa using hgenerated

theorem createMeasurementPlan_effect {key requestHash : String} {plan reply : StandaloneMeasurementPlan}
    (h : Op.Returns (createMeasurementPlan scope key requestHash plan) s.ledger reply l') : LedgerEffect s e l' := by
  simp only [createMeasurementPlan, Op.returns_iff] at h
  obtain ⟨_, _, ⟨hvalid, rfl⟩, _, _, ⟨-, rfl⟩, _, _, ⟨_, rfl⟩, _, _, ⟨rfl, rfl⟩, h⟩ := h
  split at h
  · simp only [Op.returns_iff] at h
    obtain ⟨_, _, ⟨-, rfl⟩, -, rfl⟩ := h
    exact .same fun _ => rfl
  · simp only [Op.returns_iff] at h
    obtain ⟨_, _, ⟨hfresh, rfl⟩, _, _, rfl, -, rfl⟩ := h
    simp only [not_or, not_exists, not_and, AssocMap.mem_values] at hfresh
    obtain ⟨hfree, hnew⟩ := hfresh
    simp only [StandaloneMeasurementPlan.validate, Except.eq_ok_iff, not_or, not_exists, not_and, not_not] at hvalid
    obtain ⟨_, -, _, ⟨-, -, -, hmeasure⟩, hnodup⟩ := hvalid
    refine LedgerEffect.insert (.measured plan (key, requestHash) rfl ?_ hmeasure hnodup ?_) rfl
    · exact lookup_eq_none.mpr hfree
    · intro j d hj target htarget
      simpa using hnew d ⟨j, hj⟩ target htarget

theorem claim_effect {reply : ChannelTarget × ChannelAttempt} (hcall : e.Did call) (hclaims : call.claims = some (scope, targetId, attemptId))
    (htime : call.claimTime = some at_)
    (h : Op.Returns (claim requests scope targetId attemptId at_) s.ledger reply l') : LedgerEffect s e l' := by
  simp only [claim, Op.returns_iff] at h
  obtain ⟨key, _, ⟨hkey, rfl⟩, all, _, ⟨rfl, rfl⟩, pending, _, ⟨hpending, rfl⟩, _, _,
    ⟨hfree, rfl⟩, ⟨k, c⟩, _, ⟨hfind, rfl⟩, target, _, ⟨htarget, rfl⟩, _, _, ⟨hnone, rfl⟩,
    withdrawal, _, ⟨hrow, rfl⟩, _, _, hl, -, rfl⟩ := h
  obtain ⟨hstored, rfl⟩ := findTarget_some hfind
  let attempt : ChannelAttempt :=
    { attemptId, targetId, claimedAt := at_, outcome := none, receivedAt := none }
  have hfresh : ∀ row ∈ withdrawal, FreshRow row k.scope target attempt := claimWithdrawalRow_fresh hkey hrow
  refine LedgerEffect.insert_stored hstored ?_ hl
  refine .claimed call scope pending target attempt withdrawal hstored hcall hclaims hkey htime
    htarget hpending ?_ ?_ rfl rfl hfresh
  · intro hpublication
    simpa [hpublication] using hfree
  · simpa using hnone

theorem finish_effect {outcome : ChannelOutcome} {reply : ChannelTargetView}
    (hcall : e.Did (.finish scope targetId attemptId outcome receivedAt))
    (h : Op.Returns (finish scope targetId attemptId outcome receivedAt) s.ledger reply l') : LedgerEffect s e l' := by
  simp only [finish, Op.returns_iff] at h
  obtain ⟨key, _, ⟨hkey, rfl⟩, all, _, ⟨rfl, rfl⟩, ⟨k, c⟩, _, ⟨hfind, rfl⟩, target, _,
    ⟨htarget, rfl⟩, attempts, _, ⟨hattempts, rfl⟩, attempt, _, ⟨hattempt, rfl⟩, h⟩ := h
  obtain ⟨hstored, rfl⟩ := findTarget_some hfind
  split at h
  · simp only [Op.returns_iff] at h
    obtain ⟨_, _, ⟨-, rfl⟩, -, rfl⟩ := h
    exact .same fun _ => rfl
  · next hopen =>
    simp only [Op.returns_iff] at h
    obtain ⟨_, _, rfl, -, rfl⟩ := h
    exact LedgerEffect.insert_stored hstored
      (.finished scope target targetId attemptId outcome receivedAt attempts attempt hstored hcall
        htarget hattempts hattempt hopen) rfl

theorem storePublicationBinding_effect {binding : ChannelSecret} {reply : Unit}
    (h : Op.Returns (storePublicationBinding scope targetId attemptId binding) s.ledger reply l') :
    LedgerEffect s e l' := by
  simp only [storePublicationBinding, Op.returns_iff] at h
  obtain ⟨_, _, ⟨-, rfl⟩, key, _, ⟨hkey, rfl⟩, all, _, ⟨rfl, rfl⟩, ⟨k, c⟩, _, ⟨hfind, rfl⟩, _, _,
    ⟨-, rfl⟩, attempt, _, ⟨hattempt, rfl⟩, h⟩ := h
  obtain ⟨hstored, rfl⟩ := findTarget_some hfind
  split at h
  · simp only [Op.returns_failIf] at h
    obtain ⟨-, rfl⟩ := h
    exact .same fun _ => rfl
  · next hnone =>
    simp only [Op.returns_iff] at h
    obtain ⟨_, _, ⟨-, rfl⟩, hl⟩ := h
    exact LedgerEffect.insert_stored hstored (.bound attemptId binding hstored hnone) hl

theorem registerRichSend_effect {request : RegisterPublicationSend} {reply : Unit}
    (hcall : e.Did (.registerRichSend scope request now))
    (h : Op.Returns (registerRichSend scope request now) s.ledger reply l') : LedgerEffect s e l' := by
  obtain ⟨_, _, attempt, htarget, ⟨-, -, -, -, -, rfl⟩ | ⟨hnone, hl⟩⟩ := registerRichSend_cases h
  · exact .same fun _ => rfl
  · exact LedgerEffect.insert_stored htarget.stored (.registered scope request now attempt hcall htarget hnone) hl

theorem authorizeRichSend_effect [UrlParser] {expected : AuthorizePublicationSend} {bundle : PublicationBundle}
    {verified : List ContentMediaBinding} {reply : PublicationSendDecision}
    (hcall : e = .call (.authorizeRichSend scope expected bundle verified now) (.ok (.decision reply)))
    (h : Op.Returns (authorizeRichSend scope expected bundle verified now) s.ledger reply l') :
    LedgerEffect s e l' := by
  obtain ⟨k, c, attempt, registered, htarget, hregistered,
    ⟨-, -, rfl⟩ | ⟨hnone, -, ⟨payloadHash, rfl⟩, hl⟩⟩ := authorizeRichSend_cases h
  · exact .same fun _ => rfl
  · exact LedgerEffect.insert_stored htarget.stored
      (.authorized scope expected bundle verified now _ attempt registered hcall htarget hregistered.lookup hnone) hl

theorem scanWithdrawals_effect {afterAttemptId : Option Uuid} {limit : Nat}
    {now : ChannelScopeKey → Uuid → DateTime} {reply : List PublicationWithdrawal}
    (h : Op.Returns (scanWithdrawals afterAttemptId limit now) s.ledger reply l') :
    LedgerEffect s e l' := by
  simp only [scanWithdrawals, Op.returns_iff] at h
  obtain ⟨_, _, ⟨-, rfl⟩, _, _, rfl, _, _, ⟨rfl, rfl⟩, -, rfl⟩ := h
  exact .expired now fun k => AssocMap.lookup_mapValues ..

theorem resolveWithdrawal_effect
    (h : Op.Returns (resolveWithdrawal scope attemptId) s.ledger reply l') : LedgerEffect s e l' := by
  simp only [resolveWithdrawal, setWithdrawal, Op.returns_iff] at h
  obtain ⟨key, _, ⟨hkey, rfl⟩, all, _, ⟨rfl, rfl⟩, ⟨k, c⟩, _, ⟨hfind, rfl⟩, row, _, ⟨hrow, rfl⟩,
    target, _, ⟨htarget, rfl⟩, attempt, _, ⟨hattempt, rfl⟩, row', _, ⟨hresolve, rfl⟩, _, _, hl, -,
    rfl⟩ := h
  obtain ⟨hstored, rfl⟩ := findWithdrawal_some hfind
  exact LedgerEffect.insert_stored hstored
    (.row attemptId row row' hstored hrow (.resolved target attempt row' htarget hattempt hresolve)) hl

theorem claimWithdrawal_effect (hcall : e.Did (.claimWithdrawal scope attemptId executionId reservationId at_))
    (h : Op.Returns (ChannelLedger.claimWithdrawal s.gates scope attemptId executionId reservationId
      at_) s.ledger reply l') : LedgerEffect s e l' := by
  simp only [ChannelLedger.claimWithdrawal, setWithdrawal, Op.returns_iff] at h
  obtain ⟨key, _, ⟨hkey, rfl⟩, all, _, ⟨rfl, rfl⟩, ⟨k, c⟩, _, ⟨hfind, rfl⟩, row, _, ⟨hrow, rfl⟩,
    _, _, ⟨hchecks, rfl⟩, _, _, hl, -, rfl⟩ := h
  obtain ⟨hstored, rfl⟩ := findWithdrawal_some hfind
  simp only [not_or, not_not, not_isSome_iff_eq_none] at hchecks
  obtain ⟨hstate, hexecution, _⟩ := hchecks
  refine LedgerEffect.insert_stored hstored (.row attemptId row _ hstored hrow
    (.claimed scope executionId reservationId at_ hcall hkey hstate hexecution ?_)) hl
  rwa [scopeKey_operator hkey]

theorem finishWithdrawal_effect {evidence : Json}
    (hcall : e.Did (.finishWithdrawal scope attemptId executionId evidence receivedAt))
    (h : Op.Returns (finishWithdrawal scope attemptId executionId evidence receivedAt) s.ledger reply l') :
    LedgerEffect s e l' := by
  simp only [finishWithdrawal, setWithdrawal, Op.returns_iff] at h
  obtain ⟨key, _, ⟨hkey, rfl⟩, all, _, ⟨rfl, rfl⟩, ⟨k, c⟩, _, ⟨hfind, rfl⟩, row, _, ⟨hrow, rfl⟩,
    row', _, ⟨hfinish, rfl⟩, _, _, hl, -, rfl⟩ := h
  obtain ⟨hstored, rfl⟩ := findWithdrawal_some hfind
  exact LedgerEffect.insert_stored hstored (.row attemptId row row' hstored hrow
    (.finished scope executionId evidence receivedAt row' hcall hkey hfinish)) hl

/-! ### Every step -/

theorem claimReserved_effect {reply : ChannelTarget × ChannelAttempt}
    (hcall : e.Did (.claimReserved requests scope targetId attemptId reservationId at_))
    (h : Op.Returns (claimReserved requests scope targetId attemptId reservationId at_) s reply s') :
    LedgerEffect s e s'.ledger := by
  simp only [claimReserved, onLedger, Op.returns_iff, Op.returns_zoom] at h
  obtain ⟨view, _, ⟨l₁, hview, rfl⟩, _, _, ⟨rfl, rfl⟩, _, _, ⟨-, rfl⟩, claimed, _, ⟨l₂, hclaim, rfl⟩,
    _, _, rfl, -, rfl⟩ := h
  obtain rfl := (getTarget_readOnly scope targetId).returns hview
  exact claim_effect hcall rfl rfl hclaim

theorem ledger_kept [UrlParser] (h : call.onLedger = false) : (run call).Keeps (·.ledger) := by
  cases call
  all_goals first | (simp [JobCall.onLedger] at h; done) | skip
  all_goals
    refine Op.Keeps.bind ?_ fun _ => .of_readOnly .pure
    first
    | unfold reserveAccount
    | unfold releaseAccount
    | unfold setProjectNetworkDefaults
    | unfold setAccountNetworkWithMetadata
    | unfold beginBrowserOperation
    | unfold claimBrowserStart
    | unfold saveOwnedLoginSession
    | unfold transitionBrowserOperation
    | unfold createLoginQueue
    | unfold applyLoginQueueAction
    | unfold beginLoginQueueItem
    | unfold pauseLoginQueueError
    repeat' first
      | refine Op.Keeps.bind ?_ fun _ => ?_
      | split
      | (apply Op.Keeps.of_readOnly; simp; done)
      | exact Op.Keeps.modify fun _ => rfl
      | exact Op.Keeps.modify fun _ => ledger_foldl_releaseOwned ..
      | dsimp only

/-- What a successful call does to the ledger. -/
theorem returns_effect [UrlParser] {reply : JobReply} (h : Op.Returns (run call) s reply s') :
    LedgerEffect s (.call call (.ok reply)) s'.ledger := by
  by_cases hledger : call.onLedger = false
  · exact .same fun k => by rw [(ledger_kept hledger).returns h]
  have hcall : (JobEvent.call call (.ok reply)).Did call := ⟨reply, rfl⟩
  cases call
  all_goals first | exact absurd rfl hledger | skip
  all_goals
    simp only [run, answer, onLedger, Op.returns_iff, Op.returns_zoom] at h
  case insertGeneratedTarget =>
    obtain ⟨_, _, ⟨_, h, rfl⟩, -, rfl⟩ := h
    exact insertGeneratedTarget_effect h
  case createPlan =>
    obtain ⟨_, _, ⟨_, h, rfl⟩, -, rfl⟩ := h
    exact createPlan_effect hcall h
  case createMeasurementPlan =>
    obtain ⟨_, _, ⟨_, h, rfl⟩, -, rfl⟩ := h
    exact createMeasurementPlan_effect h
  case claim =>
    obtain ⟨_, _, ⟨_, h, rfl⟩, -, rfl⟩ := h
    exact claim_effect hcall rfl rfl h
  case claimReserved =>
    obtain ⟨_, _, h, -, rfl⟩ := h
    exact claimReserved_effect hcall h
  case finish =>
    obtain ⟨_, _, ⟨_, h, rfl⟩, -, rfl⟩ := h
    exact finish_effect hcall h
  case storePublicationBinding =>
    obtain ⟨_, _, ⟨_, h, rfl⟩, -, rfl⟩ := h
    exact storePublicationBinding_effect h
  case registerRichSend =>
    obtain ⟨_, _, ⟨_, h, rfl⟩, -, rfl⟩ := h
    exact registerRichSend_effect hcall h
  case authorizeRichSend =>
    obtain ⟨_, _, ⟨_, h, rfl⟩, hreply, rfl⟩ := h
    exact authorizeRichSend_effect (by rw [hreply]) h
  case scanWithdrawals =>
    obtain ⟨_, _, ⟨_, h, rfl⟩, -, rfl⟩ := h
    exact scanWithdrawals_effect h
  case resolveWithdrawal =>
    obtain ⟨_, _, ⟨_, h, rfl⟩, -, rfl⟩ := h
    exact resolveWithdrawal_effect h
  case finishWithdrawal =>
    obtain ⟨_, _, ⟨_, h, rfl⟩, -, rfl⟩ := h
    exact finishWithdrawal_effect hcall h
  case claimWithdrawal =>
    simp only [MemoryChannelJobRepository.claimWithdrawal, onLedger, Op.returns_iff, Op.returns_zoom] at h
    obtain ⟨_, _, ⟨_, _, ⟨rfl, rfl⟩, _, h, rfl⟩, -, rfl⟩ := h
    exact claimWithdrawal_effect hcall h

theorem step_effect [UrlParser] (h : jobMachine.step s e s') : LedgerEffect s e s'.ledger := by
  cases e with
  | reorder => exact .same fun k => (h.ledger.lookup_eq k).symm
  | call call reply =>
    cases reply with
    | ok reply => exact returns_effect h
    | error err => exact .same (failed_call h).ledger

end Effects

end GeoMaster
