import GeoMaster.Domain.ChannelJobCalls

/-!
# What a failed call leaves behind

Every operation of the repository reads and checks first and writes last, so a call that fails has
written nothing. The one exception is `createPlan`, which makes sure that the entry of the cycle
exists before it looks at the plan there; when it fails there is already an entry, so every lookup
still gives what it gave.
-/

namespace GeoMaster

open Op ChannelLedger

open MemoryChannelJobRepository

namespace ChannelLedger

theorem getTarget_readOnly (scope : TenantScope) (targetId : Uuid) : (getTarget scope targetId).ReadOnly := by
  unfold getTarget
  repeat' first
    | refine Op.ReadOnly.bind ?_ fun _ => ?_
    | simp

theorem claim_atomic (requests : WithdrawalRequests) (scope : TenantScope) (targetId attemptId : Uuid)
    (at_ : DateTime) : (claim requests scope targetId attemptId at_).Atomic := by
  unfold claim
  repeat' first
    | exact (Op.Total.bind .modify fun _ => .pure).atomic
    | refine Op.Atomic.bind ?_ fun _ => ?_
    | simp

end ChannelLedger

namespace MemoryChannelJobRepository

theorem onLedger_atomic {α : Type} {x : Op ChannelLedger AppError α} (hx : x.Atomic) : (onLedger x).Atomic :=
  Op.Atomic.zoom (fun _ => rfl) hx

@[simp]
theorem ownQueue_readOnly (scope : OperatorLoginQueueScope) (id : Uuid) : (ownQueue scope id).ReadOnly :=
  Op.ReadOnly.bind .read fun _ => .okOr

/-- The renewal of the gate comes after everything that can fail. -/
theorem claimReserved_atomic (requests : ChannelLedger.WithdrawalRequests) (scope : TenantScope)
    (targetId attemptId reservationId : Uuid) (at_ : DateTime) :
    (claimReserved requests scope targetId attemptId reservationId at_).Atomic := by
  unfold claimReserved
  refine Op.Atomic.bind (Op.ReadOnly.zoom (fun _ => rfl) (ChannelLedger.getTarget_readOnly ..)) fun view => ?_
  refine Op.Atomic.bind Op.ReadOnly.read fun s => ?_
  refine Op.Atomic.bind Op.ReadOnly.failIf fun _ => ?_
  exact Op.Atomic.bind_total (onLedger_atomic (ChannelLedger.claim_atomic ..))
    fun _ => Op.Total.bind .modify fun _ => .pure

/-- No call other than `createPlan` writes anything before it fails. -/
theorem run_atomic [Sha256] [UrlParser] [InstantText] (call : JobCall)
    (hplan : ∀ scope plan, call ≠ .createPlan scope plan) : (run call).Atomic := by
  cases call
  case createPlan scope plan => exact absurd rfl (hplan scope plan)
  all_goals refine Op.Atomic.bind_total ?_ fun _ => Op.Total.pure
  case claim => exact onLedger_atomic (ChannelLedger.claim_atomic ..)
  case claimReserved => exact claimReserved_atomic ..
  case' claimWithdrawal => refine Op.Atomic.bind Op.ReadOnly.read fun _ => ?_
  -- What is left are checks in front of writes that always return.
  all_goals
    try refine onLedger_atomic ?_
    first
    | unfold insertGeneratedTarget
    | unfold createMeasurementPlan
    | unfold finish
    | unfold storePublicationBinding
    | unfold registerRichSend
    | unfold authorizeRichSend
    | unfold scanWithdrawals
    | unfold resolveWithdrawal setWithdrawal
    | unfold ChannelLedger.claimWithdrawal setWithdrawal
    | unfold finishWithdrawal setWithdrawal
    | unfold reserveAccount
    | unfold releaseAccount
    | unfold setProjectNetworkDefaults
    | unfold setAccountNetworkWithMetadata
    | unfold beginBrowserOperation
    | unfold claimBrowserStart
    | unfold saveOwnedLoginSession
    | unfold transitionBrowserOperation
    | unfold createLoginQueue
    | unfold applyLoginQueueAction
    | unfold beginLoginQueueItem
    | unfold pauseLoginQueueError
    repeat' first
      | (refine Op.Atomic.bind ?_ fun _ => ?_; · simp)
      | split
      | (apply Op.ReadOnly.atomic; simp; done)
      | apply Op.Total.atomic
      | refine Op.Total.bind ?_ fun _ => ?_
      | exact Op.Total.modify
      | exact Op.Total.read
      | exact Op.Total.pure
      | dsimp only

/-- The two states answer every lookup alike. -/
structure Unchanged (s s' : MemoryChannelJobRepository) : Prop where
  ledger : ∀ k, s'.ledger.lookup k = s.ledger.lookup k
  gates : s'.gates = s.gates
  operations : s'.operations = s.operations
  networks : s'.networks = s.networks
  queues : s'.queues = s.queues

end MemoryChannelJobRepository

theorem ChannelLedger.lookup_insert_entryOrDefault {l : ChannelLedger} {key : ChannelScopeKey}
    {plan : ChannelPlan} (h : (entryOrDefault l key).plan = some plan) (k : ChannelScopeKey) :
    AList.lookup k (AList.insert key (entryOrDefault l key) l) = l.lookup k := by
  rw [AssocMap.lookup_insert]
  split
  · next heq =>
    subst heq
    unfold entryOrDefault at h ⊢
    cases hk : l.lookup k with
    | none => simp [hk, MemoryCycle.default] at h
    | some c => rfl
  · rfl

/-- A failing `createPlan` has at most rewritten the entry that was there. -/
theorem ChannelLedger.createPlan_failed {scope : TenantScope} {plan : ChannelPlan}
    {l l' : ChannelLedger} {e : AppError} (h : Op.Fails (createPlan scope plan) l e l')
    (k : ChannelScopeKey) : l'.lookup k = l.lookup k := by
  simp only [createPlan, fails_iff, returns_iff, false_or] at h
  rcases h with ⟨-, -, rfl⟩ | ⟨_, _, ⟨-, rfl⟩, ⟨-, -, rfl⟩ | ⟨_, _, ⟨-, rfl⟩, ⟨-, rfl⟩ |
    ⟨key, _, ⟨-, rfl⟩, _, _, rfl, cycle, _, ⟨rfl, rfl⟩, h⟩⟩⟩
  · rfl
  · rfl
  · rfl
  · have hentry : entryOrDefault (AList.insert ⟨key, .cycle plan.cycleId⟩
        (entryOrDefault l ⟨key, .cycle plan.cycleId⟩) l) ⟨key, .cycle plan.cycleId⟩
        = entryOrDefault l ⟨key, .cycle plan.cycleId⟩ := by
      simp [entryOrDefault]
    rw [hentry] at h
    cases hplan : (entryOrDefault l ⟨key, .cycle plan.cycleId⟩).plan with
    | none => simp [hplan] at h
    | some existing =>
      simp only [hplan, fails_iff, returns_iff, and_false, exists_false, or_false] at h
      obtain ⟨-, -, rfl⟩ := h
      exact lookup_insert_entryOrDefault hplan k

theorem MemoryChannelJobRepository.failed_call [Sha256] [UrlParser] [InstantText] {call : JobCall}
    {s s' : MemoryChannelJobRepository} {e : AppError} (h : Op.Fails (run call) s e s') :
    s.Unchanged s' := by
  by_cases hplan : ∃ scope plan, call = .createPlan scope plan
  · obtain ⟨scope, plan, rfl⟩ := hplan
    rcases fails_bind.mp h with h | ⟨_, _, -, h⟩
    · obtain ⟨_, hfail, rfl⟩ := fails_zoom.mp h
      exact ⟨createPlan_failed hfail, rfl, rfl, rfl, rfl⟩
    · exact absurd h not_fails_pure
  · have hatomic := run_atomic call fun scope plan hcall => hplan ⟨scope, plan, hcall⟩
    obtain rfl := hatomic.failed s e s' h
    exact ⟨fun _ => rfl, rfl, rfl, rfl, rfl⟩

end GeoMaster
