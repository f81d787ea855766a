import GeoMaster.Proofs.BrowserSteps

/-!
# A browser owns its accounts alone

`Exclusive` couples the two maps that hold ownership: every account of a live browser operation has a
gate that belongs to the operation, and no two live operations share an account. Gates expire by the
clock and operations do not, so the coupling has to survive every step at every instant. From it
follows that nobody reserves an account of a live browser and that no release takes its gate away.
-/

namespace GeoMaster

open MemoryChannelJobRepository Option BrowserOperation Operations

/-- The next version of an operation owns nothing its earlier version did not own. -/
theorem SameOwnership.liveOwner {op op' : BrowserOperation} {operator : OperatorId} {a : Uuid}
    (h : SameOwnership op op') (hstate : op.state = .disposed → op'.state = .disposed)
    (hlive : op'.liveOwner operator a = true) : op.liveOwner operator a = true := by
  rw [liveOwner_iff, ownsAccount_iff] at hlive ⊢
  rw [h.scope, h.accountId, h.verified] at hlive
  exact ⟨hlive.1, hlive.2.1, fun hdisposed => hlive.2.2 (hstate hdisposed)⟩

/-- Gates and operations agree on who owns what. -/
structure Exclusive (s : MemoryChannelJobRepository) : Prop where
  keyed : ∀ id op, s.operations.lookup id = some op → op.operationId = id
  gated : ∀ id op operator a, s.operations.lookup id = some op → op.liveOwner operator a = true →
    (s.gates.lookup (operator.asUuid, a)).map (·.1) = some op.reservationId
  alone : ∀ id id' op op' operator a, s.operations.lookup id = some op → s.operations.lookup id' = some op' →
    op.liveOwner operator a = true → op'.liveOwner operator a = true → id = id'

section Steps

variable {s s' : MemoryChannelJobRepository} {e : JobEvent}

theorem exclusive_default : Exclusive MemoryChannelJobRepository.default := by
  constructor <;> intros <;> simp_all [MemoryChannelJobRepository.default]

/-- The same answers keep the coupling. -/
theorem Exclusive.of_lookup (hs : Exclusive s) (hg : ∀ k, s'.gates.lookup k = s.gates.lookup k)
    (ho : ∀ id, s'.operations.lookup id = s.operations.lookup id) : Exclusive s' := by
  constructor
  · intro id op hop
    rw [ho] at hop
    exact hs.keyed id op hop
  · intro id op operator a hop hlive
    rw [ho] at hop
    rw [hg]
    exact hs.gated id op operator a hop hlive
  · intro id id' op op' operator a hop hop' hlive hlive'
    rw [ho] at hop hop'
    exact hs.alone id id' op op' operator a hop hop' hlive hlive'

/-- A gate that nobody's browser depends on may change, any other keeps its owner. -/
theorem Exclusive.gate (hs : Exclusive s) {operator : OperatorId} {accountId : Uuid} {gate : Option AccountReservation}
    (howner : s.operations.busy operator accountId = false
      ∨ gate.map (·.1) = (s.gates.lookup (operator.asUuid, accountId)).map (·.1))
    (hgates : ∀ k, s'.gates.lookup k = if k = (operator.asUuid, accountId) then gate else s.gates.lookup k)
    (ho : s'.operations = s.operations) : Exclusive s' := by
  refine ⟨fun id op => ?_, fun id op o a hop hlive => ?_, fun id id' op op' o a => ?_⟩
  · rw [ho]
    exact hs.keyed id op
  · rw [ho] at hop
    have hgated := hs.gated id op o a hop hlive
    rw [hgates]
    split
    · next hk =>
      obtain ⟨rfl, rfl⟩ := accountKey_inj hk
      rcases howner with hfree | hsame
      · rw [busy_eq_false.mp hfree id op hop] at hlive
        simp at hlive
      · rw [hsame]
        exact hgated
    · exact hgated
  · rw [ho]
    exact hs.alone id id' op op' o a

/-- One operation changes: what it owns now has its gate and no other owner. -/
theorem Exclusive.update (hs : Exclusive s) {id : Uuid} {op : BrowserOperation} (hid : op.operationId = id)
    (ho : ∀ id', s'.operations.lookup id' = if id' = id then some op else s.operations.lookup id')
    (hgate : ∀ operator a, op.liveOwner operator a = true →
      (s'.gates.lookup (operator.asUuid, a)).map (·.1) = some op.reservationId
      ∧ ∀ id' op', id' ≠ id → s.operations.lookup id' = some op' → op'.liveOwner operator a = false)
    (hothers : ∀ id' op' operator a, id' ≠ id → s.operations.lookup id' = some op' → op'.liveOwner operator a = true →
      s'.gates.lookup (operator.asUuid, a) = s.gates.lookup (operator.asUuid, a)) :
    Exclusive s' := by
  constructor
  · intro id' op' hop'
    rw [ho] at hop'
    split at hop'
    · next heq =>
      obtain rfl := some.inj hop'
      rw [heq, hid]
    · exact hs.keyed id' op' hop'
  · intro id' op' operator a hop' hlive
    rw [ho] at hop'
    split at hop'
    · obtain rfl := some.inj hop'
      exact (hgate operator a hlive).1
    · next hne =>
      rw [hothers id' op' operator a hne hop' hlive]
      exact hs.gated id' op' operator a hop' hlive
  · intro id₁ id₂ op₁ op₂ operator a h₁ h₂ hlive₁ hlive₂
    rw [ho] at h₁ h₂
    split at h₁ <;> split at h₂
    · next heq₁ heq₂ => rw [heq₁, heq₂]
    · next hne =>
      obtain rfl := some.inj h₁
      rw [(hgate operator a hlive₁).2 id₂ op₂ hne h₂] at hlive₂
      simp at hlive₂
    · next hne _ =>
      obtain rfl := some.inj h₂
      rw [(hgate operator a hlive₂).2 id₁ op₁ hne h₁] at hlive₁
      simp at hlive₁
    · exact hs.alone id₁ id₂ op₁ op₂ operator a h₁ h₂ hlive₁ hlive₂

theorem OwnershipEffect.exclusive (h : OwnershipEffect s e s') (hs : Exclusive s) : Exclusive s' := by
  cases h with
  | same h => exact hs.of_lookup h.gates h.operations
  | gate _ _ gate howner hgates hoperations => exact hs.gate howner hgates hoperations
  | begun _ op h =>
    refine hs.update rfl h.operations ?_ ?_
    · intro operator a hlive
      rw [liveOwner_iff, ownsAccount_iff] at hlive
      obtain ⟨rfl, howns, -⟩ := hlive
      obtain rfl : op.accountId = a := by simpa [h.fresh] using howns
      rw [h.gates, if_pos rfl]
      exact ⟨rfl, fun id' op' _ hop' => busy_eq_false.mp h.free id' op' hop'⟩
    · intro id' op' operator a _ hop' hlive
      rw [h.gates, if_neg]
      intro hk
      obtain ⟨rfl, rfl⟩ := accountKey_inj hk
      rw [busy_eq_false.mp h.free id' op' hop'] at hlive
      simp at hlive
  | advanced id op op' hstored hsame hstate hgates hoperations =>
    have hkept {operator : OperatorId} {a : Uuid} (hlive : op'.liveOwner operator a = true) :
        op.liveOwner operator a = true := hsame.liveOwner hstate.mpr hlive
    refine hs.update (hsame.operationId.trans (hs.keyed id op hstored)) hoperations ?_ ?_
    · intro operator a hlive
      rw [hgates, hsame.reservationId]
      refine ⟨hs.gated id op operator a hstored (hkept hlive), fun id' other hne hother => ?_⟩
      rw [← Bool.not_eq_true]
      exact fun hlive' => hne (hs.alone id' id other op operator a hother hstored hlive' (hkept hlive))
    · intro id' op' operator a _ _ _
      rw [hgates]
  | saved _ scope id storage _ op _ h =>
    obtain ⟨hstored, hlive, hdestination, hoperations, -⟩ := h
    refine hs.update (by exact hs.keyed id op hstored) hoperations ?_ ?_
    · intro operator a howned
      rw [liveOwner_iff, ownsAccount_iff] at howned
      obtain ⟨rfl, howns, -⟩ := howned
      have hfirst : op.liveOwner op.scope.operatorId op.accountId = true := by
        rw [liveOwner_iff, ownsAccount_iff]
        exact ⟨rfl, .inl rfl, hlive⟩
      have hgated := hs.gated id op op.scope.operatorId op.accountId hstored hfirst
      have halone (id' : Uuid) (other : BrowserOperation) (hne : id' ≠ id)
          (hother : s.operations.lookup id' = some other) :
          other.liveOwner op.scope.operatorId op.accountId = false := by
        rw [← Bool.not_eq_true]
        exact fun hlive' => hne (hs.alone id' id other op _ _ hother hstored hlive' hfirst)
      -- The account of the operation keeps its gate; a destination was free and gets one.
      rcases hdestination with ⟨hsame, hgates⟩ | ⟨hfree, hgates⟩
      · obtain rfl : op.accountId = a := by simpa [hsame] using howns
        rw [hgates]
        exact ⟨hgated, halone⟩
      · rw [hgates]
        by_cases ha : a = storage.accountId
        · rw [if_pos (by rw [ha]), ha]
          exact ⟨rfl, fun id' other _ hother => busy_eq_false.mp hfree id' other hother⟩
        · obtain rfl : op.accountId = a := howns.resolve_right fun h => ha (some.inj h).symm
          rw [if_neg fun hk => ha (Prod.mk.inj hk).2]
          exact ⟨hgated, halone⟩
    · intro id' op' operator a hne hop' hlive'
      rcases hdestination with ⟨-, hgates⟩ | ⟨hfree, hgates⟩
      · rw [hgates]
      · rw [hgates, if_neg]
        intro hk
        obtain ⟨rfl, rfl⟩ := accountKey_inj hk
        rw [busy_eq_false.mp hfree id' op' hop'] at hlive'
        simp at hlive'
  | disposed id op op' hstored hsame _ hdisposed hreleased =>
    have ho : ∀ id', s'.operations.lookup id' = if id' = id then some op' else s.operations.lookup id' := by
      intro id'
      rw [hreleased.operations, AssocMap.lookup_insert]
    refine hs.update (hsame.operationId.trans (hs.keyed id op hstored)) ho ?_ ?_
    · intro operator a howned
      simp [liveOwner_iff, hdisposed] at howned
    · -- A gate is given up only when no live operation owns its account.
      intro id' other operator a hne hother hlive'
      refine (hreleased.kept _ fun b _ hb hk => ?_).1
      obtain ⟨rfl, rfl⟩ := accountKey_inj hk
      rw [hb.alone id' other ?_ ?_] at hlive'
      · simp at hlive'
      · rw [AList.lookup_insert_ne hne]
        exact hother
      · rw [hs.keyed id' other hother]
        exact hne

/-- Every step keeps the coupling. -/
theorem BrowserEffect.exclusive (h : BrowserEffect s e s') (hs : Exclusive s) : Exclusive s' := by
  cases h with
  | routed h hgates hoperations => exact hs.of_lookup (fun _ => by rw [hgates]) (fun _ => by rw [hoperations])
  | owned hroutes h => exact h.exclusive hs

end Steps

section Runs

variable [Sha256] [UrlParser] [InstantText]

theorem run_exclusive {h : List JobEvent} {s s' : MemoryChannelJobRepository} (hs : Exclusive s)
    (hr : jobMachine.Run s h s') : Exclusive s' :=
  hr.invariant (fun _ _ _ hs hstep => (step_browserEffect hstep).exclusive hs) hs

end Runs

theorem reserveAccount_atomic (scope : TenantScope) (accountId reservationId : Uuid) (at_ expiresAt : DateTime) :
    (reserveAccount scope accountId reservationId at_ expiresAt).Atomic := by
  unfold reserveAccount
  repeat' first
    | exact Op.Total.modify.atomic
    | refine Op.Atomic.bind ?_ fun _ => ?_
    | simp

theorem releaseAccount_atomic (scope : TenantScope) (accountId reservationId : Uuid) :
    (releaseAccount scope accountId reservationId).Atomic := by
  unfold releaseAccount
  refine Op.Atomic.bind Op.ReadOnly.lift fun _ => Op.Atomic.bind Op.ReadOnly.read fun s => ?_
  dsimp only
  split
  · exact Op.Total.pure.atomic
  · split
    · exact Op.Total.modify.atomic
    · exact Op.Total.pure.atomic

variable {accountId : Uuid} {s : MemoryChannelJobRepository}

theorem reserveAccount_refused {scope : TenantScope}
    (hbusy : s.operations.busy scope.operatorId accountId = true) (reservationId : Uuid) (at_ expiresAt : DateTime) :
    ∃ e, Op.Fails (reserveAccount scope accountId reservationId at_ expiresAt) s e s := by
  rcases (reserveAccount scope accountId reservationId at_ expiresAt).returns_or_fails s with
    ⟨reply, s', h⟩ | ⟨e, s', h⟩
  · have hfree := (reserveAccount_effect (e := .reorder) h).1
    rw [hbusy] at hfree
    simp at hfree
  · obtain rfl := (reserveAccount_atomic ..).failed s e s' h
    exact ⟨e, h⟩

theorem releaseAccount_ignored {scope : TenantScope} (hbusy : s.operations.busy scope.operatorId accountId = true)
    (reservationId : Uuid) : ((releaseAccount scope accountId reservationId).run s).2 = s := by
  rcases (releaseAccount scope accountId reservationId).returns_or_fails s with
    ⟨reply, s', h⟩ | ⟨e, s', h⟩
  · rw [show ((releaseAccount scope accountId reservationId).run s).2 = s' by rw [h]]
    exact (releaseAccount_effect (e := .reorder) h).1 hbusy
  · rw [show ((releaseAccount scope accountId reservationId).run s).2 = s' by rw [h]]
    exact (releaseAccount_atomic ..).failed s e s' h

/-- In every reachable state: at most one live browser owns an account, every account of a live
browser has a gate of its reservation, and while it lives no reservation of the account succeeds and
no release takes the gate away. -/
theorem browserOwnership_exclusive [Sha256] [UrlParser] [InstantText] {h : List JobEvent}
    {s : MemoryChannelJobRepository} (hr : jobMachine.Run MemoryChannelJobRepository.default h s) :
    (∀ operator accountId id id' op op', s.operations.lookup id = some op →
      s.operations.lookup id' = some op' → op.liveOwner operator accountId = true →
      op'.liveOwner operator accountId = true → id = id')
    ∧ (∀ id op accountId, s.operations.lookup id = some op → op.state ≠ .disposed → op.ownsAccount accountId = true →
      ∃ expiry, s.gates.lookup (op.scope.operatorId.asUuid, accountId) = some (op.reservationId, expiry))
    ∧ ∀ id op (scope : TenantScope) accountId reservationId, s.operations.lookup id = some op →
      op.liveOwner scope.operatorId accountId = true →
      (∀ at_ expiresAt, ∃ e, Op.Fails (reserveAccount scope accountId reservationId at_ expiresAt) s e s)
      ∧ ((releaseAccount scope accountId reservationId).run s).2 = s := by
  have hs := run_exclusive exclusive_default hr
  refine ⟨fun operator a id id' op op' => hs.alone id id' op op' operator a,
    fun id op a hop hlive howns => ?_, fun id op scope a reservationId hop hlive => ?_⟩
  · have hgated := hs.gated id op op.scope.operatorId a hop (liveOwner_iff.mpr ⟨rfl, howns, hlive⟩)
    obtain ⟨⟨_, expiry⟩, hgate, rfl⟩ := map_eq_some_iff.mp hgated
    exact ⟨expiry, hgate⟩
  · have hbusy := busy_iff.mpr ⟨id, op, hop, hlive⟩
    exact ⟨reserveAccount_refused hbusy reservationId, releaseAccount_ignored hbusy reservationId⟩

namespace Sample

/-- The scope of the browsers of a sample project. -/
def browserScope : BrowserOperationScope :=
  { operatorId := ⟨uuid 1⟩, tenantId := some ⟨uuid 2⟩, projectId := some ⟨uuid 3⟩
    ownerId := uuid 4 }

/-- A login browser for an account, behind a reservation when there is one. -/
def loginBrowser (operationId accountId : Uuid) (reservationId : Option Uuid)
    (networkSelection : Option BrowserNetworkSelection) : BeginBrowserOperation :=
  { networkSelection, operationId, sessionId := operationId, accountId, purpose := .login
    runnerGeneration := uuid 5, effectiveNetwork := ⟨[1]⟩, reservationId, expiresAt := 100 }

/-- Reserve an account and begin a browser behind the reservation. -/
def heldAccount : List JobCall :=
  [.reserveAccount scope (uuid 40) (uuid 70) 0 10,
    .beginBrowserOperation browserScope (loginBrowser (uuid 60) (uuid 40) (some (uuid 70)) none) 1]

def held : MemoryChannelJobRepository :=
  @after sha256 urlParser instantText MemoryChannelJobRepository.default heldAccount

end Sample

open Sample

/-- Long after the deadline of the browser its account is still not to be had. -/
theorem browserOwnership_exclusive_held :
    ∃ e, Op.Fails (reserveAccount scope (uuid 40) (uuid 71) 5000 6000)
      held e held := by
  have hrun := @run_trace sha256 urlParser instantText (fun _ _ => True)
    heldAccount MemoryChannelJobRepository.default
    (@allowed_of_forall sha256 urlParser instantText _ _ (fun _ _ _ _ => trivial) _)
  have hexclusive := @browserOwnership_exclusive sha256 urlParser instantText _ _
    hrun.of_restrict
  obtain ⟨op, hop, hlive⟩ : ∃ op, held.operations.lookup (uuid 60) = some op
      ∧ op.liveOwner scope.operatorId (uuid 40) = true := by
    refine ⟨(held.operations.lookup (uuid 60)).get (by decide +kernel), ?_, ?_⟩
    · rw [some_get]
    · decide +kernel
  exact (hexclusive.2.2 (uuid 60) op scope (uuid 40) (uuid 71) hop hlive).1 5000 6000

end GeoMaster
