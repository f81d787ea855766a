import GeoMaster.Proofs.BrowserOwnership

/-!
# The route of a live browser stays

An operation begun on the active route of its account keeps running on it: as long as the operation
lives its account is busy, so a new route waits, and the disposal of another operation promotes
nothing here. Bindings are stored under fresh ids only, so none is ever overwritten.
-/

namespace GeoMaster

open MemoryChannelJobRepository Option BrowserOperation

/-! ### Bindings are kept -/

section Bindings

variable {operations : Operations} {networks networks' : MemoryAccountNetworks}

variable {stored : List AccountNetworkBinding}

theorem Routed.bindings_kept (h : Routed operations networks stored networks') {id : Uuid} {b : AccountNetworkBinding}
    (hb : networks.bindings.lookup id = some b) : networks'.bindings.lookup id = some b := by
  induction h with
  | nil networks => exact hb
  | cons hset _ ih => exact ih (hset.bindings id b hb)

/-- Storing bindings leaves the active route of a busy account. -/
theorem Routed.active_kept {operator : OperatorId} {accountId : Uuid}
    {head : AccountNetworkBindings} (h : Routed operations networks stored networks')
    (hbusy : operations.busy operator accountId = true)
    (hhead : networks.heads.lookup (operator.asUuid, accountId) = some head) :
    ∃ head', networks'.heads.lookup (operator.asUuid, accountId) = some head' ∧ head'.active = head.active := by
  induction h generalizing head with
  | nil networks => exact ⟨head, hhead, rfl⟩
  | @cons _ _ _ binding _ hset _ ih =>
    by_cases hkey : (operator.asUuid, accountId) = binding.key
    · obtain ⟨rfl, rfl⟩ := accountKey_inj hkey
      obtain ⟨_, hhead₁, -, -, hactive⟩ := hset.head
      obtain ⟨head', hhead', heq⟩ := ih (hkey ▸ hhead₁)
      exact ⟨head', hhead', heq.trans (hactive hbusy head (hkey ▸ hhead))⟩
    · exact ih (by rwa [hset.others _ hkey])

end Bindings

section Steps

variable {s s' : MemoryChannelJobRepository} {e : JobEvent}

theorem OwnershipEffect.bindings_kept (h : OwnershipEffect s e s') (id : Uuid) :
    s'.networks.bindings.lookup id = s.networks.bindings.lookup id := by
  cases h with
  | same h => exact h.bindings id
  | disposed _ _ _ _ _ _ _ hreleased => rw [hreleased.bindings]
  | gate _ _ _ _ _ _ hnetworks => rw [hnetworks]
  | begun _ _ h => rw [h.networks]
  | advanced _ _ _ _ _ _ _ _ hnetworks => rw [hnetworks]
  | saved _ _ _ _ _ _ _ h => rw [h.networks]

/-- No step overwrites a binding. -/
theorem BrowserEffect.bindings_kept (h : BrowserEffect s e s') {id : Uuid}
    {b : AccountNetworkBinding} (hb : s.networks.bindings.lookup id = some b) :
    s'.networks.bindings.lookup id = some b := by
  cases h with
  | routed h => exact h.bindings_kept hb
  | owned hroutes h => rwa [h.bindings_kept]

/-! ### The pin of an operation -/

/-- A later version of the same operation, on the same route. -/
structure SamePin (op op' : BrowserOperation) : Prop where
  scope : op'.scope = op.scope
  accountId : op'.accountId = op.accountId
  binding : op'.networkBindingId = op.networkBindingId
  network : op'.effectiveNetwork = op.effectiveNetwork

theorem SamePin.pinnedTo {op op' : BrowserOperation} {networks : MemoryAccountNetworks}
    (h : SamePin op op') (hpinned : PinnedTo networks op) : PinnedTo networks op' := by
  obtain ⟨head, hhead, hbinding, hnetwork⟩ := hpinned
  refine ⟨head, ?_, h.binding.trans hbinding, h.network.trans hnetwork⟩
  rw [h.scope, h.accountId]
  exact hhead

/-- The stored version of an operation has the pin the operation was begun with, and while it lives
the active route of its account is that pin. -/
structure KeepsPin (op : BrowserOperation) (s : MemoryChannelJobRepository) : Prop where
  stored : ∃ op', s.operations.lookup op.operationId = some op' ∧ SamePin op op'
  pinned : ∀ op', s.operations.lookup op.operationId = some op' → op'.state ≠ .disposed → PinnedTo s.networks op

variable {op : BrowserOperation}

theorem KeepsPin.of_same (hs : KeepsPin op s)
    (ho : s'.operations.lookup op.operationId = s.operations.lookup op.operationId)
    (hnetworks : ∀ op', s.operations.lookup op.operationId = some op' → op'.state ≠ .disposed →
      PinnedTo s.networks op → PinnedTo s'.networks op) : KeepsPin op s' := by
  constructor
  · rw [ho]
    exact hs.stored
  · intro op' hop' hlive
    rw [ho] at hop'
    exact hnetworks op' hop' hlive (hs.pinned op' hop' hlive)

/-- Some operation gets a new version, with the pin and the life it had. -/
theorem KeepsPin.of_update (hs : KeepsPin op s) {id : Uuid} {old new : BrowserOperation}
    (hold : s.operations.lookup id = some old) (hpin : SamePin old new)
    (hlive : new.state ≠ .disposed → old.state ≠ .disposed)
    (ho : ∀ id', s'.operations.lookup id' = if id' = id then some new else s.operations.lookup id')
    (hnetworks : s'.networks = s.networks) : KeepsPin op s' := by
  by_cases hid : op.operationId = id
  · obtain ⟨op', hop', hsame⟩ := hs.stored
    have hop₁ : op' = old := some.inj (hop'.symm.trans (by rw [hid, hold]))
    subst hop₁
    have hnew : s'.operations.lookup op.operationId = some new := by rw [ho, if_pos hid]
    constructor
    · exact ⟨new, hnew, hpin.scope.trans hsame.scope, hpin.accountId.trans hsame.accountId,
        hpin.binding.trans hsame.binding, hpin.network.trans hsame.network⟩
    · intro op₂ hop₂ hlive₂
      obtain rfl : new = op₂ := some.inj (hnew.symm.trans hop₂)
      rw [hnetworks]
      exact hs.pinned op' hop' (hlive hlive₂)
  · refine hs.of_same (by rw [ho, if_neg hid]) fun _ _ _ hpinned => ?_
    rw [hnetworks]
    exact hpinned

theorem OwnershipEffect.keepsPin (h : OwnershipEffect s e s') (hex : Exclusive s)
    (hs : KeepsPin op s) : KeepsPin op s' := by
  cases h with
  | same h =>
    refine hs.of_same (h.operations _) fun _ _ _ ⟨head, hhead, hpin⟩ => ⟨head, ?_, hpin⟩
    rw [h.heads]
    exact hhead
  | gate _ _ _ _ _ hoperations hnetworks =>
    refine hs.of_same (by rw [hoperations]) fun _ _ _ hpinned => ?_
    rw [hnetworks]
    exact hpinned
  | begun _ _ h =>
    refine hs.of_same ?_ fun _ _ _ hpinned => ?_
    · -- A begin stores its operation under a free id.
      rw [h.operations, if_neg]
      intro hid
      obtain ⟨_, hop', -⟩ := hs.stored
      rw [hid, h.new] at hop'
      simp at hop'
    · rw [h.networks]
      exact hpinned
  | advanced _ _ _ hstored hsame hstate _ hoperations hnetworks =>
    exact hs.of_update hstored ⟨hsame.scope, hsame.accountId, hsame.binding, hsame.network⟩
      (fun hlive hdisposed => hlive (hstate.mpr hdisposed)) hoperations hnetworks
  | saved _ _ _ _ _ _ _ h =>
    refine hs.of_update h.stored ?_ ?_ h.operations h.networks
    · exact ⟨rfl, rfl, rfl, rfl⟩
    · exact fun hlive => hlive
  | disposed id old new hstored hsame _ hdisposed hreleased =>
    have ho : ∀ id', s'.operations.lookup id' = if id' = id then some new else s.operations.lookup id' := by
      intro id'
      rw [hreleased.operations, AssocMap.lookup_insert]
    obtain ⟨op', hop', hpin⟩ := hs.stored
    by_cases hid : op.operationId = id
    · have hop₁ : op' = old := some.inj (hop'.symm.trans (by rw [hid, hstored]))
      subst hop₁
      have hnew : s'.operations.lookup op.operationId = some new := by rw [ho, if_pos hid]
      constructor
      · exact ⟨new, hnew, hsame.scope.trans hpin.scope, hsame.accountId.trans hpin.accountId,
          hsame.binding.trans hpin.binding, hsame.network.trans hpin.network⟩
      · intro op₂ hop₂ hlive₂
        obtain rfl : new = op₂ := some.inj (hnew.symm.trans hop₂)
        exact absurd hdisposed hlive₂
    · -- A live operation keeps its account from being given up by another one.
      refine hs.of_same (by rw [ho, if_neg hid]) fun op₁ hop₁ hlive₁ hpinned => ?_
      obtain rfl : op' = op₁ := some.inj (hop'.symm.trans hop₁)
      obtain ⟨head, hhead, hroute⟩ := hpinned
      refine ⟨head, ?_, hroute⟩
      rw [(hreleased.kept _ fun a _ ha hk => ?_).2]
      · exact hhead
      · obtain ⟨hoperator, rfl⟩ := accountKey_inj hk
        have hnone := ha.alone op.operationId op' (by rw [AList.lookup_insert_ne hid, hop'])
          (by rw [hex.keyed _ _ hop']; exact hid)
        rw [← hoperator, ← hpin.scope, ← hpin.accountId, ← Bool.not_eq_true, liveOwner_iff, ownsAccount_iff] at hnone
        exact hnone ⟨rfl, .inl rfl, hlive₁⟩

theorem BrowserEffect.keepsPin (h : BrowserEffect s e s') (hex : Exclusive s)
    (hs : KeepsPin op s) : KeepsPin op s' := by
  cases h with
  | owned hroutes h => exact h.keepsPin hex hs
  | routed h _ hoperations =>
    refine hs.of_same (by rw [hoperations]) fun op' hop' hlive hpinned => ?_
    obtain ⟨_, hhead, hbinding, hnetwork⟩ := hpinned
    obtain ⟨op₁, hop₁, hsame⟩ := hs.stored
    obtain rfl : op₁ = op' := some.inj (hop₁.symm.trans hop')
    have hbusy : s.operations.busy op.scope.operatorId op.accountId = true := by
      refine Operations.busy_iff.mpr ⟨_, op₁, hop', ?_⟩
      rw [liveOwner_iff, ownsAccount_iff, hsame.scope, hsame.accountId]
      exact ⟨rfl, .inl rfl, hlive⟩
    obtain ⟨head', hhead', hactive⟩ := h.active_kept hbusy hhead
    exact ⟨head', hhead', by rw [hactive, hbinding], by rw [hactive, hnetwork]⟩

/-- An operation begun on the active route of its account has it as its pin. -/
theorem Admitted.keepsPin {input : BeginBrowserOperation} {selection : BrowserNetworkSelection}
    (h : Admitted s input op s') (hselection : input.networkSelection = some selection)
    (hcurrent : selection.historicalBindingId = none) : KeepsPin op s' where
  stored := ⟨op, by rw [h.operations, if_pos rfl], rfl, rfl, rfl, rfl⟩
  pinned op' hop' hlive := by
    rw [h.networks]
    exact h.pinned selection hselection hcurrent

end Steps

/-- In every run: an operation that was begun on the active route of its account stays stored with
that route, and while it is not disposed the active route of its account is the same binding with
the same network. And no run, from any state, overwrites a stored binding. -/
theorem routeStability [Sha256] [UrlParser] [InstantText] :
    (∀ (h h' : List JobEvent) (e : JobEvent) (s s₁ s' : MemoryChannelJobRepository)
        (input : BeginBrowserOperation) (op : BrowserOperation)
        (selection : BrowserNetworkSelection),
      jobMachine.Run MemoryChannelJobRepository.default h s → jobMachine.step s e s₁ →
      e.begins = some (input, op) → s.operations.lookup op.operationId = none →
      input.networkSelection = some selection → selection.historicalBindingId = none →
      jobMachine.Run s₁ h' s' →
      ∃ op', s'.operations.lookup op.operationId = some op'
        ∧ op'.networkBindingId = op.networkBindingId ∧ op'.effectiveNetwork = op.effectiveNetwork
        ∧ (op'.state ≠ .disposed → ∃ head,
          s'.networks.heads.lookup (op'.scope.operatorId.asUuid, op'.accountId) = some head
          ∧ op'.networkBindingId = some head.active.bindingId
          ∧ op'.effectiveNetwork = head.active.effectiveNetwork))
    ∧ ∀ (h : List JobEvent) (s s' : MemoryChannelJobRepository) (id : Uuid)
        (b : AccountNetworkBinding), jobMachine.Run s h s' →
      s.networks.bindings.lookup id = some b → s'.networks.bindings.lookup id = some b := by
  constructor
  · intro h h' e s s₁ s' input op selection hr hstep hbegins hnew hselection hcurrent hr'
    have hex₁ : Exclusive s₁ := run_exclusive exclusive_default (hr.tail hstep)
    have hpin₁ : KeepsPin op s₁ := (step_begins hstep hbegins hnew).keepsPin hselection hcurrent
    have hkeeps : Exclusive s' ∧ KeepsPin op s' := by
      refine hr'.invariant (I := fun s => Exclusive s ∧ KeepsPin op s) ?_ ⟨hex₁, hpin₁⟩
      rintro s e s' ⟨hex, hpin⟩ hstep
      have heffect := step_browserEffect hstep
      exact ⟨heffect.exclusive hex, heffect.keepsPin hex hpin⟩
    obtain ⟨op', hop', hsame⟩ := hkeeps.2.stored
    exact ⟨op', hop', hsame.binding, hsame.network, fun hlive => hsame.pinnedTo (hkeeps.2.pinned op' hop' hlive)⟩
  · intro h s s' id b hr hb
    refine hr.invariant (I := fun s => s.networks.bindings.lookup id = some b) ?_ hb
    exact fun s e s' hb hstep => (step_browserEffect hstep).bindings_kept hb

namespace Sample

/-- An account store that agrees to everything and knows nothing. -/
def channels : ChannelReplies where
  saveNetworkMetadata _ _ := .ok ()
  compareSetNetworkSettings _ _ _ := .ok ()
  validateAccountNetworkAssignment _ _ := .ok ()
  saveVerifiedLoginStorage _ _ := .ok ()
  accountLoginSessions _ _ := .ok []
  listImportRows _ _ := .ok []
  getPoolAccount _ _ := .error (.notFound "")
  savePoolLogin _ _ := .ok ()
  listAccounts _ := .ok []
  getAccount _ _ := .error (.notFound "")

/-- The route scope of an account of the sample project. -/
def routeScope (accountId : Uuid) : AccountNetworkScope :=
  { operatorId := ⟨uuid 1⟩, accountId, tenantId := some ⟨uuid 2⟩, projectId := some ⟨uuid 3⟩ }

/-- Set a route of an account, as version 1 or as the next version. -/
def setRoute (accountId bindingId : Uuid) (expected : Option Int) : JobCall :=
  .setAccountNetworkWithMetadata channels (routeScope accountId) expected
    { bindingId, scope := routeScope accountId, source := .direct, effectiveNetwork := ⟨[7]⟩
      createdAt := 0 }
    none none

/-- A login browser on the active route of its account. -/
def routedBrowser : BeginBrowserOperation :=
  loginBrowser (uuid 60) (uuid 40) none (some { scope := routeScope (uuid 40), historicalBindingId := none })

/-- The account has its first route. -/
def routed : MemoryChannelJobRepository :=
  @after sha256 urlParser instantText MemoryChannelJobRepository.default [setRoute (uuid 40) (uuid 80) none]

/-- The call that begins the browser. -/
def beginRouted : JobCall :=
  .beginBrowserOperation browserScope routedBrowser 1

/-- The operation of the browser. -/
def routedOperation : BrowserOperation :=
  { loginVerifiedAt := none, loginVerifiedAccountId := none, networkBindingId := some (uuid 80)
    networkScope := some (routeScope (uuid 40)), operationId := uuid 60, sessionId := uuid 60
    accountId := uuid 40, scope := browserScope, purpose := .login, runnerGeneration := uuid 5
    effectiveNetwork := ⟨[7]⟩, reservationId := uuid 60, state := .prepared, version := 1
    expiresAt := 100, createdAt := 1, updatedAt := 1, nextCheckAt := 100
    releasedUnstarted := false }

/-- The browser runs and the account is given another route, which has to wait. -/
def rerouted : MemoryChannelJobRepository :=
  @after sha256 urlParser instantText routed [beginRouted, setRoute (uuid 40) (uuid 81) (some 1)]

end Sample

open Sample

theorem routeStability_rerouted :
    (∃ op', rerouted.operations.lookup (uuid 60) = some op'
      ∧ op'.networkBindingId = some (uuid 80)
      ∧ (op'.state ≠ .disposed → ∃ head,
        rerouted.networks.heads.lookup (op'.scope.operatorId.asUuid, op'.accountId) = some head
        ∧ op'.networkBindingId = some head.active.bindingId))
    ∧ rerouted.networks.bindings.lookup (uuid 80)
      = routed.networks.bindings.lookup (uuid 80) := by
  let _ := sha256
  let _ := urlParser
  let _ := instantText
  have hrun (s : MemoryChannelJobRepository) (calls : List JobCall) :
      jobMachine.Run s (s.trace calls) (s.after calls) :=
    (@run_trace _ _ _ (fun _ _ => True) calls s (allowed_of_forall (fun _ _ _ _ => trivial) s)).of_restrict
  have hstep : jobMachine.step routed (.call beginRouted (.ok (.operation routedOperation)))
      (routed.after [beginRouted]) := by
    rfl
  have hlast := hrun (routed.after [beginRouted])
    [setRoute (uuid 40) (uuid 81) (some 1)]
  obtain ⟨op', hop', hbinding, -, hactive⟩ := routeStability.1 _ _ _ _ _ _ routedBrowser
    routedOperation
    { scope := routeScope (uuid 40), historicalBindingId := none }
    (hrun _ [setRoute (uuid 40) (uuid 80) none]) hstep rfl
    (by decide +kernel) rfl rfl hlast
  refine ⟨⟨op', hop', hbinding, fun hlive => ?_⟩, ?_⟩
  · obtain ⟨head, hhead, hpin, -⟩ := hactive hlive
    exact ⟨head, hhead, hpin⟩
  · obtain ⟨b, hb⟩ : ∃ b, routed.networks.bindings.lookup (uuid 80) = some b :=
      isSome_iff_exists.mp (by decide +kernel)
    rw [hb]
    exact routeStability.2 _ _ _ _ _ (hrun routed [beginRouted,
      setRoute (uuid 40) (uuid 81) (some 1)]) hb

end GeoMaster
