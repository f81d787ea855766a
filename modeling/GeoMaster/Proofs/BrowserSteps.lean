import GeoMaster.Proofs.LedgerSteps

/-!
# What a step does to the gates, the browsers and the routes

The other half of the repository: account gates, browser operations and account networks. A step
either sets routes, and then leaves gates and operations alone, or has one of the effects of
`OwnershipEffect` on who owns what. `step_browserEffect` shows that every step is one of these.
-/

namespace GeoMaster

open MemoryChannelJobRepository List AList BrowserOperation AccountNetworkBindings

/-! ### Holding an account -/

theorem accountKey_inj {operator operator' : OperatorId} {a a' : Uuid}
    (h : (operator.asUuid, a) = (operator'.asUuid, a')) : operator = operator' ∧ a = a' := by
  cases operator
  cases operator'
  simpa using h

section Hold

variable {operations : Operations} {operator : OperatorId} {accountId : Uuid}

/-- An account is busy exactly when some stored operation is its live owner. -/
theorem Operations.busy_iff :
    operations.busy operator accountId = true
      ↔ ∃ id op, operations.lookup id = some op ∧ op.liveOwner operator accountId = true := by
  simp only [Operations.busy, List.any_eq_true, AssocMap.mem_values]
  constructor
  · rintro ⟨op, ⟨id, hid⟩, hlive⟩
    exact ⟨id, op, hid, hlive⟩
  · rintro ⟨id, op, hid, hlive⟩
    exact ⟨op, ⟨id, hid⟩, hlive⟩

/-- A free account has no live owner. -/
theorem Operations.busy_eq_false :
    operations.busy operator accountId = false
      ↔ ∀ id op, operations.lookup id = some op → op.liveOwner operator accountId = false := by
  exact AssocMap.any_values_eq_false

/-- The operation an update of a route names is there exactly when the account is busy. -/
theorem Operations.activeOwner_isSome :
    ((operations.activeOwner operator accountId).map (·.operationId)).isSome = operations.busy operator accountId := by
  rw [Option.isSome_map, Operations.activeOwner, Operations.busy, isSome_find?]

theorem BrowserOperation.liveOwner_iff {op : BrowserOperation} :
    op.liveOwner operator accountId = true
      ↔ op.scope.operatorId = operator ∧ op.ownsAccount accountId = true ∧ op.state ≠ .disposed := by
  simp [liveOwner]

theorem BrowserOperation.ownsAccount_iff {op : BrowserOperation} :
    op.ownsAccount accountId = true ↔ op.accountId = accountId ∨ op.loginVerifiedAccountId = some accountId := by
  simp [ownsAccount]

theorem mem_ownedAccounts {op : BrowserOperation} : accountId ∈ ownedAccounts op ↔ op.ownsAccount accountId = true := by
  rw [ownsAccount_iff]
  unfold ownedAccounts
  cases hverified : op.loginVerifiedAccountId with
  | none => simp [eq_comm]
  | some other =>
    by_cases hother : other = op.accountId
    · subst hother
      simp [eq_comm]
    · simp [hother, eq_comm]

end Hold

/-! ### Setting a route -/

/-- The gate and head of the account a binding is for. -/
def AccountNetworkBinding.key (binding : AccountNetworkBinding) : Uuid × Uuid :=
  (binding.scope.operatorId.asUuid, binding.scope.accountId)

/-- A head has a route waiting for the end of its browser. -/
def AccountNetworkBindings.waits (head : AccountNetworkBindings) : Prop :=
  head.pending.isSome = true

/-- The route an account gets once no browser holds it. -/
def AccountNetworkBindings.desired (head : AccountNetworkBindings) : AccountNetworkBinding :=
  head.pending.getD head.active

/-- What storing a new binding does to the networks. -/
structure SetRoute (busy : Bool) (networks : MemoryAccountNetworks)
    (binding : AccountNetworkBinding) (networks' : MemoryAccountNetworks) : Prop where
  head : ∃ head, networks'.heads.lookup binding.key = some head ∧ head.desired = binding ∧ (head.waits → busy = true)
    ∧ (busy = true → ∀ old, networks.heads.lookup binding.key = some old → head.active = old.active)
  others : ∀ k, k ≠ binding.key → networks'.heads.lookup k = networks.heads.lookup k
  bindings : ∀ id b, networks.bindings.lookup id = some b → networks'.bindings.lookup id = some b

/-- Storing a binding under a free id keeps every stored binding. -/
theorem lookup_insert_of_free {bindings : AssocMap Uuid AccountNetworkBinding} {id id' : Uuid}
    {b b' : AccountNetworkBinding} (hfree : id ∉ bindings) (h : bindings.lookup id' = some b) :
    (bindings.insert id b').lookup id' = some b := by
  rw [AssocMap.lookup_insert, if_neg]
  · exact h
  · rintro rfl
    exact hfree (lookup_isSome.mp (by rw [h]; rfl))

/-- The bindings a successful `set` leaves. -/
def MemoryAccountNetworks.bindingsAfter (networks : MemoryAccountNetworks) (binding : AccountNetworkBinding)
    (legacy : Option LegacyNetworkBootstrap) (initializeLegacy : Bool) : AssocMap Uuid AccountNetworkBinding :=
  let bindings := networks.bindings.insert binding.bindingId binding
  match legacy with
  | some legacy =>
    if initializeLegacy then bindings.insert legacy.binding.bindingId legacy.binding else bindings
  | none => bindings

variable {at_ : DateTime} {binding : AccountNetworkBinding} {channels : ChannelReplies} {id : Uuid}
  {input : BeginBrowserOperation} {legacy : Option LegacyNetworkBootstrap} {networks : MemoryAccountNetworks}
  {op : BrowserOperation} {scope : BrowserOperationScope}

variable {networks' : MemoryAccountNetworks} {expected : Option Int} {activeOp : Option Uuid}
  {result head : AccountNetworkBindings} {current : Option AccountNetworkBindings} {accountId reservationId : Uuid}
  {reply : Unit} {updates : List ProjectNetworkBindingUpdate} {action : BrowserOperationTransition}

/-- A successful `set` has passed its checks and stores the next head. -/
theorem MemoryAccountNetworks.set_cases {scope : AccountNetworkScope}
    (h : networks.set scope expected binding legacy activeOp = .ok (result, networks')) :
    binding.key = (scope.operatorId.asUuid, scope.accountId)
    ∧ binding.bindingId ∉ networks.bindings
    ∧ networks.nextHead (networks.heads.lookup binding.key) binding legacy activeOp.isSome = .ok result
    ∧ networks'.heads = networks.heads.insert binding.key result
    ∧ networks'.bindings = networks.bindingsAfter binding legacy
        ((networks.heads.lookup binding.key).isNone && activeOp.isSome) := by
  simp only [MemoryAccountNetworks.set, validateNetworkBinding, Except.eq_ok_iff, not_or, not_not] at h
  obtain ⟨_, ⟨_, -, hscope, -, -⟩, _, -, _, hfree, h⟩ := h
  have hkey : binding.key = (scope.operatorId.asUuid, scope.accountId) := by
    rw [AccountNetworkBinding.key, hscope]
  rw [hkey]
  refine ⟨rfl, hfree, ?_⟩
  cases legacy with
  | none =>
    simp only [Except.eq_ok_iff, Prod.mk.injEq] at h
    obtain ⟨_, hnext, rfl, rfl⟩ := h
    exact ⟨hnext, rfl, rfl⟩
  | some legacy =>
    simp only [Except.eq_ok_iff, Prod.mk.injEq] at h
    obtain ⟨_, -, _, -, _, hnext, rfl, rfl⟩ := h
    exact ⟨hnext, rfl, rfl⟩

theorem MemoryAccountNetworks.nextHead_ok {busy : Bool} (h : networks.nextHead current binding legacy busy = .ok head) :
    head.desired = binding ∧ (head.waits → busy = true)
    ∧ (busy = true → ∀ old, current = some old → head.active = old.active) := by
  unfold nextHead at h
  split at h
  · next old =>
    simp only [Except.eq_ok_iff] at h
    obtain ⟨_, -, rfl⟩ := h
    cases busy <;> simp [desired, waits]
  · cases busy with
    | false =>
      simp only [Bool.false_eq_true, if_false, Except.pure_eq_ok] at h
      subst h
      simp [desired, waits]
    | true =>
      simp only [if_true, Except.eq_ok_iff] at h
      obtain ⟨_, -, _, -, rfl⟩ := h
      simp [desired]

/-- A legacy binding is stored only where its id is free as well. -/
theorem MemoryAccountNetworks.bindingsAfter_keeps {busy : Bool} (hfree : binding.bindingId ∉ networks.bindings)
    (hnext : networks.nextHead current binding legacy busy = .ok head) {b : AccountNetworkBinding}
    (hid : networks.bindings.lookup id = some b) :
    (networks.bindingsAfter binding legacy (current.isNone && busy)).lookup id = some b := by
  have hstored := @lookup_insert_of_free _ _ _ _ binding hfree hid
  unfold bindingsAfter
  cases legacy with
  | none => exact hstored
  | some legacy =>
    dsimp only
    split
    · next hinit =>
      rw [Bool.and_eq_true, Option.isNone_iff_eq_none] at hinit
      rw [hinit.1, hinit.2, nextHead, if_pos rfl] at hnext
      simp only [Except.eq_ok_iff, not_or] at hnext
      obtain ⟨_, hsome, _, ⟨hfree', hne⟩, -⟩ := hnext
      obtain rfl := Option.some.inj hsome
      refine lookup_insert_of_free ?_ hstored
      rw [AList.mem_insert, not_or]
      exact ⟨hne, hfree'⟩
    · exact hstored

/-- A successful `set` stores a fresh binding, at once or to wait for the browser. -/
theorem MemoryAccountNetworks.set_route {scope : AccountNetworkScope}
    (h : networks.set scope expected binding legacy activeOp = .ok (result, networks')) :
    SetRoute activeOp.isSome networks binding networks' := by
  obtain ⟨-, hfree, hnext, hheads, hbindings⟩ := set_cases h
  obtain ⟨hdesired, hwaits, hactive⟩ := nextHead_ok hnext
  constructor
  · refine ⟨result, ?_, hdesired, hwaits, hactive⟩
    rw [hheads, AList.lookup_insert]
  · intro k hk
    rw [hheads, lookup_insert_ne hk]
  · intro id b hid
    rw [hbindings]
    exact bindingsAfter_keeps hfree hnext hid

/-- Bindings stored one after the other, for accounts that the operations hold or not. -/
inductive Routed (operations : Operations) :
    MemoryAccountNetworks → List AccountNetworkBinding → MemoryAccountNetworks → Prop where
  | nil (networks : MemoryAccountNetworks) : Routed operations networks [] networks
  | cons {networks networks₁ networks₂ : MemoryAccountNetworks} {binding : AccountNetworkBinding}
      {rest : List AccountNetworkBinding}
      (hset : SetRoute (operations.busy binding.scope.operatorId binding.scope.accountId) networks binding networks₁)
      (hrest : Routed operations networks₁ rest networks₂) :
      Routed operations networks (binding :: rest) networks₂

/-! ### Giving accounts up -/

/-- A disposed operation gives an account up: nobody else holds it and its gate is the operation's. -/
structure Released (s : MemoryChannelJobRepository) (scope : BrowserOperationScope) (id : Uuid)
    (result : BrowserOperation) (accountId : Uuid) : Prop where
  alone : ∀ k other, s.operations.lookup k = some other → other.operationId ≠ id →
    other.liveOwner scope.operatorId accountId = false
  gate : (s.gates.lookup (scope.operatorId.asUuid, accountId)).map (·.1) = some result.reservationId

section Release

variable {s : MemoryChannelJobRepository} {scope : BrowserOperationScope} {id : Uuid} {result : BrowserOperation}

/-- The two outcomes of giving one account up. -/
theorem releaseOwned_cases (s : MemoryChannelJobRepository) (scope : BrowserOperationScope)
    (id : Uuid) (result : BrowserOperation) (a : Uuid) :
    (Released s scope id result a
      ∧ releaseOwned scope id result s a
        = { s with
            gates := s.gates.erase (scope.operatorId.asUuid, a)
            networks :=
              { s.networks with
                heads := AssocMap.modify (scope.operatorId.asUuid, a) promoteHead s.networks.heads } })
    ∨ (¬ Released s scope id result a ∧ releaseOwned scope id result s a = s) := by
  have halone : ((AssocMap.values s.operations).any fun other =>
        other.operationId ≠ id ∧ other.liveOwner scope.operatorId a) = false
      ↔ ∀ k other, s.operations.lookup k = some other → other.operationId ≠ id →
        other.liveOwner scope.operatorId a = false := by
    rw [AssocMap.any_values_eq_false]
    simp
  have hgate : ((s.gates.lookup (scope.operatorId.asUuid, a)).any fun gate => gate.1 = result.reservationId) = true
      ↔ (s.gates.lookup (scope.operatorId.asUuid, a)).map (·.1) = some result.reservationId := by
    cases s.gates.lookup (scope.operatorId.asUuid, a) <;> simp
  unfold releaseOwned
  dsimp only
  split
  · next h =>
    rw [Bool.not_eq_true] at h
    exact .inl ⟨⟨halone.mp h.1, hgate.mp h.2⟩, rfl⟩
  · next h =>
    rw [Bool.not_eq_true] at h
    exact .inr ⟨fun hr => h ⟨halone.mpr hr.alone, hgate.mpr hr.gate⟩, rfl⟩

/-- What giving up a list of accounts leaves. -/
structure GivenUp (s : MemoryChannelJobRepository) (scope : BrowserOperationScope) (id : Uuid)
    (result : BrowserOperation) (accounts : List Uuid) (s' : MemoryChannelJobRepository) : Prop where
  released : ∀ a ∈ accounts, Released s scope id result a → s'.gates.lookup (scope.operatorId.asUuid, a) = none
    ∧ s'.networks.heads.lookup (scope.operatorId.asUuid, a)
      = (s.networks.heads.lookup (scope.operatorId.asUuid, a)).map promoteHead
  kept : ∀ k, (∀ a ∈ accounts, Released s scope id result a → k ≠ (scope.operatorId.asUuid, a)) → s'.gates.lookup k
    = s.gates.lookup k ∧ s'.networks.heads.lookup k = s.networks.heads.lookup k
  operations : s'.operations = s.operations
  bindings : s'.networks.bindings = s.networks.bindings

/-- The accounts are given up one by one; each is judged by the state before the first. -/
theorem foldl_releaseOwned (accounts : List Uuid) (s : MemoryChannelJobRepository) :
    GivenUp s scope id result accounts (accounts.foldl (releaseOwned scope id result) s) := by
  induction accounts generalizing s with
  | nil => exact ⟨by simp, fun _ _ => ⟨rfl, rfl⟩, rfl, rfl⟩
  | cons a rest ih =>
    rw [foldl_cons]
    rcases releaseOwned_cases s scope id result a with ⟨ha, heq⟩ | ⟨ha, heq⟩
    · obtain ⟨hreleased, hkept, hoperations, hbindings⟩ := ih (releaseOwned scope id result s a)
      -- Once `a` is given up its gate is gone; every other account is judged as before.
      have hiff (b : Uuid) : Released (releaseOwned scope id result s a) scope id result b
          ↔ b ≠ a ∧ Released s scope id result b := by
        rw [heq]
        constructor
        · rintro ⟨halone, hgate⟩
          rw [AssocMap.lookup_erase] at hgate
          split at hgate
          · simp at hgate
          · next hne => exact ⟨fun hb => hne (by rw [hb]), halone, hgate⟩
        · rintro ⟨hb, halone, hgate⟩
          refine ⟨halone, ?_⟩
          rw [lookup_erase_ne (by simpa using hb)]
          exact hgate
      have hgates (k : Uuid × Uuid) (hk : k ≠ (scope.operatorId.asUuid, a)) :
          (releaseOwned scope id result s a).gates.lookup k = s.gates.lookup k := by
        rw [heq]
        exact lookup_erase_ne hk
      have hheads (k : Uuid × Uuid) (hk : k ≠ (scope.operatorId.asUuid, a)) :
          (releaseOwned scope id result s a).networks.heads.lookup k = s.networks.heads.lookup k := by
        rw [heq]
        simp [AssocMap.lookup_modify, hk]
      refine ⟨?_, ?_, by rw [hoperations, heq], by rw [hbindings, heq]⟩
      · intro b hb hrb
        by_cases hba : b = a
        · subst hba
          obtain ⟨hg, hh⟩ := hkept (scope.operatorId.asUuid, b)
            fun c _ hc heqk => ((hiff c).mp hc).1 (Prod.mk.inj heqk).2.symm
          rw [hg, hh, heq]
          simp [AssocMap.lookup_modify]
        · have hmem : b ∈ rest := (mem_cons.mp hb).resolve_left hba
          obtain ⟨hg, hh⟩ := hreleased b hmem ((hiff b).mpr ⟨hba, hrb⟩)
          refine ⟨hg, ?_⟩
          rw [hh, hheads _ (by simpa using hba)]
      · intro k hk
        have hka : k ≠ (scope.operatorId.asUuid, a) := hk a mem_cons_self ha
        obtain ⟨hg, hh⟩ := hkept k fun c hc hrc => hk c (mem_cons_of_mem _ hc) ((hiff c).mp hrc).2
        rw [hg, hh]
        exact ⟨hgates k hka, hheads k hka⟩
    · rw [heq]
      obtain ⟨hreleased, hkept, hoperations, hbindings⟩ := ih s
      refine ⟨?_, ?_, hoperations, hbindings⟩
      · intro b hb hrb
        rcases mem_cons.mp hb with rfl | hmem
        · exact absurd hrb ha
        · exact hreleased b hmem hrb
      · intro k hk
        exact hkept k fun c hc => hk c (mem_cons_of_mem _ hc)

end Release

/-! ### The effects -/

/-- The bindings a call stores when it succeeds. -/
def JobCall.routes : JobCall → List AccountNetworkBinding
  | .setProjectNetworkDefaults _ _ _ _ updates => updates.map (·.binding)
  | .setAccountNetworkWithMetadata _ _ _ binding _ _ => [binding]
  | _ => []

/-- The bindings an event stored. -/
def JobEvent.routes : JobEvent → List AccountNetworkBinding
  | .call c (.ok _) => c.routes
  | _ => []

/-- The request and the operation of a begin that returned. -/
def JobEvent.begins : JobEvent → Option (BeginBrowserOperation × BrowserOperation)
  | .call (.beginBrowserOperation _ input _) (.ok (.operation op)) => some (input, op)
  | .call (.beginLoginQueueItem _ _ _ _ _ input _) (.ok (.queueOperation _ op)) => some (input, op)
  | _ => none

/-- The calls that write gates, operations or networks. -/
def JobCall.onBrowser : JobCall → Bool
  | .reserveAccount .. | .releaseAccount .. | .claimReserved .. | .setProjectNetworkDefaults ..
  | .setAccountNetworkWithMetadata .. | .beginBrowserOperation .. | .claimBrowserStart ..
  | .saveOwnedLoginSession .. | .transitionBrowserOperation .. | .beginLoginQueueItem .. => true
  | _ => false

/-- Gates, operations and networks answer every lookup alike. -/
structure SameBrowser (s s' : MemoryChannelJobRepository) : Prop where
  gates : ∀ k, s'.gates.lookup k = s.gates.lookup k
  operations : ∀ id, s'.operations.lookup id = s.operations.lookup id
  heads : ∀ k, s'.networks.heads.lookup k = s.networks.heads.lookup k
  bindings : ∀ id, s'.networks.bindings.lookup id = s.networks.bindings.lookup id

/-- The binding a new operation runs on, when its request names no historical one. -/
def PinnedTo (networks : MemoryAccountNetworks) (op : BrowserOperation) : Prop :=
  ∃ head, networks.heads.lookup (op.scope.operatorId.asUuid, op.accountId) = some head ∧ op.networkBindingId = some
    head.active.bindingId ∧ op.effectiveNetwork = head.active.effectiveNetwork

/-- A later version of the same operation, which owns the same accounts. -/
structure SameOwnership (op op' : BrowserOperation) : Prop where
  operationId : op'.operationId = op.operationId
  scope : op'.scope = op.scope
  accountId : op'.accountId = op.accountId
  verified : op'.loginVerifiedAccountId = op.loginVerifiedAccountId
  reservationId : op'.reservationId = op.reservationId
  binding : op'.networkBindingId = op.networkBindingId
  network : op'.effectiveNetwork = op.effectiveNetwork

/-- A fresh operation takes a free account. -/
structure Admitted (s : MemoryChannelJobRepository) (input : BeginBrowserOperation)
    (op : BrowserOperation) (s' : MemoryChannelJobRepository) : Prop where
  new : s.operations.lookup op.operationId = none
  free : s.operations.busy op.scope.operatorId op.accountId = false
  fresh : op.loginVerifiedAccountId = none
  pinned : ∀ selection ∈ input.networkSelection, selection.historicalBindingId = none → PinnedTo s.networks op
  gates : ∀ k, s'.gates.lookup k
    = if k = (op.scope.operatorId.asUuid, op.accountId) then some (op.reservationId, op.expiresAt)
      else s.gates.lookup k
  operations : ∀ id, s'.operations.lookup id = if id = op.operationId then some op else s.operations.lookup id
  networks : s'.networks = s.networks

/-- An operation that runs has saved its login, for its own account or for a free one. -/
structure Saved (s : MemoryChannelJobRepository) (id : Uuid) (storage : VerifiedLoginStorage)
    (at_ : DateTime) (op : BrowserOperation) (s' : MemoryChannelJobRepository) : Prop where
  stored : s.operations.lookup id = some op
  live : op.state ≠ .disposed
  destination : (storage.accountId = op.accountId ∧ s'.gates = s.gates)
    ∨ (s.operations.busy op.scope.operatorId storage.accountId = false
      ∧ ∀ k, s'.gates.lookup k
        = if k = (op.scope.operatorId.asUuid, storage.accountId)
          then some (op.reservationId, op.expiresAt) else s.gates.lookup k)
  operations : ∀ id', s'.operations.lookup id'
    = if id' = id then
        some
          { op with
            loginVerifiedAt := some (op.loginVerifiedAt.getD at_)
            loginVerifiedAccountId := some storage.accountId }
      else s.operations.lookup id'
  networks : s'.networks = s.networks

/-- What a step does to who owns what. -/
inductive OwnershipEffect (s : MemoryChannelJobRepository) (e : JobEvent) (s' : MemoryChannelJobRepository) : Prop where
  | same (h : SameBrowser s s')
  | gate (operator : OperatorId) (accountId : Uuid) (gate : Option AccountReservation)
      (howner : s.operations.busy operator accountId = false
        ∨ gate.map (·.1) = (s.gates.lookup (operator.asUuid, accountId)).map (·.1))
      (hgates : ∀ k, s'.gates.lookup k = if k = (operator.asUuid, accountId) then gate else s.gates.lookup k)
      (hoperations : s'.operations = s.operations) (hnetworks : s'.networks = s.networks)
  | begun (input : BeginBrowserOperation) (op : BrowserOperation) (h : Admitted s input op s')
  | advanced (id : Uuid) (op op' : BrowserOperation) (hstored : s.operations.lookup id = some op)
      (hsame : SameOwnership op op') (hstate : op'.state = .disposed ↔ op.state = .disposed)
      (hgates : s'.gates = s.gates)
      (hoperations : ∀ id', s'.operations.lookup id' = if id' = id then some op' else s.operations.lookup id')
      (hnetworks : s'.networks = s.networks)
  | saved (channels : ChannelReplies) (scope : BrowserOperationScope) (id : Uuid) (storage : VerifiedLoginStorage)
      (at_ : DateTime) (op : BrowserOperation) (hcall : e.Did (.saveOwnedLoginSession channels scope id storage at_))
      (h : Saved s id storage at_ op s')
  | disposed (id : Uuid) (op op' : BrowserOperation) (hstored : s.operations.lookup id = some op)
      (hsame : SameOwnership op op') (hlive : op.state ≠ .disposed) (hdisposed : op'.state = .disposed)
      (hreleased : GivenUp { s with operations := s.operations.insert id op' } op.scope id op' (ownedAccounts op') s')

/-- What a step does to gates, operations and networks. -/
inductive BrowserEffect (s : MemoryChannelJobRepository) (e : JobEvent) (s' : MemoryChannelJobRepository) : Prop where
  | routed (h : Routed s.operations s.networks e.routes s'.networks)
      (hgates : s'.gates = s.gates) (hoperations : s'.operations = s.operations)
  | owned (hroutes : e.routes = []) (h : OwnershipEffect s e s')

/-! ### One lemma for each operation on the browser side -/

variable {s s' : MemoryChannelJobRepository} {e : JobEvent}

theorem reserveAccount_effect {scope : TenantScope} {expiresAt : DateTime} (h : Op.Returns (reserveAccount scope accountId reservationId at_ expiresAt) s reply s') :
    s.operations.busy scope.operatorId accountId = false ∧ OwnershipEffect s e s' := by
  simp only [reserveAccount, Op.returns_iff, Bool.not_eq_true] at h
  obtain ⟨_, _, ⟨-, rfl⟩, _, _, ⟨-, rfl⟩, _, _, ⟨rfl, rfl⟩, _, _, ⟨hfree, rfl⟩, _, _, ⟨-, rfl⟩, rfl⟩ := h
  exact ⟨hfree, .gate scope.operatorId accountId (some (reservationId, expiresAt)) (.inl hfree)
    (fun k => AssocMap.lookup_insert ..) rfl rfl⟩

theorem releaseAccount_effect {scope : TenantScope}
    (h : Op.Returns (releaseAccount scope accountId reservationId) s reply s') :
    (s.operations.busy scope.operatorId accountId = true → s' = s) ∧ OwnershipEffect s e s' := by
  simp only [releaseAccount, Op.returns_iff] at h
  obtain ⟨_, _, ⟨-, rfl⟩, _, _, ⟨rfl, rfl⟩, h⟩ := h
  have hsame : OwnershipEffect s e s := .same ⟨fun _ => rfl, fun _ => rfl, fun _ => rfl, fun _ => rfl⟩
  split at h
  · rw [Op.returns_pure] at h
    obtain ⟨-, rfl⟩ := h
    exact ⟨fun _ => rfl, hsame⟩
  · next hfree =>
    rw [Bool.not_eq_true] at hfree
    refine ⟨fun hbusy => absurd (hfree.symm.trans hbusy) Bool.false_ne_true, ?_⟩
    split at h
    · rw [Op.returns_modify] at h
      subst h
      exact .gate scope.operatorId accountId none (.inl hfree) (fun k => AssocMap.lookup_erase ..) rfl rfl
    · rw [Op.returns_pure] at h
      obtain ⟨-, rfl⟩ := h
      exact hsame

theorem claimReserved_ownership {requests : ChannelLedger.WithdrawalRequests} {scope : TenantScope}
    {targetId attemptId : Uuid} {reply : ChannelTarget × ChannelAttempt}
    (h : Op.Returns (claimReserved requests scope targetId attemptId reservationId at_) s reply s') :
    OwnershipEffect s e s' := by
  simp only [claimReserved, onLedger, Op.returns_iff, Op.returns_zoom, not_not] at h
  obtain ⟨view, _, ⟨l₁, -, rfl⟩, _, _, ⟨rfl, rfl⟩, _, _, ⟨hlive, rfl⟩, claimed, _, ⟨l₂, -, rfl⟩, _, _, rfl, -, rfl⟩ := h
  refine .gate scope.operatorId view.target.input.accountId (some (reservationId, at_ + claimLease view.target))
    (.inr ?_) (fun k => AssocMap.lookup_insert ..) rfl rfl
  -- Only a renewal: the gate already had this owner.
  unfold ChannelLedger.liveReservation at hlive
  cases hgate : s.gates.lookup (scope.operatorId.asUuid, view.target.input.accountId) with
  | none => simp [hgate] at hlive
  | some gate =>
    simp only [id_eq, hgate, Option.any_some, decide_eq_true_eq] at hlive
    simp [hlive.1]

theorem stageUpdates_routed {scope : TenantScope} {project : ProjectId} {updatedAt : DateTime}
    (h : s.stageUpdates channels scope project updatedAt networks updates = .ok networks') :
    Routed s.operations networks (updates.map (·.binding)) networks' := by
  induction updates generalizing networks with
  | nil =>
    simp only [stageUpdates, Except.pure_eq_ok] at h
    subst h
    exact .nil networks
  | cons _ _ ih =>
    simp only [stageUpdates, Except.eq_ok_iff, not_or, not_not, Prod.exists] at h
    obtain ⟨_, ⟨hoperator, -⟩, _, -, _, _, hset, hrest⟩ := h
    have hroute := MemoryAccountNetworks.set_route hset
    rw [Operations.activeOwner_isSome, ← hoperator] at hroute
    exact .cons hroute (ih hrest)

theorem setProjectNetworkDefaults_routed {scope : TenantScope} {expected : Option ChannelSettingsRecord}
    {record : ChannelSettingsRecord} {reply : ChannelSettings}
    (h : Op.Returns (setProjectNetworkDefaults channels scope expected record updates) s reply s') :
    Routed s.operations s.networks (updates.map (·.binding)) s'.networks
      ∧ s'.gates = s.gates ∧ s'.operations = s.operations := by
  simp only [setProjectNetworkDefaults, Op.returns_iff] at h
  obtain ⟨project, _, ⟨-, rfl⟩, _, _, ⟨-, rfl⟩, _, _, ⟨rfl, rfl⟩, required, _, ⟨-, rfl⟩, _, _,
    ⟨-, rfl⟩, staged, _, ⟨hstaged, rfl⟩, _, _, ⟨-, rfl⟩, _, _, rfl, -, rfl⟩ := h
  exact ⟨stageUpdates_routed hstaged, rfl, rfl⟩

theorem setAccountNetworkWithMetadata_routed {scope : AccountNetworkScope}
    {metadata : Option AccountNetworkMetadataUpdate} {reply : AccountNetworkBindings}
    (h : Op.Returns (setAccountNetworkWithMetadata channels scope expected binding legacy metadata) s reply s') :
    Routed s.operations s.networks [binding] s'.networks ∧ s'.gates = s.gates ∧ s'.operations = s.operations := by
  simp only [setAccountNetworkWithMetadata, Op.returns_iff, Prod.exists] at h
  obtain ⟨_, _, ⟨-, rfl⟩, _, _, ⟨-, rfl⟩, _, _, ⟨rfl, rfl⟩, result, networks', _, ⟨hset, rfl⟩, h⟩ := h
  have hs' : s' = { s with networks := networks' } := by
    cases metadata <;> simp only [Op.returns_iff] at h
    · obtain ⟨_, _, rfl, -, rfl⟩ := h
      rfl
    · obtain ⟨_, _, ⟨-, rfl⟩, _, _, rfl, -, rfl⟩ := h
      rfl
  subst hs'
  have hroute := MemoryAccountNetworks.set_route hset
  obtain ⟨hkey, -⟩ := MemoryAccountNetworks.set_cases hset
  obtain ⟨hoperator, haccount⟩ := accountKey_inj hkey
  rw [Operations.activeOwner_isSome, ← hoperator, ← haccount] at hroute
  exact ⟨.cons hroute (.nil _), rfl, rfl⟩

/-- A fresh operation owns its account and nothing else. -/
structure FreshOperation (scope : BrowserOperationScope) (input : BeginBrowserOperation)
    (op : BrowserOperation) : Prop where
  operationId : op.operationId = input.operationId
  scope : op.scope = scope
  accountId : op.accountId = input.accountId
  verified : op.loginVerifiedAccountId = none
  live : op.state = .prepared

theorem prepare_fresh (h : prepare scope input at_ = .ok op) : FreshOperation scope input op := by
  simp only [prepare, Except.eq_ok_iff] at h
  obtain ⟨_, -, rfl⟩ := h
  exact ⟨rfl, rfl, rfl, rfl, rfl⟩

theorem pinNetwork_fresh {op' : BrowserOperation} {selection : BrowserNetworkSelection}
    (hop : FreshOperation scope input op) (h : op.pinNetwork selection binding = .ok op') :
    FreshOperation scope input op' ∧ op'.networkBindingId = some binding.bindingId
      ∧ op'.effectiveNetwork = binding.effectiveNetwork := by
  simp only [pinNetwork, Except.eq_ok_iff] at h
  obtain ⟨_, -, _, -, rfl⟩ := h
  exact ⟨⟨hop.operationId, hop.scope, hop.accountId, hop.verified, hop.live⟩, rfl, rfl⟩

/-- A begin returns a stored operation again, or a fresh one for a free account. -/
theorem prepareMemoryBrowser_cases (h : s.prepareMemoryBrowser scope input at_ = .ok op) :
    (s.operations.lookup input.operationId = some op ∧ op.operationId = input.operationId)
    ∨ (s.operations.lookup input.operationId = none ∧ FreshOperation scope input op
      ∧ s.operations.busy scope.operatorId input.accountId = false
      ∧ ∀ selection ∈ input.networkSelection, selection.historicalBindingId = none → PinnedTo s.networks op) := by
  simp only [prepareMemoryBrowser, Except.bind_eq_ok] at h
  obtain ⟨_, hprepared, h⟩ := h
  have hfresh := prepare_fresh hprepared
  split at h
  · next existing hexisting =>
    simp only [Except.eq_ok_iff, not_not] at h
    obtain ⟨replayed, hreplayed, _, hmatches, rfl⟩ := h
    refine .inl ⟨hexisting, ?_⟩
    -- A replay keeps the id of the request, and the stored operation has the same.
    have hid : replayed.operationId = input.operationId := by
      unfold replayNetwork at hreplayed
      split at hreplayed
      · split at hreplayed
        · obtain rfl := Except.ok.inj hreplayed
          exact hfresh.operationId
        · simp at hreplayed
      · obtain rfl := Except.ok.inj hreplayed
        exact hfresh.operationId
      · simp at hreplayed
    simp only [matchesBegin, decide_eq_true_eq] at hmatches
    exact hmatches.2.2.1.trans hid
  · next hnone =>
    simp only [Except.eq_ok_iff, not_exists, not_and, not_or, Bool.not_eq_true] at h
    obtain ⟨_, -, _, hfree, _, -, h⟩ := h
    have hbusy : s.operations.busy scope.operatorId input.accountId = false := by
      rw [Operations.busy_eq_false]
      exact fun id op hid => (hfree op (AssocMap.mem_values.mpr ⟨id, hid⟩)).2
    refine .inr ⟨hnone, ?_⟩
    split at h
    · next selection hselection =>
      simp only [Except.eq_ok_iff, Option.filter_eq_some_iff] at h
      obtain ⟨head, ⟨hhead, -⟩, _, hbinding, hpin⟩ := h
      obtain ⟨hpinned, hid, hnetwork⟩ := pinNetwork_fresh hfresh hpin
      refine ⟨hpinned, hbusy, ?_⟩
      rw [hselection]
      rintro _ ⟨⟩ hcurrent
      unfold selectedBinding at hbinding
      rw [hcurrent] at hbinding
      obtain rfl := Except.pure_eq_ok.mp hbinding
      refine ⟨head, ?_, hid, hnetwork⟩
      rw [hpinned.scope, hpinned.accountId]
      exact hhead
    · next hselection =>
      obtain rfl := Except.pure_eq_ok.mp h
      refine ⟨hfresh, hbusy, ?_⟩
      rw [hselection]
      rintro _ ⟨⟩

theorem FreshOperation.admitted (hfresh : FreshOperation scope input op)
    (hnew : s.operations.lookup input.operationId = none)
    (hfree : s.operations.busy scope.operatorId input.accountId = false)
    (hpinned : ∀ selection ∈ input.networkSelection, selection.historicalBindingId = none → PinnedTo s.networks op)
    (hgates : s'.gates = (s.admitBrowser op).gates) (hoperations : s'.operations = (s.admitBrowser op).operations)
    (hnetworks : s'.networks = s.networks) : Admitted s input op s' where
  new := by rw [hfresh.operationId, hnew]
  free := by rw [hfresh.scope, hfresh.accountId, hfree]
  fresh := hfresh.verified
  pinned := hpinned
  gates k := by
    rw [hgates]
    exact AssocMap.lookup_insert ..
  operations id := by
    rw [hoperations]
    exact AssocMap.lookup_insert ..
  networks := hnetworks

theorem beginBrowserOperation_cases (h : Op.Returns (beginBrowserOperation scope input at_) s op s') :
    (op.operationId ∈ s.operations ∧ s' = s) ∨ Admitted s input op s' := by
  simp only [beginBrowserOperation, Op.returns_iff] at h
  obtain ⟨_, _, ⟨rfl, rfl⟩, _, _, ⟨hprepare, rfl⟩, h⟩ := h
  simp only [id_eq] at hprepare h
  split at h
  · next hstored =>
    rw [Op.returns_pure] at h
    obtain ⟨rfl, rfl⟩ := h
    exact .inl ⟨hstored, rfl⟩
  · next hvacant =>
    simp only [Op.returns_iff] at h
    obtain ⟨_, _, rfl, rfl, rfl⟩ := h
    rcases prepareMemoryBrowser_cases hprepare with ⟨hstored, hid⟩ | ⟨hnew, hfresh, hfree, hpinned⟩
    · refine absurd (lookup_isSome.mp ?_) hvacant
      rw [hid, hstored]
      rfl
    · exact .inr (hfresh.admitted hnew hfree hpinned rfl rfl rfl)

theorem beginLoginQueueItem_admitted {scope : OperatorLoginQueueScope} {expected : Int} {owner : Uuid}
    {reply : OperatorLoginQueue × BrowserOperation}
    (h : Op.Returns (beginLoginQueueItem channels scope id expected owner input at_) s reply s') :
    Admitted s input reply.2 s' := by
  simp only [beginLoginQueueItem, ownQueue, Op.returns_iff] at h
  obtain ⟨queue, _, ⟨_, _, ⟨rfl, rfl⟩, -, rfl⟩, staged, _, ⟨-, rfl⟩, _, _, ⟨rfl, rfl⟩, account, _,
    ⟨-, rfl⟩, _, _, ⟨-, rfl⟩, sessions, _, ⟨-, rfl⟩, _, _, ⟨-, rfl⟩, op, _, ⟨hprepare, rfl⟩, _, _,
    ⟨hvacant, rfl⟩, h⟩ := h
  have hs' : reply.2 = op ∧ s'.gates = (s.admitBrowser op).gates
      ∧ s'.operations = (s.admitBrowser op).operations ∧ s'.networks = s.networks := by
    cases hselection : input.networkSelection <;> simp only [hselection, Op.returns_iff] at h
    · obtain ⟨_, _, ⟨-, rfl⟩, _, _, rfl, rfl, rfl⟩ := h
      exact ⟨rfl, rfl, rfl, rfl⟩
    · obtain ⟨_, _, ⟨-, rfl⟩, _, _, ⟨-, rfl⟩, _, _, rfl, rfl, rfl⟩ := h
      exact ⟨rfl, rfl, rfl, rfl⟩
  obtain ⟨rfl, hgates, hoperations, hnetworks⟩ := hs'
  rcases prepareMemoryBrowser_cases hprepare with ⟨hstored, hid⟩ | ⟨hnew, hfresh, hfree, hpinned⟩
  · refine absurd (lookup_isSome.mp ?_) hvacant
    rw [hid, hstored]
    rfl
  · exact hfresh.admitted hnew hfree hpinned hgates hoperations hnetworks

theorem beginBrowserOperation_effect (h : Op.Returns (beginBrowserOperation scope input at_) s op s') :
    OwnershipEffect s e s' := by
  rcases beginBrowserOperation_cases h with ⟨-, rfl⟩ | h
  · exact .same ⟨fun _ => rfl, fun _ => rfl, fun _ => rfl, fun _ => rfl⟩
  · exact .begun input op h

@[simp]
theorem BrowserOperation.enter_state (op : BrowserOperation) (next : BrowserOperationState)
    (at_ : DateTime) : (op.enter next at_).state = next := by
  unfold enter
  split
  · rfl
  · next h => exact not_not.mp h

theorem SameOwnership.enter {op₀ : BrowserOperation} (h : SameOwnership op₀ op) (next : BrowserOperationState)
    (at_ : DateTime) : SameOwnership op₀ (op.enter next at_) := by
  unfold BrowserOperation.enter
  split
  · exact ⟨h.operationId, h.scope, h.accountId, h.verified, h.reservationId, h.binding, h.network⟩
  · exact h

/-- A transition is asked for in the scope of the operation, keeps what it owns, and never leaves
the disposed state. -/
theorem BrowserOperation.transition_ok {result : BrowserOperation} (h : op.transition scope action at_ = .ok result) :
    op.scope = scope ∧ SameOwnership op result ∧ (op.state = .disposed → result.state = .disposed) := by
  simp only [transition, Except.eq_ok_iff, not_not] at h
  obtain ⟨_, hscope, h⟩ := h
  refine ⟨hscope, ?_⟩
  have hself : SameOwnership op op := ⟨rfl, rfl, rfl, rfl, rfl, rfl, rfl⟩
  cases action with
  | start =>
    cases hstate : op.state <;> simp only [hstate] at h
    case prepared =>
      simp only [Except.eq_ok_iff] at h
      obtain ⟨_, -, rfl⟩ := h
      exact ⟨hself.enter _ _, by simp⟩
    case startRequested =>
      obtain rfl := Except.pure_eq_ok.mp h
      exact ⟨hself, by simp⟩
    all_goals simp [throw, throwThe, MonadExceptOf.throw] at h
  | close =>
    cases hstate : op.state <;> simp only [hstate, Except.pure_eq_ok] at h <;> subst h
    case closing => exact ⟨hself, by simp⟩
    case disposed => exact ⟨hself, fun _ => hstate⟩
    all_goals
      refine ⟨SameOwnership.enter ?_ _ _, by simp⟩
      exact ⟨rfl, rfl, rfl, rfl, rfl, rfl, rfl⟩
  | releaseUnstarted =>
    cases hstate : op.state <;> simp only [hstate] at h
    case prepared =>
      obtain rfl := Except.pure_eq_ok.mp h
      refine ⟨SameOwnership.enter ?_ _ _, by simp⟩
      exact ⟨rfl, rfl, rfl, rfl, rfl, rfl, rfl⟩
    case disposed =>
      simp only [Except.eq_ok_iff] at h
      obtain ⟨_, -, rfl⟩ := h
      exact ⟨hself, fun _ => hstate⟩
    all_goals simp [throw, throwThe, MonadExceptOf.throw] at h
  | disposed sessionId runnerGeneration =>
    simp only [Except.eq_ok_iff] at h
    obtain ⟨_, -, rfl⟩ := h
    exact ⟨hself.enter _ _, by simp⟩
  | defer nextCheckAt =>
    simp only [Except.eq_ok_iff] at h
    obtain ⟨_, -, rfl⟩ := h
    exact ⟨⟨rfl, rfl, rfl, rfl, rfl, rfl, rfl⟩, fun hstate => hstate⟩

theorem claimBrowserStart_effect {reply : Option BrowserOperation}
    (h : Op.Returns (claimBrowserStart scope id at_) s reply s') : OwnershipEffect s e s' := by
  simp only [claimBrowserStart, Op.returns_iff] at h
  obtain ⟨_, _, ⟨rfl, rfl⟩, op, _, ⟨hop, rfl⟩, _, _, ⟨-, rfl⟩, h⟩ := h
  split at h
  · rw [Op.returns_pure] at h
    obtain ⟨-, rfl⟩ := h
    exact .same ⟨fun _ => rfl, fun _ => rfl, fun _ => rfl, fun _ => rfl⟩
  · simp only [Op.returns_iff, not_not] at h
    obtain ⟨_, _, ⟨hprepared, rfl⟩, result, _, ⟨hresult, rfl⟩, _, _, rfl, -, rfl⟩ := h
    obtain ⟨-, hsame, hkept⟩ := transition_ok hresult
    refine .advanced id op result hop hsame ⟨?_, hkept⟩ rfl (fun k => AssocMap.lookup_insert ..) rfl
    -- A start never disposes.
    intro hdisposed
    simp only [BrowserOperation.transition, hprepared, Except.eq_ok_iff] at hresult
    obtain ⟨_, -, _, -, rfl⟩ := hresult
    simp at hdisposed

theorem transitionBrowserOperation_effect {reply : BrowserOperation}
    (h : Op.Returns (transitionBrowserOperation scope id action at_) s reply s') : OwnershipEffect s e s' := by
  simp only [transitionBrowserOperation, Op.returns_iff] at h
  obtain ⟨_, _, ⟨rfl, rfl⟩, op, _, ⟨hop, rfl⟩, result, _, ⟨hresult, rfl⟩, _, _, rfl, h⟩ := h
  obtain ⟨rfl, hsame, hkept⟩ := transition_ok hresult
  split at h
  · next hdisposal =>
    simp only [Op.returns_iff] at h
    obtain ⟨_, _, rfl, -, rfl⟩ := h
    exact .disposed id op result hop hsame hdisposal.1 hdisposal.2 (foldl_releaseOwned ..)
  · next hdisposal =>
    rw [Op.returns_pure] at h
    obtain ⟨-, rfl⟩ := h
    refine .advanced id op result hop hsame ⟨?_, hkept⟩ rfl (fun k => AssocMap.lookup_insert ..) rfl
    intro hdisposed
    by_contra hlive
    exact hdisposal ⟨hlive, hdisposed⟩

theorem saveOwnedLoginSession_saved {storage : VerifiedLoginStorage}
    (h : Op.Returns (saveOwnedLoginSession channels scope id storage at_) s reply s') :
    ∃ op, Saved s id storage at_ op s' := by
  simp only [saveOwnedLoginSession, Op.returns_iff, id_eq] at h
  obtain ⟨_, _, ⟨rfl, rfl⟩, op, _, ⟨hop, rfl⟩, _, _, ⟨hcommit, rfl⟩, _, _, ⟨-, rfl⟩, h⟩ := h
  simp only [validateLoginCommit, Except.eq_ok_iff, not_or, not_not] at hcommit
  obtain ⟨_, ⟨rfl, haccount, -, hstarted, -⟩, -⟩ := hcommit
  have hlive : op.state ≠ .disposed := by
    rw [hstarted]
    simp
  refine ⟨op, ?_⟩
  cases hreconnect : storage.reconnect with
  | none =>
    simp only [hreconnect, Option.elim_none, Option.isSome_none, Bool.false_eq_true, if_false, Op.returns_iff] at haccount h
    obtain ⟨_, _, ⟨-, rfl⟩, _, _, ⟨-, rfl⟩, rfl⟩ := h
    exact ⟨hop, hlive, .inl ⟨haccount.symm, rfl⟩, fun k => AssocMap.lookup_insert .., rfl⟩
  | some reconnect =>
    simp only [hreconnect, Option.isSome_some, if_true, checkReconnect, Op.returns_iff, Except.eq_ok_iff, not_or,
      Bool.not_eq_true] at h
    obtain ⟨_, _, ⟨⟨_, ⟨-, hfree⟩, -⟩, rfl⟩, _, _, ⟨-, rfl⟩, _, _, rfl, rfl⟩ := h
    exact ⟨hop, hlive, .inr ⟨hfree, fun k => AssocMap.lookup_insert ..⟩, fun k => AssocMap.lookup_insert .., rfl⟩

/-! ### Every step -/

theorem returns_answer {α : Type} {f : α → JobReply} {x : JobOp α} {reply : JobReply} :
    Op.Returns (answer f x) s reply s' ↔ ∃ a, Op.Returns x s a s' ∧ f a = reply := by
  simp only [answer, Op.returns_iff]
  constructor
  · rintro ⟨a, _, h, hreply, rfl⟩
    exact ⟨a, h, hreply⟩
  · rintro ⟨a, h, hreply⟩
    exact ⟨a, s', h, hreply, rfl⟩

/-- Gates, operations and networks. -/
def browserSide (s : MemoryChannelJobRepository) : Gates × Operations × MemoryAccountNetworks :=
  (s.gates, s.operations, s.networks)

theorem SameBrowser.of_eq (h : browserSide s' = browserSide s) : SameBrowser s s' := by
  obtain ⟨hg, ho, hn⟩ : s'.gates = s.gates ∧ s'.operations = s.operations ∧ s'.networks = s.networks := by
    simpa [browserSide] using h
  refine ⟨fun k => ?_, fun id => ?_, fun k => ?_, fun id => ?_⟩
  · rw [hg]
  · rw [ho]
  · rw [hn]
  · rw [hn]

section Runs

variable [Sha256] [UrlParser] [InstantText]

variable {call : JobCall}

/-- A call that works on the ledger or the login queues keeps the browser side. -/
theorem browserSide_kept (h : call.onBrowser = false) : (run call).Keeps browserSide := by
  cases call
  all_goals first | (simp [JobCall.onBrowser] at h; done) | skip
  all_goals
    refine Op.Keeps.bind ?_ fun _ => .of_readOnly .pure
    first
    | exact Op.Keeps.zoom fun _ _ => rfl
    | unfold claimWithdrawal
    | unfold createLoginQueue
    | unfold applyLoginQueueAction
    | unfold pauseLoginQueueError
    repeat' first
      | exact Op.Keeps.zoom fun _ _ => rfl
      | refine Op.Keeps.bind ?_ fun _ => ?_
      | split
      | (apply Op.Keeps.of_readOnly; simp)
      | exact Op.Keeps.modify fun _ => rfl

/-- What a successful call does to gates, operations and networks. -/
theorem returns_browserEffect {reply : JobReply}
    (h : Op.Returns (run call) s reply s') : BrowserEffect s (.call call (.ok reply)) s' := by
  by_cases hbrowser : call.onBrowser = false
  · refine .owned ?_ (.same (.of_eq ((browserSide_kept hbrowser).returns h)))
    cases call <;> first | rfl | simp [JobCall.onBrowser] at hbrowser
  have hcall : (JobEvent.call call (.ok reply)).Did call := ⟨reply, rfl⟩
  cases call
  all_goals first | exact absurd rfl hbrowser | skip
  all_goals obtain ⟨_, hret, rfl⟩ := returns_answer.mp h
  case reserveAccount => exact .owned rfl (reserveAccount_effect hret).2
  case releaseAccount => exact .owned rfl (releaseAccount_effect hret).2
  case claimReserved => exact .owned rfl (claimReserved_ownership hret)
  case setProjectNetworkDefaults =>
    obtain ⟨hrouted, hgates, hoperations⟩ := setProjectNetworkDefaults_routed hret
    exact .routed hrouted hgates hoperations
  case setAccountNetworkWithMetadata =>
    obtain ⟨hrouted, hgates, hoperations⟩ := setAccountNetworkWithMetadata_routed hret
    exact .routed hrouted hgates hoperations
  case beginBrowserOperation => exact .owned rfl (beginBrowserOperation_effect hret)
  case claimBrowserStart => exact .owned rfl (claimBrowserStart_effect hret)
  case saveOwnedLoginSession =>
    obtain ⟨op, hsaved⟩ := saveOwnedLoginSession_saved hret
    exact .owned rfl (.saved _ _ _ _ _ op hcall hsaved)
  case transitionBrowserOperation => exact .owned rfl (transitionBrowserOperation_effect hret)
  case beginLoginQueueItem => exact .owned rfl (.begun _ _ (beginLoginQueueItem_admitted hret))

/-- What a step of the machine does to gates, operations and networks. -/
theorem step_browserEffect (h : jobMachine.step s e s') : BrowserEffect s e s' := by
  cases e with
  | reorder =>
    exact .owned rfl (.same ⟨fun k => (h.gates.lookup_eq k).symm, fun id => (h.operations.lookup_eq id).symm,
      fun k => (h.heads.lookup_eq k).symm, fun id => (h.bindings.lookup_eq id).symm⟩)
  | call call reply =>
    cases reply with
    | ok reply => exact returns_browserEffect h
    | error err =>
      obtain ⟨-, hgates, hoperations, hnetworks, -⟩ := failed_call h
      refine .owned rfl (.same (.of_eq ?_))
      simp [browserSide, hgates, hoperations, hnetworks]

theorem step_saved {storage : VerifiedLoginStorage} (h : jobMachine.step s e s')
    (hcall : e.Did (.saveOwnedLoginSession channels scope id storage at_)) : ∃ op, Saved s id storage at_ op s' := by
  obtain ⟨_, rfl⟩ := hcall
  obtain ⟨_, hret, -⟩ := returns_answer.mp h
  exact saveOwnedLoginSession_saved hret

theorem step_begins (h : jobMachine.step s e s') (hbegins : e.begins = some (input, op))
    (hnew : s.operations.lookup op.operationId = none) : Admitted s input op s' := by
  unfold JobEvent.begins at hbegins
  split at hbegins
  · obtain ⟨rfl, rfl⟩ := Prod.mk.inj (Option.some.inj hbegins)
    obtain ⟨_, hret, hreply⟩ := returns_answer.mp h
    obtain rfl := JobReply.operation.inj hreply
    rcases beginBrowserOperation_cases hret with ⟨hstored, -⟩ | h
    · rw [lookup_eq_none] at hnew
      exact absurd hstored hnew
    · exact h
  · obtain ⟨rfl, rfl⟩ := Prod.mk.inj (Option.some.inj hbegins)
    obtain ⟨_, hret, hreply⟩ := returns_answer.mp h
    obtain rfl := (JobReply.queueOperation.inj hreply).2
    exact beginLoginQueueItem_admitted hret
  · simp at hbegins

end Runs

end GeoMaster
