import GeoMaster.Proofs.RouteStability

/-!
# No route waits for a browser that is gone

A route set while a browser holds the account waits until the browser is disposed, which promotes it.
This is so as long as an operation gives up no second account with a waiting route while it lives:
a second login moves the operation from one second account to another, and its disposal then looks at
the later one only. `KeepsWaitingAccounts` rules exactly that step out.
-/

namespace GeoMaster

open AssocMap Option BrowserOperation Operations AccountNetworkBindings

open MemoryChannelJobRepository

/-! ### The last route set for an account -/

/-- The last of some bindings that is for an account. -/
def lastRoute (stored : List AccountNetworkBinding) (key : Uuid × Uuid) : Option AccountNetworkBinding :=
  (stored.filter fun binding => binding.key = key).getLast?

/-- The bindings a run has stored, in order. -/
def routesOf (h : List JobEvent) : List AccountNetworkBinding :=
  h.flatMap JobEvent.routes

theorem lastRoute_cons (binding : AccountNetworkBinding) (rest : List AccountNetworkBinding) (key : Uuid × Uuid) :
    lastRoute (binding :: rest) key = (lastRoute rest key).or (if binding.key = key then some binding else none) := by
  unfold lastRoute
  rw [List.filter_cons]
  split
  · next h =>
    rw [List.getLast?_cons, if_pos (by simpa using h)]
    cases (rest.filter fun binding => binding.key = key).getLast? <;> rfl
  · next h =>
    rw [if_neg (by simpa using h), or_none]

theorem lastRoute_append (stored stored' : List AccountNetworkBinding) (key : Uuid × Uuid) :
    lastRoute (stored ++ stored') key = (lastRoute stored' key).or (lastRoute stored key) := by
  rw [lastRoute, List.filter_append, List.getLast?_append]
  rfl

section Routed

variable {operations : Operations} {networks networks' : MemoryAccountNetworks} {stored : List AccountNetworkBinding}

/-- After bindings were stored, the head of an account asks for the last of them. -/
theorem Routed.desired (h : Routed operations networks stored networks') (key : Uuid × Uuid) :
    (∀ b, lastRoute stored key = some b → ∃ head, networks'.heads.lookup key = some head ∧ head.desired = b)
    ∧ (lastRoute stored key = none → networks'.heads.lookup key = networks.heads.lookup key) := by
  induction h with
  | nil networks => exact ⟨fun b hb => by simp [lastRoute] at hb, fun _ => rfl⟩
  | @cons _ _ _ _ rest hset _ ih =>
    obtain ⟨hsome, hnone⟩ := ih
    rw [lastRoute_cons]
    cases hlast : lastRoute rest key with
    | some b' =>
      refine ⟨fun b hb => ?_, fun h => by simp at h⟩
      obtain rfl : b' = b := by simpa using hb
      exact hsome b' hlast
    | none =>
      rw [hnone hlast, none_or]
      split
      · next hkey =>
        subst hkey
        obtain ⟨head, hhead, hdesired, -⟩ := hset.head
        refine ⟨fun b hb => ⟨head, hhead, ?_⟩, fun h => by simp at h⟩
        rw [hdesired]
        exact some.inj hb
      · next hkey => exact ⟨fun b hb => by simp at hb, fun _ => hset.others key (Ne.symm hkey)⟩

/-- Storing bindings lets no route wait for an account that is free. -/
theorem Routed.waits_busy (h : Routed operations networks stored networks')
    (hn : ∀ operator a head, networks.heads.lookup (OperatorId.asUuid operator, a) = some head →
      head.waits → operations.busy operator a = true)
    (operator : OperatorId) (a : Uuid) (head : AccountNetworkBindings)
    (hhead : networks'.heads.lookup (operator.asUuid, a) = some head) (hwaits : head.waits) :
    operations.busy operator a = true := by
  induction h with
  | nil networks => exact hn operator a head hhead hwaits
  | @cons _ _ _ binding _ hset _ ih =>
    refine ih (fun operator a head hhead hwaits => ?_) hhead
    by_cases hkey : (operator.asUuid, a) = binding.key
    · obtain ⟨_, hhead₁, -, hbusy, -⟩ := hset.head
      rw [hkey, hhead₁] at hhead
      obtain rfl := some.inj hhead
      obtain ⟨rfl, rfl⟩ := accountKey_inj hkey
      exact hbusy hwaits
    · rw [hset.others _ hkey] at hhead
      exact hn operator a head hhead hwaits

end Routed

/-- Disposal keeps the route an account asks for. -/
@[simp]
theorem promoteHead_desired (head : AccountNetworkBindings) : (promoteHead head).desired = head.desired := by
  unfold promoteHead desired
  cases head.pending <;> rfl

theorem promoteHead_not_waits (head : AccountNetworkBindings) : ¬ (promoteHead head).waits := by
  unfold promoteHead AccountNetworkBindings.waits
  cases head.pending <;> simp

/-! ### Every run -/

/-- A login that is saved does not move its operation away from a second account whose route is
waiting. -/
def KeepsWaitingAccounts (s : MemoryChannelJobRepository) (e : JobEvent) : Prop :=
  ∀ channels scope id storage at_ op other head, e.Did (.saveOwnedLoginSession channels scope id storage at_) →
    s.operations.lookup id = some op → op.loginVerifiedAccountId = some other → other ≠ op.accountId → other
    ≠ storage.accountId → s.networks.heads.lookup (op.scope.operatorId.asUuid, other) = some head → ¬ head.waits

/-- A waiting route belongs to a busy account, and every head asks for the last route set. -/
structure RoutesSettled (h : List JobEvent) (s : MemoryChannelJobRepository) : Prop where
  waits : ∀ operator a head, s.networks.heads.lookup (OperatorId.asUuid operator, a) = some head →
    head.waits → s.operations.busy operator a = true
  last : ∀ key b, lastRoute (routesOf h) key = some b →
    ∃ head, s.networks.heads.lookup key = some head ∧ head.desired = b

section Steps

variable {s s' : MemoryChannelJobRepository} {e : JobEvent}

/-- An account stays busy when the operations change as given. -/
theorem busy_of_update {operator : OperatorId} {a : Uuid} {id : Uuid} {new : BrowserOperation}
    (hbusy : s.operations.busy operator a = true)
    (hnew : ∀ old, s.operations.lookup id = some old → old.liveOwner operator a = true →
      new.liveOwner operator a = true)
    (ho : ∀ id', s'.operations.lookup id' = if id' = id then some new else s.operations.lookup id') :
    s'.operations.busy operator a = true := by
  obtain ⟨id', op, hop, hlive⟩ := busy_iff.mp hbusy
  rw [busy_iff]
  by_cases hid : id' = id
  · subst hid
    exact ⟨id', new, by rw [ho, if_pos rfl], hnew op hop hlive⟩
  · exact ⟨id', op, by rw [ho, if_neg hid, hop], hlive⟩

theorem OwnershipEffect.waits_busy (h : OwnershipEffect s e s') (hex : Exclusive s) (hok : KeepsWaitingAccounts s e)
    (hs : ∀ operator a head, s.networks.heads.lookup (OperatorId.asUuid operator, a) = some head →
      head.waits → s.operations.busy operator a = true)
    (operator : OperatorId) (a : Uuid) (head : AccountNetworkBindings)
    (hhead : s'.networks.heads.lookup (operator.asUuid, a) = some head) (hwaits : head.waits) :
    s'.operations.busy operator a = true := by
  cases h with
  | same h =>
    rw [h.heads] at hhead
    obtain ⟨id, op, hop, hlive⟩ := busy_iff.mp (hs operator a head hhead hwaits)
    exact busy_iff.mpr ⟨id, op, by rw [h.operations, hop], hlive⟩
  | gate _ _ _ _ _ hoperations hnetworks =>
    rw [hnetworks] at hhead
    rw [hoperations]
    exact hs operator a head hhead hwaits
  | begun _ _ h =>
    rw [h.networks] at hhead
    refine busy_of_update (hs operator a head hhead hwaits) (fun old hold _ => ?_) h.operations
    rw [h.new] at hold
    simp at hold
  | advanced _ op _ hstored hsame hstate _ hoperations hnetworks =>
    rw [hnetworks] at hhead
    refine busy_of_update (hs operator a head hhead hwaits) (fun old hold hlive => ?_) hoperations
    obtain rfl : op = old := some.inj (hstored.symm.trans hold)
    rw [liveOwner_iff, ownsAccount_iff] at hlive ⊢
    rw [hsame.scope, hsame.accountId, hsame.verified]
    exact ⟨hlive.1, hlive.2.1, fun hdisposed => hlive.2.2 (hstate.mp hdisposed)⟩
  | saved channels scope id storage at_ op hcall h =>
    rw [h.networks] at hhead
    refine busy_of_update (hs operator a head hhead hwaits) (fun old hold hlive => ?_) h.operations
    obtain rfl : op = old := some.inj (h.stored.symm.trans hold)
    rw [liveOwner_iff, ownsAccount_iff] at hlive ⊢
    obtain ⟨rfl, howns, hstate⟩ := hlive
    refine ⟨rfl, ?_, hstate⟩
    -- A second account with a waiting route is not left behind.
    by_contra hlost
    simp only [not_or] at hlost
    obtain ⟨hfirst, hsecond⟩ := hlost
    exact hok channels scope id storage at_ op a head hcall h.stored
      (howns.resolve_left hfirst) (Ne.symm hfirst) (fun heq => hsecond (by rw [heq])) hhead hwaits
  | disposed id op op' hstored hsame _ _ hreleased =>
    have ho : ∀ id', s'.operations.lookup id' = if id' = id then some op' else s.operations.lookup id' := by
      intro id'
      rw [hreleased.operations, lookup_insert]
    by_cases hrel : ∃ b ∈ ownedAccounts op', Released { s with
        operations := s.operations.insert id op' } op.scope id op' b
        ∧ (operator.asUuid, a) = (op.scope.operatorId.asUuid, b)
    · obtain ⟨b, hb, hgiven, hkey⟩ := hrel
      rw [hkey, (hreleased.released b hb hgiven).2] at hhead
      obtain ⟨old, -, rfl⟩ := map_eq_some_iff.mp hhead
      exact absurd hwaits (promoteHead_not_waits old)
    · rw [(hreleased.kept _ fun b hb hgiven hkey => hrel ⟨b, hb, hgiven, hkey⟩).2] at hhead
      refine busy_of_update (hs operator a head hhead hwaits) (fun old hold howns => ?_) ho
      -- The disposed operation would have given its own account up.
      obtain rfl : op = old := some.inj (hstored.symm.trans hold)
      have howned := (liveOwner_iff.mp howns).2.1
      obtain rfl : op.scope.operatorId = operator := (liveOwner_iff.mp howns).1
      refine absurd ⟨a, ?_, ⟨fun k other hother hne => ?_, ?_⟩, rfl⟩ hrel
      · rw [mem_ownedAccounts, ownsAccount_iff, hsame.accountId, hsame.verified, ← ownsAccount_iff]
        exact howned
      · rw [lookup_insert] at hother
        split at hother
        · obtain rfl := some.inj hother
          exact absurd (hsame.operationId.trans (hex.keyed id op hstored)) hne
        · next hk =>
          rw [← Bool.not_eq_true]
          exact fun hlive' => hk (hex.alone k id other op _ a hother hstored hlive' howns)
      · rw [hsame.reservationId]
        exact hex.gated id op op.scope.operatorId a hstored howns

/-- Every effect on who owns what keeps the route an account asks for. -/
theorem OwnershipEffect.desired_kept (h : OwnershipEffect s e s') {key : Uuid × Uuid}
    {head : AccountNetworkBindings} (hhead : s.networks.heads.lookup key = some head) :
    ∃ head', s'.networks.heads.lookup key = some head' ∧ head'.desired = head.desired := by
  cases h with
  | same h => exact ⟨head, by rw [h.heads, hhead], rfl⟩
  | gate _ _ _ _ _ _ hnetworks => exact ⟨head, by rw [hnetworks, hhead], rfl⟩
  | begun _ _ h => exact ⟨head, by rw [h.networks, hhead], rfl⟩
  | advanced _ _ _ _ _ _ _ _ hnetworks => exact ⟨head, by rw [hnetworks, hhead], rfl⟩
  | saved _ _ _ _ _ _ _ h => exact ⟨head, by rw [h.networks, hhead], rfl⟩
  | disposed id op op' _ _ _ _ hreleased =>
    by_cases hrel : ∃ b ∈ ownedAccounts op', Released { s with
        operations := s.operations.insert id op' } op.scope id op' b
        ∧ key = (op.scope.operatorId.asUuid, b)
    · obtain ⟨b, hb, hgiven, rfl⟩ := hrel
      refine ⟨promoteHead head, ?_, promoteHead_desired head⟩
      rw [(hreleased.released b hb hgiven).2]
      exact map_eq_some_iff.mpr ⟨head, hhead, rfl⟩
    · refine ⟨head, ?_, rfl⟩
      rw [(hreleased.kept key fun b hb hgiven hkey => hrel ⟨b, hb, hgiven, hkey⟩).2]
      exact hhead

/-- Every step that meets the condition keeps the routes settled. -/
theorem BrowserEffect.settled {h : List JobEvent} (heffect : BrowserEffect s e s') (hex : Exclusive s)
    (hok : KeepsWaitingAccounts s e) (hs : RoutesSettled h s) : RoutesSettled (h ++ [e]) s' := by
  have hroutes : routesOf (h ++ [e]) = routesOf h ++ e.routes := by simp [routesOf]
  constructor
  · cases heffect with
    | routed hrouted _ hoperations =>
      rw [hoperations]
      exact hrouted.waits_busy hs.waits
    | owned hnone heffect => exact heffect.waits_busy hex hok hs.waits
  · intro key b hb
    rw [hroutes, lastRoute_append] at hb
    cases heffect with
    | routed hrouted =>
      obtain ⟨hsome, hnone⟩ := hrouted.desired key
      cases hlast : lastRoute e.routes key with
      | some b' =>
        rw [hlast, some_or] at hb
        obtain rfl := some.inj hb
        exact hsome b' hlast
      | none =>
        rw [hlast, none_or] at hb
        rw [hnone hlast]
        exact hs.last key b hb
    | owned hnone heffect =>
      rw [hnone] at hb
      obtain ⟨_, hhead, rfl⟩ := hs.last key b hb
      exact heffect.desired_kept hhead

end Steps

section Runs

variable [Sha256] [UrlParser] [InstantText]

theorem run_settled {h : List JobEvent} {s : MemoryChannelJobRepository}
    (hr : (jobMachine.restrict KeepsWaitingAccounts).Run MemoryChannelJobRepository.default h s) :
    Exclusive s ∧ RoutesSettled h s := by
  refine hr.history (I := fun h s => Exclusive s ∧ RoutesSettled h s) ?_ ⟨exclusive_default, ?_⟩
  · rintro h s e s' ⟨hex, hs⟩ ⟨hok, hstep⟩
    have heffect := step_browserEffect hstep
    exact ⟨heffect.exclusive hex, heffect.settled hex hok hs⟩
  · constructor <;> intros <;> simp_all [MemoryChannelJobRepository.default, lastRoute, routesOf]

/-- A step that does not meet the condition leaves a waiting route of a free account. -/
theorem stranded_of_not_keeps {e : JobEvent} {s s' : MemoryChannelJobRepository}
    (hex : Exclusive s) (hstep : jobMachine.step s e s') (hnot : ¬ KeepsWaitingAccounts s e) :
    ∃ operator a head, s'.networks.heads.lookup (OperatorId.asUuid operator, a) = some head
      ∧ head.waits ∧ s'.operations.busy operator a = false := by
  unfold KeepsWaitingAccounts at hnot
  push Not at hnot
  obtain ⟨channels, scope, id, storage, at_, op, other, head, hcall, hop, hverified, hfirst, hsecond,
    hhead, hwaits⟩ := hnot
  obtain ⟨op', hsaved⟩ := step_saved hstep hcall
  obtain rfl : op = op' := some.inj (hop.symm.trans hsaved.stored)
  refine ⟨op.scope.operatorId, other, head, by rw [hsaved.networks, hhead], hwaits, ?_⟩
  have hlive : op.liveOwner op.scope.operatorId other = true :=
    liveOwner_iff.mpr ⟨rfl, ownsAccount_iff.mpr (.inr hverified), hsaved.live⟩
  rw [busy_eq_false]
  intro k holder hholder
  rw [← Bool.not_eq_true]
  intro howns
  rw [hsaved.operations] at hholder
  split at hholder
  · obtain rfl := some.inj hholder
    rw [liveOwner_iff, ownsAccount_iff] at howns
    rcases howns.2.1 with heq | heq
    · exact hfirst heq.symm
    · exact hsecond (some.inj heq).symm
  · next hk => exact hk (hex.alone k id holder op _ other hholder hop howns hlive)

/-- In every run whose logins leave no second account with a waiting route behind: a waiting route
has a live owner of its account, and once an account is free its active route is the last one set and
nothing waits. A login that does leave such an account behind strands its route at once. -/
theorem pendingRoutes_settled {h : List JobEvent} {s : MemoryChannelJobRepository}
    (hr : (jobMachine.restrict KeepsWaitingAccounts).Run MemoryChannelJobRepository.default h s) :
    (∀ operator a head, s.networks.heads.lookup (OperatorId.asUuid operator, a) = some head →
      head.pending.isSome = true →
      ∃ id op, s.operations.lookup id = some op ∧ op.liveOwner operator a = true)
    ∧ (∀ operator a binding, lastRoute (routesOf h) (OperatorId.asUuid operator, a) = some binding →
      s.operations.busy operator a = false →
      ∃ head, s.networks.heads.lookup (operator.asUuid, a) = some head ∧ head.pending = none ∧ head.active = binding)
    ∧ ∀ e s', jobMachine.step s e s' → ¬ KeepsWaitingAccounts s e →
      ∃ operator a head, s'.networks.heads.lookup (OperatorId.asUuid operator, a) = some head
        ∧ head.pending.isSome = true ∧ s'.operations.busy operator a = false := by
  obtain ⟨hex, hs⟩ := run_settled hr
  refine ⟨fun operator a head hhead hwaits => ?_, fun operator a binding hlast hfree => ?_,
    fun e s' => stranded_of_not_keeps hex⟩
  · exact busy_iff.mp (hs.waits operator a head hhead hwaits)
  · obtain ⟨head, hhead, rfl⟩ := hs.last _ binding hlast
    have hnone : head.pending = none := by
      rw [← not_isSome_iff_eq_none]
      intro hwaits
      rw [hs.waits operator a head hhead hwaits] at hfree
      simp at hfree
    exact ⟨head, hhead, hnone, by rw [desired, hnone, getD_none]⟩

end Runs

namespace Sample

/-- A login of the first account that turned out to belong to another connected account. -/
def reconnectTo (accountId reservationId bindingId : Uuid) : VerifiedLoginStorage :=
  { reconnect := some { sourceAccountId := uuid 40, reservationId, networkBindingId := bindingId }
    accountId, secretScope := scope, ownerKind := .customer, platform := "zhihu"
    expectedPlatformAccountId := some "p", expectedSession := none, platformAccountId := "p"
    displayName := "", avatarUrl := none, session := ⟨[1]⟩ }

/-- Two accounts are reserved for a login that may turn out to be theirs. -/
def reserved : MemoryChannelJobRepository :=
  @after sha256 urlParser instantText MemoryChannelJobRepository.default
    [.reserveAccount scope (uuid 41) (uuid 71) 0 10, .reserveAccount scope (uuid 42) (uuid 72) 0 10]

/-- A login browser of the first account, which runs. -/
def loginRuns : List JobCall :=
  [setRoute (uuid 41) (uuid 81) none, setRoute (uuid 42) (uuid 82) none,
    .beginBrowserOperation browserScope (loginBrowser (uuid 60) (uuid 40) none none) 1,
    .transitionBrowserOperation browserScope (uuid 60) .start 1]

/-- It belongs to the second account, whose next route then has to wait. -/
def secondAccount : List JobCall :=
  loginRuns
    ++ [.saveOwnedLoginSession channels browserScope (uuid 60) (reconnectTo (uuid 41) (uuid 71) (uuid 81)) 2,
        setRoute (uuid 41) (uuid 83) (some 1)]

/-- The browser is disposed. -/
def disposal : JobCall :=
  .transitionBrowserOperation browserScope (uuid 60) (.disposed (uuid 60) (uuid 5)) 3

/-- Before that it is logged in once more, now as the third account. -/
def thirdAccount : List JobCall :=
  secondAccount
    ++ [.saveOwnedLoginSession channels browserScope (uuid 60) (reconnectTo (uuid 42) (uuid 72) (uuid 82)) 2, disposal]

/-- The accounts are reserved, the login is saved once, and the browser is disposed. -/
def loggedInOnce : List JobCall :=
  [.reserveAccount scope (uuid 41) (uuid 71) 0 10] ++ secondAccount ++ [disposal]

theorem loggedInOnce_keeps :
    @Allowed sha256 urlParser instantText KeepsWaitingAccounts MemoryChannelJobRepository.default loggedInOnce := by
  refine ⟨?_, ?_, ?_, ?_, ?_, ?_, ?_, ?_, trivial⟩
  case refine_6 =>
    rintro _ _ _ _ _ op other _ ⟨reply, heq⟩ hop hverified
    cases (JobEvent.call.inj heq).1
    have hnone : ((@after sha256 urlParser instantText MemoryChannelJobRepository.default
        (loggedInOnce.take 5)).operations.lookup (uuid 60)).bind (·.loginVerifiedAccountId) = none := by
      decide +kernel
    rw [show ((@after sha256 urlParser instantText MemoryChannelJobRepository.default
      (loggedInOnce.take 5)).operations.lookup (uuid 60)) = some op from hop] at hnone
    rw [bind_some, hverified] at hnone
    simp at hnone
  all_goals
    rintro _ _ _ _ _ _ _ _ ⟨reply, heq⟩
    cases (JobEvent.call.inj heq).1

end Sample

open Sample

/-- A login that is saved for a second account and then for a third leaves the route that waits at
the second account waiting after the browser is disposed. -/
theorem second_login_strands_route :
    ∃ (operator : OperatorId) (accountId : Uuid),
      (((@after sha256 urlParser instantText reserved
          thirdAccount).networks.heads.lookup (operator.asUuid, accountId)).any
        fun head => head.pending.isSome) = true
      ∧ (@after sha256 urlParser instantText reserved
          thirdAccount).operations.busy operator accountId = false :=
  ⟨scope.operatorId, uuid 41, by decide +kernel, by decide +kernel⟩

theorem pendingRoutes_settled_once :
    ∃ head, (@after sha256 urlParser instantText
        MemoryChannelJobRepository.default loggedInOnce).networks.heads.lookup
          (uuid 1, uuid 41) = some head
      ∧ head.pending = none ∧ head.active.bindingId = uuid 83 := by
  have hrun := @run_trace sha256 urlParser instantText KeepsWaitingAccounts
    loggedInOnce MemoryChannelJobRepository.default loggedInOnce_keeps
  have hsettled := (@pendingRoutes_settled sha256 urlParser instantText _ _ hrun).2.1
  obtain ⟨binding, hlast, hid⟩ : ∃ binding,
      lastRoute (routesOf (@trace sha256 urlParser instantText
        MemoryChannelJobRepository.default loggedInOnce))
        (uuid 1, uuid 41) = some binding ∧ binding.bindingId = uuid 83 := by
    refine map_eq_some_iff.mp ?_
    decide +kernel
  obtain ⟨head, hhead, hnone, rfl⟩ := hsettled scope.operatorId (uuid 41) binding
    hlast (by decide +kernel)
  exact ⟨head, hhead, hnone, hid⟩

end GeoMaster
