import GeoMaster.Proofs.LedgerInvariant

/-!
# The authority to send a rich publication

A run grants an attempt at most once, before it has an outcome, by the deadline and for the session
and the binding of its first registration; and a rich target has the outcome `published` only after a
grant for its attempt, and never `verified`.

All of it hangs on one condition on the claims of the run. The ledger files registrations and grants
under the attempt id alone, and `claim` takes any id, so two targets of a cycle can be claimed under
one id and then share one grant. `ClaimsFresh` excludes that, and `shared_id_publishes_twice` shows
what happens without it.
-/

namespace GeoMaster

open ChannelLedger MemoryChannelJobRepository MemoryCycle List Option AssocMap

/-! ### What a run has registered and granted -/

/-- An attempt, as a run names it. -/
structure AttemptKey where
  project : ProjectKey
  (targetId attemptId : Uuid)
  deriving DecidableEq

/-- The attempt a scope names, if the scope has a project. -/
def attemptKey (scope : TenantScope) (targetId attemptId : Uuid) : Option AttemptKey :=
  match scopeKey scope with
  | .ok project => some { project, targetId, attemptId }
  | .error _ => none

/-- The attempt an event grants. -/
def JobEvent.granted : JobEvent → Option AttemptKey
  | .call (.authorizeRichSend scope expected _ _ _) (.ok (.decision (.granted _))) =>
    attemptKey scope expected.targetId expected.attemptId
  | _ => none

/-- The registration an event makes, or finds made. -/
def JobEvent.registration : JobEvent → Option (AttemptKey × RegisterPublicationSend)
  | .call (.registerRichSend scope request _) (.ok _) =>
    (attemptKey scope request.targetId request.attemptId).map fun key => (key, request)
  | _ => none

/-- The attempts a run has granted, in order. -/
def grants (h : List JobEvent) : List AttemptKey :=
  h.filterMap JobEvent.granted

/-- The registrations a run has accepted, in order. -/
def registrations (h : List JobEvent) : List (AttemptKey × RegisterPublicationSend) :=
  h.filterMap JobEvent.registration

/-- The first registration of an attempt in a run. -/
def firstRegistration (h : List JobEvent) (key : AttemptKey) : Option RegisterPublicationSend :=
  ((registrations h).find? fun r => r.1 = key).map (·.2)

theorem grants_append (h : List JobEvent) (e : JobEvent) : grants (h ++ [e]) = grants h ++ e.granted.toList := by
  simp only [grants, filterMap_append]
  cases hg : e.granted <;> simp [hg]

theorem registrations_append (h : List JobEvent) (e : JobEvent) :
    registrations (h ++ [e]) = registrations h ++ e.registration.toList := by
  simp only [registrations, filterMap_append]
  cases hg : e.registration <;> simp [hg]

variable {c : MemoryCycle} {e : JobEvent} {h : List JobEvent} {key : AttemptKey}

theorem mem_grants_append (hkey : key ∈ grants h) : key ∈ grants (h ++ [e]) := by
  rw [grants_append]
  exact mem_append_left _ hkey

variable {request : RegisterPublicationSend} {k : ChannelScopeKey} {x : ChannelTarget}

theorem firstRegistration_append (hfirst : firstRegistration h key = some request) :
    firstRegistration (h ++ [e]) key = some request := by
  simp only [firstRegistration, map_eq_some_iff] at hfirst ⊢
  obtain ⟨r, hr, hrequest⟩ := hfirst
  refine ⟨r, ?_, hrequest⟩
  rw [registrations_append, List.find?_append, hr, some_or]

theorem firstRegistration_new (hnone : ∀ r ∈ registrations h, r.1 ≠ key)
    (he : e.registration = some (key, request)) : firstRegistration (h ++ [e]) key = some request := by
  have hold : (registrations h).find? (fun r => r.1 = key) = none := by
    rw [List.find?_eq_none]
    intro r hr
    simpa using hnone r hr
  simp [firstRegistration, registrations_append, List.find?_append, hold, he]

theorem attemptKey_of_scopeKey {scope : TenantScope} {project : ProjectKey} (h : scopeKey scope = .ok project)
    (targetId attemptId : Uuid) : attemptKey scope targetId attemptId = some { project, targetId, attemptId } := by
  simp [attemptKey, h]

/-! ### The condition on claims -/

/-- A claim in a cycle takes an id that no attempt of the cycle has. -/
def ClaimsFresh (s : MemoryChannelJobRepository) (e : JobEvent) : Prop :=
  ∀ call scope t id, e.Did call → call.claims = some (scope, t, id) →
    ∀ k c, s.ledger.lookup k = some c → scopeKey scope = .ok k.scope →
      (c.target t).isSome = true → ∀ t', c.attempt t' id = none

/-- Attempts of different targets of the entry have different ids. -/
def MemoryCycle.IdsOnce (c : MemoryCycle) : Prop :=
  ∀ t a t' a', a ∈ c.attemptsOf t → a' ∈ c.attemptsOf t' → a.attemptId = a'.attemptId → t = t'

section IdsOnce

variable [Sha256] [InstantText] {s : MemoryChannelJobRepository} {e : JobEvent}
  {k : ChannelScopeKey} {c c' : MemoryCycle}

theorem CycleEffect.idsOnce (h : CycleEffect s e k c c') (hfresh : ClaimsFresh s e)
    (hc : c.Shape k) (hids : c.IdsOnce) : c'.IdsOnce := by
  -- The attempt a step claims has an id of its own.
  have hnew {t t' : Uuid} {a b : ChannelAttempt} (ha : a ∈ c'.attemptsOf t)
      (hb : b ∈ c.attemptsOf t') (hid : b.attemptId = a.attemptId)
      (hclaim : (∃ call scope, e.Did call ∧ call.claims = some (scope, t, a.attemptId)
          ∧ scopeKey scope = .ok k.scope ∧ call.claimTime = some a.claimedAt)
        ∧ s.ledger.lookup k = some c ∧ (c.target t).isSome = true ∧ c.attemptsOf t = []
        ∧ a.outcome = none) : False := by
    obtain ⟨⟨call, scope, hcall, hclaims, hscope, -⟩, hstored, hknown, -, -⟩ := hclaim
    have hnone := hfresh call scope t a.attemptId hcall hclaims k c hstored hscope hknown t'
    have hsome := hc.attempt_of_mem hb
    rw [hid, hnone] at hsome
    simp at hsome
  intro t a t' a' ha ha' hid
  rcases h.attempt_origin ha with ⟨b, hb, hbid, -⟩ | hclaim <;>
    rcases h.attempt_origin ha' with ⟨b', hb', hbid', -⟩ | hclaim'
  · exact hids t b t' b' hb hb' (by rw [hbid, hbid', hid])
  · exact (hnew ha' hb (by rw [hbid, hid]) hclaim').elim
  · exact (hnew ha hb' (by rw [hbid', hid]) hclaim).elim
  · obtain ⟨_, _, hcall, hclaims, -⟩ := hclaim.1
    obtain ⟨_, _, hcall', hclaims', -⟩ := hclaim'.1
    obtain rfl := hcall.unique hcall'
    rw [hclaims] at hclaims'
    simp only [Option.some.injEq, Prod.mk.injEq] at hclaims'
    exact hclaims'.2.1

end IdsOnce

/-! ### The invariant -/

/-- A stored registration answers to the first registration of an attempt on a rich target, and its
grant to a grant of the run. -/
structure Registration (h : List JobEvent) (k : ChannelScopeKey) (c : MemoryCycle) (id : Uuid)
    (reg : MemorySendRegistration) (t : Uuid) (request : RegisterPublicationSend) : Prop where
  rich : ∃ x, c.target t = some x ∧ x.input.isRich = true
  attempt : ∃ a, c.attempt t id = some a
  first : firstRegistration h ⟨k.scope, t, id⟩ = some request
  session : request.runnerSessionId = reg.sessionId
  digest : request.encryptedBindingSha256 = reg.bindingSha256
  deadline : request.sendNotAfter = reg.deadline
  granted : reg.sendAuthorizedAt.isSome = true → ⟨k.scope, t, id⟩ ∈ grants h

/-- Every stored registration does. -/
def SendsKnown (h : List JobEvent) (k : ChannelScopeKey) (c : MemoryCycle) : Prop :=
  ∀ id reg, c.publicationSend.lookup id = some reg → ∃ t request, Registration h k c id reg t request

/-- Some entry of the project has the rich target and a registration for the attempt id. -/
def Registered (l : ChannelLedger) (key : AttemptKey) (P : MemorySendRegistration → Prop) : Prop :=
  ∃ k c x reg, l.lookup k = some c ∧ k.scope = key.project ∧ c.target key.targetId = some x
    ∧ x.input.isRich = true ∧ c.publicationSend.lookup key.attemptId = some reg ∧ P reg

/-- The outcomes of rich targets rest on grants. -/
def OutcomesBacked (h : List JobEvent) (k : ChannelScopeKey) (c : MemoryCycle) : Prop :=
  ∀ t x a o, c.target t = some x → x.input.isRich = true → a ∈ c.attemptsOf t →
    a.outcome = some o → o.status ≠ .verified ∧ (o.status = .published → ⟨k.scope, t, a.attemptId⟩ ∈ grants h)

structure SendInvariant (h : List JobEvent) (s : MemoryChannelJobRepository) : Prop where
  shape : LedgerShape s.ledger
  idsOnce : ∀ k c, s.ledger.lookup k = some c → c.IdsOnce
  known : ∀ k c, s.ledger.lookup k = some c → SendsKnown h k c
  registered : ∀ r ∈ registrations h, Registered s.ledger r.1 fun _ => True
  granted : ∀ key ∈ grants h, Registered s.ledger key (·.sendAuthorizedAt.isSome = true)
  outcomes : ∀ k c, s.ledger.lookup k = some c → OutcomesBacked h k c

/-- A registration keeps its values and its grant. -/
def SendGrows (c c' : MemoryCycle) : Prop :=
  ∀ id reg, c.publicationSend.lookup id = some reg →
    ∃ reg', c'.publicationSend.lookup id = some reg'
      ∧ (reg.sendAuthorizedAt.isSome = true → reg'.sendAuthorizedAt.isSome = true)

/-- A rich target is the only one of its id in the project, so what an entry with the rich target
registers is what the project registers. -/
theorem rich_entry_unique {l : ChannelLedger} (hs : LedgerShape l) {j : ChannelScopeKey} {d : MemoryCycle}
    (hk : l.lookup k = some c) (hj : l.lookup j = some d) (hscope : k.scope = j.scope) {t : Uuid}
    {y : ChannelTarget} (hx : c.target t = some x) (hxr : x.input.isRich = true) (hy : d.target t = some y)
    (hyr : y.input.isRich = true) : k = j ∧ c = d := by
  have hgen {z : ChannelTarget} (h : z.input.isRich = true) : z.input.isGenerated = true := by
    cases hz : z.input <;> simp [hz, ChannelTargetInput.isRich] at h
    rfl
  have hc := (hs.cycle k c hk).lookup_of_isGenerated hx (hgen hxr)
  have hd := (hs.cycle j d hj).lookup_of_isGenerated hy (hgen hyr)
  have hkj : k = j := hs.generatedOnce k c j d t hk hj hscope (by simp [HasGenerated, hc]) (by simp [HasGenerated, hd])
  subst hkj
  rw [hk] at hj
  exact ⟨rfl, some.inj hj⟩

/-- A registration of the run is about an entry with a rich target and a registration. -/
theorem SendInvariant.lookup_of_registered {s : MemoryChannelJobRepository}
    {P : MemorySendRegistration → Prop} (hi : SendInvariant h s) (hkey : Registered s.ledger key P)
    (hk : s.ledger.lookup k = some c) (hscope : k.scope = key.project)
    (hx : c.target key.targetId = some x) (hrich : x.input.isRich = true) :
    ∃ reg, c.publicationSend.lookup key.attemptId = some reg ∧ P reg := by
  obtain ⟨_, _, _, reg, hj, hjscope, hy, hyrich, hreg, hp⟩ := hkey
  obtain ⟨rfl, rfl⟩ := rich_entry_unique hi.shape hk hj (hscope.trans hjscope.symm) hx hrich hy hyrich
  exact ⟨reg, hreg, hp⟩

/-- A registration follows its entry through a step that keeps it. -/
theorem Registration.grows {c' : MemoryCycle} {id t : Uuid} {reg : MemorySendRegistration} (hr : Registration h k c id reg t request) (hgrows : c.Grows c')
    (hc' : c'.Shape k) : Registration (h ++ [e]) k c' id reg t request where
  rich := by
    obtain ⟨x, hx, hrich⟩ := hr.rich
    exact ⟨x, hgrows.target t x hx, hrich⟩
  attempt := by
    obtain ⟨_, ha⟩ := hr.attempt
    obtain ⟨a', ha', -⟩ := hgrows.attempt_some hc' ha
    exact ⟨a', ha'⟩
  first := firstRegistration_append hr.first
  session := hr.session
  digest := hr.digest
  deadline := hr.deadline
  granted hsent := mem_grants_append (hr.granted hsent)

/-- A recorded outcome of a rich target is not `verified`, and is `published` only behind a stored
authorization. -/
theorem recordedOutcome_backed (hrich : x.input.isRich = true) (attemptId : Uuid) (o : ChannelOutcome) :
    (recordedOutcome c x attemptId o).status ≠ .verified
      ∧ ((recordedOutcome c x attemptId o).status = .published →
        ∃ reg, c.publicationSend.lookup attemptId = some reg ∧ reg.sendAuthorizedAt.isSome = true) := by
  unfold recordedOutcome
  split
  · exact ⟨by simp, fun hpublished => by simp at hpublished⟩
  · next hkeep =>
    simp only [hrich, true_and, not_or, not_and, not_not, mem_def] at hkeep
    exact hkeep

theorem sendInvariant_default : SendInvariant [] MemoryChannelJobRepository.default where
  shape := ledgerShape_default
  idsOnce k c hk := by simp [MemoryChannelJobRepository.default] at hk
  known k c hk := by simp [MemoryChannelJobRepository.default] at hk
  registered r hr := by simp [registrations] at hr
  granted key hkey := by simp [grants] at hkey
  outcomes k c hk := by simp [MemoryChannelJobRepository.default] at hk

theorem lookup_of_insert_eq {K V : Type} [DecidableEq K] {m m' : AssocMap K V} {k : K} {v : V}
    (h : m.insert k v = m') : m'.lookup k = some v := by
  rw [← h]
  exact AList.lookup_insert m

section Step

variable [Sha256] [InstantText] {s : MemoryChannelJobRepository} {e : JobEvent}
  {h : List JobEvent} {k : ChannelScopeKey} {c c' : MemoryCycle} {l' : ChannelLedger}

theorem CycleEffect.sendGrows (heffect : CycleEffect s e k c c')
    (hentry : c = entryOrDefault s.ledger k) : SendGrows c c' := by
  intro id reg hreg
  cases heffect with
  | measured _ _ _ hfree =>
    rw [hentry, entryOrDefault, hfree, getD_none] at hreg
    simp [MemoryCycle.default] at hreg
  | registered _ _ _ _ _ _ hnone =>
    refine ⟨reg, ?_, fun h => h⟩
    rw [lookup_insert, if_neg]
    · exact hreg
    · rintro rfl
      simp [hnone] at hreg
  | authorized _ expected =>
    by_cases hid : id = expected.attemptId
    · exact ⟨_, by rw [lookup_insert, if_pos hid], fun _ => rfl⟩
    · exact ⟨reg, by rw [lookup_insert, if_neg hid, hreg], fun h => h⟩
  | _ => exact ⟨reg, hreg, fun h => h⟩

theorem LedgerEffect.registered (heffect : LedgerEffect s e l') (hs : LedgerShape s.ledger) {P : MemorySendRegistration → Prop}
    (hP : ∀ reg reg', (reg.sendAuthorizedAt.isSome = true → reg'.sendAuthorizedAt.isSome = true) → P reg → P reg')
    (hkey : Registered s.ledger key P) : Registered l' key P := by
  obtain ⟨k, c, x, reg, hk, hscope, hx, hrich, hreg, hp⟩ := hkey
  obtain ⟨c', hk', hc'⟩ := heffect.forward hk
  have hgrows : c.Grows c' ∧ SendGrows c c' := by
    rcases hc' with rfl | hcycle | ⟨now, rfl⟩
    · exact ⟨.refl _, fun id reg hreg => ⟨reg, hreg, fun h => h⟩⟩
    · have hentry := (entryOrDefault_of_lookup hk).symm
      exact ⟨hcycle.grows (hs.cycle k c hk) hentry, hcycle.sendGrows hentry⟩
    · exact ⟨grows_expireRows now c, fun id reg hreg => ⟨reg, hreg, fun h => h⟩⟩
  obtain ⟨reg', hreg', hsent⟩ := hgrows.2 key.attemptId reg hreg
  exact ⟨k, c', x, reg', hk', hscope, hgrows.1.target _ x hx, hrich, hreg', hP reg reg' hsent hp⟩

/-- After the step, every stored registration of the changed entry is known. -/
theorem CycleEffect.sendsKnown (heffect : CycleEffect s e k c c') (hi : SendInvariant h s)
    (hentry : c = entryOrDefault s.ledger k) (hc : c.Shape k) (hids : c.IdsOnce)
    (hknown : SendsKnown h k c) : SendsKnown (h ++ [e]) k c' := by
  have hc' := heffect.shape hc
  have hgrows := heffect.grows hc hentry
  -- A registration the step does not write.
  have hold {id : Uuid} {reg : MemorySendRegistration} (hreg : c.publicationSend.lookup id = some reg) :
      ∃ t request, Registration (h ++ [e]) k c' id reg t request := by
    obtain ⟨t, request, hr⟩ := hknown id reg hreg
    exact ⟨t, request, hr.grows hgrows hc'⟩
  intro id reg hreg
  cases heffect with
  | measured => simp [MemoryCycle.default] at hreg
  | registered scope request _ attempt hcall htarget hnone =>
    rw [lookup_insert] at hreg
    split at hreg
    · next hid =>
      subst hid
      obtain rfl := some.inj hreg
      obtain ⟨x, hx, hrich⟩ := htarget.rich
      obtain ⟨_, he⟩ := hcall
      -- An earlier registration of the attempt would still be stored.
      have hfirst : ∀ r ∈ registrations h, r.1 ≠ ⟨k.scope, request.targetId, request.attemptId⟩ := by
        intro r hr heq
        have hstored := hi.registered r hr
        rw [heq] at hstored
        obtain ⟨_, hlookup, -⟩ := hi.lookup_of_registered hstored htarget.stored rfl hx hrich
        simp [hnone] at hlookup
      refine ⟨request.targetId, request, ⟨x, hx, hrich⟩, ⟨attempt, htarget.found⟩, ?_, rfl, rfl, rfl,
        fun hsent => by simp at hsent⟩
      refine firstRegistration_new hfirst ?_
      simp [he, JobEvent.registration, attemptKey_of_scopeKey htarget.scope]
    · exact hold hreg
  | authorized scope expected _ _ _ _ attempt registered hcall htarget hregistered =>
    rw [lookup_insert] at hreg
    split at hreg
    · next hid =>
      subst hid
      obtain rfl := some.inj hreg
      obtain ⟨t, request, hr⟩ := hold hregistered
      -- The granted target is the registered one: the attempt id belongs to one target.
      obtain ⟨a, ha⟩ := hr.attempt
      obtain ⟨hmem, hid⟩ := mem_attemptsOf_of_attempt ha
      obtain ⟨hmem', hid'⟩ := mem_attemptsOf_of_attempt htarget.found
      obtain rfl := hids t a expected.targetId attempt hmem hmem' (hid.trans hid'.symm)
      refine ⟨_, request, { hr with granted := fun _ => ?_ }⟩
      rw [grants_append]
      refine mem_append_right _ ?_
      simp [hcall, JobEvent.granted, attemptKey_of_scopeKey htarget.scope]
    · exact hold hreg
  | _ => exact hold hreg

/-- After the step, every outcome on a rich target of the changed entry rests on a grant. -/
theorem CycleEffect.outcomesBacked (heffect : CycleEffect s e k c c')
    (hentry : c = entryOrDefault s.ledger k) (hc : c.Shape k) (hids : c.IdsOnce)
    (hknown : SendsKnown h k c) (hout : OutcomesBacked h k c) : OutcomesBacked (h ++ [e]) k c' := by
  have hgrows := heffect.grows hc hentry
  intro t x a o hx hrich ha ho
  -- An old attempt belongs to the target the entry had before.
  have hold {b : ChannelAttempt} (hb : b ∈ c.attemptsOf t) : c.target t = some x := by
    obtain ⟨y, hy⟩ := isSome_iff_exists.mp (hc.known t (ne_nil_of_mem hb))
    have hxy := hgrows.target t y hy
    rw [hx] at hxy
    rw [hy, ← some.inj hxy]
  have hkept (hmem : a ∈ c.attemptsOf t) : o.status ≠ .verified
      ∧ (o.status = .published → ⟨k.scope, t, a.attemptId⟩ ∈ grants (h ++ [e])) := by
    obtain ⟨hverified, hpublished⟩ := hout t x a o (hold hmem) hrich hmem ho
    exact ⟨hverified, fun h => mem_grants_append (hpublished h)⟩
  cases heffect with
  | measured => exact absurd ha (by simp [attemptsOf, MemoryCycle.default])
  | claimed _ _ _ _ _ _ _ _ _ _ _ _ _ _ hnone ho' =>
    rw [attemptsOf_pushAttempt] at ha
    split at ha
    · next ht =>
      rw [ht, hnone, nil_append, mem_singleton] at ha
      rw [ha, ho'] at ho
      simp at ho
    · exact hkept ha
  | finished _ _ _ id o' _ _ _ _ _ hy hattempts =>
    rw [attemptsOf_insert] at ha
    split at ha
    · next ht =>
      subst ht
      rcases mem_recordOutcome ha with hmem | ⟨b', hb', hid, rfl⟩
      · exact hkept (by rwa [attemptsOf_of_lookup hattempts])
      · have hmem : b' ∈ c.attemptsOf t := by rwa [attemptsOf_of_lookup hattempts]
        have hxy := hold hmem
        rw [hy] at hxy
        obtain rfl := some.inj hxy
        obtain rfl := some.inj ho
        obtain ⟨hverified, hpublished⟩ := recordedOutcome_backed (c := c) hrich id o'
        refine ⟨hverified, fun hstatus => ?_⟩
        obtain ⟨reg, hreg, hsent⟩ := hpublished hstatus
        -- The authorization is the one of this very attempt.
        obtain ⟨t', _, hr⟩ := hknown id reg hreg
        obtain ⟨a', ha'⟩ := hr.attempt
        obtain ⟨hmem', hid'⟩ := mem_attemptsOf_of_attempt ha'
        obtain rfl := hids t b' t' a' hmem hmem' (hid.trans hid'.symm)
        have := hr.granted hsent
        rw [← hid] at this
        exact mem_grants_append this
    · exact hkept ha
  | _ => exact hkept ha

variable [UrlParser] {s' : MemoryChannelJobRepository}

variable {scope : TenantScope} {now : DateTime}

/-- A successful registration ran on the ledger. -/
theorem registerRichSend_step {request : RegisterPublicationSend}
    {reply : JobReply} (hstep : jobMachine.step s (.call (.registerRichSend scope request now) (.ok reply)) s') :
    Op.Returns (registerRichSend scope request now) s.ledger () s'.ledger := by
  have hret : Op.Returns (run (.registerRichSend scope request now)) s reply s' := hstep
  simp only [run, answer, onLedger, Op.returns_iff, Op.returns_zoom] at hret
  obtain ⟨_, _, ⟨_, hret, rfl⟩, -, rfl⟩ := hret
  exact hret

/-- A successful authorization ran on the ledger. -/
theorem authorizeRichSend_step {expected : AuthorizePublicationSend}
    {bundle : PublicationBundle} {verified : List ContentMediaBinding} {decision : PublicationSendDecision}
    (hstep : jobMachine.step s (.call (.authorizeRichSend scope expected bundle verified now)
      (.ok (.decision decision))) s') :
    Op.Returns (authorizeRichSend scope expected bundle verified now) s.ledger decision s'.ledger := by
  have hret : Op.Returns (run (.authorizeRichSend scope expected bundle verified now)) s
    (.decision decision) s' := hstep
  simp only [run, answer, onLedger, Op.returns_iff, Op.returns_zoom] at hret
  obtain ⟨_, _, ⟨_, hret, rfl⟩, hreply, rfl⟩ := hret
  obtain rfl := JobReply.decision.inj hreply
  exact hret

theorem registration_stored {r : AttemptKey × RegisterPublicationSend} (hstep : jobMachine.step s e s')
    (he : e.registration = some r) : Registered s'.ledger r.1 fun _ => True := by
  unfold JobEvent.registration at he
  split at he
  · next scope request now reply =>
    obtain ⟨_, hkey, rfl⟩ := map_eq_some_iff.mp he
    obtain ⟨k, c, _, htarget, hcases⟩ := registerRichSend_cases (registerRichSend_step hstep)
    obtain ⟨x, hx, hrich⟩ := htarget.rich
    rw [attemptKey_of_scopeKey htarget.scope] at hkey
    obtain rfl := some.inj hkey
    rcases hcases with ⟨reg, hreg, -, hl⟩ | ⟨hnone, hl⟩
    · exact ⟨k, c, x, reg, by rw [← hl]; exact htarget.stored, rfl, hx, hrich, hreg.lookup, trivial⟩
    · exact ⟨k, _, x, _, lookup_of_insert_eq hl, rfl, hx, hrich, lookup_of_insert_eq rfl, trivial⟩
  · simp at he

theorem granted_stored (hstep : jobMachine.step s e s') (he : e.granted = some key) :
    Registered s'.ledger key (·.sendAuthorizedAt.isSome = true) := by
  unfold JobEvent.granted at he
  split at he
  · next scope expected bundle verified now grant =>
    obtain ⟨k, _, _, _, htarget, _, hcases⟩ := authorizeRichSend_cases (authorizeRichSend_step hstep)
    obtain ⟨x, hx, hrich⟩ := htarget.rich
    rw [attemptKey_of_scopeKey htarget.scope] at he
    obtain rfl := some.inj he
    rcases hcases with ⟨hconsumed, -⟩ | ⟨hnone, -, -, hl⟩
    · simp at hconsumed
    · exact ⟨k, _, x, _, lookup_of_insert_eq hl, rfl, hx, hrich, lookup_of_insert_eq rfl, rfl⟩
  · simp at he

theorem SendInvariant.step (hi : SendInvariant h s)
    (hstep : (jobMachine.restrict ClaimsFresh).step s e s') : SendInvariant (h ++ [e]) s' := by
  obtain ⟨hfresh, hstep⟩ := hstep
  have heffect := step_effect hstep
  -- An entry that is not stored yet has no attempt and no registration.
  have hentry (k : ChannelScopeKey) : (entryOrDefault s.ledger k).IdsOnce ∧ SendsKnown h k (entryOrDefault s.ledger k)
      ∧ OutcomesBacked h k (entryOrDefault s.ledger k) := by
    cases hk : s.ledger.lookup k with
    | none =>
      rw [entryOrDefault, hk, getD_none]
      refine ⟨fun t a t' a' ha => by simp at ha, fun id reg hreg => ?_, fun t x a o hx => by simp at hx⟩
      simp [MemoryCycle.default] at hreg
    | some c =>
      rw [entryOrDefault_of_lookup hk]
      exact ⟨hi.idsOnce k c hk, hi.known k c hk, hi.outcomes k c hk⟩
  refine
    { shape := heffect.shape hi.shape
      idsOnce := heffect.forall_cycle hi.idsOnce
        (fun k c' hc => hc.idsOnce hfresh (hi.shape.entryOrDefault k) (hentry k).1) fun k c now hids => hids
      known := ?_, registered := ?_, granted := ?_, outcomes := ?_ }
  · refine heffect.forall_cycle (P := SendsKnown (h ++ [e])) (fun k c hk id reg hreg => ?_)
      (fun k c' hc => ?_) fun k c now hknown => ?_
    · obtain ⟨t, request, hr⟩ := hi.known k c hk id reg hreg
      exact ⟨t, request, hr.grows (.refl c) (hi.shape.cycle k c hk)⟩
    · exact hc.sendsKnown hi rfl (hi.shape.entryOrDefault k) (hentry k).1 (hentry k).2.1
    · intro id reg hreg
      obtain ⟨t, request, hr⟩ := hknown id reg hreg
      exact ⟨t, request, { hr with }⟩
  · intro r hr
    rw [registrations_append] at hr
    rcases mem_append.mp hr with hold | hnew
    · exact heffect.registered hi.shape (fun _ _ _ _ => trivial) (hi.registered r hold)
    · exact registration_stored hstep (by simpa using hnew)
  · intro key hkey
    rw [grants_append] at hkey
    rcases mem_append.mp hkey with hold | hnew
    · exact heffect.registered hi.shape (fun _ _ hsent => hsent) (hi.granted key hold)
    · exact granted_stored hstep (by simpa using hnew)
  · refine heffect.forall_cycle (P := OutcomesBacked (h ++ [e])) (fun k c hk t x a o hx hrich ha ho => ?_)
      (fun k c' hc => ?_) fun k c now hout => hout
    · obtain ⟨hverified, hpublished⟩ := hi.outcomes k c hk t x a o hx hrich ha ho
      exact ⟨hverified, fun hp => mem_grants_append (hpublished hp)⟩
    · exact hc.outcomesBacked rfl (hi.shape.entryOrDefault k) (hentry k).1 (hentry k).2.1 (hentry k).2.2

end Step

/-! ### Every run -/

/-- What holds of a grant given in the state that a run has reached. -/
structure GrantSafe (h : List JobEvent) (s : MemoryChannelJobRepository) (scope : TenantScope)
    (expected : AuthorizePublicationSend) (now : DateTime) (grant : PublicationSendGrant)
    (project : ProjectKey) (request : RegisterPublicationSend) : Prop where
  inProject : scopeKey scope = .ok project
  attempt : grant.attemptId = expected.attemptId
  /-- The run has not granted the attempt before. -/
  first : ⟨project, expected.targetId, expected.attemptId⟩ ∉ grants h
  /-- The attempt was registered, and the first registration fixed what the grant carries. -/
  registered : firstRegistration h ⟨project, expected.targetId, expected.attemptId⟩ = some request
  session : request.runnerSessionId = expected.runnerSessionId ∧ grant.runnerSessionId = request.runnerSessionId
  digest : request.encryptedBindingSha256 = expected.encryptedBindingSha256
  deadline : grant.sendNotAfter = request.sendNotAfter ∧ now ≤ request.sendNotAfter
  /-- The attempt is there, and no outcome is recorded for it. -/
  found : ∃ k c attempt, SendTarget s.ledger scope expected.targetId expected.attemptId k c attempt
  open_ : ∀ k c x attempt, s.ledger.lookup k = some c → k.scope = project → c.target expected.targetId = some x →
    x.input.isRich = true → attempt ∈ c.attemptsOf expected.targetId → attempt.attemptId = expected.attemptId →
    attempt.outcome = none ∧ attempt.receivedAt = none

section Runs

variable [Sha256] [UrlParser] [InstantText] {s s' : MemoryChannelJobRepository} {h : List JobEvent}

theorem SendInvariant.grantSafe (hi : SendInvariant h s) {scope : TenantScope} {expected : AuthorizePublicationSend}
    {bundle : PublicationBundle} {verified : List ContentMediaBinding} {now : DateTime} {grant : PublicationSendGrant}
    (hstep : jobMachine.step s (.call (.authorizeRichSend scope expected bundle verified now)
      (.ok (.decision (.granted grant)))) s') :
    ∃ project request, GrantSafe h s scope expected now grant project request := by
  obtain ⟨k, c, attempt, reg, htarget, hreg, hcases⟩ := authorizeRichSend_cases (authorizeRichSend_step hstep)
  rcases hcases with ⟨hconsumed, -⟩ | ⟨hnone, hdeadline, ⟨payloadHash, hgrant⟩, -⟩
  · simp at hconsumed
  obtain rfl := PublicationSendDecision.granted.inj hgrant
  have hk := htarget.stored
  have hshape := hi.shape.cycle k c hk
  obtain ⟨_, hx, hrich⟩ := htarget.rich
  obtain ⟨t, request, hr⟩ := hi.known k c hk expected.attemptId reg hreg.lookup
  -- The registration is the one of the granted target.
  obtain ⟨a, ha⟩ := hr.attempt
  obtain ⟨hmem, hid⟩ := mem_attemptsOf_of_attempt ha
  obtain ⟨hmem', hid'⟩ := mem_attemptsOf_of_attempt htarget.found
  obtain rfl := hi.idsOnce k c hk t a expected.targetId attempt hmem hmem' (hid.trans hid'.symm)
  refine ⟨k.scope, request,
    { inProject := htarget.scope
      attempt := rfl
      first := fun hgranted => ?_
      registered := hr.first
      session := ⟨hr.session.trans hreg.session, (hr.session.trans hreg.session).symm⟩
      digest := hr.digest.trans hreg.digest
      deadline := ⟨hr.deadline.symm, by rw [hr.deadline]; exact hdeadline⟩
      found := ⟨k, c, attempt, htarget⟩
      open_ := ?_ }⟩
  · obtain ⟨_, hreg', hsent⟩ := hi.lookup_of_registered (hi.granted _ hgranted) hk rfl hx hrich
    rw [hreg.lookup] at hreg'
    obtain rfl := some.inj hreg'
    simp [hnone] at hsent
  · intro j d y b hj hjscope hy hyrich hb hbid
    obtain ⟨rfl, rfl⟩ := rich_entry_unique hi.shape hk hj hjscope.symm hx hrich hy hyrich
    rw [hshape.attemptsOf_of_mem hmem', mem_singleton] at hb
    rw [hb]
    exact ⟨htarget.outcome, htarget.received⟩

/-- In every run whose claims are fresh, every attempt is granted at most once, every outcome on a rich
target rests on a grant, and the next grant is safe. -/
theorem sendAuthority_oneShot (hr : (jobMachine.restrict ClaimsFresh).Run MemoryChannelJobRepository.default h s) :
    (grants h).Nodup
    ∧ (∀ k c, s.ledger.lookup k = some c → OutcomesBacked h k c)
    ∧ ∀ scope expected bundle verified now grant s',
        jobMachine.step s (.call (.authorizeRichSend scope expected bundle verified now)
          (.ok (.decision (.granted grant)))) s' →
        ∃ project request, GrantSafe h s scope expected now grant project request := by
  have hinv : SendInvariant h s ∧ (grants h).Nodup := by
    refine hr.history (I := fun h s => SendInvariant h s ∧ (grants h).Nodup)
      (fun h s e s' hi hstep => ?_) ⟨sendInvariant_default, nodup_nil⟩
    obtain ⟨hi, hnodup⟩ := hi
    refine ⟨hi.step hstep, ?_⟩
    rw [grants_append]
    cases he : e.granted with
    | none => simpa using hnodup
    | some key =>
      -- The new grant is a first one.
      have hnew : key ∉ grants h := by
        unfold JobEvent.granted at he
        split at he
        · obtain ⟨_, _, hsafe⟩ := hi.grantSafe hstep.2
          rw [attemptKey_of_scopeKey hsafe.inProject] at he
          obtain rfl := some.inj he
          exact hsafe.first
        · simp at he
      rw [toList_some, ← concat_eq_append]
      exact hnodup.concat hnew
  exact ⟨hinv.2, hinv.1.outcomes, fun scope expected bundle verified now grant s' =>
    hinv.1.grantSafe⟩

end Runs

/-! ### Two targets under one attempt id -/

namespace Sample

def richDocument : StructuredDocument :=
  { title := "T"
    blocks :=
      [{ blockId := uuid 60, kind := .paragraph, text := "B", citationIds := [], items := []
         rich := none }]
    schemaVersion := 2 }

def richPayload : RichPublicationPayload :=
  { schemaVersion := 2, format := richMarkdownFormat, contentRevisionId := uuid 20
    policyVersion := richChannelVariantPolicy, document := richDocument, media := [] }

def richMarkdown : String :=
  "# T\n\nB"

def richPayloadDigest : String :=
  "c2b629f0a466bec8ca1e4c4930003fa24ecab7cb2fde6240964231315d23c024"

def bindingDigest : String :=
  "4bf5122f344554c53bde2ebb8cd2b7e3d1600ad631c385a5d7cce23c7785459a"

def bodyDigest : String :=
  "44376dea052c7fa1dd08792117b92928a17d79631d51ea06617a9b3d054b224f"

/-- The encoding a digest of parts is taken of. -/
def encoded (parts : List String) : List UInt8 :=
  parts.flatMap fun part => lengthBytes (Text.len part) ++ Text.bytes part

/-- SHA-256 on the byte strings the runs below hash, which their first part tells apart. -/
@[reducible] def sendSha256 : Sha256 :=
  ⟨fun bytes =>
    if bytes = [1] then bindingDigest
    else if bytes = Text.bytes richMarkdown then bodyDigest
    else if bytes.take 35 = encoded ["rich-publication-payload-v2"] then richPayloadDigest
    else if bytes.take 44 = encoded [(uuid 20).toString] then
      "484998b6338f05e81ddf7fa355367a030477995a07ab5ef536e0a910773c9b95"
    else ""⟩

def richVariantId : Uuid :=
  uuid 0x484998b6338f55e89ddf7fa355367a03

def richInput (account : Uuid) : GeneratedPublishInput :=
  { contentRevisionId := uuid 20, variantId := richVariantId, publicationIntentId := uuid 22
    distributionTargetId := uuid 23, originRequestId := none, platform := "zhihu"
    placementSlot := "article", accountId := account, title := "T", body := richMarkdown
    bodySha256 := bodyDigest, payloadHash := richPayloadDigest, evidence := []
    richPayload := some richPayload }

def richTarget (id account : Uuid) : ChannelTarget :=
  { targetId := id, input := .generatedPublish (richInput account) }

/-- The bundle of the first target. -/
def richBundle : PublicationBundle :=
  { revision :=
      { revisionId := uuid 20, assetId := uuid 24, revision := 1, baseRevisionId := none
        derivedFromRevisionId := none, document := richDocument, markdown := richMarkdown
        evidence := [], quotes := [], findings := [], createdAt := 0 }
    variant :=
      { variantId := richVariantId, contentRevisionId := uuid 20, platformId := "zhihu"
        placementSlot := "article", policyVersion := richChannelVariantPolicy, title := "T"
        markdown := richMarkdown, payloadHash := richPayloadDigest, evidence := []
        richPayload := some richPayload }
    intent :=
      { intentId := uuid 22, projectId := ⟨uuid 3⟩, channelTargetId := uuid 23
        variantId := richVariantId, contentRevisionId := uuid 20, platformId := "zhihu"
        placementSlot := "article", accountId := uuid 40, payloadHash := richPayloadDigest
        logicalKey := "", verification := .unverified, verificationEvidenceId := none
        createdAt := 0 }
    origin :=
      .coverageTarget
        { targetId := uuid 23, manifestId := uuid 25, ordinal := 0, documentItemId := uuid 26
          contentRevisionId := some (uuid 20), platformId := "zhihu", placementSlot := "article"
          variantId := some richVariantId, accountId := some (uuid 40)
          publicationIntentId := some (uuid 22), status := .ready, reason := none, version := 1 }
    command :=
      { commandId := uuid 30, intentId := uuid 22, targetId := uuid 23
        payloadHash := richPayloadDigest, fixture := false } }

def published (at_ : DateTime) : ChannelOutcome :=
  { status := .published, detail := none, occurredAt := at_, rawAnswer := none, citations := []
    publicUrl := none, screenshotRef := none, connectorVersion := none, runnerEvidence := []
    fixture := false }

/-- Bind, register and authorize the attempt of the first target. -/
def sendCalls : List JobCall :=
  [.storePublicationBinding scope (uuid 30) (uuid 50) ⟨[1]⟩,
    .registerRichSend scope
      { targetId := uuid 30, attemptId := uuid 50, accountId := uuid 40
        runnerSessionId := uuid 70, encryptedBindingSha256 := bindingDigest
        sendNotAfter := 1000 } 1,
    .authorizeRichSend scope
      { targetId := uuid 30, attemptId := uuid 50, accountId := uuid 40
        runnerSessionId := uuid 70, publicationIntentId := uuid 22
        payloadHash := richPayloadDigest, encryptedBindingSha256 := bindingDigest }
      richBundle [] 2]

/-- Two rich targets of one cycle, the second claimed under the given attempt id. -/
def richCalls (secondAttempt : Uuid) : List JobCall :=
  [.insertGeneratedTarget scope (uuid 10) (uuid 30) (richTarget (uuid 30) (uuid 40)),
    .insertGeneratedTarget scope (uuid 10) (uuid 31) (richTarget (uuid 31) (uuid 41)),
    .claim none scope (uuid 30) (uuid 50) 0, .claim none scope (uuid 31) secondAttempt 0]
  ++ sendCalls
  ++ [.finish scope (uuid 30) (uuid 50) (published 3) 3, .finish scope (uuid 31) secondAttempt (published 4) 4]

/-- The events of the calls from the empty repository. -/
def sendTrace (secondAttempt : Uuid) : List JobEvent :=
  @trace sendSha256 urlParser instantText MemoryChannelJobRepository.default (richCalls secondAttempt)

/-- The repository after them. -/
def sent (secondAttempt : Uuid) : MemoryChannelJobRepository :=
  @after sendSha256 urlParser instantText MemoryChannelJobRepository.default (richCalls secondAttempt)

/-- The statuses recorded for a target of the cycle. -/
def statuses (s : MemoryChannelJobRepository) (target : Uuid) : List ChannelOutcomeStatus :=
  ((entryOrDefault s.ledger ⟨project, .cycle (uuid 10)⟩).attemptsOf target).filterMap fun a => a.outcome.map (·.status)

/-- No attempt of the ledger has the id. -/
def idUnused (s : MemoryChannelJobRepository) (id : Uuid) : Bool :=
  (values s.ledger).all fun c => (values c.attempts).all fun attempts => attempts.all fun a => a.attemptId ≠ id

theorem claimsFresh_of_unused {s : MemoryChannelJobRepository} {call : JobCall} {reply : Except AppError JobReply}
    (h : ∀ scope t id, call.claims = some (scope, t, id) → idUnused s id = true) :
    ClaimsFresh s (.call call reply) := by
  intro call' scope t id hcall hclaims k c hk hscope hknown t'
  obtain ⟨_, heq⟩ := hcall
  cases heq
  have hunused := h scope t id hclaims
  simp only [idUnused, List.all_eq_true, mem_values, decide_eq_true_eq] at hunused
  unfold attempt
  rw [List.find?_eq_none]
  intro a ha
  unfold attemptsOf at ha
  cases hl : c.attempts.lookup t' with
  | none => simp [hl] at ha
  | some attempts =>
    rw [hl, Option.getD_some] at ha
    simpa using hunused c ⟨k, hk⟩ attempts ⟨t', hl⟩ a ha

/-- One rich target, claimed, authorized and finished. -/
def oneSendCalls : List JobCall :=
  [.insertGeneratedTarget scope (uuid 10) (uuid 30) (richTarget (uuid 30) (uuid 40)),
    .claim none scope (uuid 30) (uuid 50) 0]
  ++ sendCalls ++ [.finish scope (uuid 30) (uuid 50) (published 3) 3]

/-- Its claim is the first one, so it is fresh. -/
theorem oneSendCalls_allowed :
    @Allowed sendSha256 urlParser instantText ClaimsFresh MemoryChannelJobRepository.default oneSendCalls := by
  refine ⟨?_, ?_, ?_, ?_, ?_, ?_, trivial⟩
  all_goals
    refine claimsFresh_of_unused fun scope t id hclaims => ?_
    simp only [JobCall.claims, reduceCtorEq, Option.some.injEq, Prod.mk.injEq] at hclaims
  obtain ⟨-, -, rfl⟩ := hclaims
  decide +kernel

end Sample

open Sample

theorem sendAuthority_oneShot_published :
    grants (@trace sendSha256 urlParser instantText
        MemoryChannelJobRepository.default oneSendCalls)
      = [⟨project, uuid 30, uuid 50⟩]
    ∧ (grants (@trace sendSha256 urlParser instantText
        MemoryChannelJobRepository.default oneSendCalls)).Nodup := by
  have hrun := @run_trace sendSha256 urlParser instantText ClaimsFresh
    oneSendCalls MemoryChannelJobRepository.default oneSendCalls_allowed
  exact ⟨by decide +kernel, (@sendAuthority_oneShot sendSha256 urlParser instantText _ _ hrun).1⟩

/-- Two rich targets of a cycle claimed under one id share the one grant of the run: both end with the
outcome `published`, and the second one without a grant for it. -/
theorem shared_id_publishes_twice :
    (@jobMachine sendSha256 urlParser instantText).Run MemoryChannelJobRepository.default
      (sendTrace (uuid 50)) (sent (uuid 50))
    ∧ grants (sendTrace (uuid 50)) = [⟨project, uuid 30, uuid 50⟩]
    ∧ statuses (sent (uuid 50)) (uuid 30) = [.published]
    ∧ statuses (sent (uuid 50)) (uuid 31) = [.published]
    ∧ ¬ ∀ k c, (sent (uuid 50)).ledger.lookup k = some c →
        OutcomesBacked (sendTrace (uuid 50)) k c := by
  have hsent :
      (grants (sendTrace (uuid 50)) = [⟨project, uuid 30, uuid 50⟩]
        ∧ statuses (sent (uuid 50)) (uuid 30) = [.published] ∧ statuses (sent (uuid 50)) (uuid 31) = [.published])
      ∧ ((sent (uuid 50)).ledger.lookup ⟨project, .cycle (uuid 10)⟩).isSome = true
      ∧ (∃ x ∈ (entryOrDefault (sent (uuid 50)).ledger ⟨project, .cycle (uuid 10)⟩).target (uuid 31),
        x.input.isRich = true)
      ∧ ∃ a ∈ (entryOrDefault (sent (uuid 50)).ledger ⟨project, .cycle (uuid 10)⟩).attemptsOf (uuid 31),
        ∃ o ∈ a.outcome, o.status = .published := by
    decide +kernel
  obtain ⟨⟨hgrants, hfirst, hsecond⟩, hstored, htarget, hattempt⟩ := hsent
  refine ⟨?_, hgrants, hfirst, hsecond, fun hbacked => ?_⟩
  · exact (@run_trace sendSha256 urlParser instantText (fun _ _ => True)
      (richCalls (uuid 50)) MemoryChannelJobRepository.default
      (@allowed_of_forall sendSha256 urlParser instantText _ _
        (fun _ _ _ _ => trivial) _)).of_restrict
  · obtain ⟨c, hc⟩ := isSome_iff_exists.mp hstored
    have hentry := entryOrDefault_of_lookup hc
    rw [hentry] at htarget hattempt
    obtain ⟨x, hx, hrich⟩ := htarget
    obtain ⟨a, ha, o, ho, hstatus⟩ := hattempt
    have hgranted := (hbacked _ c hc (uuid 31) x a o hx hrich ha ho).2 hstatus
    rw [hgrants, mem_singleton, AttemptKey.mk.injEq] at hgranted
    exact absurd hgranted.2.1 (by decide)

end GeoMaster
