import GeoMaster.Proofs.LedgerInvariant

/-!
# Safety of the attempt ledger

Every target has at most one attempt ever, and at most one publication target of an account has an
attempt on the way, over all tenants and projects of the operator. The second part rests on the ids
of targets being unique in a project. The repository enforces that for generated targets and for
measurements; for the targets of a plan it is up to the caller of `createPlan`, and `PlansFresh` says
so.
-/

namespace GeoMaster

open AssocMap List Option

open ChannelLedger MemoryChannelJobRepository MemoryCycle

/-! ### Fresh plans -/

/-- The target ids of a plan to be stored are new in the project and differ from each other. A plan
that is already stored may be sent again. -/
def PlansFresh (s : MemoryChannelJobRepository) (e : JobEvent) : Prop :=
  ∀ scope plan key, e.Did (.createPlan scope plan) → scopeKey scope = .ok key →
    ((s.ledger.lookup ⟨key, .cycle plan.cycleId⟩).bind (·.plan)).isSome = true
      ∨ ((plan.targets.map (·.targetId)).Nodup
        ∧ ∀ j d, s.ledger.lookup j = some d → j.scope = key → ∀ x ∈ plan.targets, d.target x.targetId = none)

/-- The entry has a target under the id. -/
def MemoryCycle.Knows (c : MemoryCycle) (t : Uuid) : Prop :=
  (c.target t).isSome = true

/-- An id names one target of a project. -/
structure Settled (l : ChannelLedger) : Prop where
  own : ∀ k c, l.lookup k = some c → ∀ x ∈ c.targets, c.target x.targetId = some x
  once : KnownOnce Knows l

section Settled

variable {s : MemoryChannelJobRepository} {e : JobEvent} {k : ChannelScopeKey} {c' : MemoryCycle} {l' : ChannelLedger}

/-- What a step stores under a plan is new when plans are fresh. -/
theorem planned_new (hfresh : PlansFresh s e) {scope : TenantScope} {plan : ChannelPlan}
    (hcall : e.Did (.createPlan scope plan)) (hscope : scopeKey scope = .ok k.scope)
    (howner : k.owner = .cycle plan.cycleId) (hnone : (entryOrDefault s.ledger k).plan = none) :
    (plan.targets.map (·.targetId)).Nodup
      ∧ ∀ j d, s.ledger.lookup j = some d → j.scope = k.scope → ∀ x ∈ plan.targets, d.target x.targetId = none := by
  refine (hfresh scope plan k.scope hcall hscope).resolve_left fun hstored => ?_
  have hk : (⟨k.scope, .cycle plan.cycleId⟩ : ChannelScopeKey) = k := by
    rw [← howner]
  rw [hk] at hstored
  cases hl : s.ledger.lookup k with
  | none => simp [hl] at hstored
  | some d =>
    rw [entryOrDefault_of_lookup hl] at hnone
    simp [hl, hnone] at hstored

/-- An id that no entry of the project knows is not known to the entry a step works on. -/
theorem target_entryOrDefault_none {t : Uuid}
    (hnew : ∀ j d, s.ledger.lookup j = some d → j.scope = k.scope → d.target t = none) :
    (entryOrDefault s.ledger k).target t = none := by
  cases hk : s.ledger.lookup k with
  | none => rw [entryOrDefault, hk, getD_none, target_default]
  | some c =>
    rw [entryOrDefault_of_lookup hk]
    exact hnew k c hk rfl

theorem find?_targetId {targets : List ChannelTarget} (hnodup : (targets.map (·.targetId)).Nodup) {x : ChannelTarget}
    (hx : x ∈ targets) : (targets.find? fun y => y.targetId = x.targetId) = some x := by
  induction targets with
  | nil => simp at hx
  | cons y _ ih =>
    rw [map_cons, nodup_cons] at hnodup
    rcases mem_cons.mp hx with rfl | hmem
    · simp
    · have hne : y.targetId ≠ x.targetId := by
        intro heq
        exact hnodup.1 (heq ▸ mem_map_of_mem hmem)
      rw [List.find?_cons_of_neg (by simpa using hne)]
      exact ih hnodup.2 hmem

variable [Sha256] [InstantText]

/-- Every target of the changed entry is the one its id finds. -/
theorem CycleEffect.own (h : CycleEffect s e k (entryOrDefault s.ledger k) c')
    (hfresh : PlansFresh s e) (hc : (entryOrDefault s.ledger k).Shape k)
    (hown : ∀ x ∈ (entryOrDefault s.ledger k).targets, (entryOrDefault s.ledger k).target x.targetId = some x) :
    ∀ x ∈ c'.targets, c'.target x.targetId = some x := by
  generalize hentry : entryOrDefault s.ledger k = c at h hc hown
  intro x hx
  cases h with
  | generated y _ _ hnew =>
    have hnone : c.target y.targetId = none := by
      rw [← hentry]
      exact target_entryOrDefault_none hnew
    rw [target_insertGenerated]
    split
    · next hxy =>
      -- An old target under the new id would be known already.
      simp only [targets, mem_append, mem_values, lookup_insert] at hx
      have hold : x ∉ c.targets := by
        intro hmem
        simp [← hxy, hown x hmem] at hnone
      simp only [targets, mem_append, mem_values] at hold
      rcases hx with (⟨t, ht⟩ | hplan) | hmeasure
      · split at ht
        · exact ht
        · exact absurd (.inl (.inl ⟨t, ht⟩)) hold
      · exact absurd (.inl (.inr hplan)) hold
      · exact absurd (.inr hmeasure) hold
    · next hxy =>
      refine hown x ?_
      simp only [targets, mem_append, mem_values, lookup_insert] at hx ⊢
      rcases hx with (⟨t, ht⟩ | hplan) | hmeasure
      · split at ht
        · exact absurd (by rw [some.inj ht]) hxy
        · exact .inl (.inl ⟨t, ht⟩)
      · exact .inl (.inr hplan)
      · exact .inr hmeasure
  | planned _ _ hcall hscope howner _ hgenerated =>
    obtain ⟨hnodup, hnew⟩ := planned_new hfresh hcall hscope howner (by rwa [hentry])
    have hmeasurement : c.measurementTargets = [] := by simp [measurementTargets, hc.cycleOwner _ howner]
    simp only [targets, mem_append, mem_values] at hx
    rcases hx with (⟨t, ht⟩ | hplan) | hmeasure
    · obtain ⟨rfl, -⟩ := hc.generated t x ht
      exact target_of_generated ht
    · have hunknown : c.target x.targetId = none := by
        rw [← hentry]
        exact target_entryOrDefault_none fun j d hj hsc => hnew j d hj hsc x hplan
      have hgenerated := generated_none_of_target hunknown
      exact target_eq_some_iff.mpr (.inr ⟨hgenerated, .inl (find?_targetId hnodup hplan)⟩)
    · have : x ∈ c.measurementTargets := hmeasure
      simp [hmeasurement] at this
  | measured plan _ _ _ _ hnodup =>
    have hmem : x ∈ plan.targets := by
      simpa [targets, MemoryCycle.default, values, planTargets, measurementTargets] using hx
    exact target_eq_some_iff.mpr (.inr ⟨rfl, .inr ⟨rfl, find?_targetId hnodup hmem⟩⟩)
  | _ => exact hown x hx

/-- Where a target of an entry comes from: it was there before the step, or no entry of the project
knew its id. -/
theorem CycleEffect.known_or_new (h : CycleEffect s e k (entryOrDefault s.ledger k) c')
    (hfresh : PlansFresh s e) {t : Uuid} (ht : c'.Knows t) :
    (entryOrDefault s.ledger k).Knows t ∨ ∀ j d, s.ledger.lookup j = some d → j.scope = k.scope → ¬ d.Knows t := by
  generalize hentry : entryOrDefault s.ledger k = c at h
  cases h with
  | generated _ _ _ hnew =>
    simp only [Knows, target_insertGenerated] at ht
    split at ht
    · next hty =>
      subst hty
      exact .inr fun j d hj hscope => by simp [Knows, hnew j d hj hscope]
    · exact .inl ht
  | planned _ _ hcall hscope howner hnone =>
    obtain ⟨-, hnew⟩ := planned_new hfresh hcall hscope howner (by rwa [hentry])
    obtain ⟨x, hx⟩ := isSome_iff_exists.mp ht
    rcases target_eq_some_iff.mp hx with hg | ⟨hg, hplan | ⟨-, hmeasure⟩⟩
    · exact .inl (isSome_iff_exists.mpr ⟨x, target_of_generated hg⟩)
    · obtain rfl : x.targetId = t := by simpa using List.find?_some hplan
      have hmem := mem_of_find?_eq_some hplan
      exact .inr fun j d hj hsc => by simp [Knows, hnew j d hj hsc x hmem]
    · refine .inl (isSome_iff_exists.mpr ⟨x, target_eq_some_iff.mpr (.inr ⟨hg, .inr ?_⟩)⟩)
      exact ⟨by simp [planTargets, hnone], hmeasure⟩
  | measured plan _ _ _ hmeasure _ hnew =>
    obtain ⟨x, hx⟩ := isSome_iff_exists.mp ht
    rcases target_eq_some_iff.mp hx with hg | ⟨-, hplan | ⟨-, hmeasure⟩⟩
    · simp [MemoryCycle.default] at hg
    · simp [MemoryCycle.default, planTargets] at hplan
    · obtain rfl : x.targetId = t := by simpa using List.find?_some hmeasure
      have hmem : x ∈ plan.targets := mem_of_find?_eq_some hmeasure
      exact .inr fun j d hj hsc => by simp [Knows, hnew j d hj x hmem]
  | _ => exact .inl ht

/-- A step keeps the ids of targets unique, when plans are fresh. -/
theorem LedgerEffect.settled (h : LedgerEffect s e l') (hfresh : PlansFresh s e)
    (hs : LedgerShape s.ledger) (hset : Settled s.ledger) : Settled l' where
  own := by
    refine h.forall_cycle hset.own (fun k c' heffect => ?_) (fun _ _ _ hown => hown)
    refine heffect.own hfresh (hs.entryOrDefault k) ?_
    cases hk : s.ledger.lookup k with
    | none => simp [entryOrDefault, hk, MemoryCycle.default, targets, values, planTargets, measurementTargets]
    | some c =>
      rw [entryOrDefault_of_lookup hk]
      exact hset.own k c hk
  once := by
    refine h.known_once (fun t => ?_) (fun _ _ _ h => h)
      (fun k c' heffect t ht => heffect.known_or_new hfresh ht) hset.once
    simp [Knows]

end Settled

/-! ### One publication on the way for each account -/

/-- A publication target of the account and an attempt on it that has not been received. -/
structure InFlight (l : ChannelLedger) (operator accountId : Uuid) (k : ChannelScopeKey)
    (x : ChannelTarget) (a : ChannelAttempt) : Prop where
  operator : k.scope.operator = operator
  publication : x.input.isPublication = true
  account : x.input.accountId = accountId
  stored : ∃ c, l.lookup k = some c ∧ x ∈ c.targets ∧ a ∈ c.attemptsOf x.targetId
  open_ : a.receivedAt = none

/-- At most one publication of an account is on the way. -/
def OneInFlight (l : ChannelLedger) : Prop :=
  ∀ operator accountId k x a j y b, InFlight l operator accountId k x a →
    InFlight l operator accountId j y b → k = j ∧ x = y ∧ a = b

variable {l : ChannelLedger} {key : ProjectKey}

/-- The check of `claim` finds every publication on the way. -/
theorem not_inFlight {operator accountId : Uuid} (h : publicationInFlight l operator accountId = false)
    (k : ChannelScopeKey) (x : ChannelTarget) (a : ChannelAttempt) : ¬ InFlight l operator accountId k x a := by
  rintro ⟨hoperator, hpublication, haccount, ⟨c, hk, hx, ha⟩, hopen⟩
  simp only [publicationInFlight, List.any_eq_false, decide_eq_true_eq] at h
  refine h ⟨k, c⟩ (AList.mem_lookup_iff.mp hk) ⟨hoperator, x, hx, hpublication, haccount, a, ha, ?_⟩
  simp [hopen]

theorem pendingTarget_some {t : Uuid} {x : ChannelTarget} (h : pendingTarget l key t = some x) :
    ∃ j d, l.lookup j = some d ∧ j.scope = key ∧ x ∈ d.targets ∧ x.targetId = t := by
  unfold pendingTarget at h
  have hmem := mem_of_find?_eq_some h
  simp only [mem_flatMap, mem_filter, decide_eq_true_eq] at hmem
  obtain ⟨⟨j, d⟩, ⟨hj, hscope⟩, hx⟩ := hmem
  exact ⟨j, d, AList.mem_lookup_iff.mpr hj, hscope, hx, by simpa using List.find?_some h⟩

section InFlight

variable [Sha256] [InstantText] {s : MemoryChannelJobRepository} {e : JobEvent}
  {k : ChannelScopeKey} {c c' : MemoryCycle} {l' : ChannelLedger}

/-- A claim of the step made the attempt, and found no publication of the account on the way. -/
structure JustClaimed (s : MemoryChannelJobRepository) (e : JobEvent) (k : ChannelScopeKey)
    (x : ChannelTarget) (a : ChannelAttempt) : Prop where
  claimed : ∃ call scope, e.Did call ∧ call.claims = some (scope, x.targetId, a.attemptId)
    ∧ scopeKey scope = .ok k.scope
  free : x.input.isPublication = true → publicationInFlight s.ledger k.scope.operator x.input.accountId = false

variable {x : ChannelTarget} {a : ChannelAttempt}

/-- An open attempt of the changed entry was there before, or the step has just made it. -/
theorem CycleEffect.open_or_claimed (h : CycleEffect s e k (entryOrDefault s.ledger k) c') (hs : LedgerShape s.ledger)
    (hset : Settled s.ledger) (hx : x ∈ c'.targets)
    (hx' : c'.target x.targetId = some x) (ha : a ∈ c'.attemptsOf x.targetId) (hopen : a.receivedAt = none) :
    (x ∈ (entryOrDefault s.ledger k).targets ∧ a ∈ (entryOrDefault s.ledger k).attemptsOf x.targetId)
      ∨ JustClaimed s e k x a := by
  have hshape := hs.entryOrDefault k
  generalize hentry : entryOrDefault s.ledger k = c at h hshape
  -- A target with an attempt was a target of the entry before the step.
  have hold {y : ChannelTarget} {b : ChannelAttempt} (hy : c'.target y.targetId = some y)
      (hb : b ∈ c.attemptsOf y.targetId) (hgrows : c.Grows c') : y ∈ c.targets := by
    obtain ⟨z, hz⟩ := isSome_iff_exists.mp (hshape.known y.targetId (ne_nil_of_mem hb))
    have := hgrows.target _ z hz
    rw [hy] at this
    obtain rfl := some.inj this
    exact mem_targets hz
  have hgrows : c.Grows c' := h.grows hshape hentry.symm
  cases h with
  | claimed call scope pending _ _ _ hstored hcall hclaims hkey _ hz hpending hfree hnone =>
    rw [attemptsOf_pushAttempt] at ha
    split at ha
    · next hxb =>
      rw [hxb, hnone, nil_append, mem_singleton] at ha
      subst ha
      -- The searches of `claim` and of its check meet in one target, as ids are unique.
      obtain ⟨j, d, hj, hscope, hmem, hid⟩ := pendingTarget_some hpending
      have hd := hset.own j d hj pending hmem
      have hjk : j = k := by
        refine hset.once j d k c a.targetId hj hstored hscope ?_ ?_
        · rw [← hid]
          simp [Knows, hd]
        · simp [Knows, hz]
      subst hjk
      rw [hstored] at hj
      obtain rfl := some.inj hj
      rw [hid, ← hxb, show c.target x.targetId = some x from hx'] at hd
      obtain rfl := some.inj hd
      exact .inr ⟨⟨call, scope, hcall, by rw [hxb]; exact hclaims, hkey⟩, hfree⟩
    · exact .inl ⟨hold hx' ha hgrows, ha⟩
  | finished _ _ _ _ _ _ _ _ _ _ _ hattempts =>
    rw [attemptsOf_insert] at ha
    split at ha
    · next hxt =>
      rcases mem_recordOutcome ha with hmem | ⟨b', -, -, rfl⟩
      · exact .inl ⟨hx, by rw [hxt, attemptsOf_of_lookup hattempts]; exact hmem⟩
      · simp at hopen
    · exact .inl ⟨hx, ha⟩
  | measured => simp [attemptsOf, MemoryCycle.default] at ha
  | _ => exact .inl ⟨hold hx' ha hgrows, ha⟩

/-- An open publication after the step was there before, or the step has just claimed it. -/
theorem LedgerEffect.inFlight_or_claimed (h : LedgerEffect s e l') (hs : LedgerShape s.ledger)
    (hset : Settled s.ledger) (hset' : Settled l') {operator accountId : Uuid} (hf : InFlight l' operator accountId k x a) :
    InFlight s.ledger operator accountId k x a ∨ JustClaimed s e k x a := by
  obtain ⟨hoperator, hpublication, haccount, ⟨c, hk, hx, ha⟩, hopen⟩ := hf
  cases h with
  | same h =>
    rw [h] at hk
    exact .inl ⟨hoperator, hpublication, haccount, ⟨c, hk, hx, ha⟩, hopen⟩
  | entry j d h heffect =>
    have hx' := hset'.own k c hk x hx
    rw [h] at hk
    split at hk
    · next hkj =>
      subst hkj
      obtain rfl := some.inj hk
      refine (heffect.open_or_claimed hs hset hx hx' ha hopen).imp (fun hold => ?_) id
      refine ⟨hoperator, hpublication, haccount, ?_, hopen⟩
      cases hl : s.ledger.lookup k with
      | none =>
        rw [entryOrDefault, hl, getD_none, attemptsOf_default] at hold
        simp at hold
      | some c₀ =>
        rw [entryOrDefault_of_lookup hl] at hold
        exact ⟨c₀, rfl, hold⟩
    · exact .inl ⟨hoperator, hpublication, haccount, ⟨c, hk, hx, ha⟩, hopen⟩
  | expired now h =>
    rw [h] at hk
    obtain ⟨c₀, hc₀, rfl⟩ := map_eq_some_iff.mp hk
    exact .inl ⟨hoperator, hpublication, haccount, ⟨c₀, hc₀, hx, ha⟩, hopen⟩

/-- A step keeps at most one publication of an account on the way. -/
theorem LedgerEffect.oneInFlight (h : LedgerEffect s e l') (hs : LedgerShape s.ledger) (hset : Settled s.ledger)
    (hset' : Settled l') (hone : OneInFlight s.ledger) : OneInFlight l' := by
  have hs' := h.shape hs
  intro operator accountId k x a j y b hx hy
  have hclash {k j : ChannelScopeKey} {x y : ChannelTarget} {a b : ChannelAttempt}
      (hx : InFlight l' operator accountId k x a) (hnew : JustClaimed s e k x a)
      (hold : InFlight s.ledger operator accountId j y b) : False := by
    have hfree := hnew.free hx.publication
    rw [hx.operator, hx.account] at hfree
    exact not_inFlight hfree j y b hold
  rcases h.inFlight_or_claimed hs hset hset' hx with hx₀ | hxnew <;>
    rcases h.inFlight_or_claimed hs hset hset' hy with hy₀ | hynew
  · exact hone operator accountId k x a j y b hx₀ hy₀
  · exact (hclash hy hynew hx₀).elim
  · exact (hclash hx hxnew hy₀).elim
  · -- Both are the one attempt the step has claimed.
    obtain ⟨_, _, hcall, hclaims, hscope⟩ := hxnew.claimed
    obtain ⟨_, _, hcall', hclaims', hscope'⟩ := hynew.claimed
    obtain rfl := hcall.unique hcall'
    rw [hclaims] at hclaims'
    simp only [Option.some.injEq, Prod.mk.injEq] at hclaims'
    obtain ⟨rfl, hid, -⟩ := hclaims'
    rw [hscope] at hscope'
    obtain ⟨c, hk, hxmem, ha⟩ := hx.stored
    obtain ⟨d, hj, hymem, hb⟩ := hy.stored
    have hcx := hset'.own k c hk x hxmem
    have hdy := hset'.own j d hj y hymem
    have hkj : k = j := by
      refine hset'.once k c j d x.targetId hk hj (Except.ok.inj hscope') ?_ ?_
      · simp [Knows, hcx]
      · simp [Knows, hid, hdy]
    subst hkj
    rw [hk] at hj
    obtain rfl := some.inj hj
    rw [← hid, hcx] at hdy
    obtain rfl := some.inj hdy
    have hlist := (hs'.cycle k c hk).attemptsOf_of_mem ha
    rw [hlist, mem_singleton] at hb
    exact ⟨rfl, rfl, hb.symm⟩

end InFlight

/-! ### Every run -/

/-- The attempt is one of the target's, in some entry of the project. -/
def AttemptOf (l : ChannelLedger) (key : ProjectKey) (t : Uuid) (a : ChannelAttempt) : Prop :=
  ∃ k c, l.lookup k = some c ∧ k.scope = key ∧ a ∈ c.attemptsOf t

/-- What holds of the attempts of every reachable ledger. -/
structure SafeAttempts (l : ChannelLedger) : Prop where
  listed : ∀ k c t, l.lookup k = some c → (c.attemptsOf t).length ≤ 1
  once : ∀ key t a b, AttemptOf l key t a → AttemptOf l key t b → a = b
  exclusive : OneInFlight l
  paired : ∀ key t a, AttemptOf l key t a → a.outcome.isSome = a.receivedAt.isSome

/-- The three invariants together. -/
structure LedgerSafe (l : ChannelLedger) : Prop where
  shape : LedgerShape l
  settled : Settled l
  oneInFlight : OneInFlight l

theorem LedgerSafe.safeAttempts (h : LedgerSafe l) : SafeAttempts l where
  listed k c t hk := (h.shape.cycle k c hk).single t
  once := by
    rintro key t a b ⟨k, c, hk, rfl, ha⟩ ⟨j, d, hj, hscope, hb⟩
    have hc := h.shape.cycle k c hk
    have hknown : c.Knows t := hc.known t (ne_nil_of_mem ha)
    have hknown' : d.Knows t := (h.shape.cycle j d hj).known t (ne_nil_of_mem hb)
    obtain rfl := h.settled.once k c j d t hk hj hscope.symm hknown hknown'
    rw [hk] at hj
    obtain rfl := some.inj hj
    rw [hc.attemptsOf_of_mem ha, mem_singleton] at hb
    exact hb.symm
  exclusive := h.oneInFlight
  paired := by
    rintro key t a ⟨k, c, hk, -, ha⟩
    exact (h.shape.cycle k c hk).paired t a ha

theorem LedgerGrows.attemptOf {l' : ChannelLedger} (h : LedgerGrows l l')
    {t : Uuid} {a : ChannelAttempt} (ha : AttemptOf l key t a) :
    ∃ a', AttemptOf l' key t a' ∧ AttemptKept a a' := by
  obtain ⟨k, c, hk, hscope, hmem⟩ := ha
  obtain ⟨c', hk', hc⟩ := h k c hk
  obtain ⟨a', hmem', hkept⟩ := hc.attempt t a hmem
  exact ⟨a', ⟨k, c', hk', hscope, hmem'⟩, hkept⟩

theorem ledgerSafe_default : LedgerSafe MemoryChannelJobRepository.default.ledger where
  shape := ledgerShape_default
  settled :=
    { own := fun k c h => by simp [MemoryChannelJobRepository.default] at h
      once := fun k c j d t h => by simp [MemoryChannelJobRepository.default] at h }
  oneInFlight := by
    rintro operator accountId k x a j y b ⟨-, -, -, ⟨c, hk, -⟩, -⟩
    simp [MemoryChannelJobRepository.default] at hk

section Runs

variable [Sha256] [UrlParser] [InstantText]

theorem step_ledgerSafe {s s' : MemoryChannelJobRepository} {e : JobEvent}
    (h : (jobMachine.restrict PlansFresh).step s e s') (hs : LedgerSafe s.ledger) : LedgerSafe s'.ledger := by
  obtain ⟨hfresh, hstep⟩ := h
  have heffect := step_effect hstep
  have hset := heffect.settled hfresh hs.shape hs.settled
  exact ⟨heffect.shape hs.shape, hset, heffect.oneInFlight hs.shape hs.settled hset hs.oneInFlight⟩

/-- The attempt ledger is safe in every reachable state; an attempt stays the only one of its target
in every later state, unchanged once it has its outcome; and a call that fails changes nothing. -/
theorem attemptLedger_safe {s : MemoryChannelJobRepository} {h : List JobEvent}
    (hr : (jobMachine.restrict PlansFresh).Run MemoryChannelJobRepository.default h s) :
    SafeAttempts s.ledger
    ∧ (∀ h' s', (jobMachine.restrict PlansFresh).Run s h' s' → ∀ key t a, AttemptOf s.ledger key t a →
        ∃ a', AttemptKept a a' ∧ ∀ b, AttemptOf s'.ledger key t b ↔ b = a')
    ∧ ∀ call err s', (run call).run s = (.error err, s') → s.Unchanged s' := by
  have hsafe : LedgerSafe s.ledger :=
    hr.invariant (I := fun s => LedgerSafe s.ledger) (fun _ _ _ hs hstep => step_ledgerSafe hstep hs) ledgerSafe_default
  refine ⟨hsafe.safeAttempts, ?_, fun call err s' => failed_call⟩
  intro h' s' hr' key t a ha
  have hsafe' : LedgerSafe s'.ledger :=
    hr'.invariant (I := fun s => LedgerSafe s.ledger) (fun _ _ _ hs hstep => step_ledgerSafe hstep hs) hsafe
  obtain ⟨a', ha', hkept⟩ := (run_grows hr'.of_restrict hsafe.shape).attemptOf ha
  refine ⟨a', hkept, fun b => ⟨fun hb => hsafe'.safeAttempts.once key t b a' hb ha', ?_⟩⟩
  rintro rfl
  exact ha'

end Runs

/-! ### A run with two claims -/

namespace Sample

/-- Two targets of different accounts, each with its attempt; the first one has its outcome. -/
def claimCalls : List JobCall :=
  [.insertGeneratedTarget scope (uuid 10) (uuid 30) (plainTarget (uuid 30) (uuid 40)),
    .insertGeneratedTarget scope (uuid 11) (uuid 31) (plainTarget (uuid 31) (uuid 41)),
    .claim none scope (uuid 30) (uuid 50) 0, .claim none scope (uuid 31) (uuid 51) 1,
    .finish scope (uuid 30) (uuid 50)
      { status := .failed, detail := none, occurredAt := 2, rawAnswer := none, citations := []
        publicUrl := none, screenshotRef := none, connectorVersion := none, runnerEvidence := []
        fixture := false } 3]

/-- The repository after them. -/
def claimed : MemoryChannelJobRepository :=
  @after sha256 urlParser instantText MemoryChannelJobRepository.default claimCalls

theorem claimCalls_fresh : ∀ call ∈ claimCalls, ∀ (s : MemoryChannelJobRepository) reply,
    PlansFresh s (.call call reply) := by
  intro call hcall s reply scope plan key hdid
  obtain ⟨_, heq⟩ := hdid
  simp only [JobEvent.call.injEq] at heq
  obtain ⟨rfl, -⟩ := heq
  simp [claimCalls] at hcall

end Sample

open Sample

theorem attemptLedger_safe_claimed : SafeAttempts claimed.ledger
    ∧ (AttemptOf claimed.ledger project (uuid 31)
        { attemptId := uuid 51, targetId := uuid 31, claimedAt := 1, outcome := none
          receivedAt := none }) := by
  have hrun := @run_trace sha256 urlParser instantText PlansFresh
    claimCalls MemoryChannelJobRepository.default
    (@allowed_of_forall sha256 urlParser instantText _ _ claimCalls_fresh _)
  refine ⟨(@attemptLedger_safe sha256 urlParser instantText _ _ hrun).1, ?_⟩
  refine ⟨⟨project, .cycle (uuid 11)⟩,
    (claimed.ledger.lookup ⟨project, .cycle (uuid 11)⟩).getD MemoryCycle.default, ?_, rfl, ?_⟩
  · rfl
  · decide

end GeoMaster
