import GeoMaster.Proofs.SendAuthority

/-!
# The authority to withdraw a publication

A withdrawal row is made with the claim of an attempt and moves along
`awaitingPublication → ready → claimed → withdrawn` or `unknown`, and never back. What identifies the
post is fixed at the step to `ready`, from the one creation proof among the runner's evidence; the
execution is fixed at the step to `claimed`; `withdrawn` needs a completion that repeats all of it.

The connector version of the proof is compared with the recorded outcome, which a claim knows nothing
about. And as rows are filed under the attempt id, a second claim under the same id makes the row
anew; the results are about runs whose claims are fresh.
-/

namespace GeoMaster

open Except AssocMap Option

open ChannelLedger MemoryChannelJobRepository MemoryCycle

/-! ### The moves of a row -/

/-- The allowed moves of a row. -/
inductive NextState : PublicationWithdrawalState → PublicationWithdrawalState → Prop where
  | ready : NextState .awaitingPublication .ready
  | claimed : NextState .ready .claimed
  | withdrawn : NextState .claimed .withdrawn
  | unknown : NextState .claimed .unknown

/-- Nothing moves back to the first state. -/
theorem ne_awaiting_of_next {a b : PublicationWithdrawalState} (h : Relation.ReflTransGen NextState a b)
    (ha : a ≠ .awaitingPublication) : b ≠ .awaitingPublication := by
  rcases h.cases_tail with rfl | ⟨c, -, hstep⟩
  · exact ha
  · cases hstep <;> simp

/-- What a row keeps from one state of a run to a later one. -/
structure RowFixed (r r' : PublicationWithdrawal) : Prop where
  state : Relation.ReflTransGen NextState r.state r'.state
  about : r'.attemptId = r.attemptId ∧ r'.targetId = r.targetId ∧ r'.accountId = r.accountId
    ∧ r'.requestId = r.requestId ∧ r'.scope = r.scope
  externalId : ∀ v, r.externalId = some v → r'.externalId = some v
  publicUrl : ∀ v, r.publicUrl = some v → r'.publicUrl = some v
  executionId : ∀ v, r.executionId = some v → r'.executionId = some v
  digest : r.state ≠ .awaitingPublication → r'.evidence.index "expected_sha256" = r.evidence.index "expected_sha256"
  final : r.state = .withdrawn ∨ r.state = .unknown → r' = r

theorem RowFixed.refl (r : PublicationWithdrawal) : RowFixed r r :=
  ⟨.refl, ⟨rfl, rfl, rfl, rfl, rfl⟩, fun _ h => h, fun _ h => h, fun _ h => h, fun _ => rfl, fun _ => rfl⟩

theorem RowFixed.trans {a b c : PublicationWithdrawal} (h : RowFixed a b) (h' : RowFixed b c) : RowFixed a c where
  state := h.state.trans h'.state
  about := by
    obtain ⟨h₁, h₂, h₃, h₄, h₅⟩ := h.about
    obtain ⟨h₁', h₂', h₃', h₄', h₅'⟩ := h'.about
    exact ⟨h₁'.trans h₁, h₂'.trans h₂, h₃'.trans h₃, h₄'.trans h₄, h₅'.trans h₅⟩
  externalId v hv := h'.externalId v (h.externalId v hv)
  publicUrl v hv := h'.publicUrl v (h.publicUrl v hv)
  executionId v hv := h'.executionId v (h.executionId v hv)
  digest hstate := (h'.digest (ne_awaiting_of_next h.state hstate)).trans (h.digest hstate)
  final hstate := by
    obtain rfl := h.final hstate
    exact h'.final hstate

/-! ### Rows and their attempts -/

/-- The frozen part of a row names an attempt of the entry and its account. -/
structure RowKnown (c : MemoryCycle) (id : Uuid) (r : PublicationWithdrawal) : Prop where
  attemptId : r.attemptId = id
  attempt : ∃ a, c.attempt r.targetId id = some a
  account : ∃ x, c.target r.targetId = some x ∧ x.input.accountId = r.accountId

/-- What a row holds fits its state. -/
structure RowShape (r : PublicationWithdrawal) : Prop where
  externalId : r.externalId.isSome = true ↔ r.state ≠ .awaitingPublication
  publicUrl : r.publicUrl.isSome = true ↔ r.state ≠ .awaitingPublication
  executionId : r.executionId.isSome = true ↔ r.state ≠ .awaitingPublication ∧ r.state ≠ .ready

/-- A row is still about an attempt of the entry after a step. -/
theorem RowKnown.grows {k : ChannelScopeKey} {c c' : MemoryCycle} {id : Uuid} {r r' : PublicationWithdrawal} (h : RowKnown c id r)
    (hgrows : c.Grows c') (hc' : c'.Shape k)
    (habout : r'.attemptId = r.attemptId ∧ r'.targetId = r.targetId ∧ r'.accountId = r.accountId
      ∧ r'.requestId = r.requestId ∧ r'.scope = r.scope) : RowKnown c' id r' := by
  obtain ⟨hattempt, htarget, haccount, -, -⟩ := habout
  obtain ⟨_, ha⟩ := h.attempt
  obtain ⟨a', ha', -⟩ := hgrows.attempt_some hc' ha
  obtain ⟨x, hx, hxa⟩ := h.account
  exact
    { attemptId := hattempt.trans h.attemptId
      attempt := ⟨a', by rw [htarget]; exact ha'⟩
      account := ⟨x, by rw [htarget]; exact hgrows.target _ x hx, by rw [haccount]; exact hxa⟩ }

/-- Giving up interrupted withdrawals is one step of each row. -/
theorem lookup_expireRows (now : Uuid → DateTime) (c : MemoryCycle) (id : Uuid) :
    (expireRows now c).withdrawals.lookup id = (c.withdrawals.lookup id).map (expireWithdrawal (now id)) :=
  lookup_mapValues ..

/-! ### The two functions on a row -/

section Functions

variable [InstantText]

/-- A verified completion repeats what the row holds. -/
structure CompletedBy (r : PublicationWithdrawal) (executionId : Uuid) (evidence : Json) : Prop where
  execution : evidence.index "execution_id" = .string executionId.toString
  externalId : ∃ id, r.externalId = some id ∧ (evidence.index "external_id").asStr = some id
  publicUrl : ∃ url, r.publicUrl = some url ∧ (evidence.index "public_url").asStr = some url
  digest : evidence.index "expected_sha256" = r.evidence.index "expected_sha256"

variable {id : Uuid} {r r' : PublicationWithdrawal} {receivedAt : DateTime}

variable {executionId : Uuid} {evidence : Json} {a : ChannelAttempt}

theorem withdrawalVerified_completed
    (h : withdrawalVerified r executionId evidence receivedAt = true) : CompletedBy r executionId evidence := by
  simp only [withdrawalVerified, decide_eq_true_eq] at h
  obtain ⟨-, hexecution, hexternal, hid, hurl, hpublic, hdigest, -⟩ := h
  obtain ⟨id, hid⟩ := isSome_iff_exists.mp hid
  obtain ⟨url, hurl⟩ := isSome_iff_exists.mp hurl
  exact ⟨hexecution, ⟨id, hid, hexternal.trans hid⟩, ⟨url, hurl, hpublic.trans hurl⟩, hdigest⟩

/-- The row after a completion. -/
def completedRow (r : PublicationWithdrawal) (executionId : Uuid) (evidence : Json)
    (receivedAt : DateTime) : PublicationWithdrawal :=
  { r with
    state := if withdrawalVerified r executionId evidence receivedAt then .withdrawn else .unknown
    errorCode :=
      if withdrawalVerified r executionId evidence receivedAt then none
      else some "withdrawal_unverified"
    evidence :=
      if withdrawalVerified r executionId evidence receivedAt then evidence else r.evidence
    finishedAt := some receivedAt }

theorem completedRow_withdrawn (h : (completedRow r executionId evidence receivedAt).state = .withdrawn) :
    CompletedBy r executionId evidence := by
  unfold completedRow at h
  dsimp only at h
  split at h
  · next hverified => exact withdrawalVerified_completed hverified
  · simp at h

/-- A completion is of the claimed execution. -/
theorem finishPublicationWithdrawal_cases (h : finishPublicationWithdrawal r executionId evidence receivedAt = .ok r') :
    r.state = .claimed ∧ r.executionId = some executionId ∧ r' = completedRow r executionId evidence receivedAt := by
  simp only [finishPublicationWithdrawal, eq_ok_iff, not_or, not_not] at h
  obtain ⟨_, ⟨hstate, hexecution, -, -⟩, rfl⟩ := h
  exact ⟨hstate, hexecution, rfl⟩

variable [Sha256]

/-- The creation proof agrees with the row, the frozen input and the recorded outcome. -/
structure CreatedFrom (r : PublicationWithdrawal) (input : GeneratedPublishInput) (a : ChannelAttempt)
    (outcome : ChannelOutcome) (receivedAt : DateTime) (p : Json) (externalId url expected : String) : Prop where
  hasUrl : (p.index "url").asStr = some url
  hasExternalId : Text.stripPrefix url "https://www.zhihu.com/pin/" = some externalId
    ∧ p.index "external_id" = .string externalId
  ofAttempt : p.index "attempt_id" = .string r.attemptId.toString
  ofTarget : p.index "target_id" = .string r.targetId.toString
  ofAccount : p.index "account_id" = .string r.accountId.toString
  ofConnector : (p.index "connector_version").asStr = outcome.connectorVersion
  ofContent : expected = plainTextPublicationReadbackHash input.placementSlot input.title input.body
    ∧ p.index "expected_sha256" = .string expected
  observed : ∃ at_, observedAt p = some at_ ∧ a.claimedAt ≤ at_ ∧ at_ ≤ receivedAt

theorem creationProof_some {input : GeneratedPublishInput} {outcome : ChannelOutcome} {p : Json}
    {externalId url expected : String}
    (h : r.creationProof input a outcome receivedAt p = some (externalId, url, expected)) :
    CreatedFrom r input a outcome receivedAt p externalId url expected := by
  simp only [PublicationWithdrawal.creationProof, bind_eq_bind, bind_eq_some_iff] at h
  obtain ⟨_, hurl, _, hid, h⟩ := h
  split at h
  · simp at h
  · next hchecks =>
    simp only [Option.some.injEq, Prod.mk.injEq] at h
    obtain ⟨rfl, rfl, hexpected⟩ := h
    simp only [Bool.or_eq_true, Bool.not_eq_true', decide_eq_true_eq, not_or, not_not, ne_eq,
      Bool.not_eq_false, Option.any_eq_true] at hchecks
    obtain ⟨⟨⟨⟨⟨⟨⟨⟨⟨⟨⟨-, -⟩, hexternal⟩, -⟩, -⟩, -⟩, hsha⟩, hattempt⟩, htarget⟩, haccount⟩,
      hconnector⟩, at_, hat, hbetween⟩ := hchecks
    exact ⟨hurl, ⟨hid, hexternal⟩, hattempt, htarget, haccount, hconnector,
      ⟨hexpected.symm, by rw [← hexpected, hsha]⟩, ⟨at_, hat, hbetween⟩⟩

/-- The row made ready for the post of the proof. -/
def readyRow (r : PublicationWithdrawal) (outcome : ChannelOutcome)
    (externalId url expected : String) : PublicationWithdrawal :=
  { r with
    externalId := some externalId
    publicUrl := some url
    evidence :=
      .ofFields [("expected_sha256", .string expected), ("connector_version", versionJson outcome.connectorVersion)]
    state := .ready }

/-- What makes a row ready: the frozen publication, its received outcome from a live connector, and
the only creation record among the evidence. -/
structure ReadyFrom (r : PublicationWithdrawal) (x : ChannelTarget) (a : ChannelAttempt)
    (outcome : ChannelOutcome) (externalId url expected : String) : Prop where
  awaiting : r.state = .awaitingPublication
  received : a.outcome = some outcome ∧ a.receivedAt.isSome = true
  attempt : a.attemptId = r.attemptId ∧ a.targetId = r.targetId ∧ x.targetId = r.targetId
  live : PublicationWithdrawal.liveConnector outcome = true
  proof : ∃ input receivedAt p, x.input = .generatedPublish input ∧ input.accountId = r.accountId
    ∧ input.originRequestId = some r.requestId ∧ a.receivedAt = some receivedAt ∧ PublicationWithdrawal.creationRecords
    outcome = [p] ∧ CreatedFrom r input a outcome receivedAt p externalId url expected

/-- Resolving a row leaves it or makes it ready. -/
theorem resolvePublicationWithdrawal_cases {x : ChannelTarget} (h : resolvePublicationWithdrawal r x a = .ok r') :
    r' = r ∨ ∃ outcome externalId url expected,
      ReadyFrom r x a outcome externalId url expected ∧ r' = readyRow r outcome externalId url expected := by
  unfold resolvePublicationWithdrawal at h
  split at h
  · exact .inl (ok.inj h).symm
  next hstate =>
  split at h
  · simp at h
  next input hmatch =>
  split at h
  · next outcome receivedAt ho hr =>
    split at h
    · exact .inl (ok.inj h).symm
    next hlive =>
    split at h
    · next p hrecords =>
      split at h
      · exact .inl (ok.inj h).symm
      · next externalId url expected hproof =>
        refine .inr ⟨outcome, externalId, url, expected, ?_, (ok.inj h).symm⟩
        unfold PublicationWithdrawal.matchesBinding at hmatch
        split at hmatch
        · next input' hinput =>
          split at hmatch
          · next hchecks =>
            obtain rfl := some.inj hmatch
            obtain ⟨-, horigin, htarget, hattempt, hattemptTarget, haccount, -, -⟩ := hchecks
            exact
              { awaiting := by simpa using hstate
                received := ⟨ho, by simp [hr]⟩
                attempt := ⟨hattempt, hattemptTarget, htarget⟩
                live := by simpa using hlive
                proof := ⟨input', receivedAt, p, hinput, haccount, horigin, hr, hrecords, creationProof_some hproof⟩ }
          · simp at hmatch
        · simp at hmatch
    · exact .inl (ok.inj h).symm
  · exact .inl (ok.inj h).symm

/-! ### What a step does to a row -/

/-- One step of a withdrawal. -/
inductive RowStep (s : MemoryChannelJobRepository) (e : JobEvent) (k : ChannelScopeKey)
    (c : MemoryCycle) (id : Uuid) (r : PublicationWithdrawal) : PublicationWithdrawal → Prop where
  | kept : RowStep s e k c id r r
  | ready (x : ChannelTarget) (a : ChannelAttempt) (outcome : ChannelOutcome) (externalId url expected : String)
      (hx : c.target r.targetId = some x) (ha : c.attempt r.targetId id = some a)
      (hready : ReadyFrom r x a outcome externalId url expected) :
      RowStep s e k c id r (readyRow r outcome externalId url expected)
  | claimed (scope : TenantScope) (executionId reservationId : Uuid) (at_ : DateTime)
      (hcall : e.Did (.claimWithdrawal scope id executionId reservationId at_))
      (hscope : scopeKey scope = .ok k.scope) (hstate : r.state = .ready) (hexecution : r.executionId = none)
      (hlive : liveReservation s.gates k.scope.operator r.accountId reservationId at_ = true) :
      RowStep s e k c id r { r with state := .claimed, executionId := some executionId, claimedAt := some at_ }
  | completed (scope : TenantScope) (executionId : Uuid) (evidence : Json) (receivedAt : DateTime)
      (hcall : e.Did (.finishWithdrawal scope id executionId evidence receivedAt))
      (hscope : scopeKey scope = .ok k.scope) (hstate : r.state = .claimed)
      (hexecution : r.executionId = some executionId)
      (hcarries : (completedRow r executionId evidence receivedAt).state = .withdrawn →
        CompletedBy r executionId evidence) :
      RowStep s e k c id r (completedRow r executionId evidence receivedAt)
  | expired (hstate : r.state = .claimed) :
      RowStep s e k c id r { r with state := .unknown, errorCode := some "withdrawal_interrupted" }

theorem RowEffect.rowStep {s : MemoryChannelJobRepository} {e : JobEvent} {k : ChannelScopeKey} {c : MemoryCycle}
    (h : RowEffect s e k c id r r') : RowStep s e k c id r r' := by
  cases h with
  | resolved x a _ hx ha h =>
    rcases resolvePublicationWithdrawal_cases h with rfl | ⟨o, i, u, d, hready, rfl⟩
    · exact .kept
    · exact .ready x a o i u d hx ha hready
  | claimed scope executionId reservationId at_ hcall hscope hstate hexecution hlive =>
    exact .claimed scope executionId reservationId at_ hcall hscope hstate hexecution hlive
  | finished scope executionId evidence receivedAt _ hcall hscope h =>
    obtain ⟨hstate, hexecution, rfl⟩ := finishPublicationWithdrawal_cases h
    exact .completed scope executionId evidence receivedAt hcall hscope hstate hexecution completedRow_withdrawn

theorem expireWithdrawal_rowStep {s : MemoryChannelJobRepository} {e : JobEvent} {k : ChannelScopeKey}
    {c : MemoryCycle} (now : DateTime) (r : PublicationWithdrawal) :
    RowStep s e k c id r (expireWithdrawal now r) := by
  unfold expireWithdrawal
  split
  · next h => exact .expired h.1
  · exact .kept

theorem RowStep.shape {s : MemoryChannelJobRepository} {e : JobEvent} {k : ChannelScopeKey} {c : MemoryCycle}
    (h : RowStep s e k c id r r') (hr : RowShape r) : RowShape r' := by
  obtain ⟨hexternal, hpublic, hexecution⟩ := hr
  cases h with
  | kept => exact ⟨hexternal, hpublic, hexecution⟩
  | ready _ _ _ _ _ _ _ _ hready =>
    refine ⟨by simp [readyRow], by simp [readyRow], ?_⟩
    have hnone : ¬ r.executionId.isSome = true := by
      rw [hexecution, hready.awaiting]
      simp
    simpa [readyRow] using hnone
  | claimed _ _ _ _ _ _ hstate =>
    rw [hstate] at hexternal hpublic
    exact ⟨by simpa using hexternal, by simpa using hpublic, by simp⟩
  | completed _ executionId evidence receivedAt _ _ hstate =>
    rw [hstate] at hexternal hpublic hexecution
    have hdone : (completedRow r executionId evidence receivedAt).state ≠ .awaitingPublication
        ∧ (completedRow r executionId evidence receivedAt).state ≠ .ready := by
      unfold completedRow
      dsimp only
      split <;> simp
    refine ⟨?_, ?_, ?_⟩
    · exact iff_of_true (hexternal.mpr (by simp)) hdone.1
    · exact iff_of_true (hpublic.mpr (by simp)) hdone.1
    · exact iff_of_true (hexecution.mpr (by simp)) hdone
  | expired hstate =>
    rw [hstate] at hexternal hpublic hexecution
    exact ⟨by simpa using hexternal, by simpa using hpublic, by simpa using hexecution⟩

theorem RowStep.frozen {s : MemoryChannelJobRepository} {e : JobEvent} {k : ChannelScopeKey}
    {c : MemoryCycle} {id : Uuid} {r r' : PublicationWithdrawal} (h : RowStep s e k c id r r') :
    r'.attemptId = r.attemptId ∧ r'.targetId = r.targetId ∧ r'.accountId = r.accountId
      ∧ r'.requestId = r.requestId ∧ r'.scope = r.scope := by
  cases h <;> exact ⟨rfl, rfl, rfl, rfl, rfl⟩

/-- A step moves the state at most once along, and keeps what is set. -/
theorem RowStep.fixed {s : MemoryChannelJobRepository} {e : JobEvent} {k : ChannelScopeKey} {c : MemoryCycle}
    (h : RowStep s e k c id r r') (hr : RowShape r) : RowFixed r r' := by
  have habout := h.frozen
  cases h with
  | kept => exact .refl r
  | ready _ _ _ externalId _ _ _ _ hready =>
    have hstate := hready.awaiting
    have hnone : r.externalId = none ∧ r.publicUrl = none := by
      have h₁ := hr.externalId
      have h₂ := hr.publicUrl
      simp only [hstate, ne_eq, not_true_eq_false, iff_false, Bool.not_eq_true,
        isSome_eq_false_iff, isNone_iff_eq_none] at h₁ h₂
      exact ⟨h₁, h₂⟩
    exact
      { state := by
          rw [hstate]
          exact .single .ready
        about := habout
        externalId := fun v hv => by simp [hnone] at hv
        publicUrl := fun v hv => by simp [hnone] at hv
        executionId := fun v hv => hv
        digest := fun hne => absurd hstate hne
        final := fun hfinal => by simp [hstate] at hfinal }
  | claimed _ executionId _ _ _ _ hstate hnone =>
    exact
      { state := by
          rw [hstate]
          exact .single .claimed
        about := habout
        externalId := fun v hv => hv
        publicUrl := fun v hv => hv
        executionId := fun v hv => by simp [hnone] at hv
        digest := fun _ => rfl
        final := fun hfinal => by simp [hstate] at hfinal }
  | completed _ executionId _ _ _ _ hstate =>
    refine
      { state := ?_
        about := habout
        externalId := fun v hv => hv
        publicUrl := fun v hv => hv
        executionId := fun v hv => hv
        digest := fun _ => ?_
        final := fun hfinal => by simp [hstate] at hfinal }
    · rw [hstate]
      unfold completedRow
      dsimp only
      split
      · exact .single .withdrawn
      · exact .single .unknown
    · unfold completedRow
      dsimp only
      split
      · next hverified => exact (withdrawalVerified_completed hverified).digest
      · rfl
  | expired hstate =>
    exact
      { state := by
          rw [hstate]
          exact .single .unknown
        about := habout
        externalId := fun v hv => hv
        publicUrl := fun v hv => hv
        executionId := fun v hv => hv
        digest := fun _ => rfl
        final := fun hfinal => by simp [hstate] at hfinal }

/-! ### Every step of the repository -/

/-- Every row of the entry names an attempt of it and fits its state. -/
def RowsKnown (c : MemoryCycle) : Prop :=
  ∀ id r, c.withdrawals.lookup id = some r → RowKnown c id r ∧ RowShape r

variable {s : MemoryChannelJobRepository} {e : JobEvent} {k : ChannelScopeKey} {c c' : MemoryCycle} {l' : ChannelLedger}

theorem CycleEffect.rowStep (h : CycleEffect s e k c c') (hstored : s.ledger.lookup k = some c)
    (hfresh : ClaimsFresh s e) (hrows : RowsKnown c) (hr : c.withdrawals.lookup id = some r) :
    ∃ r', c'.withdrawals.lookup id = some r' ∧ RowStep s e k c id r r' := by
  cases h with
  | measured _ _ _ hfree =>
    rw [hstored] at hfree
    simp at hfree
  | claimed call scope _ _ a w _ hcall hclaims hscope _ hx =>
    refine ⟨r, ?_, .kept⟩
    cases w with
    | none => exact hr
    | some row =>
      -- The new row is filed under an id no attempt of the entry had.
      have hne : id ≠ a.attemptId := by
        rintro rfl
        obtain ⟨_, hb⟩ := (hrows _ r hr).1.attempt
        have hnew := hfresh call scope a.targetId a.attemptId hcall hclaims k c hstored hscope (by simp [hx]) r.targetId
        rw [hb] at hnew
        simp at hnew
      have := lookup_insert c.withdrawals a.attemptId id row
      rw [if_neg hne, hr] at this
      exact this
  | row id' _ r₁ _ hr₀ heffect =>
    by_cases hid : id = id'
    · subst hid
      rw [hr] at hr₀
      obtain rfl := some.inj hr₀
      exact ⟨r₁, AList.lookup_insert _, heffect.rowStep⟩
    · exact ⟨r, by rw [lookup_insert, if_neg hid, hr], .kept⟩
  | _ => exact ⟨r, hr, .kept⟩

theorem CycleEffect.newRow (h : CycleEffect s e k c c') (hr : c'.withdrawals.lookup id = some r) :
    (c.withdrawals.lookup id).isSome = true
      ∨ ∃ call scope x a, e.Did call ∧ call.claims = some (scope, a.targetId, id) ∧ scopeKey scope = .ok k.scope
        ∧ FreshRow r k.scope x a ∧ a.attemptId = id ∧ c'.target a.targetId = some x ∧ a ∈ c'.attemptsOf a.targetId := by
  cases h with
  | measured => simp [MemoryCycle.default] at hr
  | claimed call scope _ x a w _ hcall hclaims hscope _ hx _ _ _ _ _ hrow =>
    cases w with
    | none => exact .inl (by simpa [pushAttempt] using congrArg Option.isSome hr)
    | some row =>
      have hlookup := lookup_insert c.withdrawals a.attemptId id row
      rw [show (c.withdrawals.insert a.attemptId row).lookup id = some r from hr] at hlookup
      split at hlookup
      · next hid =>
        subst hid
        obtain rfl := some.inj hlookup
        refine .inr ⟨call, scope, x, a, hcall, hclaims, hscope, hrow r rfl, rfl, hx, ?_⟩
        rw [attemptsOf_pushAttempt, if_pos rfl]
        exact List.mem_append_right _ (List.mem_singleton.mpr rfl)
      · exact .inl (by simp [← hlookup])
  | row _ r₀ _ _ hr₀ =>
    rw [lookup_insert] at hr
    split at hr
    · next hid => exact .inl (isSome_iff_exists.mpr ⟨r₀, by rw [hid, hr₀]⟩)
    · exact .inl (isSome_iff_exists.mpr ⟨r, hr⟩)
  | _ => exact .inl (isSome_iff_exists.mpr ⟨r, hr⟩)

theorem CycleEffect.rowsKnown (h : CycleEffect s e k c c') (hentry : c = entryOrDefault s.ledger k)
    (hfresh : ClaimsFresh s e) (hc : c.Shape k) (hrows : RowsKnown c) : RowsKnown c' := by
  have hc' := h.shape hc
  have hgrows := h.grows hc hentry
  intro id r' hr'
  rcases h.newRow hr' with hold | ⟨call, scope, x, a, -, -, -, hrow, hid, hx, ha⟩
  · obtain ⟨r, hr⟩ := isSome_iff_exists.mp hold
    have hstored : s.ledger.lookup k = some c := by
      cases hk : s.ledger.lookup k with
      | none =>
        rw [hentry, entryOrDefault, hk, getD_none] at hr
        simp [MemoryCycle.default] at hr
      | some d => rw [hentry, entryOrDefault_of_lookup hk]
    obtain ⟨_, hr'', hstep⟩ := h.rowStep hstored hfresh hrows hr
    rw [hr'] at hr''
    obtain rfl := some.inj hr''
    obtain ⟨hknown, hshape⟩ := hrows id r hr
    exact ⟨hknown.grows hgrows hc' hstep.frozen, hstep.shape hshape⟩
  · subst hid
    have hfound := hc'.attempt_of_mem ha
    rw [← hrow.targetId] at hfound hx
    refine ⟨⟨hrow.attemptId, ⟨a, hfound⟩, ⟨x, hx, hrow.accountId.symm⟩⟩, ?_⟩
    exact ⟨by simp [hrow.externalId, hrow.state], by simp [hrow.publicUrl, hrow.state],
      by simp [hrow.executionId, hrow.state]⟩

/-- What holds of the withdrawals of every state that fresh claims reach. -/
structure WithdrawalInvariant (s : MemoryChannelJobRepository) : Prop where
  shape : LedgerShape s.ledger
  rows : ∀ k c, s.ledger.lookup k = some c → RowsKnown c

/-- A row survives the giving up of interrupted withdrawals, with at most that step. -/
theorem expireRows_rowStep (s : MemoryChannelJobRepository) (e : JobEvent) (k : ChannelScopeKey)
    (now : Uuid → DateTime) (hr : c.withdrawals.lookup id = some r) :
    ∃ r', (expireRows now c).withdrawals.lookup id = some r' ∧ RowStep s e k c id r r' :=
  ⟨expireWithdrawal (now id) r, by rw [lookup_expireRows, hr]; rfl, expireWithdrawal_rowStep _ r⟩

theorem RowsKnown.expireRows (h : RowsKnown c) (s : MemoryChannelJobRepository) (e : JobEvent)
    (k : ChannelScopeKey) (now : Uuid → DateTime) : RowsKnown (expireRows now c) := by
  intro id r' hr'
  rw [lookup_expireRows] at hr'
  obtain ⟨r, hr, rfl⟩ := map_eq_some_iff.mp hr'
  obtain ⟨hknown, hshape⟩ := h id r hr
  have hstep : RowStep s e k c id r (expireWithdrawal (now id) r) := expireWithdrawal_rowStep (now id) r
  obtain ⟨h₁, h₂, h₃, -, -⟩ := hstep.frozen
  exact ⟨⟨h₁.trans hknown.attemptId, by rw [h₂]; exact hknown.attempt,
    by rw [h₂, h₃]; exact hknown.account⟩, hstep.shape hshape⟩

theorem LedgerEffect.rowsKnown (h : LedgerEffect s e l') (hfresh : ClaimsFresh s e) (hs : LedgerShape s.ledger)
    (hrows : ∀ k c, s.ledger.lookup k = some c → RowsKnown c) : ∀ k c, l'.lookup k = some c → RowsKnown c := by
  refine h.forall_cycle (P := fun _ => RowsKnown) hrows (fun k c' hc => ?_)
    fun k c now hknown => hknown.expireRows s e k now
  refine hc.rowsKnown rfl hfresh (hs.entryOrDefault k) ?_
  cases hk : s.ledger.lookup k with
  | none =>
    intro id r hr
    rw [entryOrDefault, hk, getD_none] at hr
    simp [MemoryCycle.default] at hr
  | some c =>
    rw [entryOrDefault_of_lookup hk]
    exact hrows k c hk

theorem LedgerEffect.rowStep (h : LedgerEffect s e l') (hfresh : ClaimsFresh s e) (hs : LedgerShape s.ledger)
    (hrows : RowsKnown c) (hk : s.ledger.lookup k = some c) (hr : c.withdrawals.lookup id = some r) :
    ∃ c' r', l'.lookup k = some c' ∧ c'.withdrawals.lookup id = some r' ∧ RowStep s e k c id r r' ∧ c.Grows c' := by
  obtain ⟨c', hk', rfl | heffect | ⟨now, rfl⟩⟩ := h.forward hk
  · exact ⟨c', r, hk', hr, .kept, .refl c'⟩
  · obtain ⟨r', hr', hstep⟩ := heffect.rowStep hk hfresh hrows hr
    exact ⟨c', r', hk', hr', hstep, heffect.grows (hs.cycle k c hk) (entryOrDefault_of_lookup hk).symm⟩
  · obtain ⟨r', hr', hstep⟩ := expireRows_rowStep s e k now hr
    exact ⟨_, r', hk', hr', hstep, grows_expireRows now c⟩

theorem LedgerEffect.newRow (h : LedgerEffect s e l') (hk : l'.lookup k = some c')
    (hr : c'.withdrawals.lookup id = some r) (hnew : ∀ c, s.ledger.lookup k = some c → c.withdrawals.lookup id = none) :
    ∃ call scope x a, e.Did call ∧ call.claims = some (scope, a.targetId, id) ∧ scopeKey scope = .ok k.scope ∧ FreshRow
      r k.scope x a ∧ a.attemptId = id ∧ c'.target a.targetId = some x ∧ a ∈ c'.attemptsOf a.targetId := by
  cases h with
  | same h =>
    rw [h] at hk
    simp [hnew c' hk] at hr
  | entry j d h heffect =>
    rw [h] at hk
    split at hk
    · next hkj =>
      subst hkj
      obtain rfl := some.inj hk
      refine (heffect.newRow hr).resolve_left fun hold => ?_
      cases hl : s.ledger.lookup k with
      | none =>
        rw [entryOrDefault, hl, getD_none] at hold
        simp [MemoryCycle.default] at hold
      | some c =>
        rw [entryOrDefault_of_lookup hl] at hold
        simp [hnew c hl] at hold
    · simp [hnew c' hk] at hr
  | expired now h =>
    rw [h] at hk
    obtain ⟨c, hc, rfl⟩ := map_eq_some_iff.mp hk
    rw [lookup_expireRows, hnew c hc] at hr
    simp at hr

/-- The four calls that work on a withdrawal. -/
def JobCall.onWithdrawal : JobCall → Bool
  | .resolveWithdrawal .. | .scanWithdrawals .. | .claimWithdrawal .. | .finishWithdrawal .. => true
  | _ => false

theorem LedgerEffect.attempts_same (h : LedgerEffect s e l') {call : JobCall} (hcall : e.Did call)
    (hw : call.onWithdrawal = true) (hk : s.ledger.lookup k = some c) :
    ∃ c', l'.lookup k = some c' ∧ ∀ t, c'.attemptsOf t = c.attemptsOf t := by
  obtain ⟨c', hk', rfl | heffect | ⟨_, rfl⟩⟩ := h.forward hk
  · exact ⟨c', hk', fun _ => rfl⟩
  · refine ⟨c', hk', fun t => ?_⟩
    cases heffect with
    | measured _ _ _ hfree =>
      rw [hk] at hfree
      simp at hfree
    | claimed _ _ _ _ _ _ _ hcall' hclaims =>
      obtain rfl := hcall.unique hcall'
      cases call <;> simp [JobCall.claims, JobCall.onWithdrawal] at hclaims hw
    | finished _ _ _ _ _ _ _ _ _ hcall' =>
      obtain rfl := hcall.unique hcall'
      simp [JobCall.onWithdrawal] at hw
    | _ => rfl
  · exact ⟨_, hk', fun _ => rfl⟩

end Functions

/-! ### Every run -/

section Runs

variable [Sha256] [UrlParser] [InstantText] {s s' : MemoryChannelJobRepository} {e : JobEvent} {h h' : List JobEvent}

theorem WithdrawalInvariant.step (hi : WithdrawalInvariant s)
    (hstep : (jobMachine.restrict ClaimsFresh).step s e s') : WithdrawalInvariant s' := by
  have heffect := step_effect hstep.2
  exact ⟨heffect.shape hi.shape, heffect.rowsKnown hstep.1 hi.shape hi.rows⟩

/-- What a row is in one state, it is in every later one but for its moves. -/
theorem run_rowFixed (hr : (jobMachine.restrict ClaimsFresh).Run s h s') (hi : WithdrawalInvariant s) :
    ∀ k c id r, s.ledger.lookup k = some c → c.withdrawals.lookup id = some r →
      ∃ c' r', s'.ledger.lookup k = some c' ∧ c'.withdrawals.lookup id = some r' ∧ RowFixed r r' := by
  refine hr.relates (I := WithdrawalInvariant)
    (R := fun s s' => ∀ k c id r, s.ledger.lookup k = some c → c.withdrawals.lookup id = some r →
      ∃ c' r', s'.ledger.lookup k = some c' ∧ c'.withdrawals.lookup id = some r' ∧ RowFixed r r')
    (fun _ _ _ hi hstep => hi.step hstep) (fun s k c id r hk hrow => ⟨c, r, hk, hrow, .refl r⟩)
    (fun s s' s'' h₁ h₂ k c id r hk hrow => ?_) (fun s e s' hi hstep k c id r hk hrow => ?_) hi
  · obtain ⟨c', r', hk', hrow', hfixed⟩ := h₁ k c id r hk hrow
    obtain ⟨c'', r'', hk'', hrow'', hfixed'⟩ := h₂ k c' id r' hk' hrow'
    exact ⟨c'', r'', hk'', hrow'', hfixed.trans hfixed'⟩
  · have hrows := hi.rows k c hk
    obtain ⟨c', r', hk', hrow', hrowStep, -⟩ := (step_effect hstep.2).rowStep hstep.1 hi.shape hrows hk hrow
    exact ⟨c', r', hk', hrow', hrowStep.fixed (hrows id r hrow).2⟩

/-- The withdrawals of every run with fresh claims: rows are made by claims, fit their state and their
attempt, take one allowed step at a time, keep what is set, and never touch an attempt. -/
theorem withdrawalAuthority (hr : (jobMachine.restrict ClaimsFresh).Run MemoryChannelJobRepository.default h s) :
    (∀ k c, s.ledger.lookup k = some c → RowsKnown c)
    ∧ (∀ e s', (jobMachine.restrict ClaimsFresh).step s e s' →
        (∀ k c id r, s.ledger.lookup k = some c → c.withdrawals.lookup id = some r →
          ∃ c' r', s'.ledger.lookup k = some c' ∧ c'.withdrawals.lookup id = some r'
            ∧ RowStep s e k c id r r' ∧ c.Grows c')
        ∧ (∀ k c' id r', s'.ledger.lookup k = some c' → c'.withdrawals.lookup id = some r' →
          (∀ c, s.ledger.lookup k = some c → c.withdrawals.lookup id = none) →
          ∃ call scope x a, e.Did call ∧ call.claims = some (scope, a.targetId, id) ∧ scopeKey scope = .ok k.scope
            ∧ FreshRow r' k.scope x a ∧ a.attemptId = id ∧ c'.target a.targetId = some x ∧ a ∈ c'.attemptsOf a.targetId)
        ∧ (∀ call k c, e.Did call → call.onWithdrawal = true → s.ledger.lookup k = some c →
          ∃ c', s'.ledger.lookup k = some c' ∧ ∀ t, c'.attemptsOf t = c.attemptsOf t))
    ∧ ∀ h' s', (jobMachine.restrict ClaimsFresh).Run s h' s' →
        ∀ k c id r, s.ledger.lookup k = some c → c.withdrawals.lookup id = some r →
          ∃ c' r', s'.ledger.lookup k = some c' ∧ c'.withdrawals.lookup id = some r' ∧ RowFixed r r' := by
  have hi : WithdrawalInvariant s :=
    hr.invariant (I := WithdrawalInvariant) (fun _ _ _ hi hstep => hi.step hstep)
      ⟨ledgerShape_default, fun k c hk => by simp [MemoryChannelJobRepository.default] at hk⟩
  refine ⟨hi.rows, fun e s' hstep => ?_, fun h' s' hr' => run_rowFixed hr' hi⟩
  have heffect := step_effect hstep.2
  exact ⟨fun k c id r hk hrow => heffect.rowStep hstep.1 hi.shape (hi.rows k c hk) hk hrow,
    fun k c' id r' hk hrow hnew => heffect.newRow hk hrow hnew,
    fun call k c hcall hw hk => heffect.attempts_same hcall hw hk⟩

end Runs

/-! ### A row made ready, and made anew -/

namespace Sample

/-- SHA-256 on the one text the runs below hash. -/
@[reducible] def readbackSha256 : Sha256 :=
  ⟨fun bytes =>
    if bytes = Text.bytes "\nB" then
      "bbfd71abb9fcc1f3e41a9ba4774ae7f11060da4b01e8cd4d93e779d4b8d353d3"
    else ""⟩

/-- The one instant the runs below read. -/
@[reducible] def oneInstant : InstantText :=
  ⟨fun text => if text = "1970-01-01T00:00:00.000000002Z" then some 2 else none⟩

/-- A request to publish for the account and to withdraw the post again. -/
def withdrawRequest (account : Uuid) : ContentDistributionRequest :=
  { requestId := uuid 80, scope, schemaVersion := 1, contentRevisionId := uuid 20
    contentAssetId := uuid 24, platformId := "zhihu", placementSlot := "short_post"
    accountId := account, accountOwnerKind := "customer", format := textDistributionFormat
    withdrawAfterPublish := true, idempotencyKeyHash := "", requestHash := ""
    publicationIntentId := none, materializationDeferral := none, createdAt := 0 }

def requestedTarget (id account : Uuid) : ChannelTarget :=
  { targetId := id
    input := .generatedPublish { plainInput account with originRequestId := some (uuid 80) } }

/-- The creation record of the post, by a connector of the given version. -/
def creationRecord (version : String) : Json :=
  .object
    [("kind", .string "publication_created"), ("schema_version", .string "geo.publication.created.v1"),
      ("url", .string "https://www.zhihu.com/pin/12"), ("external_id", .string "12"),
      ("request_method", .string "POST"), ("request_url", .string "https://www.zhihu.com/api/v4/content/publish"),
      ("http_status", .number (.posInt 200)),
      ("expected_sha256", .string "bbfd71abb9fcc1f3e41a9ba4774ae7f11060da4b01e8cd4d93e779d4b8d353d3"),
      ("attempt_id", .string (uuid 50).toString), ("target_id", .string (uuid 30).toString),
      ("account_id", .string (uuid 40).toString), ("connector_version", .string version),
      ("observed_at", .string "1970-01-01T00:00:00.000000002Z")]

/-- Two targets of one cycle, the first claimed with a withdrawal. -/
def withdrawClaim : List JobCall :=
  [.insertGeneratedTarget scope (uuid 10) (uuid 30) (requestedTarget (uuid 30) (uuid 40)),
    .insertGeneratedTarget scope (uuid 10) (uuid 31) (requestedTarget (uuid 31) (uuid 41)),
    .claim (some fun _ _ => .ok (withdrawRequest (uuid 40))) scope (uuid 30) (uuid 50) 0]

/-- The outcome with the creation record, and the resolution of the withdrawal. -/
def withdrawReady (version : String) : List JobCall :=
  [.finish scope (uuid 30) (uuid 50)
      { published 2 with
        connectorVersion := some version, runnerEvidence := [creationRecord version] } 3,
    .resolveWithdrawal scope (uuid 50)]

/-- A claim of the second target, under the attempt id of the first. -/
def reclaim : JobCall :=
  .claim (some fun _ _ => .ok (withdrawRequest (uuid 41))) scope (uuid 31) (uuid 50) 4

def withdrawTrace (calls : List JobCall) : List JobEvent :=
  @trace readbackSha256 urlParser oneInstant MemoryChannelJobRepository.default calls

def withdrawState (calls : List JobCall) : MemoryChannelJobRepository :=
  @after readbackSha256 urlParser oneInstant MemoryChannelJobRepository.default calls

/-- The state of the row and the connector version it holds. -/
def rowSummary (calls : List JobCall) : Option (PublicationWithdrawalState × Json) :=
  ((entryOrDefault (withdrawState calls).ledger
    ⟨project, .cycle (uuid 10)⟩).withdrawals.lookup (uuid 50)).map fun row =>
      (row.state, row.evidence.index "connector_version")

theorem withdrawReady_allowed :
    @Allowed readbackSha256 urlParser oneInstant ClaimsFresh MemoryChannelJobRepository.default
      (withdrawClaim ++ withdrawReady "zhihu-1") := by
  refine ⟨?_, ?_, ?_, ?_, ?_, trivial⟩
  all_goals
    refine claimsFresh_of_unused fun scope t id hclaims => ?_
    simp only [JobCall.claims, reduceCtorEq, Option.some.injEq, Prod.mk.injEq] at hclaims
  obtain ⟨-, -, rfl⟩ := hclaims
  decide +kernel

end Sample

open Sample

/-- A run with fresh claims that makes a row ready; the row is known. -/
theorem withdrawalAuthority_ready :
    rowSummary (withdrawClaim ++ withdrawReady "zhihu-1") = some (.ready, .string "zhihu-1")
    ∧ ∀ k c, (withdrawState (withdrawClaim ++ withdrawReady "zhihu-1")).ledger.lookup
        k = some c → RowsKnown c := by
  have hrun := @run_trace readbackSha256 urlParser oneInstant ClaimsFresh
    (withdrawClaim ++ withdrawReady "zhihu-1") MemoryChannelJobRepository.default
    withdrawReady_allowed
  exact ⟨by decide +kernel, (@withdrawalAuthority readbackSha256 urlParser oneInstant _ _ hrun).1⟩

/-- After one and the same claim the row becomes ready under either connector version, so the claim
does not fix it; and a second claim under the attempt id moves the ready row back to the first
state. -/
theorem reclaim_resets_row :
    rowSummary (withdrawClaim ++ withdrawReady "zhihu-1") = some (.ready, .string "zhihu-1")
    ∧ rowSummary (withdrawClaim ++ withdrawReady "zhihu-2") = some (.ready, .string "zhihu-2")
    ∧ (@jobMachine readbackSha256 urlParser oneInstant).Run MemoryChannelJobRepository.default
      (withdrawTrace (withdrawClaim ++ withdrawReady "zhihu-1" ++ [reclaim]))
      (withdrawState (withdrawClaim ++ withdrawReady "zhihu-1" ++ [reclaim]))
    ∧ rowSummary (withdrawClaim ++ withdrawReady "zhihu-1" ++ [reclaim])
      = some (.awaitingPublication, .null) := by
  refine ⟨by decide +kernel, by decide +kernel, ?_, by decide +kernel⟩
  exact (@run_trace readbackSha256 urlParser oneInstant (fun _ _ => True)
    (withdrawClaim ++ withdrawReady "zhihu-1" ++ [reclaim])
    MemoryChannelJobRepository.default
    (@allowed_of_forall readbackSha256 urlParser oneInstant _ _
      (fun _ _ _ _ => trivial) _)).of_restrict

end GeoMaster
