import GeoMaster.Proofs.PublicationLedger
import GeoMaster.Proofs.RequestShape

/-!
# A request is linked once

What each operation on the requests does, that every step of every task keeps the shape, and what follows for
all runs: one request for each key, one link for each request, one command for each publication.
-/

namespace GeoMaster

open Op Except AssocMap Option RequestSystem

open MemoryDistributionRepository MemoryContentDistributionRequestRepository

/-! ### The operations -/

section Operations

variable [Sha256] {scope : TenantScope} {s s' : MemoryRequestState} {requestId : Uuid}

variable {request : ContentDistributionRequest}

variable {input : AcceptContentDistributionRequest} {now : DateTime} {reply : ContentDistributionRequest}

theorem prepareContentDistributionRequest_ok
    (h : prepareContentDistributionRequest scope input requestId now = .ok request) :
    scope.projectId.isSome ∧ distributionRequestKeyHash input.idempotencyKey = .ok request.idempotencyKeyHash
      ∧ request.requestHash = digest (requestParts input) ∧ request.requestId = requestId ∧ request.scope = scope
      ∧ request.publicationIntentId = none := by
  simp only [prepareContentDistributionRequest, eq_ok_iff, not_or] at h
  obtain ⟨_, hproject, _, -, _, ⟨-, -, -, -, -, hempty, hlong⟩, _, -, _, -, rfl⟩ := h
  refine ⟨by rw [hproject]; rfl, ?_, rfl, rfl, rfl, rfl⟩
  rw [distributionRequestKeyHash, bind_eq_ok]
  refine ⟨(), failIf_eq_ok.mpr ?_, rfl⟩
  rw [not_or]
  exact ⟨hempty, hlong⟩

theorem accept_atomic (input : AcceptContentDistributionRequest) (now : DateTime) :
    (accept scope input requestId now).Atomic := by
  refine .bind .lift fun request => .bind .read fun s => ?_
  split
  · exact .bind .okOr fun _ => .bind .failIf fun _ => Op.Total.pure.atomic
  · exact (Op.Total.bind .modify fun _ => .pure).atomic

/-- The request of a key is returned again, or stored if there is none. -/
theorem accept_returns (h : (accept scope input requestId now).Returns s reply s') :
    ∃ request, prepareContentDistributionRequest scope input requestId now = .ok request
      ∧ ((∃ id, s.byKey.lookup (scope, request.idempotencyKeyHash) = some id
            ∧ s.byId.lookup (scope, id) = some reply ∧ reply.requestHash = request.requestHash
            ∧ s' = s)
          ∨ s.byKey.lookup (scope, request.idempotencyKeyHash) = none ∧ reply = request
            ∧ s' = s.insertRequest scope request input.revision) := by
  simp only [accept, returns_iff, id_eq] at h
  obtain ⟨request, _, ⟨hprepared, rfl⟩, _, _, ⟨rfl, rfl⟩, h⟩ := h
  refine ⟨request, hprepared, ?_⟩
  split at h
  · rename_i id hid
    simp only [returns_iff] at h
    obtain ⟨_, _, ⟨hold, rfl⟩, _, _, ⟨hsame, rfl⟩, rfl, rfl⟩ := h
    exact .inl ⟨id, hid, hold, not_not.mp hsame, rfl⟩
  · rename_i hnone
    simp only [returns_iff] at h
    obtain ⟨_, _, rfl, rfl, rfl⟩ := h
    exact .inr ⟨hnone, rfl, rfl⟩

omit [Sha256] in
theorem stateGet_eq_ok : stateGet s scope requestId = .ok request ↔ s.byId.lookup (scope, requestId) = some request :=
  okOr_eq_ok

omit [Sha256] in
theorem readAcceptance_ok {revision : Option ContentRevision}
    (h : readAcceptance s scope requestId = .ok (request, revision)) :
    s.byId.lookup (scope, requestId) = some request := by
  simp only [readAcceptance, bind_eq_ok, stateGet_eq_ok] at h
  obtain ⟨_, hfound, h⟩ := h
  split at h
  · obtain ⟨rfl, -⟩ := Prod.mk.inj (pure_eq_ok.mp h)
    exact hfound
  · obtain ⟨_, -, h⟩ := bind_eq_ok.mp h
    obtain ⟨rfl, -⟩ := Prod.mk.inj (pure_eq_ok.mp h)
    exact hfound

variable [UrlParser]

theorem linkIntent_atomic (intentId : Uuid) (bundle : PublicationBundle) :
    (linkIntent scope requestId intentId bundle).Atomic :=
  .bind .read fun _ => .bind .lift fun _ => .bind .lift fun _ => .bind .failIf fun _ =>
    .bind .failIf fun _ => (Op.Total.bind .modify fun _ => .pure).atomic

theorem linkIntent_returns {intentId : Uuid} {bundle : PublicationBundle}
    (h : (linkIntent scope requestId intentId bundle).Returns s reply s') :
    ∃ request, s.byId.lookup (scope, requestId) = some request ∧ validateDistributionRequestIntent request bundle.intent
      bundle.variant = .ok () ∧ bundle.origin.withdrawsAfterPublish = request.withdrawAfterPublish
      ∧ (∀ old, request.publicationIntentId = some old → old = intentId) ∧ reply = request.linkTo intentId ∧ s'
      = s.modifyRequest scope requestId (·.linkTo intentId) := by
  simp only [linkIntent, returns_iff, id_eq, stateGet_eq_ok] at h
  obtain ⟨_, _, ⟨rfl, rfl⟩, request, _, ⟨hstored, rfl⟩, _, _, ⟨hvalid, rfl⟩, _, _, ⟨hpolicy, rfl⟩, _,
    _, ⟨hlinked, rfl⟩, _, _, rfl, rfl, rfl⟩ := h
  refine ⟨request, hstored, hvalid, not_not.mp hpolicy, fun old hold => ?_, rfl, rfl⟩
  rw [hold] at hlinked
  simpa using hlinked

theorem commit_atomic (request : ContentDistributionRequest) (revision : ContentRevision)
    (bindings : Option (List ContentMediaBinding)) (now : DateTime) :
    (commit scope requestId request revision bindings now).Atomic := by
  refine .bind .read fun s => .bind .lift fun latest => ?_
  split
  · exact Op.Total.pure.atomic
  · refine .bind .failIf fun _ => Op.Atomic.bind_total ?_ fun _ => Op.Total.bind .modify fun _ => .pure
    exact .zoom (fun _ => rfl) materializeOrigin_atomic

/-- A commit answers with the link that was made meanwhile, or makes one. -/
theorem commit_returns {s s' : RequestSystem} {revision : ContentRevision}
    {bindings : Option (List ContentMediaBinding)}
    (h : (commit scope requestId request revision bindings now).Returns s reply s') :
    ∃ latest, s.state.byId.lookup (scope, requestId) = some latest
      ∧ ((latest.publicationIntentId.isSome ∧ reply = latest ∧ s' = s)
        ∨ latest.publicationIntentId = none
          ∧ ∃ intent distribution, (materializeOrigin scope request revision now bindings).Returns s.distribution intent
            distribution ∧ reply = latest.linkTo intent.intentId
            ∧ s' = { s with
              state := s.state.modifyRequest scope requestId (·.linkTo intent.intentId)
              distribution }) := by
  simp only [commit, returns_iff, id_eq, stateGet_eq_ok] at h
  obtain ⟨_, _, ⟨rfl, rfl⟩, latest, _, ⟨hstored, rfl⟩, h⟩ := h
  refine ⟨latest, hstored, ?_⟩
  split at h
  · rename_i hlinked
    obtain ⟨rfl, rfl⟩ := returns_pure.mp h
    exact .inl ⟨hlinked, rfl, rfl⟩
  · rename_i hunlinked
    simp only [returns_iff, returns_zoom] at h
    obtain ⟨_, _, ⟨-, rfl⟩, intent, _, ⟨distribution, hrun, rfl⟩, _, _, rfl, rfl, rfl⟩ := h
    exact .inr ⟨by simpa using hunlinked, intent, distribution, hrun, rfl, rfl⟩

end Operations

/-! ### The steps -/

section Steps

variable [Sha256] [UrlParser] {used : List String → Prop} {s s' : RequestSystem}

variable {id : Nat} {scope : TenantScope}

variable {task : RequestTask} {requestId intentId : Uuid} {request : ContentDistributionRequest} {e : RequestEvent}
  {events : List RequestEvent}

omit [Sha256] [UrlParser] in
theorem RequestSystem.finish_tasks {id' : Nat} (h : (s.finish id).tasks.lookup id' = some task) :
    s.tasks.lookup id' = some task := by
  rw [finish, lookup_erase] at h
  split at h
  · simp at h
  · exact h

omit [Sha256] [UrlParser] in
theorem RequestSystem.goOn_tasks {id' : Nat} {next : RequestTask}
    (h : (s.goOn id next).tasks.lookup id' = some task) : s.tasks.lookup id' = some task ∨ task = next := by
  rw [goOn, lookup_insert] at h
  split at h
  · exact .inr (some.inj h).symm
  · exact .inl h

theorem RequestShape.quiet (hs : RequestShape used s) (hstate : s'.state = s.state)
    (hcoverage : CoverageShape used s'.distribution) (hpublications : PublicationShape used s'.distribution)
    (hkept : PublicationsKept s.distribution s'.distribution)
    (htasks : ∀ id task, s'.tasks.lookup id = some task → s.tasks.lookup id = some task ∨ TaskShape s' task) :
    RequestShape used s' ∧ RequestsKept s s' := by
  have hrequests : RequestsKept s s' := by
    constructor
    case keys => rw [hstate]; exact fun _ _ h => h
    case requests => rw [hstate]; exact fun _ request h => ⟨request, h, .refl _⟩
    case publications => exact hkept
  refine ⟨hs.extend hrequests hcoverage hpublications ?_ ?_ htasks, hrequests⟩
  · intro scope keyHash id h
    rw [hstate] at h
    exact .inl h
  · intro scope id request h
    rw [hstate] at h
    exact .inl ⟨request, h, .refl _, .inl rfl⟩

theorem RequestShape.goOn (hs : RequestShape used s) (htask : TaskShape s task) :
    RequestShape used (s.goOn id task) ∧ RequestsKept s (s.goOn id task) := by
  refine hs.quiet rfl hs.coverage hs.publications (.refl _) fun id' task' h => ?_
  rcases goOn_tasks h with hold | rfl
  · exact .inl hold
  · exact .inr (htask.kept ⟨fun _ _ h => h, fun _ request h => ⟨request, h, .refl _⟩, .refl _⟩)

theorem RequestShape.modify (hs : RequestShape used s) {f : ContentDistributionRequest → ContentDistributionRequest}
    (hstate : s'.state = s.state.modifyRequest scope requestId f) (hcoverage : CoverageShape used s'.distribution)
    (hpublications : PublicationShape used s'.distribution) (hkept : PublicationsKept s.distribution s'.distribution)
    (hf : ∀ request, s.state.byId.lookup (scope, requestId) = some request →
      SameRequest request (f request) ∧ (f request = request ∨ LinkSettled s'.distribution (f request)))
    (htasks : ∀ id task, s'.tasks.lookup id = some task → s.tasks.lookup id = some task) :
    RequestShape used s' ∧ RequestsKept s s' := by
  have hlookup (key : TenantScope × Uuid) : s'.state.byId.lookup key
      = if key = (scope, requestId) then (s.state.byId.lookup key).map f else s.state.byId.lookup key := by
    rw [hstate]
    exact lookup_modify _ _ _ _
  have hkeys : s'.state.byKey = s.state.byKey := by
    rw [hstate]
    rfl
  have hrequests : RequestsKept s s' := by
    constructor
    case keys => rw [hkeys]; exact fun _ _ h => h
    case requests =>
      intro key request h
      rw [hlookup]
      split
      · rename_i hkey
        rw [hkey] at h ⊢
        rw [h]
        exact ⟨f request, rfl, (hf request h).1⟩
      · exact ⟨request, h, .refl _⟩
    case publications => exact hkept
  refine ⟨hs.extend hrequests hcoverage hpublications ?_ ?_ fun id task h => .inl (htasks id task h), hrequests⟩
  · intro scope' keyHash id h
    rw [hkeys] at h
    exact .inl h
  · intro scope' id request h
    rw [hlookup] at h
    split at h
    · rename_i hkey
      obtain ⟨old, hold, rfl⟩ := map_eq_some_iff.mp h
      rw [hkey] at hold
      obtain ⟨hsame, hsettled⟩ := hf old hold
      exact .inl ⟨old, by rw [hkey]; exact hold, hsame, hsettled⟩
    · exact .inl ⟨request, h, .refl _, .inl rfl⟩

theorem RequestShape.insert (hs : RequestShape used s)
    (revision : ContentRevision) (hscope : request.scope = scope) (hunlinked : request.publicationIntentId = none)
    (hkey : s.state.byKey.lookup (scope, request.idempotencyKeyHash) = none)
    (hfresh : s.state.byId.lookup (scope, request.requestId) = none) :
    RequestShape used { s with state := s.state.insertRequest scope request revision }
      ∧ RequestsKept s { s with state := s.state.insertRequest scope request revision } := by
  let s' : RequestSystem := { s with state := s.state.insertRequest scope request revision }
  have hkeys (key : TenantScope × String) : s'.state.byKey.lookup key
      = if key = (scope, request.idempotencyKeyHash) then some request.requestId
        else s.state.byKey.lookup key := lookup_insert _ _ _ _
  have hlookup (key : TenantScope × Uuid) : s'.state.byId.lookup key
      = if key = (scope, request.requestId) then some request else s.state.byId.lookup key := lookup_insert _ _ _ _
  have hrequests : RequestsKept s s' := by
    constructor
    case keys =>
      intro key id h
      rw [hkeys, if_neg, h]
      rintro rfl
      rw [hkey] at h
      simp at h
    case requests =>
      intro key old h
      refine ⟨old, ?_, .refl _⟩
      rw [hlookup, if_neg, h]
      rintro rfl
      rw [hfresh] at h
      simp at h
    case publications => exact .refl _
  refine ⟨hs.extend hrequests hs.coverage hs.publications ?_ ?_ fun id task h => .inl h, hrequests⟩
  · intro scope' keyHash id h
    rw [hkeys] at h
    split at h
    · rename_i heq
      obtain ⟨rfl, rfl⟩ := Prod.mk.inj heq
      obtain rfl := some.inj h
      exact .inr ⟨request, by rw [hlookup, if_pos rfl], rfl⟩
    · exact .inl h
  · intro scope' id found h
    rw [hlookup] at h
    split at h
    · rename_i heq
      obtain ⟨rfl, rfl⟩ := Prod.mk.inj heq
      obtain rfl := some.inj h
      refine .inr ⟨by rw [hkeys, if_pos rfl], rfl, hscope, fun intentId hlinked => ?_⟩
      rw [hunlinked] at hlinked
      simp at hlinked
    · exact .inl ⟨found, h, .refl _, .inl rfl⟩

omit [Sha256] [UrlParser] in
/-- The outcome of an atomic operation on the requests is a failure that changed nothing, or a result. -/
theorem atomic_outcome {σ α : Type} {x : Op σ AppError α} (hx : x.Atomic) (s₁ : σ) :
    (∃ e, x.run s₁ = (.error e, s₁)) ∨ ∃ a s₂, x.Returns s₁ a s₂ := by
  rcases returns_or_fails x s₁ with hret | ⟨e, s₂, hfail⟩
  · exact .inr hret
  · obtain rfl := hx.failed s₁ e s₂ hfail
    exact .inl ⟨e, hfail⟩

/-- A step answered a caller with a request of a scope. -/
inductive RequestEvent.Answers (scope : TenantScope) (request : ContentDistributionRequest) : RequestEvent → Prop where
  | accept {input : AcceptContentDistributionRequest} {requestId : Uuid} {now : DateTime} :
      Answers scope request (.accept scope input requestId now (.ok request))
  | linkIntent {requestId intentId : Uuid} : Answers scope request (.linkIntent scope requestId intentId (.ok request))
  | alreadyLinked : Answers scope request (.alreadyLinked scope request)
  | commit {requestId : Uuid} {call : DistributionCall} :
      Answers scope request (.commit scope requestId call (.ok request))

/-- The request that was accepted for an input. -/
structure AcceptedFor (scope : TenantScope) (input : AcceptContentDistributionRequest)
    (request : ContentDistributionRequest) : Prop where
  project : scope.projectId.isSome
  key : distributionRequestKeyHash input.idempotencyKey = .ok request.idempotencyKeyHash
  hash : request.requestHash = digest (requestParts input)

/-- What a step answered is stored, and an acceptance is the one of its input. -/
structure Answered (s : RequestSystem) (e : RequestEvent) : Prop where
  filed : ∀ scope request, e.Answers scope request →
    ∃ stored, s.state.byId.lookup (scope, request.requestId) = some stored ∧ SameRequest request stored
  accepted : ∀ scope input requestId now request,
    e = .accept scope input requestId now (.ok request) → AcceptedFor scope input request

omit [UrlParser] in
theorem Answered.kept (h : Answered s e) (hkept : RequestsKept s s') : Answered s' e := by
  refine ⟨fun scope request hanswers => ?_, h.accepted⟩
  obtain ⟨_, hstored, hsame⟩ := h.filed scope request hanswers
  obtain ⟨stored', hstored', hsame'⟩ := hkept.requests _ _ hstored
  exact ⟨stored', hstored', hsame.trans hsame'⟩

omit [UrlParser] in
theorem Answered.silent (hnone : ∀ scope request, ¬ e.Answers scope request) : Answered s e := by
  refine ⟨fun scope request h => absurd h (hnone scope request), ?_⟩
  rintro scope input requestId now request rfl
  exact absurd .accept (hnone scope request)

theorem RequestShape.accept (hs : RequestShape used s) {scope : TenantScope}
    {input : AcceptContentDistributionRequest} {requestId : Uuid} {now : DateTime}
    (hfresh : s.state.byId.lookup (scope, requestId) = none) {reply : ContentDistributionRequest}
    {state : MemoryRequestState} (h : (accept scope input requestId now).Returns s.state reply state) :
    RequestShape used { s with state } ∧ RequestsKept s { s with state } ∧ state.byId.lookup (scope, reply.requestId)
      = some reply ∧ AcceptedFor scope input reply := by
  obtain ⟨_, hprepared, hdone⟩ := accept_returns h
  obtain ⟨hproject, hkey, hhash, hid, hscope, hunlinked⟩ := prepareContentDistributionRequest_ok hprepared
  rcases hdone with ⟨id, hfound, hstored, hsame, rfl⟩ | ⟨hnone, rfl, rfl⟩
  · obtain ⟨_, hold, holdKey⟩ := hs.keys _ _ _ hfound
    rw [hstored] at hold
    obtain rfl := some.inj hold
    refine ⟨hs, .refl _, ?_, hproject, by rw [holdKey]; exact hkey, hsame.trans hhash⟩
    rw [(hs.requests _ _ _ hstored).identified]
    exact hstored
  · rw [← hid] at hfresh
    obtain ⟨hshape, hkept⟩ := hs.insert input.revision hscope hunlinked hnone hfresh
    exact ⟨hshape, hkept, AList.lookup_insert _, hproject, hkey, hhash⟩

theorem RequestShape.link (hs : RequestShape used s) {bundle : PublicationBundle}
    (htask : s.tasks.lookup id = some (.linking scope requestId intentId bundle)) {reply : ContentDistributionRequest}
    {state : MemoryRequestState} (h : (linkIntent scope requestId intentId bundle).Returns s.state reply state) :
    RequestShape used ({ s with state }.finish id) ∧ RequestsKept s ({ s with state }.finish id)
      ∧ ∃ stored, state.byId.lookup (scope, reply.requestId) = some stored ∧ SameRequest reply stored := by
  obtain ⟨request, hstored, hvalid, hpolicy, hlinked, rfl, rfl⟩ := linkIntent_returns h
  obtain ⟨hid, hpublication⟩ := hs.tasks _ _ htask
  have hrequest := hs.requests _ _ _ hstored
  have hagrees : Agrees s.distribution request intentId := by
    refine ⟨bundle.intent, bundle.variant, ?_, hid, hvalid⟩
    rw [← hpolicy, hrequest.inScope]
    exact hpublication
  have hsame : SameRequest request (request.linkTo intentId) := .linkTo hlinked
  obtain ⟨hshape, hkept⟩ := hs.modify
    (show (({ s with state := s.state.modifyRequest scope requestId (·.linkTo intentId) } :
      RequestSystem).finish id).state = _ from rfl) hs.coverage hs.publications (.refl _)
    (fun found hfound => by
      rw [hstored] at hfound
      obtain rfl := some.inj hfound
      refine ⟨hsame, .inr fun intentId' hlinked' => ⟨rfl, ?_⟩⟩
      obtain rfl := some.inj hlinked'
      exact hagrees.same hsame)
    fun id' task => finish_tasks
  refine ⟨hshape, hkept, request.linkTo intentId, ?_, .refl _⟩
  have hlookup := lookup_modify s.state.byId (scope, requestId) (scope, requestId) (·.linkTo intentId)
  rw [if_pos rfl, hstored] at hlookup
  rw [hsame.requestId, hrequest.identified]
  exact hlookup

variable [InstantJson] (hfree : CollisionFree used)

include hfree

theorem RequestShape.commit (hs : RequestShape used s) {id : Nat} {scope : TenantScope}
    {requestId : Uuid} {request reply : ContentDistributionRequest} {revision : ContentRevision}
    {bindings : Option (List ContentMediaBinding)} {now : DateTime}
    (htask : s.tasks.lookup id = some (.validated scope requestId request revision bindings))
    (hused : ∀ text, Digests s.distribution (originCall scope request revision now bindings) text → used text)
    (h : (commit scope requestId request revision bindings now).Returns s reply s') :
    RequestShape used (s'.finish id) ∧ RequestsKept s (s'.finish id)
      ∧ ∃ stored, s'.state.byId.lookup (scope, reply.requestId) = some stored ∧ SameRequest reply stored := by
  obtain ⟨latest, hstored, hdone⟩ := commit_returns h
  have hlatest := hs.requests _ _ _ hstored
  rcases hdone with ⟨-, rfl, rfl⟩ | ⟨hunlinked, intent, distribution, hrun, rfl, rfl⟩
  · -- Another task linked the request meanwhile.
    obtain ⟨hshape, hkept⟩ := hs.quiet (show (s'.finish id).state = _ from rfl) hs.coverage hs.publications
      (.refl _) fun id' task hlookup => .inl (finish_tasks hlookup)
    refine ⟨hshape, hkept, reply, ?_, .refl _⟩
    rw [hlatest.identified]
    exact hstored
  · have hstep : (distributionMachine.restrict (DigestsOnly used)).step s.distribution
        (.call (originCall scope request revision now bindings) (.ok (.intent intent)))
        distribution := ⟨hused, materializeOrigin_run hrun⟩
    have hcoverage := hs.coverage.step hfree hstep
    obtain ⟨hpublications, hpublished⟩ := hs.publications.step hfree hs.coverage hstep
    have hagrees := hs.publications.materializeOrigin_agrees hfree hused hrun
    -- The task worked from a copy; what is frozen of it is what is stored now.
    obtain ⟨_, hfound, hcopy⟩ := hs.tasks _ _ htask
    rw [hstored] at hfound
    obtain rfl := some.inj hfound
    have hsame : SameRequest latest (latest.linkTo intent.intentId) :=
      .linkTo fun old hold => by rw [hunlinked] at hold; simp at hold
    let next : RequestSystem :=
      { s with
        state := s.state.modifyRequest scope requestId (·.linkTo intent.intentId)
        distribution }
    obtain ⟨hshape, hkept⟩ := hs.modify (show (next.finish id).state = _ from rfl) hcoverage hpublications hpublished
      (fun other hother => by
        rw [hstored] at hother
        obtain rfl := some.inj hother
        refine ⟨hsame, .inr fun intentId hlinked => ⟨rfl, ?_⟩⟩
        obtain rfl := some.inj hlinked
        exact hagrees.same (hcopy.trans hsame))
      fun id' task => finish_tasks (s := next)
    refine ⟨hshape, hkept, latest.linkTo intent.intentId, ?_, .refl _⟩
    have hlookup := lookup_modify s.state.byId (scope, requestId) (scope, requestId) (·.linkTo intent.intentId)
    rw [if_pos rfl, hstored] at hlookup
    rw [hsame.requestId, hlatest.identified]
    exact hlookup

omit [InstantJson] hfree in
theorem RequestShape.recordDeferral (hs : RequestShape used s) (id : Nat) (scope : TenantScope)
    (requestId : Uuid) (reason : ContentRequestDeferralReason) (now : DateTime) :
    RequestShape used ({ s with state := recordDeferral scope requestId reason now s.state }.finish id)
      ∧ RequestsKept s ({ s with state := recordDeferral scope requestId reason now s.state }.finish id) := by
  refine hs.modify rfl hs.coverage hs.publications (.refl _) (fun request hstored => ?_) fun id' task => finish_tasks
  split
  · rename_i hunlinked
    have hnone : request.publicationIntentId = none := by simpa using hunlinked
    refine ⟨⟨rfl, fun intentId hlinked => ?_⟩, .inr fun intentId hlinked => ?_⟩
    · exact hlinked
    · rw [show _ = request.publicationIntentId from rfl, hnone] at hlinked
      simp at hlinked
  · exact ⟨.refl _, .inl rfl⟩

/-- Every step keeps the shape and loses nothing, and what it answered is stored. -/
theorem RequestShape.step (hs : RequestShape used s) (h : (requestMachine.restrict (RequestsOnly used)).step s e s') :
    RequestShape used s' ∧ RequestsKept s s' ∧ Answered s' e := by
  obtain ⟨hok, hstep⟩ := h
  have hsilent (hshape : RequestShape used s' ∧ RequestsKept s s')
      (hnone : ∀ scope request, ¬ e.Answers scope request) : RequestShape used s' ∧ RequestsKept s s' ∧ Answered s' e :=
    ⟨hshape.1, hshape.2, .silent hnone⟩
  cases hstep with
  | accept scope input requestId now =>
    rcases atomic_outcome (accept_atomic input now) s.state with ⟨err, hrun⟩ | ⟨reply, state, hret⟩
    · rw [hrun]
      exact ⟨hs, .refl _, .silent fun _ _ h => by cases h⟩
    · obtain ⟨hshape, hkept, hstored, haccepted⟩ := hs.accept hok hret
      rw [show (MemoryContentDistributionRequestRepository.accept scope input requestId now).run s.state
        = (.ok reply, state) from hret]
      refine ⟨hshape, hkept, fun scope' request h => ?_, fun _ _ _ _ _ h => ?_⟩
      · cases h
        exact ⟨reply, hstored, .refl _⟩
      · cases h
        exact haccepted
  | @readPublication _ _ _ _ _ _ hbundle =>
    exact hsilent (hs.goOn (hs.publications.read hfree hbundle)) fun _ _ hanswers => by cases hanswers
  | @linkIntent id scope requestId intentId bundle htask =>
    rcases atomic_outcome (linkIntent_atomic intentId bundle) s.state with ⟨err, hrun⟩ | ⟨reply, state, hret⟩
    · rw [hrun]
      obtain ⟨hshape, hkept⟩ := hs.quiet (show (s.finish id).state = _ from rfl) hs.coverage hs.publications
        (.refl _) fun id' task hlookup => .inl (finish_tasks hlookup)
      exact ⟨hshape, hkept, .silent fun _ _ h => by cases h⟩
    · obtain ⟨hshape, hkept, hstored⟩ := hs.link htask hret
      rw [show (linkIntent scope requestId intentId bundle).run s.state = (.ok reply, state) from hret]
      refine ⟨hshape, hkept, fun scope' request h => ?_, fun _ _ _ _ _ h => (by cases h)⟩
      cases h
      exact hstored
  | @readAcceptance _ _ _ request _ _ hread =>
    exact hsilent (hs.goOn ⟨request, readAcceptance_ok hread, .refl _⟩) fun _ _ hanswers => by cases hanswers
  | @alreadyLinked _ _ request hread =>
    refine ⟨hs, .refl _, fun scope' request' h => ?_, fun _ _ _ _ _ h => (by cases h)⟩
    cases h
    have hstored := readAcceptance_ok hread
    refine ⟨request, ?_, .refl _⟩
    rw [(hs.requests _ _ _ hstored).identified]
    exact hstored
  | notAccepted hnew hread => exact hsilent (hs.goOn trivial) fun _ _ hanswers => by cases hanswers
  | @agreed _ scope requestId request _ revision bindings _ htask =>
    have hcopied : Copied s scope requestId request := hs.tasks _ _ htask
    have hnext : TaskShape s (.validated scope requestId request revision bindings) := hcopied
    exact hsilent (hs.goOn hnext) fun _ _ hanswers => by cases hanswers
  | disagreed htask hlive => exact hsilent (hs.goOn trivial) fun _ _ hanswers => by cases hanswers
  | commit _ htask hcommit =>
    obtain ⟨hshape, hkept, hstored⟩ := hs.commit hfree htask hok hcommit
    refine ⟨hshape, hkept, fun scope' request h => ?_, fun _ _ _ _ _ h => (by cases h)⟩
    cases h
    exact hstored
  | @notCommitted _ _ _ _ request revision bindings _ now _ hcommit =>
    obtain rfl := (commit_atomic request revision bindings now).failed _ _ _ hcommit
    exact hsilent (hs.goOn trivial) fun _ _ hanswers => by cases hanswers
  | recordDeferral now htask => exact hsilent (hs.recordDeferral _ _ _ _ _) fun _ _ hanswers => by cases hanswers
  | distribution hdistribution =>
    have hrestricted := And.intro hok hdistribution
    obtain ⟨hpublications, hkept⟩ := hs.publications.step hfree hs.coverage hrestricted
    refine hsilent (hs.quiet rfl (hs.coverage.step hfree hrestricted) hpublications hkept
      fun id task hlookup => .inl hlookup) fun _ _ hanswers => by cases hanswers

/-! ### Runs -/

theorem requestShape_run (hrun : (requestMachine.restrict (RequestsOnly used)).Run .empty events s) :
    RequestShape used s ∧ ∀ e ∈ events, Answered s e := by
  refine hrun.history (I := fun events s => RequestShape used s ∧ ∀ e ∈ events, Answered s e)
    (fun events s₁ e s₂ hbefore hstep => ?_) ⟨.empty, by simp⟩
  obtain ⟨hs, hanswered⟩ := hbefore
  obtain ⟨hshape, hkept, hnew⟩ := hs.step hfree hstep
  refine ⟨hshape, fun e' he' => ?_⟩
  rcases List.mem_append.mp he' with hold | hlast
  · exact (hanswered e' hold).kept hkept
  · obtain rfl := List.mem_singleton.mp hlast
    exact hnew

/-- Nothing is lost or changed later but for links and deferrals. -/
theorem RequestShape.kept_run (hs : RequestShape used s)
    (hrun : (requestMachine.restrict (RequestsOnly used)).Run s events s') : RequestsKept s s' :=
  hrun.relates (I := RequestShape used) (R := RequestsKept) (fun _ _ _ hs hstep => (hs.step hfree hstep).1) .refl
    (fun _ _ _ => .trans) (fun _ _ _ hs hstep => (hs.step hfree hstep).2.1) hs

omit [InstantJson] hfree in
theorem RequestShape.key_unique (hs : RequestShape used s) {id id' : Uuid}
    {request' : ContentDistributionRequest} (h : s.state.byId.lookup (scope, id) = some request)
    (h' : s.state.byId.lookup (scope, id') = some request')
    (hkey : request'.idempotencyKeyHash = request.idempotencyKeyHash) : request' = request := by
  have hkeyed := (hs.requests _ _ _ h).keyed
  have hkeyed' := (hs.requests _ _ _ h').keyed
  rw [hkey, hkeyed] at hkeyed'
  obtain rfl := some.inj hkeyed'
  rw [h] at h'
  exact (some.inj h').symm

omit [InstantJson] in
theorem RequestShape.linked (hs : RequestShape used s) {id : Uuid}
    (h : s.state.byId.lookup (scope, id) = some request) (hlinked : request.publicationIntentId = some intentId) :
    request.materializationDeferral = none
      ∧ ∃ bundle, getPublicationBundle s.distribution scope intentId = .ok bundle ∧ bundle.intent.intentId = intentId
        ∧ validateDistributionRequestIntent request bundle.intent bundle.variant = .ok ()
        ∧ bundle.origin.withdrawsAfterPublish = request.withdrawAfterPublish := by
  have hstored := hs.requests _ _ _ h
  obtain ⟨hdeferral, _, variant, hpublication, rfl, hvalid⟩ := hstored.settled _ hlinked
  rw [hstored.inScope] at hpublication
  obtain ⟨_, _, hfound, hsame⟩ := hpublication.filed
  obtain ⟨bundle, hbundle, rfl⟩ := hs.publications.bundle hfree hs.coverage hfound
  rw [hsame.intentId] at hbundle
  obtain ⟨hid, hread⟩ := hs.publications.read hfree hbundle
  refine ⟨hdeferral, bundle, hbundle, hid, ?_, ?_⟩
  · -- Both sides found the variant under the one identity.
    have hvariant := hread.payload
    rw [hsame.payload.variantId, hpublication.payload] at hvariant
    rw [validateDistributionRequestIntent_same hsame, ← some.inj hvariant]
    exact hvalid
  · rw [← hread.policy, hid]
    exact hpublication.policy

/-- Accepted requests are linked once and to what they ask for, whatever is under way. Every answer is still
stored later, under its key the only one, and later runs change at most a missing link and the deferral of a
request without one. A linked request has no deferral and agrees with its publication, which is the only one
that publishes the same thing, and has one command. -/
theorem requestLinks_once {events : List RequestEvent}
    (hrun : (requestMachine.restrict (RequestsOnly used)).Run .empty events s) :
    (∀ e ∈ events, ∀ scope request, e.Answers scope request →
        ∃ stored, s.state.byId.lookup (scope, request.requestId) = some stored ∧ SameRequest request stored)
      ∧ (∀ scope input requestId now request, .accept scope input requestId now (.ok request) ∈ events →
        request.requestHash = digest (requestParts input)
          ∧ ∃ stored, getByIdempotencyKey s.state scope input.idempotencyKey = .ok (some stored)
            ∧ SameRequest request stored
            ∧ ∀ id other, s.state.byId.lookup (scope, id) = some other →
              other.idempotencyKeyHash = stored.idempotencyKeyHash → other = stored)
      ∧ (∀ later s', (requestMachine.restrict (RequestsOnly used)).Run s later s' →
        ∀ key request, s.state.byId.lookup key = some request →
          ∃ request', s'.state.byId.lookup key = some request' ∧ SameRequest request request')
      ∧ (∀ scope id request intentId, s.state.byId.lookup (scope, id) = some request →
        request.publicationIntentId = some intentId →
        request.materializationDeferral = none
          ∧ ∃ bundle, getPublicationBundle s.distribution scope intentId = .ok bundle ∧ bundle.intent.intentId
            = intentId ∧ validateDistributionRequestIntent request bundle.intent bundle.variant = .ok ()
            ∧ bundle.origin.withdrawsAfterPublish = request.withdrawAfterPublish)
      ∧ ∀ scope : TenantScope, ∀ key intent, s.distribution.intents.lookup (scope.storageKey, key) = some intent →
        (∃! id, ∃ command, s.distribution.commands.lookup (scope.storageKey, id) = some command
            ∧ command.intentId = intent.intentId)
          ∧ ∀ key' intent', s.distribution.intents.lookup (scope.storageKey, key') = some intent' →
            SamePayload intent intent' → intent' = intent := by
  obtain ⟨hs, hanswered⟩ := requestShape_run hfree hrun
  refine ⟨fun e he => (hanswered e he).filed, ?keys, ?later, ?linked, ?commands⟩
  case keys =>
    intro scope input requestId now request he
    have haccepted := (hanswered _ he).accepted _ _ _ _ _ rfl
    obtain ⟨stored, hstored, hsame⟩ := (hanswered _ he).filed scope request .accept
    have hkey : stored.idempotencyKeyHash = request.idempotencyKeyHash := by rw [hsame.frozen]
    refine ⟨haccepted.hash, stored, ?_, hsame, fun id other hother hotherKey =>
      hs.key_unique hstored hother hotherKey⟩
    simp only [getByIdempotencyKey, eq_ok_iff]
    refine ⟨(), ?_, request.idempotencyKeyHash, haccepted.key, ?_⟩
    · rw [isNone_iff_eq_none]
      exact isSome_iff_ne_none.mp haccepted.project
    · rw [← hkey, (hs.requests _ _ _ hstored).keyed]
      exact hstored
  case later =>
    intro later s' hlater
    exact (hs.kept_run hfree hlater).requests
  case linked =>
    intro scope id request intentId h hlinked
    exact hs.linked hfree h hlinked
  case commands =>
    intro scope key intent hstored
    refine ⟨?_, fun key' intent' hstored' hpayload => ?_⟩
    · obtain ⟨command, hcommand, hid, -, -⟩ := (hs.publications.intents _ _ _ hstored).outbox
      refine ⟨_, ⟨command, hcommand, hid⟩, ?_⟩
      rintro id ⟨command', hcommand', hid'⟩
      rw [hs.publications.command_unique hcommand', hid']
    · exact (hs.publications.payload_unique hstored hstored' hpayload).2

end Steps

/-! ### Sample values -/

namespace Sample

/-- The evidence of the requested article. -/
def quotedEvidence : EvidenceRef :=
  { sourceVersionId := uuid 108, chunkId := some (uuid 109), locator := .manual }

/-- The article with a quote from a public source. -/
def quotedRevision : ContentRevision :=
  { articleRevision with
    evidence := [quotedEvidence], quotes := [{ reference := quotedEvidence, exactQuote := "Body" }] }

/-- An account that may publish. -/
def readyAccount : ChannelAccount :=
  { accountId := uuid 40, projectId := ⟨uuid 3⟩, ownerKind := .customer, platform := "zhihu"
    groupId := none, status := .ready, displayName := none, platformAccountId := none
    avatarUrl := none, enabled := true, proxyConfigured := false, proxyServer := none
    createdAt := 0, updatedAt := 0 }

/-- A request for the article under a key. -/
def acceptArticle (idempotencyKey : String) : AcceptContentDistributionRequest :=
  { revision := quotedRevision, account := readyAccount, placementSlot := "article"
    format := textDistributionFormat, withdrawAfterPublish := false, idempotencyKey }

/-- The source the article quotes. -/
def quotedSource : Source :=
  { sourceId := uuid 110, operatorId := ⟨uuid 1⟩, tenantId := ⟨uuid 2⟩, projectId := ⟨uuid 3⟩
    revision := 1, kind := .manual, name := "notes", purpose := .publicUse, state := .active
    locator := .inlineText, currentVersionId := some (uuid 108), syncEnabled := false
    nextSyncAt := none, lastSyncAt := none }

/-- The part of the source that is quoted. -/
def quotedChunk : Chunk :=
  { chunkId := uuid 109, operatorId := ⟨uuid 1⟩, tenantId := ⟨uuid 2⟩, projectId := ⟨uuid 3⟩
    sourceVersionId := uuid 108, ordinal := 0, kind := .paragraph, text := "Body", textHash := ""
    locator := .manual, productIds := [], market := none, language := none
    extractionMethod := "manual" }

/-- A started project. -/
def startedProject (id : ProjectId) : Project :=
  { id, operatorId := ⟨uuid 1⟩, tenantId := ⟨uuid 2⟩, slug := "project", displayName := "Project"
    settings := .default, status := .active, revision := 2, currentConfigRevisionId := some (uuid 112)
    currentCycleId := some (uuid 113), startOperationId := some (uuid 114), createdAt := 0
    updatedAt := 0 }

/-- Authorities that agree to the publication of the article. -/
def agreeing : MemoryRequestAuthorities where
  project _ id := .ok (some (startedProject id))
  listAccounts _ := .ok [readyAccount]
  listAssignedPoolAccounts _ := .ok []
  connector _ _ := .ok none
  connectorHistory _ _ := .ok []
  getAsset _ _ := .ok none
  getItemType _ _ _ := .ok none
  getRevision _ _ _ := .ok (some quotedRevision)
  listChecks _ revisionId := .ok [{ checkId := uuid 111, revisionId, findings := [], createdAt := 0 }]
  listSources _ := .ok [quotedSource]
  getSourceDetail _ _ _ :=
    .ok (some
      { source := quotedSource, versions := [], chunks := [quotedChunk], facts := []
        importJobs := [] })
  media := none

/-- The first request, as it is accepted. -/
def firstRequest : ContentDistributionRequest :=
  { articleRequest (uuid 201) false with
    accountOwnerKind := "customer"
    idempotencyKeyHash := @digest secureHash ["first"]
    requestHash := @digest secureHash (requestParts (acceptArticle "first"))
    createdAt := 5 }

/-- The requests after an acceptance. -/
def acceptedBy (idempotencyKey : String) (requestId : Uuid) (s : RequestSystem) : RequestSystem :=
  { s with
    state := ((@accept secureHash scope (acceptArticle idempotencyKey) requestId 5).run s.state).2 }

/-- The first request is about to be committed. -/
def checkedSystem : RequestSystem :=
  ((acceptedBy "first" (uuid 201) .empty).goOn 0
    (.accepted scope (uuid 201) firstRequest quotedRevision)).goOn 0
      (.validated scope (uuid 201) firstRequest quotedRevision none)

/-- The commit of the first request. -/
def firstCommit : Op RequestSystem AppError ContentDistributionRequest :=
  @commit secureHash noLinks scope (uuid 201) firstRequest quotedRevision none 7

/-- The first request is published. -/
def publishedSystem : RequestSystem :=
  (firstCommit.run checkedSystem).2.finish 0

/-- The quoted article as it is published. -/
def quotedVariant : Option ChannelVariant :=
  (@prepareVariant secureHash noLinks quotedRevision (placement "zhihu" false)).toOption

theorem quotedVariant_isSome : quotedVariant.isSome = true := by
  decide +kernel

/-- The texts that are digested when the quoted article is published. -/
def quotedTexts : List (List String) :=
  let parts := publicationParts scope (quotedVariant.get quotedVariant_isSome) "zhihu" "article" (uuid 40)
  [parts, [@digest secureHash parts], [(@identity secureHash [@digest secureHash parts]).toString, "publish"]]

theorem firstCommit_links :
    ((firstCommit.run checkedSystem).1 = .ok (firstRequest.linkTo (@identity secureHash (quotedTexts.getD 1 [])))
      ∧ (quotedTexts.map (@identity secureHash)).Nodup)
      ∧ ((publishedSystem.state.byId.lookup (scope, uuid 201)).bind
        ContentDistributionRequest.publicationIntentId).isSome = true := by
  decide +kernel

theorem quotedTexts_free : @CollisionFree secureHash (· ∈ quotedTexts) :=
  @collisionFree_of_nodup secureHash _ firstCommit_links.1.2

/-- The first request is materialized. -/
theorem publishedSystem_run :
    ∃ events, ((@requestMachine secureHash noLinks freezeInstant).restrict
      (@RequestsOnly secureHash noLinks freezeInstant (· ∈ quotedTexts))).Run .empty events publishedSystem := by
  have haccept := @RequestStep.accept secureHash noLinks freezeInstant .empty scope (acceptArticle "first") (uuid 201) 5
  have hread : readAcceptance (acceptedBy "first" (uuid 201) .empty).state scope (uuid 201)
      = .ok (firstRequest, some quotedRevision) := by
    decide +kernel
  have hlive : validateLive (some agreeing) scope firstRequest quotedRevision = .ok (quotedRevision, none) := by
    decide +kernel
  have hdigests : ∀ text,
      @Digests secureHash noLinks freezeInstant checkedSystem.distribution
        (.materializeRequestOrigin scope firstRequest quotedRevision 7) text →
      text ∈ quotedTexts := by
    intro text htext
    cases htext with
    | @request _ _ _ _ variant _ hvariant htext =>
      have hsame : quotedVariant = some variant := congrArg Except.toOption hvariant
      have hquoted : quotedVariant.get quotedVariant_isSome = variant := by
        simp only [hsame, get_some]
      have hparts : publicationParts scope variant firstRequest.platformId firstRequest.placementSlot
          firstRequest.accountId = publicationParts scope variant "zhihu" "article" (uuid 40) := rfl
      unfold quotedTexts
      rw [hquoted]
      rw [hparts] at htext
      cases htext <;> simp
  have hreadStep := @RequestStep.readAcceptance secureHash noLinks freezeInstant _ 0 scope (uuid 201)
    _ _ rfl hread
  have hcheckStep := @RequestStep.agreed secureHash noLinks freezeInstant
    ((acceptedBy "first" (uuid 201) .empty).goOn 0
      (.accepted scope (uuid 201) firstRequest quotedRevision)) 0 scope (uuid 201) _ _ _ _ _
    (AList.lookup_insert _) hlive
  have hpair (p : Except AppError ContentDistributionRequest × RequestSystem)
      (reply : Except AppError ContentDistributionRequest) (h : p.1 = reply) : p = (reply, p.2) := by
    rw [← h]
  have hcommitStep := @RequestStep.commit secureHash noLinks freezeInstant checkedSystem
    (firstCommit.run checkedSystem).2 0 scope (uuid 201) firstRequest _ quotedRevision none 7
    (AList.lookup_insert _) (hpair _ _ firstCommit_links.1.1)
  have hstart : ((@requestMachine secureHash noLinks freezeInstant).restrict
      (@RequestsOnly secureHash noLinks freezeInstant (· ∈ quotedTexts))).Run .empty [] .empty := .refl
  have hrun := ((hstart.tail ⟨?_, haccept⟩).tail ⟨?_, hreadStep⟩).tail ⟨?_, hcheckStep⟩
  · refine ⟨_, hrun.tail ⟨?_, hcommitStep⟩⟩
    exact hdigests
  · exact rfl
  · exact trivial
  · exact trivial

end Sample

open Sample

theorem requestLinks_once_sample :
    ∃ request intentId, publishedSystem.state.byId.lookup (scope, uuid 201) = some request
      ∧ request.publicationIntentId = some intentId
      ∧ ∃ bundle, @getPublicationBundle secureHash noLinks
          publishedSystem.distribution scope intentId = .ok bundle
        ∧ @validateDistributionRequestIntent secureHash noLinks request bundle.intent
          bundle.variant = .ok () := by
  obtain ⟨_, hrun⟩ := publishedSystem_run
  obtain ⟨intentId, hintentId⟩ := isSome_iff_exists.mp firstCommit_links.2
  obtain ⟨request, hrequest, hlink⟩ := bind_eq_some_iff.mp hintentId
  obtain ⟨-, -, -, hagrees, -⟩ := @requestLinks_once secureHash noLinks _ _
    freezeInstant quotedTexts_free _ hrun
  obtain ⟨-, bundle, hbundle, -, hvalid, -⟩ := hagrees _ _ _ _ hrequest hlink
  exact ⟨request, intentId, hrequest, hlink, bundle, hbundle, hvalid⟩

end GeoMaster
