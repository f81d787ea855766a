import GeoMaster.Proofs.RequestOrigins

/-!
# The shape of the requests

A key of a scope names one request. Of a stored request only the link and the deferral may change: the link
once, the deferral until then. A task works from copies that may be old by the time it commits, so the
invariant says of every copy how it relates to what is stored now.
-/

namespace GeoMaster

open MemoryDistributionRepository MemoryContentDistributionRequestRepository

/-! ### Requests that stay -/

/-- A request of which at most the link and the deferral changed, and the link if there was none. -/
structure SameRequest (request request' : ContentDistributionRequest) : Prop where
  frozen : request' = { request with
    publicationIntentId := request'.publicationIntentId
    materializationDeferral := request'.materializationDeferral }
  linked : ∀ intentId, request.publicationIntentId = some intentId → request'.publicationIntentId = some intentId

theorem SameRequest.refl (request : ContentDistributionRequest) : SameRequest request request :=
  ⟨rfl, fun _ h => h⟩

theorem SameRequest.trans {r₁ r₂ r₃ : ContentDistributionRequest} (h : SameRequest r₁ r₂)
    (h' : SameRequest r₂ r₃) : SameRequest r₁ r₃ := by
  refine ⟨?_, fun intentId hlinked => h'.linked _ (h.linked _ hlinked)⟩
  have h₂ := h.frozen
  have h₃ := h'.frozen
  rw [h₂] at h₃
  exact h₃

theorem SameRequest.requestId {request request' : ContentDistributionRequest}
    (h : SameRequest request request') : request'.requestId = request.requestId := by
  rw [h.frozen]

theorem SameRequest.linkTo {request : ContentDistributionRequest} {intentId : Uuid}
    (h : ∀ old, request.publicationIntentId = some old → old = intentId) :
    SameRequest request (request.linkTo intentId) :=
  ⟨rfl, fun old hold => by rw [h old hold]; rfl⟩

section Agreement

variable [Sha256] [UrlParser]

/-- Agreement is about what is frozen. -/
theorem Agrees.same {d : MemoryDistributionState} {request request' : ContentDistributionRequest}
    {intentId : Uuid} (h : Agrees d request intentId) (hsame : SameRequest request request') :
    Agrees d request' intentId := by
  obtain ⟨intent, variant, hstored, hid, hvalid⟩ := h
  rw [hsame.frozen]
  exact ⟨intent, variant, hstored, hid, hvalid⟩

/-- A linked request agrees with its publication, and has nothing to retry. -/
def LinkSettled (d : MemoryDistributionState) (request : ContentDistributionRequest) : Prop :=
  ∀ intentId, request.publicationIntentId = some intentId →
    request.materializationDeferral = none ∧ Agrees d request intentId

/-! ### The invariant -/

/-- A request as it is stored. -/
structure StoredRequest (s : RequestSystem) (scope : TenantScope) (id : Uuid)
    (request : ContentDistributionRequest) : Prop where
  keyed : s.state.byKey.lookup (scope, request.idempotencyKeyHash) = some id
  identified : request.requestId = id
  inScope : request.scope = scope
  settled : LinkSettled s.distribution request

/-- A copy of a request that had no publication when it was read. -/
def Copied (s : RequestSystem) (scope : TenantScope) (requestId : Uuid) (copy : ContentDistributionRequest) : Prop :=
  ∃ request, s.state.byId.lookup (scope, requestId) = some request ∧ SameRequest copy request

/-- What a task holds, against what is stored now. -/
def TaskShape (s : RequestSystem) : RequestTask → Prop
  | .linking scope _ intentId bundle =>
    bundle.intent.intentId = intentId
      ∧ StoredPublication s.distribution scope bundle.intent bundle.variant bundle.origin.withdrawsAfterPublish
  | .accepted scope requestId request _ => Copied s scope requestId request
  | .validated scope requestId request _ _ => Copied s scope requestId request
  | .failed _ _ _ => True

structure RequestShape (used : List String → Prop) (s : RequestSystem) : Prop where
  coverage : CoverageShape used s.distribution
  publications : PublicationShape used s.distribution
  keys : ∀ scope keyHash id, s.state.byKey.lookup (scope, keyHash) = some id →
    ∃ request, s.state.byId.lookup (scope, id) = some request ∧ request.idempotencyKeyHash = keyHash
  requests : ∀ scope id request, s.state.byId.lookup (scope, id) = some request → StoredRequest s scope id request
  tasks : ∀ id task, s.tasks.lookup id = some task → TaskShape s task

/-- Nothing that was accepted or published is lost or changed but for links and deferrals. -/
structure RequestsKept (s s' : RequestSystem) : Prop where
  keys : ∀ key id, s.state.byKey.lookup key = some id → s'.state.byKey.lookup key = some id
  requests : ∀ key request, s.state.byId.lookup key = some request →
    ∃ request', s'.state.byId.lookup key = some request' ∧ SameRequest request request'
  publications : PublicationsKept s.distribution s'.distribution

omit [Sha256] [UrlParser] in
theorem RequestsKept.refl (s : RequestSystem) : RequestsKept s s :=
  ⟨fun _ _ h => h, fun _ request h => ⟨request, h, .refl _⟩, .refl _⟩

omit [Sha256] [UrlParser] in
theorem RequestsKept.trans {s₁ s₂ s₃ : RequestSystem} (h : RequestsKept s₁ s₂)
    (h' : RequestsKept s₂ s₃) : RequestsKept s₁ s₃ where
  keys key id hkey := h'.keys key id (h.keys key id hkey)
  requests key request hstored := by
    obtain ⟨r₂, hr₂, hsame⟩ := h.requests key request hstored
    obtain ⟨r₃, hr₃, hsame'⟩ := h'.requests key r₂ hr₂
    exact ⟨r₃, hr₃, hsame.trans hsame'⟩
  publications := h.publications.trans h'.publications

theorem LinkSettled.kept {d d' : MemoryDistributionState} {request : ContentDistributionRequest}
    (h : LinkSettled d request) (hkept : PublicationsKept d d') : LinkSettled d' request := by
  intro intentId hlinked
  obtain ⟨hdeferral, hagrees⟩ := h intentId hlinked
  exact ⟨hdeferral, hagrees.kept hkept⟩

omit [Sha256] [UrlParser] in
theorem TaskShape.kept {s s' : RequestSystem} {task : RequestTask} (h : TaskShape s task)
    (hkept : RequestsKept s s') : TaskShape s' task := by
  have hcopied {scope : TenantScope} {requestId : Uuid} {copy : ContentDistributionRequest}
      (h : Copied s scope requestId copy) : Copied s' scope requestId copy := by
    obtain ⟨_, hstored, hsame⟩ := h
    obtain ⟨request', hstored', hsame'⟩ := hkept.requests _ _ hstored
    exact ⟨request', hstored', hsame.trans hsame'⟩
  cases task with
  | linking => exact ⟨h.1, h.2.kept hkept.publications⟩
  | accepted => exact hcopied h
  | validated => exact hcopied h
  | failed => trivial

variable {used : List String → Prop} {s s' : RequestSystem}

theorem RequestShape.empty : RequestShape used .empty where
  coverage := .empty
  publications := .empty
  keys scope keyHash id h := by simp [RequestSystem.empty, MemoryRequestState.empty] at h
  requests scope id request h := by simp [RequestSystem.empty, MemoryRequestState.empty] at h
  tasks id task h := by simp [RequestSystem.empty] at h

theorem RequestShape.extend (hs : RequestShape used s) (hkept : RequestsKept s s')
    (hcoverage : CoverageShape used s'.distribution) (hpublications : PublicationShape used s'.distribution)
    (hkeys : ∀ scope keyHash id, s'.state.byKey.lookup (scope, keyHash) = some id →
      s.state.byKey.lookup (scope, keyHash) = some id
        ∨ ∃ request, s'.state.byId.lookup (scope, id) = some request ∧ request.idempotencyKeyHash = keyHash)
    (hrequests : ∀ scope id request, s'.state.byId.lookup (scope, id) = some request →
      (∃ old, s.state.byId.lookup (scope, id) = some old ∧ SameRequest old request
          ∧ (request = old ∨ LinkSettled s'.distribution request))
        ∨ StoredRequest s' scope id request)
    (htasks : ∀ id task, s'.tasks.lookup id = some task →
      s.tasks.lookup id = some task ∨ TaskShape s' task) : RequestShape used s' where
  coverage := hcoverage
  publications := hpublications
  keys scope keyHash id h := by
    rcases hkeys scope keyHash id h with hold | hnew
    · obtain ⟨_, hstored, hkey⟩ := hs.keys _ _ _ hold
      obtain ⟨request', hstored', hsame⟩ := hkept.requests _ _ hstored
      exact ⟨request', hstored', by rw [hsame.frozen]; exact hkey⟩
    · exact hnew
  requests scope id request h := by
    rcases hrequests scope id request h with ⟨old, hold, hsame, hsettled⟩ | hnew
    · have hshape := hs.requests _ _ _ hold
      have hkeyed := hkept.keys _ _ hshape.keyed
      have hfrozen := hsame.frozen
      refine ⟨?_, hsame.requestId.trans hshape.identified, ?_, ?_⟩
      · rw [hfrozen]
        exact hkeyed
      · rw [hfrozen]
        exact hshape.inScope
      · rcases hsettled with rfl | hsettled
        · exact hshape.settled.kept hkept.publications
        · exact hsettled
    · exact hnew
  tasks id task h := by
    rcases htasks id task h with hold | hnew
    · exact (hs.tasks id task hold).kept hkept
    · exact hnew

end Agreement

end GeoMaster
