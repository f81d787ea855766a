import GeoMaster.Proofs.KnowledgeEffects

/-!
# What every call of the knowledge repository does

Uploads, imports, revisions, manifests and reads have one of the listed effects too, and so has every call.
-/

namespace GeoMaster

open Op Except Option MemoryState

namespace MemoryKnowledgeRepository

variable {e : AppError} {id : Uuid} {s s' : MemoryState} {scope : TenantScope}

theorem createUploadSession_atomic {command : UploadSessionCommand} {now : DateTime} :
    (createUploadSession scope command id now).Atomic :=
  .bind .okOr fun _ => .bind .lift fun _ => (Op.Total.bind .modify fun _ => .pure).atomic

variable {session : UploadSession} {objectId : Uuid} {operationId : Option Uuid} {job : ImportJob}
  {purpose : KnowledgePurpose} {α β : Type}

theorem committedObject_visible {projectId : ProjectId} {size : Nat} {sha256 : String}
    {completion : CompletionInputs} (h : scope.projectId = some projectId) :
    inScope scope (committedObject scope projectId session size sha256 completion) = true :=
  inScope_iff.mpr (scope_eq h)

theorem commitSession_returns {u : Unit} (h : Op.Returns (commitSession id objectId operationId) s u s')
    (hfound : s.uploadSessions.lookup id = some session) :
    s' = s.setSession id { session.commit objectId with operationId } := by
  simp only [commitSession, expect, returns_iff, hfound] at h
  obtain ⟨_, _, ⟨rfl, rfl⟩, _, _, ⟨hsession, rfl⟩, rfl⟩ := h
  rw [some.inj hsession]

theorem commitSession_fails (h : Op.Fails (commitSession id objectId operationId) s e s')
    (hfound : s.uploadSessions.lookup id = some session) : False := by
  simp [commitSession, expect, hfound] at h

theorem saveOnDemandManifest_atomic {request : DocumentManifest} : (saveOnDemandManifest scope request).Atomic := by
  refine .bind .okOr fun _ => .bind .failIf fun _ => .bind .failIf fun _ => .bind .read fun stored => ?_
  cases stored with
  | some existing => exact .bind .failIf fun _ => Op.Total.pure.atomic
  | none =>
    refine .bind .read fun _ => .bind .okOr fun _ => .bind .read fun _ => .bind .lift fun _ => ?_
    exact (Op.Total.bind .modify fun _ => .pure).atomic

theorem getAttachmentObject_readOnly : (getAttachmentObject scope id).ReadOnly := by
  unfold getAttachmentObject
  refine .bind .okOr fun _ => .bind .read fun found => .bind .read fun session => ?_
  split <;> exact .pure

theorem progressWithoutJob_readOnly {expected : ImportItem} {receipt : ImportAcceptance} :
    (progressWithoutJob scope expected receipt).ReadOnly := by
  unfold progressWithoutJob
  refine .bind .failIf fun _ => .bind .read fun visible => ?_
  split <;> exact .pure

theorem checkFinishedJob_readOnly {source : Source} : (checkFinishedJob scope job source).ReadOnly := by
  unfold checkFinishedJob
  refine .bind .failIf fun _ => .bind .okOr fun _ => .bind .read fun _ => .bind .okOr fun _ => ?_
  refine .bind .read fun _ => .bind .okOr fun _ => .bind .okOr fun _ => .bind .failIf fun _ => ?_
  refine .bind .okOr fun _ => .bind .read fun _ => .bind .okOr fun _ => ?_
  refine .bind .read fun pdf => .bind .read fun office => ?_
  split
  · refine .bind .read fun _ => .bind .failIf fun _ => .bind .okOr fun _ => ?_
    exact .bind .failIf fun _ => .pure
  · refine .bind .read fun _ => .bind .failIf fun _ => .bind .okOr fun _ => ?_
    exact .bind .failIf fun _ => .pure
  · split
    · exact .pure
    · exact .bind .read fun _ => .bind .failIf fun _ => .pure

theorem progressForJobLocked_readOnly : (progressForJobLocked scope job purpose).ReadOnly := by
  unfold progressForJobLocked
  refine .bind .read fun found => ?_
  split
  · exact .pure
  · dsimp only
    split
    · exact .bind checkFinishedJob_readOnly fun _ => .pure
    · exact .pure

theorem getImportProgress_readOnly {jobId : Uuid} : (getImportProgress scope jobId purpose).ReadOnly := by
  unfold getImportProgress
  refine .bind .okOr fun _ => .bind .read fun found => ?_
  split
  · exact .pure
  · exact progressForJobLocked_readOnly

theorem reply_readOnly {f : α → β} {x : KnowledgeOp α} (h : x.ReadOnly) : (reply f x).ReadOnly :=
  .bind h fun _ => .pure

theorem reply_returns {f : α → β} {x : KnowledgeOp α} {b : β} (h : Op.Returns (reply f x) s b s') :
    ∃ a, Op.Returns x s a s' ∧ f a = b :=
  returns_map.mp h

theorem reply_fails {f : α → β} {x : KnowledgeOp α} (h : Op.Fails (reply f x) s e s') : Op.Fails x s e s' := by
  simpa [reply] using h

section

variable [Sha256]

/-! ### Upload sessions -/

variable {e : AppError} {id : Uuid} {now : DateTime} {s s' : MemoryState} {scope : TenantScope}

theorem createUploadSession_returns {command : UploadSessionCommand} {session : UploadSession}
    (h : Op.Returns (createUploadSession scope command id now) s session s') :
    KnowledgeEffect s (.createUploadSession scope command id now) (.ok (.session session)) s' := by
  simp only [createUploadSession, requireProject, returns_iff] at h
  obtain ⟨projectId, _, ⟨hproject, rfl⟩, _, _, ⟨hvalid, rfl⟩, -, _, rfl, rfl, rfl⟩ := h
  exact .sessionCreated scope command id now projectId hproject hvalid

variable {content : List UInt8} {completion : CompletionInputs} {idempotencyKey : String} {item : ImportItem}
  {documentScope : DocumentScope} {manifest : DocumentManifest} {request : DocumentManifestPlanRequest}

theorem putUploadContent_returns {updated : UploadSession}
    (h : Op.Returns (putUploadContent scope id content now) s updated s') :
    KnowledgeEffect s (.putUploadContent scope id content now) (.ok (.session updated)) s' := by
  simp only [putUploadContent, requireProject, returns_iff, visibleSession_returns, expireSession_returns] at h
  obtain ⟨_, _, ⟨-, rfl⟩, session, _, ⟨hfound, hvisible, rfl⟩, -, _, ⟨-, rfl⟩, -, _, ⟨hopen, rfl⟩, -, _,
    ⟨-, rfl⟩, -, _, rfl, -, _, rfl, rfl, rfl⟩ := h
  refine .contentPut scope id content now session hfound hvisible fun hcommitted => ?_
  rw [hcommitted] at hopen
  exact hopen ⟨by decide, by decide, by decide⟩

theorem putUploadContent_fails (h : Op.Fails (putUploadContent scope id content now) s e s') :
    KnowledgeEffect s (.putUploadContent scope id content now) (.error e) s' := by
  simp only [putUploadContent, requireProject, fails_iff, returns_iff, visibleSession_returns, expireSession_returns,
    expireSession_fails, and_false, exists_false, or_false] at h
  rcases h with ⟨-, -, rfl⟩ | ⟨_, _, ⟨-, rfl⟩, h⟩
  · exact same_failed
  rcases h with h | ⟨session, _, ⟨hfound, hvisible, rfl⟩, h⟩
  · rw [visibleSession_failed h]
    exact same_failed
  rcases h with ⟨hover, rfl, rfl⟩ | ⟨-, _, ⟨-, rfl⟩, h⟩
  · exact .sessionExpired _ id session now _ hfound (.put scope content hvisible) hover
  rcases h with ⟨-, -, rfl⟩ | ⟨-, _, ⟨-, rfl⟩, -, -, rfl⟩ <;> exact same_failed

theorem completeAttachmentUpload_returns
    {r : StoredObject × String} (h : Op.Returns (completeAttachmentUpload scope id idempotencyKey completion) s r s') :
    KnowledgeEffect s (.completeAttachmentUpload scope id idempotencyKey completion)
      (.ok (.attachment r.1 r.2)) s' := by
  simp only [completeAttachmentUpload, requireProject, returns_iff, visibleSession_returns] at h
  obtain ⟨projectId, _, ⟨hproject, rfl⟩, -, _, ⟨-, rfl⟩, session, _, ⟨hfound, hvisible, rfl⟩, h⟩ := h
  split at h
  · simp only [expect, returns_iff] at h
    obtain ⟨_, _, ⟨-, rfl⟩, -, _, ⟨-, rfl⟩, _, _, ⟨-, rfl⟩, -, _, ⟨-, rfl⟩, objectId, _,
      ⟨hcommitted, rfl⟩, _, _, ⟨rfl, rfl⟩, object, _, ⟨hstored, rfl⟩, rfl, rfl⟩ := h
    exact same_ok (.attachmentReceipt scope id idempotencyKey completion session objectId object
      hfound hvisible hcommitted hstored)
  · rename_i huncommitted
    simp only [returns_iff, expireSession_returns, checkContent_returns] at h
    obtain ⟨-, _, ⟨-, rfl⟩, -, _, ⟨-, rfl⟩, _, _, ⟨rfl, rfl⟩, content, _, ⟨hreceived, rfl⟩, -, _,
      ⟨hannounced, rfl⟩, -, _, rfl, -, _, rfl, -, _, rfl, -, _, rfl, rfl, rfl⟩ := h
    exact .attachmentCompleted scope id idempotencyKey completion projectId session content _
      hproject hfound hvisible huncommitted hreceived hannounced rfl

theorem completeAttachmentUpload_fails
    (h : Op.Fails (completeAttachmentUpload scope id idempotencyKey completion) s e s') :
    KnowledgeEffect s (.completeAttachmentUpload scope id idempotencyKey completion) (.error e) s' := by
  simp only [completeAttachmentUpload, requireProject, fails_iff, returns_iff, visibleSession_returns] at h
  rcases h with ⟨-, -, rfl⟩ | ⟨projectId, _, ⟨-, rfl⟩, ⟨-, -, rfl⟩ | ⟨-, _, ⟨-, rfl⟩, h⟩⟩
  · exact same_failed
  · exact same_failed
  rcases h with h | ⟨session, _, ⟨hfound, hvisible, rfl⟩, h⟩
  · rw [visibleSession_failed h]
    exact same_failed
  split at h
  · simp only [expect, fails_iff, returns_iff, false_or, and_false, exists_false, or_false] at h
    obtain ⟨_, _, ⟨-, rfl⟩, ⟨-, -, rfl⟩ | ⟨-, _, ⟨-, rfl⟩, _, _, ⟨-, rfl⟩, ⟨-, -, rfl⟩ | ⟨-, _, ⟨-, rfl⟩,
      ⟨-, -, rfl⟩ | ⟨_, _, ⟨-, rfl⟩, _, _, ⟨-, rfl⟩, -, -, rfl⟩⟩⟩⟩ := h
    all_goals exact same_failed
  · rename_i huncommitted
    simp only [fails_iff, returns_iff, expireSession_fails, expireSession_returns, checkContent_fails, false_or, and_false,
      exists_false, or_false] at h
    rcases h with ⟨hover, rfl, rfl⟩ | ⟨-, _, ⟨-, rfl⟩, h⟩
    · exact .sessionExpired _ id session _ _ hfound
        (.attachment scope idempotencyKey completion hvisible huncommitted rfl) hover
    rcases h with ⟨-, -, rfl⟩ | ⟨-, _, ⟨-, rfl⟩, _, _, ⟨-, rfl⟩, h⟩
    · exact same_failed
    rcases h with ⟨-, -, rfl⟩ | ⟨content, _, ⟨-, rfl⟩, -, rfl, rfl⟩
    · exact same_failed
    · exact .contentRejected _ id session _ hfound (.attachment scope idempotencyKey completion hvisible) huncommitted

theorem Imported.uploadSessions {fresh : ImportInputs} {a : ImportAcceptance} (h : Imported scope fresh s a s') :
    s'.uploadSessions = s.uploadSessions := by
  cases h <;> rfl

section

variable [CsvChunks]

variable {completion : CompletionInputs} {idempotencyKey : String} {fresh : ImportInputs} {profiles : ParserProfiles}

theorem completeUpload_returns {a : ImportAcceptance}
    (h : Op.Returns (completeUpload profiles scope id idempotencyKey completion fresh) s a s') :
    KnowledgeEffect s (.completeUpload scope id idempotencyKey completion fresh) (.ok (.acceptance a)) s' := by
  simp only [completeUpload, requireProject, returns_iff] at h
  obtain ⟨projectId, _, ⟨hproject, rfl⟩, -, _, ⟨hnonblank, rfl⟩, stored, _, ⟨hstored, rfl⟩, h⟩ := h
  cases stored with
  | some acceptance =>
    obtain ⟨rfl, rfl⟩ := returns_pure.mp h
    exact same_ok (.uploadReceipt scope id idempotencyKey completion fresh acceptance
      (by simp [hproject]) (by simpa using hnonblank) hstored)
  | none =>
    simp only [returns_iff, visibleSession_returns, expireSession_returns, checkContent_returns] at h
    obtain ⟨session, _, ⟨hfound, hvisible, rfl⟩, -, _, ⟨-, rfl⟩, -, _, ⟨huncommitted, rfl⟩, _, _,
      ⟨rfl, rfl⟩, content, _, ⟨hreceived, rfl⟩, -, _, ⟨hannounced, rfl⟩, acceptance, s₁, himport, -, _,
      rfl, _, _, hcommit, -, _, rfl, rfl, rfl⟩ := h
    have himported := importUpload_imported (committedObject_visible hproject) himport
    -- the import leaves the session as it was, so this is the one that is committed
    have hsession : s₁.uploadSessions.lookup id = some session := by
      rw [himported.uploadSessions]
      exact hfound
    rw [commitSession_returns hcommit hsession]
    have hoperation : (reportUpload id completion.objectId acceptance).operation.map Operation.id
        = acceptance.operation.map Operation.id := by
      cases hop : acceptance.operation <;> simp [reportUpload, hop]
    show KnowledgeEffect _ _ _ (insertUploadCompletion _ _ (setSession _
      { session.commit completion.objectId with
        operationId := (reportUpload id completion.objectId acceptance).operation.map Operation.id }
      _))
    rw [hoperation]
    exact .uploadCompleted scope id idempotencyKey completion fresh projectId session content acceptance _ s₁ hproject
      hfound hvisible huncommitted hreceived hannounced hstored rfl himported (importUpload_sourced himport)

theorem completeUpload_fails (h : Op.Fails (completeUpload profiles scope id idempotencyKey completion fresh) s e s') :
    KnowledgeEffect s (.completeUpload scope id idempotencyKey completion fresh) (.error e) s' := by
  simp only [completeUpload, requireProject, fails_iff, returns_iff, false_or] at h
  rcases h with ⟨-, -, rfl⟩ | ⟨projectId, _, ⟨hproject, rfl⟩, ⟨-, -, rfl⟩ | ⟨-, _, ⟨hnonblank, rfl⟩,
    stored, _, ⟨hstored, rfl⟩, h⟩⟩
  · exact same_failed
  · exact same_failed
  cases stored with
  | some acceptance => simp at h
  | none =>
    simp only [fails_iff, returns_iff, visibleSession_returns, expireSession_fails, expireSession_returns, checkContent_fails,
      checkContent_returns, false_or, and_false, exists_false, or_false] at h
    rcases h with h | ⟨session, _, ⟨hfound, hvisible, rfl⟩, h⟩
    · rw [visibleSession_failed h]
      exact same_failed
    rcases h with ⟨hover, rfl, rfl⟩ | ⟨-, _, ⟨-, rfl⟩, h⟩
    · exact .sessionExpired _ id session _ _ hfound
        (.complete scope idempotencyKey completion fresh hvisible (by simpa using hnonblank) hstored rfl) hover
    rcases h with ⟨-, -, rfl⟩ | ⟨-, _, ⟨huncommitted, rfl⟩, _, _, ⟨rfl, rfl⟩, h⟩
    · exact same_failed
    rcases h with ⟨-, -, rfl⟩ | ⟨content, _, ⟨-, rfl⟩, h⟩
    · exact same_failed
    rcases h with ⟨-, rfl, rfl⟩ | ⟨-, _, ⟨-, rfl⟩, h⟩
    · exact .contentRejected _ id session _ hfound
        (.complete scope idempotencyKey completion fresh hvisible) huncommitted
    rcases h with h | ⟨acceptance, s₁, himport, -, _, rfl, h⟩
    · rw [importUpload_failed (committedObject_visible hproject) h]
      exact same_failed
    · have himported := importUpload_imported (committedObject_visible hproject) himport
      have hsession : s₁.uploadSessions.lookup id = some session := by
        rw [himported.uploadSessions]
        exact hfound
      exact (commitSession_fails h hsession).elim

end

/-! ### Imports of items -/

theorem importReceipt_returns {receipt : Option ImportAcceptance}
    (h : Op.Returns (importReceipt scope item) s receipt s') :
    KnowledgeEffect s (.importReceipt scope item) (.ok (.receipt receipt)) s' := by
  simp only [importReceipt, requireProject, returns_iff] at h
  obtain ⟨projectId, _, ⟨hproject, rfl⟩, h⟩ := h
  have hsome : scope.projectId.isSome := by simp [hproject]
  split at h
  · obtain ⟨rfl, rfl⟩ := returns_pure.mp h
    refine same_ok (.receipt scope item _ hsome fun acceptance hacceptance => ?_)
    exact .inl ⟨_, (some.inj hacceptance).symm⟩
  · obtain rfl := storedItem_readOnly.returns h
    refine same_ok (.receipt scope item receipt hsome fun acceptance hacceptance => ?_)
    subst hacceptance
    exact storedItem_returns h

theorem importReceipt_atomic : (importReceipt scope item).Atomic := by
  refine .bind .okOr fun _ => ?_
  dsimp only
  split
  · exact Op.Total.pure.atomic
  · exact storedItem_readOnly.atomic

/-! ### Manifests -/

theorem plannedManifest_ok {release : KnowledgeRelease} {manifestId : Uuid} {publicRefs : List Uuid}
    (h : plannedManifest scope release manifestId documentScope publicRefs = .ok manifest) :
    manifest.manifestId = manifestId ∧ manifest.knowledgeReleaseId = release.knowledgeReleaseId
      ∧ inScope scope manifest = true := by
  simp only [plannedManifest, eq_ok_iff] at h
  obtain ⟨_, hproject, -, -, -, -, -, -, rfl⟩ := h
  exact ⟨rfl, rfl, inScope_iff.mpr (scope_eq hproject)⟩

theorem planDocumentManifest_returns (hs : StoreShape s)
    (h : Op.Returns (planDocumentManifest scope request documentScope) s manifest s') :
    KnowledgeEffect s (.planDocumentManifest scope request documentScope) (.ok (.manifest manifest)) s' := by
  simp only [planDocumentManifest, requireProject, returns_iff] at h
  obtain ⟨_, _, ⟨-, rfl⟩, _, _, ⟨rfl, rfl⟩, release, _, ⟨hrelease, rfl⟩, _, _, ⟨rfl, rfl⟩, planned, _,
    ⟨hplanned, rfl⟩, stored, _, ⟨hstored, rfl⟩, h⟩ := h
  obtain ⟨hfound, hvisible⟩ := filter_eq_some_iff.mp hrelease
  cases stored with
  | some existing =>
    simp only [returns_iff] at h
    obtain ⟨-, _, ⟨hsame, rfl⟩, rfl, rfl⟩ := h
    simp only [not_or, not_not] at hsame
    exact same_ok (.planned scope request documentScope release existing hfound hvisible hstored hsame.1)
  | none =>
    simp only [returns_iff] at h
    obtain ⟨-, _, rfl, rfl, rfl⟩ := h
    obtain ⟨hid, hreleaseId, hmanifest⟩ := plannedManifest_ok hplanned
    have hkey := hs.releases _ _ hfound
    refine .manifestStored _ scope release planned (.inl ⟨request, documentScope, rfl⟩) ?_ hvisible hmanifest ?_
    · rw [hreleaseId, hkey, hfound]
    · rw [hid, hstored]

theorem planDocumentManifest_atomic : (planDocumentManifest scope request documentScope).Atomic := by
  refine .bind .okOr fun _ => .bind .read fun _ => .bind .okOr fun _ => .bind .read fun _ => .bind .lift fun _ => ?_
  refine .bind .read fun stored => ?_
  cases stored with
  | some existing => exact .bind .failIf fun _ => Op.Total.pure.atomic
  | none => exact (Op.Total.bind .modify fun _ => .pure).atomic

theorem saveOnDemandManifest_returns {request : DocumentManifest}
    (h : Op.Returns (saveOnDemandManifest scope request) s manifest s') :
    KnowledgeEffect s (.saveOnDemandManifest scope request) (.ok (.manifest manifest)) s' := by
  simp only [saveOnDemandManifest, requireProject, returns_iff] at h
  obtain ⟨projectId, _, ⟨hproject, rfl⟩, -, _, ⟨hscope, rfl⟩, -, _, ⟨-, rfl⟩, stored, _, ⟨hstored, rfl⟩, h⟩ := h
  have hvisible (m : DocumentManifest) (ho : m.operatorId = scope.operatorId) (ht : m.tenantId = scope.tenantId)
      (hp : m.projectId = projectId) : inScope scope m = true := by
    refine inScope_iff.mpr ?_
    rw [← scope_eq hproject, ← ho, ← ht, ← hp]
    rfl
  simp only [not_or, not_not] at hscope
  cases stored with
  | some existing =>
    simp only [returns_iff] at h
    obtain ⟨-, _, ⟨hsame, rfl⟩, rfl, rfl⟩ := h
    simp only [not_or, not_not] at hsame
    exact same_ok (.saved scope request existing (hvisible _ hsame.1 hsame.2.1 hsame.2.2.1))
  | none =>
    simp only [returns_iff] at h
    obtain ⟨_, _, ⟨rfl, rfl⟩, release, _, ⟨hrelease, rfl⟩, _, _, ⟨-, rfl⟩, -, _, ⟨-, rfl⟩, -, _, rfl, rfl, rfl⟩ := h
    obtain ⟨hfound, hreleaseVisible⟩ := filter_eq_some_iff.mp hrelease
    exact .manifestStored _ scope release request (.inr rfl) hfound hreleaseVisible
      (hvisible _ hscope.1 hscope.2.1 hscope.2.2) hstored

section

variable [CsvChunks]

theorem importItem_returns {profiles : ParserProfiles} {item : ImportItem}
    {fetched : Except AppError (Option FetchedUrlPage)} {objectId : Uuid} {fresh : ImportInputs} {a : ImportAcceptance} (hs : StoreShape s)
    (h : Op.Returns (importItem profiles scope item fetched objectId fresh) s a s') :
    KnowledgeEffect s (.importItem scope item fetched objectId fresh) (.ok (.acceptance a)) s' := by
  have hsome : scope.projectId.isSome := by
    simp only [importItem, requireProject, returns_iff] at h
    obtain ⟨_, _, ⟨hproject, -⟩, -⟩ := h
    simp [hproject]
  rcases importItem_effect hs.objects h with ⟨rfl, hknown⟩ | ⟨s₀, s₁, hbrought, himported, rfl, hnew⟩
  · exact same_ok (.item scope item fetched objectId fresh a hsome hknown)
  · exact .itemImported scope item fetched objectId fresh a s₀ s₁ hsome hnew hbrought himported

/-! ### Revisions -/

variable {command : ReviseSourceTextCommand} {idempotencyKey : String} {fresh : RevisionInputs} {sourceId : Uuid}
  {expectedRevision : Int}

theorem reviseSourceText_returns {receipt : SourceTextRevisionReceipt}
    (h : Op.Returns (reviseSourceText scope sourceId expectedRevision idempotencyKey command fresh) s receipt s') :
    KnowledgeEffect s (.reviseSourceText scope sourceId expectedRevision idempotencyKey command fresh)
      (.ok (.revision receipt)) s' := by
  simp only [reviseSourceText, requireProject, returns_iff] at h
  obtain ⟨projectId, _, ⟨hproject, rfl⟩, -, _, ⟨-, rfl⟩, -, _, ⟨-, rfl⟩, stored, _, ⟨hstored, rfl⟩, h⟩ := h
  cases stored with
  | some stored =>
    obtain ⟨hash, prior⟩ := stored
    simp only [returns_iff] at h
    obtain ⟨-, _, ⟨-, rfl⟩, rfl, rfl⟩ := h
    exact same_ok (.revision scope sourceId expectedRevision idempotencyKey command fresh hash _
      prior (by simp [hproject]) hstored)
  | none =>
    simp only [returns_iff] at h
    obtain ⟨_, _, ⟨rfl, rfl⟩, source, _, ⟨hsource, rfl⟩, _, _, ⟨rfl, rfl⟩, base, _, ⟨-, rfl⟩, -, _,
      ⟨hcurrent, rfl⟩, _, _, ⟨rfl, rfl⟩, -, _, ⟨hquiet, rfl⟩, last, _, ⟨-, rfl⟩, chunks, _, ⟨-, rfl⟩,
      -, s₁, hstored₁, release, s₂, hrelease, -, _, rfl, rfl, rfl⟩ := h
    obtain ⟨hfound, hvisible⟩ := filter_eq_some_iff.mp hsource
    obtain ⟨hbuilt, rfl⟩ := makeReleaseLocked_returns hproject hrelease
    simp only [not_or, not_not] at hcurrent
    exact .revised scope sourceId expectedRevision idempotencyKey command fresh projectId source _ chunks release s₁
      hproject hfound hvisible hcurrent.1 (by simpa using hquiet) ⟨last + 1, base, rfl⟩ hstored₁.symm hbuilt

theorem reviseSourceText_fails
    (h : Op.Fails (reviseSourceText scope sourceId expectedRevision idempotencyKey command fresh) s e s') : s' = s := by
  simp only [reviseSourceText, requireProject, fails_iff, returns_iff, false_or] at h
  rcases h with ⟨-, -, rfl⟩ | ⟨projectId, _, ⟨hproject, rfl⟩, ⟨-, rfl⟩ | ⟨-, _, ⟨-, rfl⟩, h⟩⟩
  · rfl
  · rfl
  rcases h with ⟨-, -, rfl⟩ | ⟨-, _, ⟨-, rfl⟩, stored, _, ⟨-, rfl⟩, h⟩
  · rfl
  cases stored with
  | some stored =>
    obtain ⟨_, _⟩ := stored
    simp only [fails_iff, returns_iff, and_false, exists_false, or_false] at h
    exact h.2.2.symm
  | none =>
    simp only [fails_iff, returns_iff, makeReleaseLocked_fails hproject, false_or, and_false, exists_false, or_false] at h
    obtain ⟨_, _, ⟨-, rfl⟩, ⟨-, -, rfl⟩ | ⟨_, _, ⟨-, rfl⟩, _, _, ⟨-, rfl⟩, h⟩⟩ := h
    · rfl
    rcases h with ⟨-, -, rfl⟩ | ⟨base, _, ⟨-, rfl⟩, ⟨-, -, rfl⟩ | ⟨-, _, ⟨-, rfl⟩, _, _, ⟨-, rfl⟩, h⟩⟩
    · rfl
    · rfl
    rcases h with ⟨-, -, rfl⟩ | ⟨-, _, ⟨-, rfl⟩, _, _, ⟨-, rfl⟩, -, rfl⟩ <;> rfl

end

/-! ### Reads -/

theorem parseInput_readOnly {p : Parser} {lease : ParseLease} : (parseInput p scope lease now).ReadOnly := by
  unfold parseInput
  refine .bind checkedLease_readOnly fun checked => .bind .read fun object => ?_
  exact .bind .okOr fun _ => .bind .read fun _ => .bind .okOr fun _ => .bind .failIf fun _ => .pure

theorem getAttachmentObjectBytes_readOnly {objectId : Uuid} {objectVersion : Int} {sha256 : String} :
    (getAttachmentObjectBytes scope objectId objectVersion sha256).ReadOnly := by
  unfold getAttachmentObjectBytes
  refine .bind .okOr fun _ => .bind .read fun found => ?_
  split
  · exact .pure
  · refine .bind .read fun committed => ?_
    split
    · exact .bind .read fun _ => .bind .okOr fun _ => .bind .lift fun _ => .pure
    · exact .pure

theorem getSourceVersionContent_readOnly {sourceId versionId : Uuid} :
    (getSourceVersionContent scope sourceId versionId).ReadOnly := by
  unfold getSourceVersionContent
  refine .bind .okOr fun _ => .bind .read fun found => ?_
  split
  · exact .pure
  · refine .bind .read fun authored => ?_
    split
    · exact .pure
    · refine .bind .read fun _ => .bind .failIf fun _ => .bind .read fun text => ?_
      split
      · exact .pure
      · exact .bind .read fun _ => .pure

theorem resolveImportReceipt_readOnly {expected : ImportItem} : (resolveImportReceipt scope expected).ReadOnly := by
  unfold resolveImportReceipt
  refine .bind .okOr fun _ => .bind .read fun found => ?_
  split
  · exact .pure
  · refine .bind .failIf fun _ => ?_
    split
    · exact progressWithoutJob_readOnly
    · refine .bind .read fun _ => .bind .okOr fun _ => .bind .failIf fun _ => .bind .read fun _ => ?_
      split
      · exact .pure
      · exact progressForJobLocked_readOnly

theorem runQuery_readOnly (query : KnowledgeQuery) : (runQuery query).ReadOnly := by
  have hread {α : Type} (scope : TenantScope) (f : MemoryState → α) :
      (do let _ ← requireProject scope; read f : KnowledgeOp α).ReadOnly :=
    .bind .okOr fun _ => .read
  cases query with
  | parseInput => exact reply_readOnly parseInput_readOnly
  | parseOperation => exact reply_readOnly (hread _ _)
  | getAttachmentObject scope id => exact reply_readOnly getAttachmentObject_readOnly
  | getAttachmentObjectBytes => exact reply_readOnly getAttachmentObjectBytes_readOnly
  | listSources scope => exact reply_readOnly (hread _ _)
  | getSource scope id => exact reply_readOnly (hread _ _)
  | getSourceDetail scope id => exact reply_readOnly (hread _ _)
  | getSourceVersion => exact reply_readOnly (hread _ _)
  | getSourceVersionContent => exact reply_readOnly getSourceVersionContent_readOnly
  | listProducts scope => exact reply_readOnly (hread _ _)
  | listFacts scope => exact reply_readOnly (hread _ _)
  | overview scope => exact reply_readOnly (hread _ _)
  | getImportProgress => exact reply_readOnly getImportProgress_readOnly
  | resolveImportReceipt scope expected => exact reply_readOnly resolveImportReceipt_readOnly
  | currentRelease scope => exact reply_readOnly (.bind .okOr fun _ => .read)
  | getRelease scope id => exact reply_readOnly (hread _ _)
  | getDocumentManifest scope id => exact reply_readOnly (hread _ _)

/-! ### Calls -/

section

variable [CsvChunks]

variable {profiles : ParserProfiles} {call : KnowledgeCall}

theorem run_returns {r : KnowledgeReply} (hs : StoreShape s) (h : Op.Returns (run profiles call) s r s') :
    KnowledgeEffect s call (.ok r) s' := by
  cases call with
  | createUploadSession =>
    obtain ⟨_, hret, rfl⟩ := reply_returns h
    exact createUploadSession_returns hret
  | putUploadContent =>
    obtain ⟨_, hret, rfl⟩ := reply_returns h
    exact putUploadContent_returns hret
  | completeUpload =>
    obtain ⟨_, hret, rfl⟩ := reply_returns h
    exact completeUpload_returns hret
  | completeAttachmentUpload =>
    obtain ⟨_, hret, rfl⟩ := reply_returns h
    exact completeAttachmentUpload_returns hret
  | importReceipt scope item =>
    obtain ⟨_, hret, rfl⟩ := reply_returns h
    exact importReceipt_returns hret
  | importItem =>
    obtain ⟨_, hret, rfl⟩ := reply_returns h
    exact importItem_returns hs hret
  | reviseSourceText =>
    obtain ⟨_, hret, rfl⟩ := reply_returns h
    exact reviseSourceText_returns hret
  | claimParse =>
    obtain ⟨_, hret, rfl⟩ := reply_returns h
    exact claimParse_returns hs hret
  | renewParse =>
    obtain ⟨_, hret, rfl⟩ := reply_returns h
    exact renewParse_returns hret
  | recordManifest =>
    obtain ⟨_, hret, rfl⟩ := reply_returns h
    exact recordManifest_returns hret
  | recordUnit =>
    obtain ⟨_, hret, rfl⟩ := reply_returns h
    exact recordUnit_returns hret
  | finishParse =>
    obtain ⟨_, hret, rfl⟩ := reply_returns h
    exact finishParse_returns hret
  | failParse =>
    obtain ⟨_, hret, rfl⟩ := reply_returns h
    exact failParse_returns hret
  | retryParse =>
    obtain ⟨_, hret, rfl⟩ := reply_returns h
    exact retryParse_returns hret
  | planDocumentManifest =>
    obtain ⟨_, hret, rfl⟩ := reply_returns h
    exact planDocumentManifest_returns hs hret
  | saveOnDemandManifest scope manifest =>
    obtain ⟨_, hret, rfl⟩ := reply_returns h
    exact saveOnDemandManifest_returns hret
  | query query =>
    obtain ⟨answer, hret, rfl⟩ := reply_returns h
    obtain rfl := (runQuery_readOnly query).returns hret
    exact same_ok (.query query answer hret)

theorem run_fails (hs : StoreShape s) (h : Op.Fails (run profiles call) s e s') :
    KnowledgeEffect s call (.error e) s' := by
  have hsame (h : s' = s) : KnowledgeEffect s call (.error e) s' := h ▸ same_failed
  have hatomic {α β : Type} {f : α → β} {x : KnowledgeOp α} (hx : x.Atomic) (h : Op.Fails (reply f x) s e s') :
      KnowledgeEffect s call (.error e) s' := hsame (hx.failed _ _ _ (reply_fails h))
  cases call with
  | createUploadSession => exact hatomic createUploadSession_atomic h
  | putUploadContent => exact putUploadContent_fails (reply_fails h)
  | completeUpload => exact completeUpload_fails (reply_fails h)
  | completeAttachmentUpload => exact completeAttachmentUpload_fails (reply_fails h)
  | importReceipt scope item => exact hatomic importReceipt_atomic h
  | importItem => exact hsame (importItem_failed (reply_fails h))
  | reviseSourceText => exact hsame (reviseSourceText_fails (reply_fails h))
  | claimParse => exact hsame (claimParse_fails hs (reply_fails h))
  | renewParse => exact hsame (renewParse_fails (reply_fails h))
  | recordManifest => exact hatomic recordManifest_atomic h
  | recordUnit => exact hatomic recordUnit_atomic h
  | finishParse => exact hsame (finishParse_fails hs (reply_fails h))
  | failParse => exact hsame (failParse_fails hs (reply_fails h))
  | retryParse => exact hatomic retryParse_atomic h
  | planDocumentManifest => exact hatomic planDocumentManifest_atomic h
  | saveOnDemandManifest scope manifest => exact hatomic saveOnDemandManifest_atomic h
  | query query => exact hatomic (runQuery_readOnly query).atomic h

theorem run_effect {r : Except AppError KnowledgeReply} (hs : StoreShape s)
    (h : (run profiles call).run s = (r, s')) : KnowledgeEffect s call r s' := by
  cases r with
  | ok reply => exact run_returns hs h
  | error e => exact run_fails hs h

end

end

end MemoryKnowledgeRepository

end GeoMaster
