import GeoMaster.Domain.KnowledgeCalls

/-!
# What imports and uploads write

An import makes the records of a text at once, queues a document, leaves records that have failed already,
or refuses. `Imported` lists these outcomes with the state each leaves, and the lemmas below show that
the paths of an item and of an upload end in one of them, and that a path that fails writes nothing.
-/

namespace GeoMaster

open Op Except Option MemoryState Text

namespace MemoryKnowledgeRepository

/-- The records of an immediate import carry its new identifiers and the scope of the caller. -/
structure TextImport.Fits (scope : TenantScope) (fresh : ImportInputs) (r : TextImport) : Prop where
  sourceId : r.source.sourceId = fresh.sourceId
  sourceScope : ScopedKnowledge.scope r.source = scope
  active : r.source.state = .active
  current : r.source.currentVersionId = some fresh.versionId
  versionId : r.version.sourceVersionId = fresh.versionId
  versionScope : ScopedKnowledge.scope r.version = scope
  versionSource : r.version.sourceId = fresh.sourceId
  jobId : r.job.importJobId = fresh.jobId
  jobScope : ScopedKnowledge.scope r.job = scope
  jobSource : r.job.sourceId = fresh.sourceId
  jobVersion : r.job.sourceVersionId = some fresh.versionId
  jobStatus : r.job.status = .succeeded
  jobResumed : r.job.resumedFrom = none
  jobOperation : r.job.operationId = fresh.operationId
  operationId : r.operation.id = fresh.operationId
  operationScope : r.operation.scope = scope

variable {e : AppError} {id : Uuid} {object : StoredObject} {s s' : MemoryState} {scope : TenantScope}

theorem scope_eq {projectId : ProjectId} (h : scope.projectId = some projectId) :
    ({ operatorId := scope.operatorId, tenantId := scope.tenantId, projectId := some projectId } :
      TenantScope) = scope := by
  rw [← h]

theorem inScope_project {α : Type} [ScopedKnowledge α] {item : α} (h : inScope scope item = true) :
    ∃ projectId, scope.projectId = some projectId :=
  ⟨ScopedKnowledge.projectId item, by rw [← inScope_iff.mp h]; rfl⟩

theorem storeObject_storeText (r : TextImport) (object : Option StoredObject) (bytes : Option (List UInt8))
    (s : MemoryState) : storeObject object bytes (storeText r s) = storeText r (storeObject object bytes s) := by
  cases object <;> cases bytes <;> rfl

variable {item : ImportItem} {fresh : ImportInputs} {profiles : ParserProfiles} {mediaType : String}
  {format : OfficeFormat} {session : UploadSession} {now : DateTime}

theorem queueParse_returns {p : Parser} {profile : String} {extra : p.Extra} (hvisible : inScope scope object = true) :
    ¬ Op.Fails (queueParse p scope item object profile extra fresh) s e s' := by
  have hproject := (inScope_iff.mp hvisible).symm
  simp [queueParse, expect, hproject, ScopedKnowledge.scope]

/-- A document is queued only for a parser that is configured, so queueing it does not fail. -/
theorem queuePdfLocked_returns (hprofile : profiles.pdfParserProfile.isSome = true)
    (hvisible : inScope scope object = true) : ¬ Op.Fails (queuePdfLocked profiles scope item object fresh) s e s' := by
  obtain ⟨_, hprofile⟩ := isSome_iff_exists.mp hprofile
  simp [queuePdfLocked, expect, hprofile, queueParse_returns hvisible]

theorem queuedOfficeFormat_configured (h : profiles.queuedOfficeFormat mediaType = some format) :
    (profiles.officeProfile format).isSome = true := by
  have hfound := List.find?_some h
  simp only [Bool.and_eq_true] at hfound
  exact hfound.2

theorem queueOfficeLocked_returns (hformat : profiles.queuedOfficeFormat mediaType = some format)
    (hvisible : inScope scope object = true) :
    ¬ Op.Fails (queueOfficeLocked profiles scope item object format fresh) s e s' := by
  obtain ⟨_, hprofile⟩ := isSome_iff_exists.mp (queuedOfficeFormat_configured hformat)
  simp [queueOfficeLocked, expect, hprofile, queueParse_returns hvisible]

theorem insertPending_returns {a : ImportAcceptance} : ¬ Op.Fails (insertPending a) s e s' := by
  unfold insertPending
  cases a.source <;> cases a.importJob <;> simp

/-- The object an import item brings along: a fetched page, or an attachment that is stored. -/
inductive Brought (scope : TenantScope) (objectId : Uuid) (s : MemoryState) : MemoryState → Prop where
  | nothing : Brought scope objectId s s
  | page (object : StoredObject) (bytes : List UInt8) (id : object.objectId = objectId)
      (objectScope : ScopedKnowledge.scope object = scope) :
      Brought scope objectId s (storeObject (some object) (some bytes) s)
  | stored (object : StoredObject) (found : s.storedObjects.lookup object.objectId = some object)
      (visible : inScope scope object = true) :
      Brought scope objectId s (s.insertObject object)

theorem committedObjectIn_some (h : committedObjectIn scope id s = some object) :
    s.storedObjects.lookup id = some object ∧ object.state = .committed ∧ inScope scope object = true := by
  simp only [committedObjectIn, filter_eq_some_iff, Bool.and_eq_true, decide_eq_true_eq] at h
  exact h

theorem visibleSession_returns :
    Op.Returns (visibleSession scope id) s session s'
      ↔ s.uploadSessions.lookup id = some session ∧ inScope scope session = true ∧ s' = s := by
  simp only [visibleSession, returns_iff]
  constructor
  · rintro ⟨_, _, ⟨rfl, rfl⟩, hfound, rfl⟩
    exact ⟨(filter_eq_some_iff.mp hfound).1, (filter_eq_some_iff.mp hfound).2, rfl⟩
  · rintro ⟨hfound, hvisible, rfl⟩
    exact ⟨_, _, ⟨rfl, rfl⟩, filter_eq_some_iff.mpr ⟨hfound, hvisible⟩, rfl⟩

theorem visibleSession_failed (h : Op.Fails (visibleSession scope id) s e s') : s' = s := by
  simp only [visibleSession, fails_iff, returns_iff, false_or] at h
  obtain ⟨_, _, ⟨rfl, rfl⟩, -, -, rfl⟩ := h
  rfl

@[simp]
theorem expireSession_returns {u : Unit} :
    Op.Returns (expireSession id session now) s u s' ↔ now < session.expiresAt ∧ s = s' := by
  unfold expireSession
  by_cases h : session.expiresAt ≤ now
  · simp [h, Int.not_lt.mpr h]
  · simp [h, Int.not_le.mp h]

@[simp]
theorem expireSession_fails :
    Op.Fails (expireSession id session now) s e s'
      ↔ session.expiresAt ≤ now ∧ e = .conflict "upload session has expired" ∧ s' = s.setSession id session.expire := by
  unfold expireSession
  by_cases h : session.expiresAt ≤ now
  · simp [h, eq_comm]
  · simp [h]

section

variable [Sha256]

/-- What an import does to the store, apart from the object it brings. -/
inductive Imported (scope : TenantScope) (fresh : ImportInputs) (s : MemoryState) :
    ImportAcceptance → MemoryState → Prop where
  | refused (clientItemId : String) (error : AppError) :
      Imported scope fresh s (.refused clientItemId error) s
  | text (r : TextImport) (fits : r.Fits scope fresh) (clientItemId : String) (projectId : ProjectId)
      (project : scope.projectId = some projectId) (release : KnowledgeRelease)
      (built : release
        = nextRelease scope projectId (storeText r s) fresh.releaseId fresh.releasedAt) :
      Imported scope fresh s (r.acceptance clientItemId release)
        (((storeText r s).insertRelease scope.storageKey release).setOperation fresh.operationId
          (r.reported release))
  | queued (p : Parser) (item : ImportItem) (object : StoredObject) (profile : String) (extra : p.Extra)
      (projectId : ProjectId) (project : scope.projectId = some projectId)
      (stored : s.storedObjects.lookup object.objectId = some object) (visible : inScope scope object = true) :
      Imported scope fresh s
        (queuedAcceptance item (queuedSource scope projectId item object fresh)
          (newJob scope projectId object.sha256 fresh)
          (.queued "knowledge.import" scope fresh.operationId fresh.queuedAt))
        ((((s.setParse p fresh.jobId (queuedParse object profile extra fresh)).setOperation
          fresh.operationId
            (.queued "knowledge.import" scope fresh.operationId fresh.queuedAt)).insertSource
              (queuedSource scope projectId item object fresh)).insertJob
                (newJob scope projectId object.sha256 fresh))
  | pending (item : ImportItem) (capability : String) (operation : Operation) (error : AppError)
      (projectId : ProjectId) (project : scope.projectId = some projectId)
      (operationScope : operation.scope = scope) :
      Imported scope fresh s
        { clientItemId := item.clientItemId
          status := .failed
          source := some (pendingSource scope projectId item capability fresh)
          sourceVersion := none
          importJob := some (pendingJob scope projectId item capability fresh)
          operation := some operation
          release := none
          error := some error }
        ((s.insertSource (pendingSource scope projectId item capability fresh)).insertJob
          (pendingJob scope projectId item capability fresh))

variable {a : ImportAcceptance} {content : List UInt8} {e : AppError}
  {fetched : Except AppError (Option FetchedUrlPage)} {fresh : ImportInputs} {id objectId : Uuid} {item : ImportItem}
  {object : StoredObject} {profiles : ParserProfiles} {s s' : MemoryState} {scope : TenantScope}
  {session : UploadSession}

variable {projectId : ProjectId} {now : DateTime} {capability text : String} {page : Option FetchedUrlPage}

theorem makeReleaseLocked_returns {release : KnowledgeRelease}
    (hproject : scope.projectId = some projectId) (h : Op.Returns (makeReleaseLocked scope id now) s release s') :
    release = nextRelease scope projectId s id now ∧ s' = s.insertRelease scope.storageKey release := by
  simp only [makeReleaseLocked, requireProject, hproject, returns_iff, Option.some.injEq] at h
  obtain ⟨_, _, ⟨rfl, rfl⟩, _, _, ⟨rfl, rfl⟩, -, _, rfl, rfl, rfl⟩ := h
  exact ⟨rfl, rfl⟩

theorem makeReleaseLocked_fails (hproject : scope.projectId = some projectId) :
    ¬ Op.Fails (makeReleaseLocked scope id now) s e s' := by
  simp [makeReleaseLocked, requireProject, hproject]

theorem queueParse_imported {p : Parser} {profile : String} {extra : p.Extra}
    (hstored : s.storedObjects.lookup object.objectId = some object) (hvisible : inScope scope object = true)
    (h : Op.Returns (queueParse p scope item object profile extra fresh) s a s') : Imported scope fresh s a s' := by
  simp only [queueParse, expect, returns_iff] at h
  obtain ⟨projectId, _, ⟨hproject, rfl⟩, -, _, rfl, -, _, rfl, -, _, rfl, -, _, rfl, rfl, rfl⟩ := h
  exact .queued p item object profile extra projectId hproject hstored hvisible

theorem queuePdfLocked_imported (hstored : s.storedObjects.lookup object.objectId = some object)
    (hvisible : inScope scope object = true) (h : Op.Returns (queuePdfLocked profiles scope item object fresh) s a s') :
    Imported scope fresh s a s' := by
  simp only [queuePdfLocked, expect, returns_iff] at h
  obtain ⟨_, _, ⟨-, rfl⟩, h⟩ := h
  exact queueParse_imported hstored hvisible h

theorem queueOfficeLocked_imported {format : OfficeFormat}
    (hstored : s.storedObjects.lookup object.objectId = some object) (hvisible : inScope scope object = true)
    (h : Op.Returns (queueOfficeLocked profiles scope item object format fresh) s a s') :
    Imported scope fresh s a s' := by
  simp only [queueOfficeLocked, expect, returns_iff] at h
  obtain ⟨_, _, ⟨-, rfl⟩, h⟩ := h
  exact queueParse_imported hstored hvisible h

theorem failedMissingAdapter_imported (h : Op.Returns (failedMissingAdapter scope item capability fresh) s a s') :
    s' = s ∧ a.sourceVersion = none
      ∧ ∀ t u t', Op.Returns (insertPending a) t u t' → Imported scope fresh t a t' := by
  simp only [failedMissingAdapter, expect, returns_iff] at h
  obtain ⟨projectId, _, ⟨hproject, rfl⟩, rfl, rfl⟩ := h
  refine ⟨rfl, rfl, fun t u t' h => ?_⟩
  simp only [insertPending, returns_iff] at h
  obtain ⟨-, _, rfl, rfl⟩ := h
  exact .pending item capability _ _ projectId hproject rfl

theorem failedMissingAdapter_failed
    (h : Op.Fails (failedMissingAdapter scope item capability fresh) s e s') : scope.projectId = none ∧ s' = s := by
  simp only [failedMissingAdapter, expect, fails_iff, returns_iff, and_false, exists_false, or_false] at h
  exact ⟨h.1, h.2.2.symm⟩

/-- The records of an import are stored once: storing them again changes nothing. -/
theorem insertPending_again {s₁ s₂ : MemoryState} {u : Unit} (himported : Imported scope fresh s a s₁)
    (hversion : a.sourceVersion = none) (h : Op.Returns (insertPending a) s₁ u s₂) : s₂ = s₁ := by
  cases himported with
  | refused clientItemId error =>
    simp only [insertPending, ImportAcceptance.refused, returns_pure] at h
    obtain ⟨-, _, ⟨-, rfl⟩, -, rfl⟩ := h
    rfl
  | text r => simp [TextImport.acceptance] at hversion
  | queued =>
    simp only [insertPending, queuedAcceptance, returns_iff] at h
    obtain ⟨-, _, rfl, rfl⟩ := h
    simp [insertJob, setJob, insertSource, AList.insert_insert]
  | pending =>
    simp only [insertPending, returns_iff] at h
    obtain ⟨-, _, rfl, rfl⟩ := h
    simp [insertJob, setJob, insertSource, AList.insert_insert]

/-- What accepting an item does: an import, or the records of an import without an adapter, which are
stored afterwards. -/
def Accepted (scope : TenantScope) (objectId : Uuid) (fresh : ImportInputs) (s : MemoryState)
    (a : ImportAcceptance) (s' : MemoryState) : Prop :=
  (∃ s₀, Brought scope objectId s s₀ ∧ Imported scope fresh s₀ a s')
    ∨ (s' = s ∧ a.sourceVersion = none
      ∧ ∀ t u t', Op.Returns (insertPending a) t u t' → Imported scope fresh t a t')

theorem storedItem_readOnly : (storedItem scope item).ReadOnly := by
  unfold storedItem
  refine .bind .read fun found => ?_
  cases found with
  | none => exact .pure
  | some stored =>
    obtain ⟨_, _⟩ := stored
    dsimp only
    split <;> exact .pure

theorem storedItem_returns {acceptance : ImportAcceptance}
    (h : Op.Returns (storedItem scope item) s (some acceptance) s') :
    (∃ error, acceptance = .refused item.clientItemId error)
      ∨ ∃ hash, s.importItems.lookup (scope.storageKey, trim item.clientItemId) = some (hash, acceptance) := by
  simp only [storedItem, returns_iff] at h
  obtain ⟨found, _, ⟨hfound, rfl⟩, h⟩ := h
  cases found with
  | none => simp at h
  | some stored =>
    obtain ⟨hash, _⟩ := stored
    dsimp only at h
    split at h
    · obtain ⟨hprior, -⟩ := returns_pure.mp h
      exact .inr ⟨hash, by rw [hfound, some.inj hprior]⟩
    · obtain ⟨hprior, -⟩ := returns_pure.mp h
      exact .inl ⟨_, (some.inj hprior).symm⟩

/-- The content is what the session announced. -/
def ContentMatches (session : UploadSession) (content : List UInt8) : Prop :=
  content.length = session.expectedSize ∧ sha256Hex content = session.expectedSha256

@[simp]
theorem checkContent_returns {u : Unit} :
    Op.Returns (checkContent id session content) s u s' ↔ ContentMatches session content ∧ s = s' := by
  unfold checkContent ContentMatches
  split
  · rename_i h
    simp only [returns_iff, and_false, exists_false, false_iff, not_and]
    intro hmatches
    rcases h with h | h
    · exact absurd hmatches.1 h
    · exact absurd hmatches.2 h
  · rename_i h
    simp only [not_or, not_not] at h
    simp [h]

@[simp]
theorem checkContent_fails :
    Op.Fails (checkContent id session content) s e s'
      ↔ ¬ ContentMatches session content ∧ e = .invalidRequest
        "uploaded content size or sha256 does not match upload session" ∧ s' = s.setSession id session.fail := by
  by_cases h : ContentMatches session content
  · have hno : ¬ (content.length ≠ session.expectedSize ∨ sha256Hex content ≠ session.expectedSha256) := by
      rintro (hsize | hhash)
      · exact hsize h.1
      · exact hhash h.2
    simp [checkContent, hno, h]
  · have hyes : content.length ≠ session.expectedSize ∨ sha256Hex content ≠ session.expectedSha256 := by
      by_contra hnot
      simp only [not_or, not_not] at hnot
      exact h hnot
    have hflip : (s.setSession id session.fail = s') ↔ (s' = s.setSession id session.fail) := eq_comm
    simp only [checkContent, if_pos hyes, fails_iff, returns_iff, false_or, exists_eq_left', exists_const, h, not_false_eq_true,
      true_and, hflip]
    rw [eq_comm]

variable [CsvChunks]

theorem prepareText_ok {object : Option StoredObject} {r : TextImport}
    (h : prepareText scope item text object page fresh = .ok r) : r.Fits scope fresh := by
  simp only [prepareText, eq_ok_iff] at h
  obtain ⟨_, -, _, -, _, hproject, _, -, _, -, rfl⟩ := h
  have hscope := scope_eq hproject
  constructor <;> first | exact hscope | rfl

theorem importTextLocked_imported {object : Option StoredObject}
    (h : Op.Returns (importTextLocked scope item text object page fresh) s a s') :
    Imported scope fresh (storeObject object (page.map FetchedUrlPage.rawBytes) s) a s' := by
  simp only [importTextLocked, returns_iff] at h
  obtain ⟨r, _, ⟨hr, rfl⟩, -, _, rfl, -, _, rfl, release, _, hrelease, -, _, rfl, rfl, rfl⟩ := h
  have hfits := prepareText_ok hr
  obtain ⟨projectId, hproject⟩ := inScope_project (inScope_iff.mpr hfits.sourceScope)
  obtain ⟨hbuilt, rfl⟩ := makeReleaseLocked_returns hproject hrelease
  rw [storeObject_storeText] at hbuilt ⊢
  rw [hfits.operationId]
  exact .text r hfits _ projectId hproject release hbuilt

theorem importTextLocked_failed {object : Option StoredObject}
    (h : Op.Fails (importTextLocked scope item text object page fresh) s e s') : s' = s := by
  simp only [importTextLocked, fails_iff, returns_iff, false_or, or_false, and_false, exists_false] at h
  rcases h with ⟨-, rfl⟩ | ⟨r, _, ⟨hr, rfl⟩, -, _, rfl, -, _, rfl, h⟩
  · rfl
  · -- the records were made for a project, so the release has one too
    have hvisible := inScope_iff.mpr (prepareText_ok hr).sourceScope
    obtain ⟨_, hproject⟩ := inScope_project hvisible
    exact absurd h (makeReleaseLocked_fails hproject)

theorem importTextItem_cases (h : Op.Returns (importTextItem scope item fresh) s a s') :
    Imported scope fresh s a s' := by
  simp only [importTextItem, returns_iff] at h
  obtain ⟨_, _, ⟨-, rfl⟩, h⟩ := h
  exact importTextLocked_imported h

theorem importTextItem_failed (h : Op.Fails (importTextItem scope item fresh) s e s') : s' = s := by
  simp only [importTextItem, fails_iff, returns_iff] at h
  rcases h with ⟨-, -, rfl⟩ | ⟨text, _, ⟨-, rfl⟩, h⟩
  · rfl
  · exact importTextLocked_failed h

theorem importUrlItem_accepted (h : Op.Returns (importUrlItem scope item fetched objectId fresh) s a s') :
    Accepted scope objectId fresh s a s' := by
  simp only [importUrlItem, returns_iff] at h
  obtain ⟨page, _, ⟨-, rfl⟩, h⟩ := h
  cases page with
  | none => exact .inr (failedMissingAdapter_imported h)
  | some page =>
    simp only [requireProject, returns_iff] at h
    obtain ⟨-, _, ⟨-, rfl⟩, _, _, ⟨hproject, rfl⟩, h⟩ := h
    refine .inl ⟨_, .page _ page.rawBytes ?_ ?_, importTextLocked_imported h⟩
    · rfl
    · exact scope_eq hproject

theorem importUrlItem_failed (h : Op.Fails (importUrlItem scope item fetched objectId fresh) s e s') : s' = s := by
  simp only [importUrlItem, fails_iff, returns_iff] at h
  rcases h with ⟨-, rfl⟩ | ⟨page, _, ⟨-, rfl⟩, h⟩
  · rfl
  · cases page with
    | none => exact (failedMissingAdapter_failed h).2
    | some page =>
      simp only [requireProject, fails_iff, returns_iff] at h
      rcases h with ⟨-, -, rfl⟩ | ⟨-, _, ⟨-, rfl⟩, ⟨-, -, rfl⟩ | ⟨projectId, _, ⟨-, rfl⟩, h⟩⟩
      · rfl
      · rfl
      · exact importTextLocked_failed h

theorem importObjectItem_accepted (hkeyed : ∀ id object, s.storedObjects.lookup id = some object → object.objectId = id)
    (h : Op.Returns (importObjectItem profiles scope item fresh) s a s') : Accepted scope objectId fresh s a s' := by
  simp only [importObjectItem, returns_iff] at h
  obtain ⟨id, _, ⟨-, rfl⟩, _, _, ⟨rfl, rfl⟩, object, _, ⟨hobject, rfl⟩, _, _, ⟨rfl, rfl⟩, session,
    _, ⟨-, rfl⟩, -, _, ⟨-, rfl⟩, _, _, ⟨rfl, rfl⟩, bytes, _, ⟨-, rfl⟩, -, _, ⟨-, rfl⟩, h⟩ := h
  obtain ⟨hstored, -, hvisible⟩ := committedObjectIn_some hobject
  have hid := hkeyed id object hstored
  subst hid
  split at h
  · exact .inl ⟨_, .nothing, queuePdfLocked_imported hstored hvisible h⟩
  · split at h
    · exact .inl ⟨_, .nothing, queueOfficeLocked_imported hstored hvisible h⟩
    · simp only [returns_iff] at h
      obtain ⟨-, _, ⟨-, rfl⟩, _, _, ⟨-, rfl⟩, h⟩ := h
      exact .inl ⟨_, .stored object hstored hvisible, importTextLocked_imported h⟩

theorem importObjectItem_failed (h : Op.Fails (importObjectItem profiles scope item fresh) s e s') : s' = s := by
  simp only [importObjectItem, fails_iff, returns_iff, false_or] at h
  rcases h with ⟨-, -, rfl⟩ | ⟨id, _, ⟨-, rfl⟩, _, _, ⟨rfl, rfl⟩, ⟨-, -, rfl⟩ | ⟨object, _,
    ⟨hobject, rfl⟩, _, _, ⟨rfl, rfl⟩, ⟨-, -, rfl⟩ | ⟨session, _, ⟨-, rfl⟩, ⟨-, -, rfl⟩ | ⟨-, _, ⟨-, rfl⟩,
    _, _, ⟨rfl, rfl⟩, ⟨-, -, rfl⟩ | ⟨bytes, _, ⟨-, rfl⟩, ⟨-, -, rfl⟩ | ⟨-, _, ⟨-, rfl⟩, h⟩⟩⟩⟩⟩⟩
  all_goals try rfl
  obtain ⟨-, -, hvisible⟩ := committedObjectIn_some hobject
  split at h
  · rename_i hpdf
    exact absurd h (queuePdfLocked_returns hpdf.2 hvisible)
  · split at h
    · rename_i hformat
      exact absurd h (queueOfficeLocked_returns hformat hvisible)
    · simp only [fails_iff, returns_iff] at h
      rcases h with ⟨-, -, rfl⟩ | ⟨-, _, ⟨-, rfl⟩, ⟨-, rfl⟩ | ⟨text, _, ⟨-, rfl⟩, h⟩⟩
      · rfl
      · rfl
      · exact importTextLocked_failed h

theorem acceptItem_accepted (hkeyed : ∀ id object, s.storedObjects.lookup id = some object → object.objectId = id)
    (h : Op.Returns (acceptItem profiles scope item fetched objectId fresh) s a s') :
    Accepted scope objectId fresh s a s' := by
  have hrefused (e : AppError) : Accepted scope objectId fresh s (.refused item.clientItemId e) s :=
    .inl ⟨s, .nothing, .refused _ _⟩
  unfold acceptItem at h
  split at h
  · rcases returns_recover.mp h with hret | ⟨e, hfail, rfl⟩
    · exact .inl ⟨s, .nothing, importTextItem_cases hret⟩
    · rw [importTextItem_failed hfail]
      exact hrefused e
  · rcases returns_recover.mp h with hret | ⟨e, hfail, rfl⟩
    · exact importUrlItem_accepted hret
    · rw [importUrlItem_failed hfail]
      exact hrefused e
  · rcases returns_recover.mp h with hret | ⟨e, hfail, rfl⟩
    · exact importObjectItem_accepted hkeyed hret
    · rw [importObjectItem_failed hfail]
      exact hrefused e
  all_goals
    obtain ⟨rfl, rfl⟩ := returns_pure.mp h
    exact hrefused _

theorem acceptItem_returns : ¬ Op.Fails (acceptItem profiles scope item fetched objectId fresh) s e s' := by
  unfold acceptItem
  split <;> simp

theorem importItem_effect (hkeyed : ∀ id object, s.storedObjects.lookup id = some object → object.objectId = id)
    (h : Op.Returns (importItem profiles scope item fetched objectId fresh) s a s') :
    (s' = s ∧ ((∃ error, a = .refused item.clientItemId error)
      ∨ ∃ hash, s.importItems.lookup (scope.storageKey, trim item.clientItemId)
        = some (hash, a))) ∨ ∃ s₀ s₁, Brought scope objectId s s₀ ∧ Imported scope fresh s₀ a s₁
      ∧ s' = s₁.insertImportItem (scope.storageKey, trim item.clientItemId) (importItemHash item) a
      ∧ s.importItems.lookup (scope.storageKey, trim item.clientItemId) = none := by
  simp only [importItem, requireProject, returns_iff] at h
  obtain ⟨_, _, ⟨-, rfl⟩, stored, t, hstored, h⟩ := h
  have ht : t = s := storedItem_readOnly.returns hstored
  subst ht
  cases stored with
  | some acceptance =>
    obtain ⟨rfl, rfl⟩ := returns_pure.mp h
    exact .inl ⟨rfl, storedItem_returns hstored⟩
  | none =>
    have hnew : t.importItems.lookup (scope.storageKey, trim item.clientItemId) = none := by
      simp only [storedItem, returns_iff] at hstored
      obtain ⟨_, _, ⟨rfl, rfl⟩, hstored⟩ := hstored
      cases hfound : t.importItems.lookup (scope.storageKey, trim item.clientItemId) with
      | none => rfl
      | some found =>
        rw [hfound] at hstored
        obtain ⟨_, _⟩ := found
        dsimp only at hstored
        split at hstored <;> simp at hstored
    simp only [returns_iff] at h
    obtain ⟨a', s₁, haccepted, _, s₂, hpending, -, _, rfl, rfl, rfl⟩ := h
    refine .inr ?_
    unfold insertUnversioned at hpending
    rcases acceptItem_accepted hkeyed haccepted with
      ⟨s₀, hbrought, himported⟩ | ⟨rfl, hversion, hstore⟩
    · refine ⟨s₀, s₁, hbrought, himported, ?_, hnew⟩
      cases hversion : a'.sourceVersion with
      | none =>
        rw [hversion] at hpending
        rw [insertPending_again himported hversion hpending]
      | some version =>
        rw [hversion] at hpending
        obtain ⟨-, rfl⟩ := returns_pure.mp hpending
        rfl
    · rw [hversion] at hpending
      exact ⟨_, s₂, .nothing, hstore _ _ _ hpending, rfl, hnew⟩

theorem importItem_failed (h : Op.Fails (importItem profiles scope item fetched objectId fresh) s e s') : s' = s := by
  simp only [importItem, requireProject, fails_iff, returns_iff] at h
  rcases h with ⟨-, -, rfl⟩ | ⟨projectId, _, ⟨-, rfl⟩, h⟩
  · rfl
  rcases h with h | ⟨stored, _, hstored, h⟩
  · exact storedItem_readOnly.atomic.failed _ _ _ h
  · cases stored with
    | some acceptance => simp at h
    | none =>
      have hstore (a : ImportAcceptance) (t t' : MemoryState) (e : AppError) :
          ¬ Op.Fails (insertUnversioned a) t e t' := by
        unfold insertUnversioned
        split
        · simp
        · exact insertPending_returns
      simp [acceptItem_returns, hstore] at h

theorem importUpload_imported (hvisible : inScope scope object = true)
    (h : Op.Returns (importUpload profiles scope session item object content fresh) s a s') :
    Imported scope fresh (s.insertObject object) a s' := by
  have hstored : (s.insertObject object).storedObjects.lookup object.objectId = some object := by simp [insertObject]
  unfold importUpload at h
  split at h
  · simp only [returns_iff] at h
    obtain ⟨_, _, ⟨-, rfl⟩, h⟩ := h
    exact importTextLocked_imported h
  · split at h
    · simp only [returns_iff] at h
      obtain ⟨-, _, rfl, h⟩ := h
      exact queuePdfLocked_imported hstored hvisible h
    · split at h
      · simp only [returns_iff] at h
        obtain ⟨-, _, rfl, h⟩ := h
        exact queueOfficeLocked_imported hstored hvisible h
      · simp only [returns_iff] at h
        obtain ⟨a, _, hmissing, _, _, hpending, _, _, rfl, rfl, rfl⟩ := h
        obtain ⟨rfl, -, _⟩ := failedMissingAdapter_imported hmissing
        -- the object is stored after the records, in a map of its own
        simp only [failedMissingAdapter, expect, returns_iff] at hmissing
        obtain ⟨projectId, _, ⟨hproject, rfl⟩, rfl, -⟩ := hmissing
        simp only [insertPending, returns_iff] at hpending
        obtain ⟨-, _, rfl, rfl⟩ := hpending
        exact .pending item "document_parser" _ _ projectId hproject rfl

theorem importUpload_sourced (h : Op.Returns (importUpload profiles scope session item object content fresh) s a s') :
    a.source.isSome := by
  unfold importUpload at h
  split at h
  · simp only [importTextLocked, returns_iff] at h
    obtain ⟨_, _, -, _, _, -, -, _, -, -, _, -, _, _, -, -, _, -, rfl, -⟩ := h
    rfl
  · split at h
    · simp only [queuePdfLocked, queueParse, returns_iff] at h
      obtain ⟨-, _, -, _, _, -, _, _, -, -, _, -, -, _, -, -, _, -, -, _, -, rfl, -⟩ := h
      rfl
    · split at h
      · simp only [queueOfficeLocked, queueParse, returns_iff] at h
        obtain ⟨-, _, -, _, _, -, _, _, -, -, _, -, -, _, -, -, _, -, -, _, -, rfl, -⟩ := h
        rfl
      · simp only [failedMissingAdapter, returns_iff] at h
        obtain ⟨_, _, ⟨_, _, -, rfl, -⟩, -, _, -, -, _, -, rfl, -⟩ := h
        rfl

theorem importUpload_failed (hvisible : inScope scope object = true)
    (h : Op.Fails (importUpload profiles scope session item object content fresh) s e s') : s' = s := by
  unfold importUpload at h
  split at h
  · simp only [fails_iff, returns_iff] at h
    rcases h with ⟨-, rfl⟩ | ⟨text, _, ⟨-, rfl⟩, h⟩
    · rfl
    · exact importTextLocked_failed h
  · split at h
    · rename_i hpdf
      simp [queuePdfLocked_returns hpdf.2 hvisible] at h
    · split at h
      · rename_i hformat
        simp [queueOfficeLocked_returns hformat hvisible] at h
      · simp only [fails_iff, returns_iff, insertPending_returns, and_false, exists_false, or_false] at h
        exact (failedMissingAdapter_failed h).2

end

end MemoryKnowledgeRepository

end GeoMaster
