import GeoMaster.Proofs.KnowledgeShape

/-!
# The owners of knowledge

A call writes records of its own project only. Records that name one another, and the receipts that are
handed out again, stay within a project, which is what the reads and the replays rely on.
-/

namespace GeoMaster

open Option AList

/-- Every record of an acceptance belongs to a project. -/
structure ImportAcceptance.InScope (scope : TenantScope) (a : ImportAcceptance) : Prop where
  source : ∀ x, a.source = some x → ScopedKnowledge.scope x = scope
  sourceVersion : ∀ x, a.sourceVersion = some x → ScopedKnowledge.scope x = scope
  importJob : ∀ x, a.importJob = some x → ScopedKnowledge.scope x = scope
  release : ∀ x, a.release = some x → ScopedKnowledge.scope x = scope

/-- Every record of a receipt belongs to a project. -/
structure SourceTextRevisionReceipt.InScope (scope : TenantScope) (receipt : SourceTextRevisionReceipt) : Prop where
  source : ScopedKnowledge.scope receipt.source = scope
  sourceVersion : ScopedKnowledge.scope receipt.sourceVersion = scope
  knowledgeRelease : ScopedKnowledge.scope receipt.knowledgeRelease = scope

namespace MemoryKnowledgeRepository

/-- Records of one project were written and no others. -/
structure WritesFor (scope : TenantScope) (s s' : MemoryState) : Prop where
  sessions : AssocMap.ChangedFor ScopedKnowledge.scope scope s.uploadSessions s'.uploadSessions
  objects : AssocMap.ChangedFor ScopedKnowledge.scope scope s.storedObjects s'.storedObjects
  sources : AssocMap.ChangedFor ScopedKnowledge.scope scope s.sources s'.sources
  versions : AssocMap.ChangedFor ScopedKnowledge.scope scope s.versions s'.versions
  jobs : AssocMap.ChangedFor ScopedKnowledge.scope scope s.jobs s'.jobs
  releases : AssocMap.ChangedFor ScopedKnowledge.scope scope s.releases s'.releases
  manifests : AssocMap.ChangedFor ScopedKnowledge.scope scope s.documentManifests s'.documentManifests
  operations : AssocMap.ChangedFor Operation.scope scope s.operations s'.operations

theorem WritesFor.refl (scope : TenantScope) (s : MemoryState) : WritesFor scope s s :=
  ⟨.refl _, .refl _, .refl _, .refl _, .refl _, .refl _, .refl _, .refl _⟩

variable {s : MemoryState} {scope : TenantScope}

variable {s' : MemoryState} {objectId : Uuid}

theorem WritesFor.trans {s'' : MemoryState} (h : WritesFor scope s s') (h' : WritesFor scope s' s'') :
    WritesFor scope s s'' where
  sessions := h.sessions.trans h'.sessions
  objects := h.objects.trans h'.objects
  sources := h.sources.trans h'.sources
  versions := h.versions.trans h'.versions
  jobs := h.jobs.trans h'.jobs
  releases := h.releases.trans h'.releases
  manifests := h.manifests.trans h'.manifests
  operations := h.operations.trans h'.operations

section Insert

variable {α : Type} [ScopedKnowledge α] {scope : TenantScope} {m : AssocMap Uuid α} {id : Uuid} {item item' : α}

theorem changed_new (hnew : m.lookup id = none) (hitem : ScopedKnowledge.scope item = scope) :
    AssocMap.ChangedFor ScopedKnowledge.scope scope m (m.insert id item) := by
  refine AssocMap.ChangedFor.insert (.refl m) hitem fun old hold => ?_
  rw [hnew] at hold
  simp at hold

/-- A record the caller may see is written again, in its project. -/
theorem changed_visible (hfound : m.lookup id = some item) (hvisible : inScope scope item = true)
    (hitem : ScopedKnowledge.scope item' = ScopedKnowledge.scope item) :
    AssocMap.ChangedFor ScopedKnowledge.scope scope m (m.insert id item') := by
  have hscope := inScope_iff.mp hvisible
  refine AssocMap.ChangedFor.insert (.refl m) (by rw [hitem, hscope]) fun old hold => ?_
  rw [hfound] at hold
  exact some.inj hold ▸ hscope

variable {operation : Operation}

theorem operation_new (hnew : s.operations.lookup id = none) (hscope : operation.scope = scope) :
    AssocMap.ChangedFor Operation.scope scope s.operations (s.operations.insert id operation) := by
  refine AssocMap.ChangedFor.insert (.refl _) hscope fun old hold => ?_
  rw [hnew] at hold
  simp at hold

theorem operation_again {operation' : Operation} (hfound : s.operations.lookup id = some operation)
    (hscope : operation.scope = scope) (hsame : operation'.scope = operation.scope) : AssocMap.ChangedFor
    Operation.scope scope s.operations (s.operations.insert id operation') := by
  refine AssocMap.ChangedFor.insert (.refl _) (hsame.trans hscope) fun old hold => ?_
  rw [hfound] at hold
  exact some.inj hold ▸ hscope

end Insert

section Primitives

variable {scope : TenantScope} {s s₁ : MemoryState} {id : Uuid}

theorem WritesFor.setJob {job : ImportJob} (h : WritesFor scope s s₁)
    (hjobs : AssocMap.ChangedFor ScopedKnowledge.scope scope s₁.jobs (s₁.jobs.insert id job)) :
    WritesFor scope s (s₁.setJob id job) :=
  { h with jobs := h.jobs.trans hjobs }

theorem WritesFor.insertRelease {release : KnowledgeRelease} (h : WritesFor scope s s₁) (key : String)
    (hreleases : AssocMap.ChangedFor ScopedKnowledge.scope scope s₁.releases
      (s₁.releases.insert release.knowledgeReleaseId release)) :
    WritesFor scope s (s₁.insertRelease key release) :=
  { h with releases := h.releases.trans hreleases }

variable {operation : Operation}

theorem WritesFor.setOperation (h : WritesFor scope s s₁)
    (hoperations : AssocMap.ChangedFor Operation.scope scope s₁.operations
      (s₁.operations.insert id operation)) : WritesFor scope s (s₁.setOperation id operation) :=
  { h with operations := h.operations.trans hoperations }

theorem WritesFor.setParse (h : WritesFor scope s s₁) {p : Parser} (parse : ParseState p) :
    WritesFor scope s (s₁.setParse p id parse) :=
  { h with }

theorem WritesFor.ended {p : Parser} {operationId : Uuid} {parse : ParseState p} {operation' : Operation}
    {a : ImportAcceptance} (h : WritesFor scope s s₁) (hfound : s₁.operations.lookup operationId = some operation)
    (hscope : operation.scope = scope) (hsame : operation'.scope = operation.scope) :
    WritesFor scope s (storeEnded p id operationId parse operation' a s₁) :=
  (h.setOperation (operation_again hfound hscope hsame)).setParse _

end Primitives

theorem Brought.writes (h : Brought scope objectId s s')
    (hnew : s.storedObjects.lookup objectId = none) : WritesFor scope s s' := by
  cases h with
  | nothing => exact .refl _ _
  | page _ _ id objectScope => exact { WritesFor.refl scope s with objects := changed_new (id ▸ hnew) objectScope }
  | stored _ found visible => exact { WritesFor.refl scope s with objects := changed_visible found visible rfl }

/-! ### References -/

/-- Records refer to records of their own project, and so do the receipts. -/
structure Isolated (s : MemoryState) : Prop where
  sessionObjects : AssocMap.Refers ScopedKnowledge.scope ScopedKnowledge.scope
    UploadSession.committedObjectId s.uploadSessions s.storedObjects
  versionSources : AssocMap.Refers ScopedKnowledge.scope ScopedKnowledge.scope
    (fun version : SourceVersion => some version.sourceId) s.versions s.sources
  jobSources : AssocMap.Refers ScopedKnowledge.scope ScopedKnowledge.scope
    (fun job : ImportJob => some job.sourceId) s.jobs s.sources
  jobPriors : AssocMap.Refers ScopedKnowledge.scope ScopedKnowledge.scope ImportJob.resumedFrom s.jobs s.jobs
  manifestReleases : AssocMap.Refers ScopedKnowledge.scope ScopedKnowledge.scope
    (fun manifest : DocumentManifest => some manifest.knowledgeReleaseId) s.documentManifests s.releases
  uploadReceipts : ∀ id hash a, s.uploadCompletions.lookup (id, hash) = some a →
    ∃ session, s.uploadSessions.lookup id = some session ∧ a.InScope (ScopedKnowledge.scope session) ∧ a.source.isSome
  importReceipts : ∀ key item hash a, s.importItems.lookup (key, item) = some (hash, a) →
    ∃ scope : TenantScope, scope.projectId.isSome ∧ scope.storageKey = key ∧ a.InScope scope
  revisionReceipts : ∀ key id keyHash hash receipt, s.revisionReceipts.lookup (key, id, keyHash) = some
    (hash, receipt) → ∃ scope : TenantScope, scope.projectId.isSome ∧ scope.storageKey = key ∧ receipt.InScope scope

theorem isolated_default : Isolated MemoryState.default where
  sessionObjects := .empty
  versionSources := .empty
  jobSources := .empty
  jobPriors := .empty
  manifestReleases := .empty
  uploadReceipts id hash a h := by simp [MemoryState.default] at h
  importReceipts key item hash a h := by simp [MemoryState.default] at h
  revisionReceipts key id keyHash hash receipt h := by simp [MemoryState.default] at h

namespace Isolated

variable {s : MemoryState} {scope : TenantScope}

variable {id : Uuid}

/-- A session is written that names no object, or an object of its project. -/
theorem setSession (h : Isolated s) (session : UploadSession)
    (hchanged : AssocMap.ChangedFor ScopedKnowledge.scope scope s.uploadSessions (s.uploadSessions.insert id session))
    (hobject : ∀ objectId, session.committedObjectId = some objectId →
      ∃ object, s.storedObjects.lookup objectId = some object
        ∧ ScopedKnowledge.scope object = ScopedKnowledge.scope session) : Isolated (s.setSession id session) where
  sessionObjects := h.sessionObjects.insert hobject
  versionSources := h.versionSources
  jobSources := h.jobSources
  jobPriors := h.jobPriors
  manifestReleases := h.manifestReleases
  uploadReceipts id hash a ha := by
    obtain ⟨_, hsession, hin, hsourced⟩ := h.uploadReceipts id hash a ha
    obtain ⟨session'', hsession', hscope⟩ := hchanged.stays hsession
    exact ⟨session'', hsession', hscope ▸ hin, hsourced⟩
  importReceipts := h.importReceipts
  revisionReceipts := h.revisionReceipts

theorem insertObject {object : StoredObject} (h : Isolated s)
    (hchanged : AssocMap.ChangedFor ScopedKnowledge.scope scope s.storedObjects
      (s.storedObjects.insert object.objectId object)) : Isolated (s.insertObject object) :=
  { h with sessionObjects := h.sessionObjects.target hchanged }

theorem setSource (h : Isolated s) (source : Source)
    (hchanged : AssocMap.ChangedFor ScopedKnowledge.scope scope s.sources (s.sources.insert id source)) :
    Isolated { s with sources := s.sources.insert id source } :=
  { h with
    versionSources := h.versionSources.target hchanged
    jobSources := h.jobSources.target hchanged }

variable {source : Source} {release : KnowledgeRelease} {a : ImportAcceptance} {hash : String}

theorem insertVersion (h : Isolated s) (version : SourceVersion)
    (hsource : s.sources.lookup version.sourceId = some source)
    (hscope : ScopedKnowledge.scope source = ScopedKnowledge.scope version) : Isolated (s.insertVersion version) := by
  refine { h with versionSources := h.versionSources.insert ?_ }
  rintro _ ⟨⟩
  exact ⟨source, hsource, hscope⟩

theorem setJob (h : Isolated s) (job : ImportJob)
    (hchanged : AssocMap.ChangedFor ScopedKnowledge.scope scope s.jobs (s.jobs.insert id job))
    (hsource : s.sources.lookup job.sourceId = some source)
    (hscope : ScopedKnowledge.scope source = ScopedKnowledge.scope job)
    (hprior : ∀ j, job.resumedFrom = some j → ∃ prior, s.jobs.lookup j = some prior
      ∧ ScopedKnowledge.scope prior = ScopedKnowledge.scope job) : Isolated (s.setJob id job) := by
  refine { h with
    jobSources := h.jobSources.insert ?_
    jobPriors := (h.jobPriors.target hchanged).insert ?_ }
  · rintro _ ⟨⟩
    exact ⟨source, hsource, hscope⟩
  · intro j hj
    obtain ⟨_, hprior, howner⟩ := hprior j hj
    obtain ⟨prior', hprior', howner'⟩ := hchanged.stays hprior
    exact ⟨prior', hprior', howner'.trans howner⟩

theorem updateJob {old : ImportJob} (h : Isolated s) (job : ImportJob) (hold : s.jobs.lookup id = some old)
    (hvisible : inScope scope old = true) (hscope : ScopedKnowledge.scope job = ScopedKnowledge.scope old)
    (hsource : job.sourceId = old.sourceId) (hresumed : job.resumedFrom = old.resumedFrom) :
    Isolated (s.setJob id job) := by
  obtain ⟨_, hstored, howner⟩ := h.jobSources id old old.sourceId hold rfl
  refine h.setJob job (changed_visible hold hvisible hscope) ?_ (howner.trans hscope.symm) ?_
  · rw [hsource]
    exact hstored
  · intro j hj
    rw [hscope]
    exact h.jobPriors id old j hold (by rw [← hresumed, hj])

theorem insertRelease (h : Isolated s) (scopeKey : String)
    (hchanged : AssocMap.ChangedFor ScopedKnowledge.scope scope s.releases
      (s.releases.insert release.knowledgeReleaseId release)) :
    Isolated (s.insertRelease scopeKey release) :=
  { h with manifestReleases := h.manifestReleases.target hchanged }

theorem insertManifest {manifest : DocumentManifest} (h : Isolated s)
    (hrelease : s.releases.lookup manifest.knowledgeReleaseId = some release)
    (hscope : ScopedKnowledge.scope release = ScopedKnowledge.scope manifest) :
    Isolated (s.insertManifest manifest) := by
  refine { h with manifestReleases := h.manifestReleases.insert ?_ }
  rintro _ ⟨⟩
  exact ⟨release, hrelease, hscope⟩

theorem setParse (h : Isolated s) (p : Parser) (id : Uuid) (parse : ParseState p) : Isolated (s.setParse p id parse) :=
  { h with }

theorem setOperation (h : Isolated s) (id : Uuid) (operation : Operation) : Isolated (s.setOperation id operation) :=
  { h with }

theorem insertUploadCompletion {session : UploadSession} (h : Isolated s)
    (hfound : s.uploadSessions.lookup id = some session) (hin : a.InScope (ScopedKnowledge.scope session))
    (hsourced : a.source.isSome) : Isolated (s.insertUploadCompletion (id, hash) a) := by
  refine { h with uploadReceipts := ?_ }
  intro id' hash' a' ha'
  by_cases hkey : (id', hash') = (id, hash)
  · obtain ⟨rfl, rfl⟩ := Prod.mk.inj hkey
    have hreceipt := (AList.lookup_insert _).symm.trans ha'
    obtain rfl := some.inj hreceipt
    exact ⟨session, hfound, hin, hsourced⟩
  · exact h.uploadReceipts id' hash' a' ((lookup_insert_ne hkey).symm.trans ha')

theorem insertImportItem {item : String} (h : Isolated s) (hproject : scope.projectId.isSome) (hin : a.InScope scope) :
    Isolated (s.insertImportItem (scope.storageKey, item) hash a) := by
  refine { h with importReceipts := ?_ }
  intro key item' hash' a' ha'
  by_cases hkey : (key, item') = (scope.storageKey, item)
  · obtain ⟨rfl, rfl⟩ := Prod.mk.inj hkey
    have hitem := (AList.lookup_insert _).symm.trans ha'
    obtain ⟨-, rfl⟩ := Prod.mk.inj (some.inj hitem)
    exact ⟨scope, hproject, rfl, hin⟩
  · exact h.importReceipts key item' hash' a' ((lookup_insert_ne hkey).symm.trans ha')

theorem insertRevisionReceipt {keyHash : String} {receipt : SourceTextRevisionReceipt} (h : Isolated s)
    (hproject : scope.projectId.isSome) (hin : receipt.InScope scope) :
    Isolated (s.insertRevisionReceipt (scope.storageKey, id, keyHash) hash receipt) := by
  refine { h with revisionReceipts := ?_ }
  intro key id' keyHash' hash' receipt' hreceipt'
  by_cases hkey : (key, id', keyHash') = (scope.storageKey, id, keyHash)
  · rw [hkey] at hreceipt'
    have hreceipt := (AList.lookup_insert _).symm.trans hreceipt'
    obtain ⟨-, rfl⟩ := Prod.mk.inj (some.inj hreceipt)
    obtain ⟨rfl, -⟩ := Prod.mk.inj hkey
    exact ⟨scope, hproject, rfl, hin⟩
  · exact h.revisionReceipts key id' keyHash' hash' receipt' ((lookup_insert_ne hkey).symm.trans hreceipt')

end Isolated

theorem committed_object {object : StoredObject} {id : Uuid} (h : s.storedObjects.lookup object.objectId = some object)
    (hscope : ScopedKnowledge.scope object = scope) (hid : some object.objectId = some id) :
    ∃ stored, s.storedObjects.lookup id = some stored ∧ ScopedKnowledge.scope stored = scope := by
  obtain rfl := some.inj hid
  exact ⟨object, h, hscope⟩

theorem Brought.isolated (h : Brought scope objectId s s') (hs : Isolated s)
    (hnew : s.storedObjects.lookup objectId = none) : Isolated s' := by
  cases h with
  | nothing => exact hs
  | page _ _ id objectScope =>
    have hstored := hs.insertObject (changed_new (id ▸ hnew) objectScope)
    exact { hstored with }
  | stored _ found visible => exact hs.insertObject (changed_visible found visible rfl)

theorem ChecksContent.visible {id : Uuid} {session : UploadSession} {call : KnowledgeCall}
    (h : ChecksContent id session call) : inScope call.scope session = true := by
  cases h with
  | complete _ _ _ _ visible => exact visible
  | attachment _ _ _ visible => exact visible

section

variable [Sha256]

variable {a : ImportAcceptance} {fresh : ImportInputs} {s s' : MemoryState} {scope : TenantScope}

variable {call : KnowledgeCall} {now : DateTime} {r : Except AppError KnowledgeReply}

theorem ChecksExpiry.visible {id : Uuid} {session : UploadSession}
    (h : ChecksExpiry s id session now call) : inScope call.scope session = true := by
  cases h with
  | put _ _ visible => exact visible
  | complete _ _ _ _ visible => exact visible
  | attachment _ _ _ visible => exact visible

theorem nextRelease_scope {projectId : ProjectId} {id : Uuid} (h : scope.projectId = some projectId) :
    ScopedKnowledge.scope (nextRelease scope projectId s id now) = scope :=
  scope_eq h

theorem Imported.writes (h : Imported scope fresh s a s') (hnew : NewImport fresh s) : WritesFor scope s s' := by
  cases h with
  | refused => exact .refl _ _
  | text _ fits _ _ project release built =>
    exact { WritesFor.refl scope s with
      sources := changed_new (fits.sourceId ▸ hnew.source) fits.sourceScope
      versions := changed_new (fits.versionId ▸ hnew.version) fits.versionScope
      jobs := changed_new (fits.jobId ▸ hnew.job) fits.jobScope
      releases := changed_new (built ▸ hnew.release) (built ▸ scope_eq project)
      operations := operation_new hnew.operation fits.operationScope }
  | queued _ _ _ _ _ _ project =>
    exact { WritesFor.refl scope s with
      sources := changed_new hnew.source (scope_eq project)
      jobs := changed_new hnew.job (scope_eq project)
      operations := operation_new hnew.operation rfl }
  | pending _ _ _ _ _ project =>
    exact { WritesFor.refl scope s with
      sources := changed_new hnew.source (scope_eq project)
      jobs := changed_new hnew.job (scope_eq project) }

theorem KnowledgeEffect.writes (h : KnowledgeEffect s call r s') (hs : StoreShape s)
    (hfresh : ∀ id ∈ call.newIds, s.Unused id) : WritesFor call.scope s s' := by
  cases h with
  | same => exact .refl _ _
  | sessionCreated scope _ id _ _ project =>
    exact { WritesFor.refl scope s with
      sessions := changed_new (hfresh id (by simp [KnowledgeCall.newIds])).uploadSessions (scope_eq project) }
  | contentPut scope _ _ _ _ found visible =>
    exact { WritesFor.refl scope s with sessions := changed_visible found visible rfl }
  | sessionExpired _ _ _ _ _ found checks =>
    exact { WritesFor.refl _ s with sessions := changed_visible found checks.visible rfl }
  | contentRejected _ _ _ _ found checks =>
    exact { WritesFor.refl _ s with sessions := changed_visible found checks.visible rfl }
  | uploadCompleted scope id _ completion fresh _ session _ a object s₁ project found visible _ _ _ _ made imported =>
    have hnew : NewImport fresh s := .of_unused hfresh
    have hobject : s.storedObjects.lookup object.objectId = none := made ▸ (unused_first hfresh).storedObjects
    have hfirst : WritesFor scope s (s.insertObject object) :=
      { WritesFor.refl scope s with
        objects := changed_new hobject (made ▸ scope_eq project) }
    have hthen := imported.writes (hnew.insertObject object)
    have hsession : s₁.uploadSessions.lookup id = some session := by
      rw [imported.uploadSessions]
      exact found
    have hlast : WritesFor scope s₁ (s₁.setSession id
        { session.commit object.objectId with operationId := a.operation.map Operation.id }) :=
      { WritesFor.refl scope s₁ with sessions := changed_visible hsession visible rfl }
    exact { (hfirst.trans hthen).trans hlast with }
  | attachmentCompleted scope _ _ completion _ _ _ object project found visible _ _ _ made =>
    have hobject : s.storedObjects.lookup object.objectId = none := made ▸ (unused_first hfresh).storedObjects
    exact { WritesFor.refl scope s with
      sessions := changed_visible found visible rfl
      objects := changed_new hobject (made ▸ scope_eq project) }
  | itemImported _ _ _ objectId fresh _ s₀ _ _ _ brought imported =>
    have hnew : NewImport fresh s₀ := brought.newImport (.of_unused hfresh)
    have hobject := (unused_first hfresh).storedObjects
    exact { (brought.writes hobject).trans (imported.writes hnew) with }
  | revised scope _ _ _ _ fresh _ _ _ _ _ _ project found visible _ _ made stored built =>
    obtain ⟨_, _, rfl⟩ := made
    subst stored
    have hversion := unused_first hfresh
    have hrelease := hfresh fresh.releaseId (by simp [KnowledgeCall.newIds])
    exact { WritesFor.refl scope s with
      sources := changed_visible found visible rfl
      versions := changed_new hversion.versions (scope_eq project)
      releases := changed_new (built ▸ hrelease.releases) (built ▸ scope_eq project) }
  | claimed p scope jobId _ _ _ job parse operation lease found visible _ parseFound _ operationFound =>
    have howner : operation.scope = scope := by
      obtain ⟨_, _, hjob', hoperation', hscope⟩ := hs.parses p jobId parse parseFound
      rw [found] at hjob'
      obtain rfl := some.inj hjob'
      rw [operationFound] at hoperation'
      obtain rfl := some.inj hoperation'
      exact hscope.trans (inScope_iff.mp visible)
    have hparse : WritesFor scope s (s.setParse p jobId (parse.grant lease)) := (WritesFor.refl scope s).setParse _
    have hjob : WritesFor scope s ((s.setParse p jobId (parse.grant lease)).setJob jobId
        (job.run lease.expiresAt)) := hparse.setJob (changed_visible found visible rfl)
    exact hjob.setOperation (operation_again operationFound howner rfl)
  | renewed _ scope _ _ _ _ _ _ _ checked =>
    exact { WritesFor.refl scope s with
      jobs := changed_visible checked.jobFound checked.visible rfl }
  | manifestRecorded => exact { WritesFor.refl _ s with }
  | unitRecorded _ scope _ _ _ _ _ _ checked =>
    exact { WritesFor.refl scope s with
      jobs := changed_visible checked.jobFound checked.visible rfl }
  | finished p scope _ fresh job parse total source _ chunks operation _ release _ _ checked found visible _ made _
      operationFound project stored built =>
    obtain ⟨object, parent, rfl, -⟩ := made
    subst stored
    have hversion := unused_first hfresh
    have hrelease := hfresh fresh.releaseId (by simp [KnowledgeCall.newIds])
    have hjob := checked.jobStored hs
    have hsource : s.sources.lookup source.sourceId = some source := by
      rw [hs.sources _ _ found]
      exact found
    have howner := checked.owner hs operationFound
    have hscope : ScopedKnowledge.scope (parsedVersion p scope source object parse parent fresh) = scope := by
      rw [← inScope_iff.mp visible]
      rfl
    have hnew : s.releases.lookup release.knowledgeReleaseId = none := by
      rw [built]
      exact hrelease.releases
    have hstored : WritesFor scope s (storeParsedJob p job parse total source
        (parsedVersion p scope source object parse parent fresh) chunks s) :=
      { WritesFor.refl scope s with
        sources := changed_visible hsource visible rfl
        versions := changed_new hversion.versions hscope
        jobs := changed_visible hjob checked.visible rfl }
    have hreleased := hstored.insertRelease scope.storageKey (changed_new hnew (built ▸ nextRelease_scope project))
    exact hreleased.ended operationFound howner rfl
  | finishedEmpty p scope _ _ job parse total _ operation _ checked _ visible _ operationFound =>
    have hjob := checked.jobStored hs
    have howner := checked.owner hs operationFound
    have hended : WritesFor scope s (s.insertJob (finishedJob p job parse total none)) :=
      (WritesFor.refl scope s).setJob (changed_visible hjob checked.visible rfl)
    exact hended.ended operationFound howner rfl
  | failed p scope _ code _ _ job parse operation _ checked operationFound =>
    have hjob := checked.jobStored hs
    have howner := checked.owner hs operationFound
    have hended : WritesFor scope s (s.insertJob (failedJob p job parse code)) :=
      (WritesFor.refl scope s).setJob (changed_visible hjob checked.visible rfl)
    exact hended.ended operationFound howner rfl
  | resumed _ scope jobId fresh prior parse _ _ _ visible _ _ _ _ _ _ made =>
    subst made
    have hjob := unused_first hfresh
    have hscope : ScopedKnowledge.scope (resumedJob prior jobId parse.successCount fresh)
        = scope := inScope_iff.mp visible
    have hoperation := hfresh fresh.operationId (by simp [KnowledgeCall.newIds])
    have hqueued : WritesFor scope s (s.setOperation fresh.operationId
        (.queued "knowledge.import" scope fresh.operationId fresh.queuedAt)) :=
      (WritesFor.refl scope s).setOperation (operation_new hoperation.operations rfl)
    exact (hqueued.setParse _).setJob (changed_new hjob.jobs hscope)
  | manifestStored call scope _ _ caller _ _ manifestVisible unstored =>
    have hcaller : call.scope = scope := by rcases caller with ⟨request, documentScope, rfl⟩ | rfl <;> rfl
    rw [hcaller]
    exact { WritesFor.refl scope s with
      manifests := changed_new unstored (inScope_iff.mp manifestVisible) }

theorem Imported.inScope (h : Imported scope fresh s a s') : a.InScope scope := by
  cases h with
  | refused clientItemId error => constructor <;> intro x hx <;> cases hx
  | text _ fits _ _ project release built =>
    constructor
    case source => rintro _ ⟨⟩; exact fits.sourceScope
    case sourceVersion => rintro _ ⟨⟩; exact fits.versionScope
    case importJob => rintro _ ⟨⟩; exact fits.jobScope
    case release => rintro _ ⟨⟩; exact built ▸ scope_eq project
  | queued _ _ _ _ _ _ project =>
    constructor
    case source => rintro _ ⟨⟩; exact scope_eq project
    case importJob => rintro _ ⟨⟩; exact scope_eq project
    all_goals intro x hx; cases hx
  | pending _ _ _ _ _ project =>
    constructor
    case source => rintro _ ⟨⟩; exact scope_eq project
    case importJob => rintro _ ⟨⟩; exact scope_eq project
    all_goals intro x hx; cases hx

theorem Imported.isolated (h : Imported scope fresh s a s') (hs : Isolated s) (hnew : NewImport fresh s) :
    Isolated s' := by
  cases h with
  | refused => exact hs
  | text r fits _ _ project release built =>
    have hsource : (s.insertSource r.source).sources.lookup fresh.sourceId = some r.source := by
      rw [← fits.sourceId]
      exact AList.lookup_insert _
    have hs₁ : Isolated (s.insertSource r.source) :=
      hs.setSource r.source (changed_new (fits.sourceId ▸ hnew.source) fits.sourceScope)
    have hs₂ : Isolated ((s.insertSource r.source).insertVersion r.version) :=
      hs₁.insertVersion r.version (fits.versionSource ▸ hsource) (fits.sourceScope.trans fits.versionScope.symm)
    have hs₃ : Isolated (((s.insertSource r.source).insertVersion r.version).insertChunks
        r.version.sourceVersionId r.chunks) := { hs₂ with }
    have hs₄ : Isolated (storeText r s) := by
      refine hs₃.setJob r.job (changed_new (fits.jobId ▸ hnew.job) fits.jobScope)
        (fits.jobSource ▸ hsource) (fits.sourceScope.trans fits.jobScope.symm) fun j hj => ?_
      rw [fits.jobResumed] at hj
      simp at hj
    have hs₅ : Isolated ((storeText r s).insertRelease scope.storageKey release) :=
      hs₄.insertRelease _ (changed_new (built ▸ hnew.release) (built ▸ nextRelease_scope project))
    exact hs₅.setOperation _ _
  | queued p item object profile extra projectId project =>
    have hs₁ := (hs.setParse p fresh.jobId (queuedParse object profile extra fresh)).setOperation
      fresh.operationId (.queued "knowledge.import" scope fresh.operationId fresh.queuedAt)
    have hs₂ := hs₁.setSource (queuedSource scope projectId item object fresh)
      (changed_new hnew.source (scope_eq project))
    refine hs₂.setJob (newJob scope projectId object.sha256 fresh)
      (changed_new hnew.job (scope_eq project)) (AList.lookup_insert _) rfl fun j hj => ?_
    simp [newJob] at hj
  | pending item capability _ _ projectId project =>
    have hs₁ := hs.setSource (pendingSource scope projectId item capability fresh)
      (changed_new hnew.source (scope_eq project))
    refine hs₁.setJob (pendingJob scope projectId item capability fresh)
      (changed_new hnew.job (scope_eq project)) (AList.lookup_insert _) rfl fun j hj => ?_
    simp [pendingJob, newJob] at hj

theorem Imported.storedObjects (h : Imported scope fresh s a s') : s'.storedObjects = s.storedObjects := by
  cases h <;> rfl

theorem KnowledgeEffect.isolated (h : KnowledgeEffect s call r s') (hs : Isolated s) (hshape : StoreShape s)
    (hfresh : ∀ id ∈ call.newIds, s.Unused id) : Isolated s' := by
  cases h with
  | same => exact hs
  | sessionCreated _ _ id _ _ project =>
    have hnew := (hfresh id (by simp [KnowledgeCall.newIds])).uploadSessions
    refine hs.setSession _ (changed_new hnew (scope_eq project)) fun objectId hobject => ?_
    simp [newSession] at hobject
  | contentPut _ id _ _ session found visible =>
    have hset : Isolated (s.setSession id session.upload) :=
      hs.setSession _ (changed_visible found visible rfl) (hs.sessionObjects id session · found)
    exact { hset with }
  | sessionExpired _ id session _ _ found checks =>
    exact hs.setSession _ (changed_visible found checks.visible rfl) (hs.sessionObjects id session · found)
  | contentRejected _ id session _ found checks =>
    exact hs.setSession _ (changed_visible found checks.visible rfl) (hs.sessionObjects id session · found)
  | uploadCompleted scope id _ completion fresh _ session content a object s₁ project found visible _ _ _ _ made
      imported sourced =>
    have hnew : NewImport fresh s := .of_unused hfresh
    have hobject : s.storedObjects.lookup object.objectId = none := made ▸ (unused_first hfresh).storedObjects
    have hscope : ScopedKnowledge.scope object = scope := made ▸ scope_eq project
    have hs₁ := imported.isolated (hs.insertObject (changed_new hobject hscope)) (hnew.insertObject object)
    have hsession : s₁.uploadSessions.lookup id = some session := by
      rw [imported.uploadSessions]
      exact found
    have hstored : s₁.storedObjects.lookup object.objectId = some object := by
      rw [imported.storedObjects]
      exact AList.lookup_insert _
    have howner := inScope_iff.mp visible
    have hs₂ : Isolated (s₁.insertObjectBytes object.objectId content) := { hs₁ with }
    have hs₃ := hs₂.setSession { session.commit object.objectId with operationId := a.operation.map Operation.id }
      (changed_visible hsession visible rfl) fun objectId hid => committed_object hstored (hscope.trans howner.symm) hid
    refine hs₃.insertUploadCompletion (AList.lookup_insert _) ?_ sourced
    have hin := imported.inScope
    rw [← howner] at hin
    exact { hin with }
  | attachmentCompleted scope _ _ completion _ session content object project found visible _ _ _ made =>
    have hobject : s.storedObjects.lookup object.objectId = none := made ▸ (unused_first hfresh).storedObjects
    have hscope : ScopedKnowledge.scope object = scope := made ▸ scope_eq project
    have howner := inScope_iff.mp visible
    have hs₁ : Isolated (s.insertObjectBytes object.objectId content) := { hs with }
    have hs₂ := hs₁.insertObject (changed_new hobject hscope)
    have hs₃ := hs₂.setSession (session.commit object.objectId)
      (changed_visible found visible rfl) fun objectId hid =>
        committed_object (AList.lookup_insert _) (hscope.trans howner.symm) hid
    exact { hs₃ with }
  | itemImported _ _ _ objectId fresh _ s₀ _ project _ brought imported =>
    have hnew : NewImport fresh s₀ := brought.newImport (.of_unused hfresh)
    have hobject := (unused_first hfresh).storedObjects
    have hs₁ := imported.isolated (brought.isolated hs hobject) hnew
    exact hs₁.insertImportItem project imported.inScope
  | revised scope sourceId _ _ command fresh projectId source _ chunks _ _ project found visible _ _ made stored
      built =>
    obtain ⟨number, base, rfl⟩ := made
    subst stored
    have hrelease := (hfresh fresh.releaseId (by simp [KnowledgeCall.newIds])).releases
    have howner := inScope_iff.mp visible
    have hs₀ := hs.setSource (revisedSource source fresh.versionId) (changed_visible found visible rfl)
    have hs₁ := hs₀.insertVersion (revisedVersion scope projectId sourceId number base command fresh)
      (AList.lookup_insert _) (howner.trans (scope_eq project).symm)
    have hs₂ : Isolated (storeRevision sourceId (revisedSource source fresh.versionId)
        (revisedVersion scope projectId sourceId number base command fresh) chunks command s) :=
      { hs₁ with }
    have hs₃ := hs₂.insertRelease scope.storageKey (changed_new (built ▸ hrelease) (built ▸ nextRelease_scope project))
    exact hs₃.insertRevisionReceipt (by simp [project]) ⟨howner, scope_eq project, built ▸ nextRelease_scope project⟩
  | claimed p _ jobId _ _ _ job parse _ lease found visible =>
    have hs₁ := (hs.setParse p jobId (parse.grant lease)).updateJob (job.run lease.expiresAt) found visible rfl rfl rfl
    exact hs₁.setOperation _ _
  | renewed p _ lease _ _ _ job parse next checked =>
    have hs₁ := hs.setParse p lease.jobId (parse.renew next)
    exact hs₁.updateJob (job.renew next.expiresAt) checked.jobFound checked.visible rfl rfl rfl
  | manifestRecorded => exact hs.setParse _ _ _
  | unitRecorded p _ lease _ stored _ _ parse checked =>
    have hs₁ := hs.setParse p lease.jobId (parse.withUnit stored)
    exact hs₁.updateJob _ checked.jobFound checked.visible rfl rfl rfl
  | finished p scope _ fresh job parse total source version chunks _ _ release _ s₁ checked found visible _ made _ _
      project stored built =>
    have howner := inScope_iff.mp visible
    have hversion : version.sourceId = source.sourceId
        ∧ ScopedKnowledge.scope version = ScopedKnowledge.scope source := by
      obtain ⟨_, _, rfl, -⟩ := made
      refine ⟨rfl, ?_⟩
      rw [howner, ← howner]
      rfl
    have hrelease := (hfresh fresh.releaseId (by simp [KnowledgeCall.newIds])).releases
    have hjob := checked.jobStored hshape
    have hsource : s.sources.lookup source.sourceId = some source := by
      rw [hshape.sources _ _ found]
      exact found
    have hs₁ : Isolated (s.insertSource (finishedView source (some version))) :=
      hs.setSource _ (changed_visible hsource visible rfl)
    have hs₂ : Isolated ((s.insertSource (finishedView source (some version))).insertChunks
        version.sourceVersionId chunks) := { hs₁ with }
    have hs₃ : Isolated (storeParsed (finishedView source (some version)) version chunks s) := by
      have hview : (s.insertSource (finishedView source (some version))).sources.lookup
          version.sourceId = some (finishedView source (some version)) := by
        rw [hversion.1]
        exact AList.lookup_insert _
      exact hs₂.insertVersion version hview hversion.2.symm
    have hs₄ : Isolated (storeParsedJob p job parse total source version chunks s) :=
      hs₃.updateJob _ hjob checked.visible rfl rfl rfl
    rw [← stored] at hs₄
    have hnone : s₁.releases.lookup release.knowledgeReleaseId = none := by
      rw [stored, built]
      exact hrelease
    have hs₅ := hs₄.insertRelease scope.storageKey (changed_new hnone (built ▸ nextRelease_scope project))
    exact (hs₅.setOperation _ _).setParse _ _ _
  | finishedEmpty p _ _ _ job parse total _ _ _ checked =>
    have hjob := checked.jobStored hshape
    have hs₁ : Isolated (s.insertJob (finishedJob p job parse total none)) :=
      hs.updateJob _ hjob checked.visible rfl rfl rfl
    exact (hs₁.setOperation _ _).setParse _ _ _
  | failed p _ _ code _ _ job parse _ _ checked =>
    have hjob := checked.jobStored hshape
    have hs₁ : Isolated (s.insertJob (failedJob p job parse code)) := hs.updateJob _ hjob checked.visible rfl rfl rfl
    exact (hs₁.setOperation _ _).setParse _ _ _
  | resumed p scope jobId fresh prior parse _ _ found visible _ _ _ _ _ _ made =>
    subst made
    have hjob := (unused_first hfresh).jobs
    have howner := inScope_iff.mp visible
    obtain ⟨_, hstored, hscope⟩ := hs.jobSources jobId prior prior.sourceId found rfl
    have hs₁ := (hs.setOperation fresh.operationId
      (.queued "knowledge.import" scope fresh.operationId fresh.queuedAt)).setParse p fresh.jobId
        (resumedParse parse jobId fresh.queuedAt)
    refine hs₁.setJob (resumedJob prior jobId parse.successCount fresh) (changed_new hjob howner) hstored hscope ?_
    rintro _ ⟨⟩
    exact ⟨prior, found, rfl⟩
  | manifestStored _ _ _ _ _ found visible manifestVisible =>
    exact hs.insertManifest found ((inScope_iff.mp visible).trans (inScope_iff.mp manifestVisible).symm)

end

end MemoryKnowledgeRepository

end GeoMaster
