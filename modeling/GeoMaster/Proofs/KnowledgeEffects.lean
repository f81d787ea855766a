import GeoMaster.Lib.Owned
import GeoMaster.Proofs.KnowledgeImports

/-!
# What a call of the knowledge repository may do

`KnowledgeEffect` lists everything a call does to the store, with what the call has checked and what it
answers. This file shows that the calls of the workers that parse documents have one of these effects.
-/

namespace GeoMaster

open Op Except AssocMap Option Text

/-- What a lease that is held looks like. -/
theorem ParseState.holds_iff {p : Parser} {parse : ParseState p} {lease : ParseLease} {now : DateTime} :
    parse.holds lease now = true ↔ ∃ current, parse.lease = some current ∧ current.jobId = lease.jobId ∧ current.leaseId
      = lease.leaseId ∧ current.fencingToken = lease.fencingToken ∧ now < current.expiresAt := by
  cases hlease : parse.lease with
  | none => simp [ParseState.holds, hlease]
  | some current => simp [ParseState.holds, hlease]

namespace MemoryKnowledgeRepository

/-- What the store relies on between its maps: a record sits under its own identifier, and a document that
is parsed has its job and the operation of its job, which belong to one project. -/
structure StoreShape (s : MemoryState) : Prop where
  sessions : AssocMap.Keyed UploadSession.uploadSessionId s.uploadSessions
  objects : AssocMap.Keyed StoredObject.objectId s.storedObjects
  sources : AssocMap.Keyed Source.sourceId s.sources
  versions : AssocMap.Keyed SourceVersion.sourceVersionId s.versions
  jobs : AssocMap.Keyed ImportJob.importJobId s.jobs
  releases : AssocMap.Keyed KnowledgeRelease.knowledgeReleaseId s.releases
  manifests : AssocMap.Keyed DocumentManifest.manifestId s.documentManifests
  parses : ∀ p id parse, (s.parseJobs p).lookup id = some parse →
    ∃ job operation, s.jobs.lookup id = some job ∧ s.operations.lookup job.operationId = some operation
      ∧ operation.scope = ScopedKnowledge.scope job

/-! ### Leases -/

/-- The worker presents the lease that is stored, before it runs out, and the job is running. -/
structure Checked (p : Parser) (scope : TenantScope) (lease : ParseLease) (now : DateTime)
    (s : MemoryState) (job : ImportJob) (parse : ParseState p) : Prop where
  jobFound : s.jobs.lookup lease.jobId = some job
  visible : inScope scope job = true
  parseFound : (s.parseJobs p).lookup lease.jobId = some parse
  running : job.status = .running
  held : parse.holds lease now = true

variable {e : AppError} {id : Uuid} {lease : ParseLease} {now : DateTime} {operation : Operation} {p : Parser}
  {s s' : MemoryState} {scope : TenantScope}

theorem checkedLease_readOnly : (checkedLease p scope lease now).ReadOnly := by
  unfold checkedLease
  refine .bind .read fun found => .bind .okOr fun job => ?_
  refine .bind .read fun found => .bind .okOr fun parse => ?_
  exact .bind .failIf fun _ => .pure

theorem checkedLease_returns {r : ImportJob × ParseState p} (h : Op.Returns (checkedLease p scope lease now) s r s') :
    Checked p scope lease now s r.1 r.2 ∧ s' = s := by
  simp only [checkedLease, returns_iff] at h
  obtain ⟨_, _, ⟨rfl, rfl⟩, job, _, ⟨hjob, rfl⟩, _, _, ⟨rfl, rfl⟩, parse, _, ⟨hparse, rfl⟩, _, _,
    ⟨hheld, rfl⟩, rfl, rfl⟩ := h
  have hfound := filter_eq_some_iff.mp hjob
  simp only [not_or, not_not] at hheld
  exact ⟨⟨hfound.1, hfound.2, hparse, hheld.1, by simpa using hheld.2⟩, rfl⟩

variable {job : ImportJob} {leaseSeconds : Int} {checkedAt : DateTime} {acceptance : ImportAcceptance}
  {parse : ParseState p}

theorem finishedSource_readOnly : (finishedSource p scope job).ReadOnly := by
  unfold finishedSource
  refine .bind .read fun found => .bind .okOr fun source => .bind .failIf fun _ => ?_
  exact .bind .read fun current => .bind .failIf fun _ => .pure

theorem finishedSource_returns {source : Source} (h : Op.Returns (finishedSource p scope job) s source s') :
    s.sources.lookup job.sourceId = some source ∧ inScope scope source = true ∧ source.state = .active ∧ s' = s := by
  simp only [finishedSource, returns_iff] at h
  obtain ⟨_, _, ⟨rfl, rfl⟩, source, _, ⟨hsource, rfl⟩, _, _, ⟨hactive, rfl⟩, _, _, ⟨rfl, rfl⟩, _, _,
    ⟨-, rfl⟩, rfl, rfl⟩ := h
  have hfound := filter_eq_some_iff.mp hsource
  exact ⟨hfound.1, hfound.2, not_not.mp hactive, rfl⟩

theorem runOperation_returns {u : Unit} (h : Op.Returns (runOperation id now) s u s')
    (hfound : s.operations.lookup id = some operation) :
    s' = s.setOperation id { operation with status := .running, updatedAt := now } := by
  simp only [runOperation, returns_iff] at h
  obtain ⟨_, _, ⟨rfl, rfl⟩, h⟩ := h
  rw [hfound] at h
  exact (returns_modify.mp h).symm

theorem runOperation_fails (hfound : s.operations.lookup id = some operation) :
    ¬ Op.Fails (runOperation id now) s e s' := by
  simp [runOperation, hfound]

theorem claimParse_fails {jobId leaseId : Uuid} {clock : ClaimClock} (hs : StoreShape s)
    (h : Op.Fails (claimParse p scope jobId leaseId leaseSeconds clock) s e s') : s' = s := by
  simp only [claimParse, requireProject, fails_iff, returns_iff, false_or] at h
  rcases h with ⟨-, -, rfl⟩ | ⟨_, _, ⟨-, rfl⟩, ⟨-, -, rfl⟩ | ⟨-, _, ⟨-, rfl⟩, _, _, ⟨rfl, rfl⟩, h⟩⟩
  · rfl
  · rfl
  cases hjob : (s.jobs.lookup jobId).filter (inScope scope) with
  | none => simp [hjob] at h
  | some job =>
    rw [hjob] at h
    dsimp only at h
    split at h
    · simp at h
    · simp only [fails_iff, returns_iff, false_or] at h
      obtain ⟨_, _, ⟨rfl, rfl⟩, h⟩ := h
      cases hparse : (s.parseJobs p).lookup jobId with
      | none => simp [hparse] at h
      | some parse =>
        rw [hparse] at h
        dsimp only at h
        split at h
        · simp at h
        · obtain ⟨_, _, hjob', hoperation, -⟩ := hs.parses p jobId parse hparse
          rw [(filter_eq_some_iff.mp hjob).1] at hjob'
          obtain rfl := some.inj hjob'
          simp only [fails_iff, returns_iff, false_or, and_false, exists_false, or_false] at h
          obtain ⟨-, _, rfl, -, _, rfl, hrun⟩ := h
          exact absurd hrun (runOperation_fails hoperation)

theorem renewParse_fails {renewedAt : DateTime}
    (h : Op.Fails (renewParse p scope lease leaseSeconds checkedAt renewedAt) s e s') : s' = s := by
  simp only [renewParse, fails_iff, returns_iff, not_fails_recover, false_or] at h
  rcases h with ⟨-, -, rfl⟩ | ⟨-, _, ⟨-, rfl⟩, checked, s₁, -, h⟩
  · rfl
  · cases checked with
    | none => simp at h
    | some checked => simp at h

theorem recordManifest_atomic {manifest : p.Manifest} : (recordManifest p scope lease manifest now).Atomic :=
  .bind checkedLease_readOnly fun _ => .bind .lift fun _ => .bind .failIf fun _ => Op.Total.modify.atomic

theorem queuedOperation_returns (h : Op.Returns (queuedOperation id) s operation s') :
    s.operations.lookup id = some operation ∧ s' = s := by
  simp only [queuedOperation, expect, returns_iff] at h
  obtain ⟨_, _, ⟨rfl, rfl⟩, hfound, rfl⟩ := h
  exact ⟨hfound, rfl⟩

theorem queuedOperation_fails (h : Op.Fails (queuedOperation id) s e s')
    (hfound : s.operations.lookup id = some operation) : False := by
  simp [queuedOperation, expect, hfound] at h

theorem settleParse_returns {u : Unit} (h : Op.Returns (settleParse p id acceptance) s u s')
    (hfound : (s.parseJobs p).lookup id = some parse) : s' = s.setParse p id (parse.settle acceptance) := by
  simp only [settleParse, expect, returns_iff, hfound] at h
  obtain ⟨_, _, ⟨rfl, rfl⟩, _, _, ⟨hparse, rfl⟩, rfl⟩ := h
  rw [some.inj hparse]

theorem settleParse_fails (h : Op.Fails (settleParse p id acceptance) s e s')
    (hfound : (s.parseJobs p).lookup id = some parse) : False := by
  simp [settleParse, expect, hfound] at h

theorem failParse_fails {code : String} {updatedAt : DateTime} (hs : StoreShape s)
    (h : Op.Fails (failParse p scope lease code checkedAt updatedAt) s e s') : s' = s := by
  simp only [failParse, fails_iff, returns_iff, false_or, and_false, exists_false, or_false] at h
  rcases h with ⟨-, -, rfl⟩ | ⟨-, _, ⟨-, rfl⟩, h⟩
  · rfl
  rcases h with h | ⟨⟨job, parse⟩, s₁, hchecked, h⟩
  · exact checkedLease_readOnly.atomic.failed _ _ _ h
  obtain ⟨hchecked, rfl⟩ := checkedLease_returns hchecked
  rcases h with ⟨-, -, rfl⟩ | ⟨-, _, ⟨-, rfl⟩, _, _, ⟨rfl, rfl⟩, h⟩
  · rfl
  exfalso
  obtain ⟨_, _, hjob', hoperation, -⟩ := hs.parses p _ parse hchecked.parseFound
  rw [hchecked.jobFound] at hjob'
  obtain rfl := some.inj hjob'
  rcases h with h | ⟨operation', _, hoperation', -, _, rfl, -, _, rfl, h⟩
  · exact queuedOperation_fails h hoperation
  · obtain ⟨-, rfl⟩ := queuedOperation_returns hoperation'
    exact settleParse_fails h hchecked.parseFound

theorem retryParse_atomic {jobId : Uuid} {fresh : RetryInputs} : (retryParse p scope jobId fresh).Atomic := by
  refine .bind .read fun _ => .bind .okOr fun _ => .bind .failIf fun _ => .bind .read fun _ => .bind .okOr fun _ => ?_
  refine .bind .read fun existing => ?_
  cases existing with
  | some next => exact Op.Total.pure.atomic
  | none =>
    refine .bind .read fun _ => .bind .okOr fun _ => .bind .failIf fun _ => .bind .failIf fun _ => ?_
    exact (Op.Total.bind .modify fun _ => .bind .modify fun _ => .bind .modify fun _ => .pure).atomic

section

variable [Sha256]

variable {lease : ParseLease} {p : Parser} {s s' : MemoryState} {scope : TenantScope}

variable {job : ImportJob} {parse : ParseState p} {call : KnowledgeCall} {r : Option ParseLease} {leaseSeconds : Int}
  {checkedAt : DateTime} {manifest : p.Manifest} {result : p.Result} {fresh : ParseInputs} {a : ImportAcceptance}

theorem finishedObject_readOnly : (finishedObject p scope job parse).ReadOnly := by
  unfold finishedObject
  refine .bind .read fun found => .bind .okOr fun object => .bind .read fun bytes => ?_
  exact .bind .okOr fun _ => .bind .failIf fun _ => .pure

theorem finishedObject_returns {object : StoredObject} (h : Op.Returns (finishedObject p scope job parse) s object s') :
    s.storedObjects.lookup parse.objectId = some object ∧ s' = s := by
  simp only [finishedObject, returns_iff] at h
  obtain ⟨_, _, ⟨rfl, rfl⟩, object, _, ⟨hobject, rfl⟩, _, _, ⟨rfl, rfl⟩, bytes, _, ⟨-, rfl⟩, _, _,
    ⟨-, rfl⟩, rfl, rfl⟩ := h
  exact ⟨(filter_eq_some_iff.mp hobject).1, rfl⟩

/-! ### Effects -/

/-- A call that reads the clock for a session it may see: putting content, completing an upload under a key
without a receipt, and completing an attachment that is not committed. -/
inductive ChecksExpiry (s : MemoryState) (id : Uuid) (session : UploadSession) (now : DateTime) :
    KnowledgeCall → Prop where
  | put (scope : TenantScope) (content : List UInt8) (visible : inScope scope session = true) :
      ChecksExpiry s id session now (.putUploadContent scope id content now)
  | complete (scope : TenantScope) (idempotencyKey : String) (completion : CompletionInputs) (fresh : ImportInputs)
      (visible : inScope scope session = true) (nonblank : isBlank idempotencyKey = false)
      (unanswered : s.uploadCompletions.lookup (id, keyHash idempotencyKey) = none)
      (clock : completion.checkedAt = now) :
      ChecksExpiry s id session now (.completeUpload scope id idempotencyKey completion fresh)
  | attachment (scope : TenantScope) (idempotencyKey : String) (completion : CompletionInputs)
      (visible : inScope scope session = true) (uncommitted : session.state ≠ .committed)
      (clock : completion.checkedAt = now) :
      ChecksExpiry s id session now (.completeAttachmentUpload scope id idempotencyKey completion)

/-- A call that compares the content of a session it may see with what was announced. -/
inductive ChecksContent (id : Uuid) (session : UploadSession) : KnowledgeCall → Prop where
  | complete (scope : TenantScope) (idempotencyKey : String) (completion : CompletionInputs)
      (fresh : ImportInputs) (visible : inScope scope session = true) :
      ChecksContent id session (.completeUpload scope id idempotencyKey completion fresh)
  | attachment (scope : TenantScope) (idempotencyKey : String) (completion : CompletionInputs)
      (visible : inScope scope session = true) :
      ChecksContent id session (.completeAttachmentUpload scope id idempotencyKey completion)

/-- The answer to a call that leaves the store as it is. -/
inductive Kept (s : MemoryState) : KnowledgeCall → KnowledgeReply → Prop where
  | uploadReceipt (scope : TenantScope) (id : Uuid) (idempotencyKey : String) (completion : CompletionInputs)
      (fresh : ImportInputs) (acceptance : ImportAcceptance) (project : scope.projectId.isSome)
      (nonblank : isBlank idempotencyKey = false)
      (stored : s.uploadCompletions.lookup (id, keyHash idempotencyKey) = some acceptance) :
      Kept s (.completeUpload scope id idempotencyKey completion fresh) (.acceptance acceptance)
  | attachmentReceipt (scope : TenantScope) (id : Uuid) (idempotencyKey : String) (completion : CompletionInputs)
      (session : UploadSession) (objectId : Uuid) (object : StoredObject)
      (found : s.uploadSessions.lookup id = some session) (visible : inScope scope session = true)
      (committed : session.committedObjectId = some objectId)
      (stored : s.storedObjects.lookup objectId = some object) :
      Kept s (.completeAttachmentUpload scope id idempotencyKey completion) (.attachment object session.filename)
  | receipt (scope : TenantScope) (item : ImportItem) (receipt : Option ImportAcceptance)
      (project : scope.projectId.isSome)
      (known : ∀ acceptance, receipt = some acceptance →
        (∃ error, acceptance = .refused item.clientItemId error)
          ∨ ∃ hash, s.importItems.lookup (scope.storageKey, trim item.clientItemId) = some (hash, acceptance)) :
      Kept s (.importReceipt scope item) (.receipt receipt)
  | item (scope : TenantScope) (item : ImportItem) (fetched : Except AppError (Option FetchedUrlPage))
      (objectId : Uuid) (fresh : ImportInputs) (acceptance : ImportAcceptance) (project : scope.projectId.isSome)
      (known : (∃ error, acceptance = .refused item.clientItemId error)
        ∨ ∃ hash, s.importItems.lookup (scope.storageKey, trim item.clientItemId) = some (hash, acceptance)) :
      Kept s (.importItem scope item fetched objectId fresh) (.acceptance acceptance)
  | revision (scope : TenantScope) (sourceId : Uuid) (expectedRevision : Int) (idempotencyKey : String)
      (command : ReviseSourceTextCommand) (fresh : RevisionInputs) (hash keyHash : String)
      (receipt : SourceTextRevisionReceipt) (project : scope.projectId.isSome)
      (stored : s.revisionReceipts.lookup (scope.storageKey, sourceId, keyHash) = some (hash, receipt)) :
      Kept s (.reviseSourceText scope sourceId expectedRevision idempotencyKey command fresh) (.revision receipt)
  | notClaimed (p : Parser) (scope : TenantScope) (jobId leaseId : Uuid) (leaseSeconds : Int) (clock : ClaimClock) :
      Kept s (.claimParse p scope jobId leaseId leaseSeconds clock) (.lease none)
  | notRenewed (p : Parser) (scope : TenantScope) (lease : ParseLease) (leaseSeconds : Int)
      (checkedAt renewedAt : DateTime) :
      Kept s (.renewParse p scope lease leaseSeconds checkedAt renewedAt) (.lease none)
  | recorded (p : Parser) (scope : TenantScope) (lease : ParseLease) (result : p.Result) (now : DateTime)
      (job : ImportJob) (parse : ParseState p) (checked : Checked p scope lease now s job parse) :
      Kept s (.recordUnit p scope lease result now) .recorded
  | resumed (p : Parser) (scope : TenantScope) (jobId : Uuid) (fresh : RetryInputs) (prior next : ImportJob)
      (id : Uuid) (found : s.jobs.lookup jobId = some prior) (visible : inScope scope prior = true)
      (stored : s.jobs.lookup id = some next) (resumedFrom : next.resumedFrom = some jobId) :
      Kept s (.retryParse p scope jobId fresh) (.job next)
  | planned (scope : TenantScope) (request : DocumentManifestPlanRequest) (documentScope : DocumentScope)
      (release : KnowledgeRelease) (manifest : DocumentManifest)
      (found : s.releases.lookup request.knowledgeReleaseId = some release) (visible : inScope scope release = true)
      (stored : s.documentManifests.lookup request.manifestId = some manifest)
      (sameRelease : manifest.knowledgeReleaseId = request.knowledgeReleaseId) :
      Kept s (.planDocumentManifest scope request documentScope) (.manifest manifest)
  | saved (scope : TenantScope) (request manifest : DocumentManifest) (visible : inScope scope manifest = true) :
      Kept s (.saveOnDemandManifest scope request) (.manifest manifest)
  | query (query : KnowledgeQuery) (answer : KnowledgeAnswer)
      (answered : Op.Returns (runQuery query) s answer s) : Kept s (.query query) (.answer answer)

/-- The job and the source that a finished document leaves, and the answer to its last call. -/
def finishedAcceptance (p : Parser) (job : ImportJob) (parse : ParseState p) (total : Nat)
    (source : Source) (version : Option SourceVersion) (release : Option KnowledgeRelease)
    (operation : Operation) (now : DateTime) : ImportAcceptance :=
  endedAcceptance p (finishedJob p job parse total version) (some (finishedView source version))
    version (finishedOperation p operation (finishedJob p job parse total version) parse
      (finishedView source version) version release total now) release

/-- The end of a job: its operation, and its document without a lease. -/
def storeEnded (p : Parser) (jobId operationId : Uuid) (parse : ParseState p)
    (operation : Operation) (acceptance : ImportAcceptance) (s : MemoryState) : MemoryState :=
  (s.setOperation operationId operation).setParse p jobId (parse.settle acceptance)

/-- What a finished document makes, apart from the release. -/
def storeParsedJob (p : Parser) (job : ImportJob) (parse : ParseState p) (total : Nat)
    (source : Source) (version : SourceVersion) (chunks : List Chunk) (s : MemoryState) : MemoryState :=
  (storeParsed (finishedView source (some version)) version chunks s).insertJob
    (finishedJob p job parse total (some version))

/-- What a call does to the store. -/
inductive KnowledgeEffect (s : MemoryState) :
    KnowledgeCall → Except AppError KnowledgeReply → MemoryState → Prop where
  | same (call : KnowledgeCall) (r : Except AppError KnowledgeReply)
      (kept : ∀ reply, r = .ok reply → Kept s call reply) : KnowledgeEffect s call r s
  | sessionCreated (scope : TenantScope) (command : UploadSessionCommand) (id : Uuid) (now : DateTime)
      (projectId : ProjectId) (project : scope.projectId = some projectId) (valid : validateUpload command = .ok ()) :
      KnowledgeEffect s (.createUploadSession scope command id now)
        (.ok (.session (newSession scope projectId command id now)))
        (s.setSession id (newSession scope projectId command id now))
  | contentPut (scope : TenantScope) (id : Uuid) (content : List UInt8) (now : DateTime)
      (session : UploadSession) (found : s.uploadSessions.lookup id = some session)
      (visible : inScope scope session = true) (uncommitted : session.state ≠ .committed) :
      KnowledgeEffect s (.putUploadContent scope id content now) (.ok (.session session.upload))
        ((s.setSession id session.upload).insertUploadBytes id content)
  | sessionExpired (call : KnowledgeCall) (id : Uuid) (session : UploadSession) (now : DateTime)
      (e : AppError) (found : s.uploadSessions.lookup id = some session)
      (checks : ChecksExpiry s id session now call) (past : session.expiresAt ≤ now) :
      KnowledgeEffect s call (.error e) (s.setSession id session.expire)
  | contentRejected (call : KnowledgeCall) (id : Uuid) (session : UploadSession) (e : AppError)
      (found : s.uploadSessions.lookup id = some session) (checks : ChecksContent id session call)
      (uncommitted : session.state ≠ .committed) :
      KnowledgeEffect s call (.error e) (s.setSession id session.fail)
  | uploadCompleted (scope : TenantScope) (id : Uuid) (idempotencyKey : String) (completion : CompletionInputs)
      (fresh : ImportInputs) (projectId : ProjectId) (session : UploadSession) (content : List UInt8)
      (acceptance : ImportAcceptance) (object : StoredObject) (s₁ : MemoryState)
      (project : scope.projectId = some projectId) (found : s.uploadSessions.lookup id = some session)
      (visible : inScope scope session = true) (uncommitted : session.state ≠ .committed)
      (received : s.uploadBytes.lookup id = some content) (announced : ContentMatches session content)
      (unanswered : s.uploadCompletions.lookup (id, keyHash idempotencyKey) = none)
      (made : object = committedObject scope projectId session content.length (sha256Hex content)
        completion)
      (imported : Imported scope fresh (s.insertObject object) acceptance s₁)
      (sourced : acceptance.source.isSome) :
      KnowledgeEffect s (.completeUpload scope id idempotencyKey completion fresh)
        (.ok (.acceptance (reportUpload id object.objectId acceptance)))
        (((s₁.insertObjectBytes object.objectId content).setSession id
          { session.commit object.objectId with
            operationId := acceptance.operation.map Operation.id }).insertUploadCompletion
              (id, keyHash idempotencyKey) (reportUpload id object.objectId acceptance))
  | attachmentCompleted (scope : TenantScope) (id : Uuid) (idempotencyKey : String) (completion : CompletionInputs)
      (projectId : ProjectId) (session : UploadSession) (content : List UInt8) (object : StoredObject)
      (project : scope.projectId = some projectId) (found : s.uploadSessions.lookup id = some session)
      (visible : inScope scope session = true) (uncommitted : session.state ≠ .committed)
      (received : s.uploadBytes.lookup id = some content) (announced : ContentMatches session content)
      (made : object = committedObject scope projectId session session.expectedSize
        (sha256Hex content) completion) :
      KnowledgeEffect s (.completeAttachmentUpload scope id idempotencyKey completion)
        (.ok (.attachment object session.filename))
        ((((s.insertObjectBytes object.objectId content).insertObject object).setSession id
          (session.commit object.objectId)).insertAttachmentCompletion id (keyHash idempotencyKey))
  | itemImported (scope : TenantScope) (item : ImportItem)
      (fetched : Except AppError (Option FetchedUrlPage)) (objectId : Uuid) (fresh : ImportInputs)
      (acceptance : ImportAcceptance) (s₀ s₁ : MemoryState) (project : scope.projectId.isSome)
      (unanswered : s.importItems.lookup (scope.storageKey, trim item.clientItemId) = none)
      (brought : Brought scope objectId s s₀) (imported : Imported scope fresh s₀ acceptance s₁) :
      KnowledgeEffect s (.importItem scope item fetched objectId fresh) (.ok (.acceptance acceptance))
        (s₁.insertImportItem (scope.storageKey, trim item.clientItemId) (importItemHash item)
          acceptance)
  | revised (scope : TenantScope) (sourceId : Uuid) (expectedRevision : Int)
      (idempotencyKey : String) (command : ReviseSourceTextCommand) (fresh : RevisionInputs)
      (projectId : ProjectId) (source : Source) (version : SourceVersion) (chunks : List Chunk)
      (release : KnowledgeRelease) (s₁ : MemoryState) (project : scope.projectId = some projectId)
      (found : s.sources.lookup sourceId = some source) (visible : inScope scope source = true)
      (active : source.state = .active) (quiet : parseInProgress scope sourceId s = false)
      (made : ∃ number base, version = revisedVersion scope projectId sourceId number base command fresh)
      (stored : s₁ = storeRevision sourceId (revisedSource source fresh.versionId) version chunks
        command s)
      (built : release = nextRelease scope projectId s₁ fresh.releaseId fresh.releasedAt) :
      KnowledgeEffect s
        (.reviseSourceText scope sourceId expectedRevision idempotencyKey command fresh)
        (.ok (.revision
          { source := revisedSource source fresh.versionId, sourceVersion := version
            knowledgeRelease := release }))
        ((s₁.insertRelease scope.storageKey release).insertRevisionReceipt
          (scope.storageKey, sourceId, sha256Hex (Text.bytes idempotencyKey))
          (revisionFingerprint expectedRevision command)
          { source := revisedSource source fresh.versionId, sourceVersion := version
            knowledgeRelease := release })
  | claimed (p : Parser) (scope : TenantScope) (jobId leaseId : Uuid) (leaseSeconds : Int) (clock : ClaimClock)
      (job : ImportJob) (parse : ParseState p) (operation : Operation) (lease : ParseLease)
      (found : s.jobs.lookup jobId = some job) (visible : inScope scope job = true)
      (live : job.status = .queued ∨ job.status = .running) (parseFound : (s.parseJobs p).lookup jobId = some parse)
      (free : ∀ held, parse.lease = some held → held.expiresAt ≤ clock.checkedAt)
      (operationFound : s.operations.lookup job.operationId = some operation)
      (granted : lease =
        { jobId, leaseId, fencingToken := parse.fencingToken + 1
          expiresAt := clock.grantedAt + DateTime.seconds leaseSeconds }) :
      KnowledgeEffect s (.claimParse p scope jobId leaseId leaseSeconds clock) (.ok (.lease (some lease)))
        (((s.setParse p jobId (parse.grant lease)).setJob jobId (job.run lease.expiresAt)).setOperation
          job.operationId { operation with status := .running, updatedAt := clock.updatedAt })
  | renewed (p : Parser) (scope : TenantScope) (lease : ParseLease) (leaseSeconds : Int)
      (checkedAt renewedAt : DateTime) (job : ImportJob) (parse : ParseState p)
      (next : ParseLease) (checked : Checked p scope lease checkedAt s job parse)
      (granted : next = { lease with expiresAt := renewedAt + DateTime.seconds leaseSeconds }) :
      KnowledgeEffect s (.renewParse p scope lease leaseSeconds checkedAt renewedAt) (.ok (.lease (some next)))
        ((s.setParse p lease.jobId (parse.renew next)).setJob lease.jobId (job.renew next.expiresAt))
  | manifestRecorded (p : Parser) (scope : TenantScope) (lease : ParseLease) (manifest : p.Manifest) (now : DateTime)
      (job : ImportJob) (parse : ParseState p) (checked : Checked p scope lease now s job parse)
      (unchanged : ∀ prior, parse.manifest = some prior → prior = manifest) :
      KnowledgeEffect s (.recordManifest p scope lease manifest now) (.ok .recorded)
        (s.setParse p lease.jobId (parse.withManifest manifest))
  | unitRecorded (p : Parser) (scope : TenantScope) (lease : ParseLease) (result stored : p.Result) (now : DateTime)
      (job : ImportJob) (parse : ParseState p) (checked : Checked p scope lease now s job parse)
      (sameUnit : p.unitId stored = p.unitId result)
      (unsuccessful : ∀ prior, parse.units.lookup (p.unitId result) = some prior →
        p.isSuccess prior = false) :
      KnowledgeEffect s (.recordUnit p scope lease result now) (.ok .recorded)
        ((s.setParse p lease.jobId (parse.withUnit stored)).setJob lease.jobId
          (job.count (parse.withUnit stored).successCount (parse.withUnit stored).unitErrors))
  | finished (p : Parser) (scope : TenantScope) (lease : ParseLease) (fresh : ParseInputs) (job : ImportJob)
      (parse : ParseState p) (total : Nat) (source : Source) (version : SourceVersion) (chunks : List Chunk)
      (operation : Operation) (projectId : ProjectId) (release : KnowledgeRelease) (acceptance : ImportAcceptance)
      (s₁ : MemoryState) (checked : Checked p scope lease fresh.checkedAt s job parse)
      (found : s.sources.lookup job.sourceId = some source) (visible : inScope scope source = true)
      (active : source.state = .active)
      (made : ∃ object parent, version = parsedVersion p scope source object parse parent fresh
        ∧ s.storedObjects.lookup parse.objectId = some object)
      (succeeded : parse.successCount ≠ 0)
      (operationFound : s.operations.lookup job.operationId = some operation)
      (project : scope.projectId = some projectId)
      (stored : s₁ = storeParsedJob p job parse total source version chunks s)
      (built : release = nextRelease scope projectId s₁ fresh.releaseId fresh.releasedAt)
      (answered : acceptance = finishedAcceptance p job parse total source (some version)
        (some release) operation fresh.updatedAt) :
      KnowledgeEffect s (.finishParse p scope lease fresh) (.ok (.acceptance acceptance))
        (storeEnded p lease.jobId job.operationId parse
          (finishedOperation p operation (finishedJob p job parse total (some version)) parse
            (finishedView source (some version)) (some version) (some release) total
              fresh.updatedAt) acceptance (s₁.insertRelease scope.storageKey release))
  | finishedEmpty (p : Parser) (scope : TenantScope) (lease : ParseLease) (fresh : ParseInputs) (job : ImportJob)
      (parse : ParseState p) (total : Nat) (source : Source) (operation : Operation) (acceptance : ImportAcceptance)
      (checked : Checked p scope lease fresh.checkedAt s job parse)
      (found : s.sources.lookup job.sourceId = some source) (visible : inScope scope source = true)
      (unsuccessful : parse.successCount = 0) (operationFound : s.operations.lookup job.operationId = some operation)
      (answered : acceptance = finishedAcceptance p job parse total source none none operation
        fresh.updatedAt) :
      KnowledgeEffect s (.finishParse p scope lease fresh) (.ok (.acceptance acceptance))
        (storeEnded p lease.jobId job.operationId parse
          (finishedOperation p operation (finishedJob p job parse total none) parse
            (finishedView source none) none none total fresh.updatedAt) acceptance
              (s.insertJob (finishedJob p job parse total none)))
  | failed (p : Parser) (scope : TenantScope) (lease : ParseLease) (code : String) (checkedAt updatedAt : DateTime)
      (job : ImportJob) (parse : ParseState p) (operation : Operation) (acceptance : ImportAcceptance)
      (checked : Checked p scope lease checkedAt s job parse)
      (operationFound : s.operations.lookup job.operationId = some operation)
      (answered : acceptance = endedAcceptance p (failedJob p job parse code)
        (s.sources.lookup job.sourceId) none (failedOperation p operation code updatedAt) none) :
      KnowledgeEffect s (.failParse p scope lease code checkedAt updatedAt) (.ok (.acceptance acceptance))
        (storeEnded p lease.jobId job.operationId parse
          (failedOperation p operation code updatedAt) acceptance
            (s.insertJob (failedJob p job parse code)))
  | resumed (p : Parser) (scope : TenantScope) (jobId : Uuid) (fresh : RetryInputs) (prior : ImportJob)
      (parse : ParseState p) (source : Source) (next : ImportJob) (found : s.jobs.lookup jobId = some prior)
      (visible : inScope scope prior = true) (ended : prior.status = .failed ∨ prior.status = .partialImport)
      (parseFound : (s.parseJobs p).lookup jobId = some parse)
      (unresumed : ∀ id job, s.jobs.lookup id = some job → job.resumedFrom ≠ some jobId)
      (sourceFound : s.sources.lookup prior.sourceId = some source) (active : source.state = .active)
      (current : source.currentVersionId = prior.sourceVersionId)
      (made : next = resumedJob prior jobId parse.successCount fresh) :
      KnowledgeEffect s (.retryParse p scope jobId fresh) (.ok (.job next))
        (((s.setOperation fresh.operationId
          (.queued "knowledge.import" scope fresh.operationId fresh.queuedAt)).setParse p fresh.jobId
            (resumedParse parse jobId fresh.queuedAt)).insertJob next)
  | manifestStored (call : KnowledgeCall) (scope : TenantScope) (release : KnowledgeRelease)
      (manifest : DocumentManifest)
      (caller : (∃ request documentScope, call = .planDocumentManifest scope request documentScope)
        ∨ call = .saveOnDemandManifest scope manifest)
      (found : s.releases.lookup manifest.knowledgeReleaseId = some release)
      (visible : inScope scope release = true) (manifestVisible : inScope scope manifest = true)
      (unstored : s.documentManifests.lookup manifest.manifestId = none) :
      KnowledgeEffect s call (.ok (.manifest manifest)) (s.insertManifest manifest)

/-! ### Leases and results -/

theorem same_failed : KnowledgeEffect s call (.error e) s :=
  .same _ _ fun _ h => nomatch h

theorem same_ok {reply : KnowledgeReply} (h : Kept s call reply) :
    KnowledgeEffect s call (.ok reply) s :=
  .same _ _ fun _ h' => ok.inj h' ▸ h

theorem claimParse_returns {jobId leaseId : Uuid} {clock : ClaimClock}
    (hs : StoreShape s) (h : Op.Returns (claimParse p scope jobId leaseId leaseSeconds clock) s r s') :
    KnowledgeEffect s (.claimParse p scope jobId leaseId leaseSeconds clock) (.ok (.lease r)) s' := by
  have hnone : KnowledgeEffect s (.claimParse p scope jobId leaseId leaseSeconds clock)
      (.ok (.lease none)) s := same_ok (.notClaimed p scope jobId leaseId leaseSeconds clock)
  simp only [claimParse, requireProject, returns_iff] at h
  obtain ⟨_, _, ⟨-, rfl⟩, -, _, ⟨-, rfl⟩, _, _, ⟨rfl, rfl⟩, h⟩ := h
  cases hjob : (s.jobs.lookup jobId).filter (inScope scope) with
  | none =>
    rw [hjob] at h
    obtain ⟨rfl, rfl⟩ := returns_pure.mp h
    exact hnone
  | some job =>
    rw [hjob] at h
    obtain ⟨hfound, hvisible⟩ := filter_eq_some_iff.mp hjob
    dsimp only at h
    split at h
    · obtain ⟨rfl, rfl⟩ := returns_pure.mp h
      exact hnone
    · rename_i hlive
      simp only [returns_iff] at h
      obtain ⟨_, _, ⟨rfl, rfl⟩, h⟩ := h
      cases hparse : (s.parseJobs p).lookup jobId with
      | none =>
        rw [hparse] at h
        obtain ⟨rfl, rfl⟩ := returns_pure.mp h
        exact hnone
      | some parse =>
        rw [hparse] at h
        dsimp only at h
        split at h
        · obtain ⟨rfl, rfl⟩ := returns_pure.mp h
          exact hnone
        · rename_i hfree
          -- the operation of the job is stored, so it starts to run
          obtain ⟨_, operation, hjob', hoperation, -⟩ := hs.parses p jobId parse hparse
          rw [hfound] at hjob'
          obtain rfl := some.inj hjob'
          simp only [returns_iff] at h
          obtain ⟨-, _, rfl, -, _, rfl, _, _, hrun, rfl, rfl⟩ := h
          obtain rfl := runOperation_returns hrun hoperation
          refine .claimed p scope jobId leaseId leaseSeconds clock job parse operation _ hfound
            hvisible ?_ hparse ?_ hoperation rfl
          · simp only [not_and_or, not_not] at hlive
            exact hlive
          · intro held hheld
            by_contra hlater
            exact hfree ⟨held, hheld, Int.not_le.mp hlater⟩

theorem renewParse_returns {renewedAt : DateTime}
    (h : Op.Returns (renewParse p scope lease leaseSeconds checkedAt renewedAt) s r s') :
    KnowledgeEffect s (.renewParse p scope lease leaseSeconds checkedAt renewedAt) (.ok (.lease r)) s' := by
  simp only [renewParse, returns_iff, returns_recover] at h
  obtain ⟨-, _, ⟨-, rfl⟩, _, _, hchecked, h⟩ := h
  rcases hchecked with ⟨⟨job, parse⟩, _, hchecked, rfl, rfl⟩ | ⟨e, hfails, rfl⟩
  · obtain ⟨hchecked, rfl⟩ := checkedLease_returns hchecked
    simp only [returns_iff] at h
    obtain ⟨-, _, rfl, -, _, rfl, rfl, rfl⟩ := h
    exact .renewed p scope lease leaseSeconds checkedAt renewedAt job parse _ hchecked rfl
  · simp only [fails_iff, and_false, exists_false, or_false] at hfails
    obtain rfl := checkedLease_readOnly.atomic.failed _ _ _ hfails
    obtain ⟨rfl, rfl⟩ := returns_pure.mp h
    exact same_ok (.notRenewed p scope lease leaseSeconds checkedAt renewedAt)

theorem recordManifest_returns {u : Unit} (h : Op.Returns (recordManifest p scope lease manifest now) s u s') :
    KnowledgeEffect s (.recordManifest p scope lease manifest now) (.ok .recorded) s' := by
  simp only [recordManifest, returns_iff] at h
  obtain ⟨⟨job, parse⟩, _, hchecked, -, _, ⟨-, rfl⟩, -, _, ⟨hsame, rfl⟩, rfl⟩ := h
  obtain ⟨hchecked, rfl⟩ := checkedLease_returns hchecked
  refine .manifestRecorded p scope lease manifest now job parse hchecked fun prior hprior => ?_
  by_contra hne
  exact hsame (.inr ⟨prior, hprior, hne⟩)

/-- A page or a unit that exceeds the limits fails under its own number. -/
theorem boundedResult_unitId {stored : p.Result}
    (h : boundedResult p scope parse manifest result = .ok stored) : p.unitId stored = p.unitId result := by
  cases p with
  | pdf =>
    obtain rfl := ok.inj h
    cases result with
    | success page text =>
      simp only [boundedPage]
      split <;> rfl
    | failure page code => rfl
  | office =>
    simp only [boundedResult, boundedUnit] at h
    split at h
    · obtain ⟨_, -, h⟩ := bind_eq_ok.mp h
      split at h
      · obtain rfl := pure_eq_ok.mp h
        rfl
      · split at h
        · obtain rfl := pure_eq_ok.mp h
          rfl
        · obtain rfl := pure_eq_ok.mp h
          rfl
    · obtain rfl := pure_eq_ok.mp h
      rfl

theorem recordUnit_returns {u : Unit} (h : Op.Returns (recordUnit p scope lease result now) s u s') :
    KnowledgeEffect s (.recordUnit p scope lease result now) (.ok .recorded) s' := by
  simp only [recordUnit, returns_iff] at h
  obtain ⟨⟨job, parse⟩, _, hchecked, _, _, ⟨-, rfl⟩, -, _, ⟨-, rfl⟩, h⟩ := h
  obtain ⟨hchecked, rfl⟩ := checkedLease_returns hchecked
  split at h
  · obtain ⟨-, rfl⟩ := returns_pure.mp h
    exact same_ok (.recorded p scope lease result now job parse hchecked)
  · simp only [returns_iff] at h
    obtain ⟨-, _, ⟨hunsuccessful, rfl⟩, stored, _, ⟨hbounded, rfl⟩, -, _, rfl, rfl⟩ := h
    refine .unitRecorded p scope lease result stored now job parse hchecked
      (boundedResult_unitId hbounded) fun prior hprior => ?_
    by_contra hsuccess
    exact hunsuccessful ⟨prior, hprior, by simpa using hsuccess⟩

theorem recordUnit_atomic : (recordUnit p scope lease result now).Atomic := by
  refine .bind checkedLease_readOnly fun _ => .bind .okOr fun _ => .bind .lift fun _ => ?_
  dsimp only
  split
  · exact Op.Total.pure.atomic
  · exact .bind .failIf fun _ => .bind .lift fun _ => (Op.Total.bind .modify fun _ => .modify).atomic

/-! ### Ends -/

theorem finishParse_returns (h : Op.Returns (finishParse p scope lease fresh) s a s') :
    KnowledgeEffect s (.finishParse p scope lease fresh) (.ok (.acceptance a)) s' := by
  simp only [finishParse, returns_iff] at h
  obtain ⟨⟨job, parse⟩, _, hchecked, manifest, _, ⟨-, rfl⟩, -, _, ⟨-, rfl⟩, source, _, hsource, object,
    _, hobject, _, _, ⟨rfl, rfl⟩, chunks, _, ⟨hchunks, rfl⟩, h⟩ := h
  obtain ⟨hchecked, rfl⟩ := checkedLease_returns hchecked
  obtain ⟨hsource, hvisible, hactive, rfl⟩ := finishedSource_returns hsource
  obtain ⟨hobject, rfl⟩ := finishedObject_returns hobject
  dsimp only at h hchunks
  by_cases hsuccess : parse.successCount = 0
  · rw [if_pos hsuccess] at h
    simp only [storeVersion, releaseVersion, returns_iff] at h
    obtain ⟨-, _, ⟨-, rfl⟩, -, _, rfl, _, _, ⟨rfl, rfl⟩, operation, _, hoperation, -, _, rfl, _, _,
      hsettle, rfl, rfl⟩ := h
    obtain ⟨hstored, rfl⟩ := queuedOperation_returns hoperation
    rw [settleParse_returns hsettle hchecked.parseFound]
    exact .finishedEmpty p scope lease fresh job parse _ source operation _ hchecked hsource hvisible
      hsuccess hstored rfl
  · rw [if_neg hsuccess] at h
    simp only [storeVersion, releaseVersion, returns_iff] at h
    obtain ⟨-, _, rfl, -, s₁, hs₁, _, s₂, ⟨release, _, hrelease, rfl, rfl⟩, operation, _, hoperation, -,
      _, rfl, _, _, hsettle, rfl, rfl⟩ := h
    obtain ⟨projectId, hproject⟩ := inScope_project hchecked.visible
    obtain ⟨hbuilt, rfl⟩ := makeReleaseLocked_returns hproject hrelease
    subst hs₁
    obtain ⟨hstored, rfl⟩ := queuedOperation_returns hoperation
    rw [settleParse_returns hsettle hchecked.parseFound]
    exact .finished p scope lease fresh job parse _ source _ chunks operation projectId release _ _ hchecked hsource
      hvisible hactive ⟨object, _, rfl, hobject⟩ hsuccess hstored hproject rfl hbuilt rfl

theorem finishParse_fails (hs : StoreShape s) (h : Op.Fails (finishParse p scope lease fresh) s e s') : s' = s := by
  simp only [finishParse, fails_iff, returns_iff, false_or] at h
  rcases h with h | ⟨⟨job, parse⟩, s₁, hchecked, h⟩
  · exact checkedLease_readOnly.atomic.failed _ _ _ h
  obtain ⟨hchecked, rfl⟩ := checkedLease_returns hchecked
  rcases h with ⟨-, -, rfl⟩ | ⟨manifest, _, ⟨-, rfl⟩, ⟨-, -, rfl⟩ | ⟨-, _, ⟨-, rfl⟩, h⟩⟩
  · rfl
  · rfl
  rcases h with h | ⟨source, s₁, hsource, h⟩
  · exact finishedSource_readOnly.atomic.failed _ _ _ h
  obtain rfl := finishedSource_readOnly.returns hsource
  rcases h with h | ⟨object, s₁, hobject, h⟩
  · exact finishedObject_readOnly.atomic.failed _ _ _ h
  obtain rfl := finishedObject_readOnly.returns hobject
  obtain ⟨_, _, ⟨rfl, rfl⟩, ⟨-, rfl⟩ | ⟨_, _, ⟨-, rfl⟩, h⟩⟩ := h
  · rfl
  -- from here on nothing fails: the job has its operation, and the caller has a project
  exfalso
  obtain ⟨_, _, hjob', hoperation, -⟩ := hs.parses p _ parse hchecked.parseFound
  rw [hchecked.jobFound] at hjob'
  obtain rfl := some.inj hjob'
  dsimp only at h
  by_cases hsuccess : parse.successCount = 0
  · rw [if_pos hsuccess] at h
    simp only [storeVersion, releaseVersion, fails_iff, returns_iff, false_or, and_false, exists_false, or_false] at h
    obtain ⟨-, _, ⟨-, rfl⟩, -, _, rfl, _, _, ⟨rfl, rfl⟩, h | ⟨_, _, hoperation', -, _, rfl, h⟩⟩ := h
    · exact queuedOperation_fails h hoperation
    · obtain ⟨-, rfl⟩ := queuedOperation_returns hoperation'
      exact settleParse_fails h hchecked.parseFound
  · rw [if_neg hsuccess] at h
    obtain ⟨_, hproject⟩ := inScope_project hchecked.visible
    simp only [storeVersion, releaseVersion, fails_iff, returns_iff, makeReleaseLocked_fails hproject, false_or, and_false,
      exists_false, or_false] at h
    obtain ⟨-, _, rfl, -, _, rfl, _, _, ⟨_, _, hrelease, rfl, rfl⟩, h⟩ := h
    obtain ⟨-, rfl⟩ := makeReleaseLocked_returns hproject hrelease
    rcases h with h | ⟨operation', _, hoperation', -, _, rfl, h⟩
    · exact queuedOperation_fails h hoperation
    · obtain ⟨-, rfl⟩ := queuedOperation_returns hoperation'
      exact settleParse_fails h hchecked.parseFound

theorem failParse_returns {code : String} {updatedAt : DateTime}
    (h : Op.Returns (failParse p scope lease code checkedAt updatedAt) s a s') :
    KnowledgeEffect s (.failParse p scope lease code checkedAt updatedAt) (.ok (.acceptance a)) s' := by
  simp only [failParse, returns_iff] at h
  obtain ⟨-, _, ⟨-, rfl⟩, ⟨job, parse⟩, _, hchecked, -, _, ⟨-, rfl⟩, _, _, ⟨rfl, rfl⟩, operation, _,
    hoperation, -, _, rfl, -, _, rfl, _, _, hsettle, rfl, rfl⟩ := h
  obtain ⟨hchecked, rfl⟩ := checkedLease_returns hchecked
  obtain ⟨hstored, rfl⟩ := queuedOperation_returns hoperation
  rw [settleParse_returns hsettle hchecked.parseFound]
  exact .failed p scope lease code checkedAt updatedAt job parse operation _ hchecked hstored rfl

/-! ### Retries -/

theorem retryParse_returns {jobId : Uuid} {fresh : RetryInputs}
    (h : Op.Returns (retryParse p scope jobId fresh) s job s') :
    KnowledgeEffect s (.retryParse p scope jobId fresh) (.ok (.job job)) s' := by
  simp only [retryParse, returns_iff] at h
  obtain ⟨_, _, ⟨rfl, rfl⟩, prior, _, ⟨hprior, rfl⟩, -, _, ⟨hended, rfl⟩, _, _, ⟨rfl, rfl⟩, parse, _,
    ⟨hparse, rfl⟩, existing, _, ⟨hexisting, rfl⟩, h⟩ := h
  obtain ⟨hfound, hvisible⟩ := filter_eq_some_iff.mp hprior
  cases existing with
  | some next =>
    obtain ⟨rfl, rfl⟩ := returns_pure.mp h
    obtain ⟨id, hstored⟩ := lookup_of_find? hexisting
    have hresumed : next.resumedFrom = some jobId := by simpa using List.find?_some hexisting
    exact same_ok (.resumed p scope jobId fresh prior next id hfound hvisible hstored hresumed)
  | none =>
    simp only [returns_iff] at h
    obtain ⟨_, _, ⟨rfl, rfl⟩, source, _, ⟨hsource, rfl⟩, -, _, ⟨hactive, rfl⟩, -, _, ⟨hcurrent, rfl⟩, -,
      _, rfl, -, _, rfl, -, _, rfl, rfl, rfl⟩ := h
    refine .resumed p scope jobId fresh prior parse source _ hfound hvisible ?_ hparse ?_ hsource
      (not_not.mp hactive) (not_not.mp hcurrent) rfl
    · simp only [not_and_or, not_not] at hended
      exact hended
    · intro id job hjob
      simpa using not_of_find?_none hexisting hjob

end

end MemoryKnowledgeRepository

end GeoMaster
