import GeoMaster.Domain.KnowledgeSources
import GeoMaster.Lib.Calls

/-!
# Runs of the knowledge repository

Any call with any arguments in any order, by any number of callers. `import_batch` takes its locks once for
each item, so the two locked sections of an item are calls of their own and batches interleave freely;
what a fetch returned is an argument of the second. Between two calls the maps that operations walk may be
rehashed.
-/

namespace GeoMaster

/-- A call that reads. -/
inductive KnowledgeQuery where
  | parseInput (p : Parser) (scope : TenantScope) (lease : ParseLease) (now : DateTime)
  | parseOperation (p : Parser) (scope : TenantScope) (jobId : Uuid)
  | getAttachmentObject (scope : TenantScope) (id : Uuid)
  | getAttachmentObjectBytes (scope : TenantScope) (objectId : Uuid) (objectVersion : Int) (sha256 : String)
  | listSources (scope : TenantScope)
  | getSource (scope : TenantScope) (id : Uuid)
  | getSourceDetail (scope : TenantScope) (id : Uuid)
  | getSourceVersion (scope : TenantScope) (sourceId versionId : Uuid)
  | getSourceVersionContent (scope : TenantScope) (sourceId versionId : Uuid)
  | listProducts (scope : TenantScope)
  | listFacts (scope : TenantScope)
  | overview (scope : TenantScope)
  | getImportProgress (scope : TenantScope) (jobId : Uuid) (purpose : KnowledgePurpose)
  | resolveImportReceipt (scope : TenantScope) (expected : ImportItem)
  | currentRelease (scope : TenantScope)
  | getRelease (scope : TenantScope) (id : Uuid)
  | getDocumentManifest (scope : TenantScope) (id : Uuid)

/-- A call, with its arguments. -/
inductive KnowledgeCall where
  | createUploadSession (scope : TenantScope) (command : UploadSessionCommand) (id : Uuid) (now : DateTime)
  | putUploadContent (scope : TenantScope) (id : Uuid) (content : List UInt8) (now : DateTime)
  | completeUpload (scope : TenantScope) (id : Uuid) (idempotencyKey : String)
      (completion : MemoryKnowledgeRepository.CompletionInputs) (fresh : ImportInputs)
  | completeAttachmentUpload (scope : TenantScope) (id : Uuid) (idempotencyKey : String)
      (completion : MemoryKnowledgeRepository.CompletionInputs)
  | importReceipt (scope : TenantScope) (item : ImportItem)
  | importItem (scope : TenantScope) (item : ImportItem)
      (fetched : Except AppError (Option FetchedUrlPage)) (objectId : Uuid) (fresh : ImportInputs)
  | reviseSourceText (scope : TenantScope) (sourceId : Uuid) (expectedRevision : Int) (idempotencyKey : String)
      (command : ReviseSourceTextCommand) (fresh : MemoryKnowledgeRepository.RevisionInputs)
  | claimParse (p : Parser) (scope : TenantScope) (jobId leaseId : Uuid) (leaseSeconds : Int)
      (clock : MemoryKnowledgeRepository.ClaimClock)
  | renewParse (p : Parser) (scope : TenantScope) (lease : ParseLease) (leaseSeconds : Int)
      (checkedAt renewedAt : DateTime)
  | recordManifest (p : Parser) (scope : TenantScope) (lease : ParseLease) (manifest : p.Manifest) (now : DateTime)
  | recordUnit (p : Parser) (scope : TenantScope) (lease : ParseLease) (result : p.Result) (now : DateTime)
  | finishParse (p : Parser) (scope : TenantScope) (lease : ParseLease) (fresh : MemoryKnowledgeRepository.ParseInputs)
  | failParse (p : Parser) (scope : TenantScope) (lease : ParseLease) (code : String) (checkedAt updatedAt : DateTime)
  | retryParse (p : Parser) (scope : TenantScope) (jobId : Uuid) (fresh : MemoryKnowledgeRepository.RetryInputs)
  | planDocumentManifest (scope : TenantScope) (request : DocumentManifestPlanRequest) (documentScope : DocumentScope)
  | saveOnDemandManifest (scope : TenantScope) (manifest : DocumentManifest)
  | query (query : KnowledgeQuery)

/-- The scope of the caller. -/
def KnowledgeQuery.scope : KnowledgeQuery → TenantScope
  | .parseInput _ scope _ _ => scope
  | .parseOperation _ scope _ => scope
  | .getAttachmentObject scope _ => scope
  | .getAttachmentObjectBytes scope _ _ _ => scope
  | .listSources scope => scope
  | .getSource scope _ => scope
  | .getSourceDetail scope _ => scope
  | .getSourceVersion scope _ _ => scope
  | .getSourceVersionContent scope _ _ => scope
  | .listProducts scope => scope
  | .listFacts scope => scope
  | .overview scope => scope
  | .getImportProgress scope _ _ => scope
  | .resolveImportReceipt scope _ => scope
  | .currentRelease scope => scope
  | .getRelease scope _ => scope
  | .getDocumentManifest scope _ => scope

/-- The scope of the caller. -/
def KnowledgeCall.scope : KnowledgeCall → TenantScope
  | .createUploadSession scope _ _ _ => scope
  | .putUploadContent scope _ _ _ => scope
  | .completeUpload scope _ _ _ _ => scope
  | .completeAttachmentUpload scope _ _ _ => scope
  | .importReceipt scope _ => scope
  | .importItem scope _ _ _ _ => scope
  | .reviseSourceText scope _ _ _ _ _ => scope
  | .claimParse _ scope _ _ _ _ => scope
  | .renewParse _ scope _ _ _ _ => scope
  | .recordManifest _ scope _ _ _ => scope
  | .recordUnit _ scope _ _ _ => scope
  | .finishParse _ scope _ _ => scope
  | .failParse _ scope _ _ _ _ => scope
  | .retryParse _ scope _ _ => scope
  | .planDocumentManifest scope _ _ => scope
  | .saveOnDemandManifest scope _ => scope
  | .query read => read.scope

/-- What a call that reads returns. -/
inductive KnowledgeAnswer where
  | parseInput (p : Parser) (input : MemoryKnowledgeRepository.ParseInput p)
  | operation (operation : Option Operation)
  | attachment (found : Option (StoredObject × String))
  | attachmentBytes (found : Option AttachmentObjectBytes)
  | sources (sources : List Source)
  | source (source : Option Source)
  | sourceDetail (detail : Option SourceDetail)
  | sourceVersion (version : Option SourceVersion)
  | sourceVersionContent (content : Option SourceVersionContent)
  | products (products : List Product)
  | facts (facts : List Fact)
  | overview (overview : KnowledgeOverview)
  | progress (progress : Option KnowledgeImportProgress)
  | currentRelease (current : CurrentKnowledgeRelease)
  | release (release : Option KnowledgeRelease)
  | manifest (manifest : Option DocumentManifest)

/-- What a call returns. -/
inductive KnowledgeReply where
  | session (session : UploadSession)
  | acceptance (acceptance : ImportAcceptance)
  | attachment (object : StoredObject) (filename : String)
  | receipt (receipt : Option ImportAcceptance)
  | revision (receipt : SourceTextRevisionReceipt)
  | lease (lease : Option ParseLease)
  | recorded
  | job (job : ImportJob)
  | manifest (manifest : DocumentManifest)
  | answer (answer : KnowledgeAnswer)

namespace MemoryKnowledgeRepository

/-- Give the result of an operation a reply. -/
def reply {α β : Type} (f : α → β) (x : KnowledgeOp α) : KnowledgeOp β := do
  let a ← x
  pure (f a)

section

variable [Sha256]

/-- What the repository answers to a call that reads. -/
def runQuery : KnowledgeQuery → KnowledgeOp KnowledgeAnswer
  | .parseInput p scope lease now => reply (.parseInput p) (parseInput p scope lease now)
  | .parseOperation p scope jobId => reply .operation (parseOperation p scope jobId)
  | .getAttachmentObject scope id => reply .attachment (getAttachmentObject scope id)
  | .getAttachmentObjectBytes scope objectId objectVersion sha256 =>
    reply .attachmentBytes (getAttachmentObjectBytes scope objectId objectVersion sha256)
  | .listSources scope => reply .sources (listSources scope)
  | .getSource scope id => reply .source (getSource scope id)
  | .getSourceDetail scope id => reply .sourceDetail (getSourceDetail scope id)
  | .getSourceVersion scope sourceId versionId => reply .sourceVersion (getSourceVersion scope sourceId versionId)
  | .getSourceVersionContent scope sourceId versionId =>
    reply .sourceVersionContent (getSourceVersionContent scope sourceId versionId)
  | .listProducts scope => reply .products (listProducts scope)
  | .listFacts scope => reply .facts (listFacts scope)
  | .overview scope => reply .overview (overview scope)
  | .getImportProgress scope jobId purpose => reply .progress (getImportProgress scope jobId purpose)
  | .resolveImportReceipt scope expected => reply .progress (resolveImportReceipt scope expected)
  | .currentRelease scope => reply .currentRelease (currentRelease scope)
  | .getRelease scope id => reply .release (getRelease scope id)
  | .getDocumentManifest scope id => reply .manifest (getDocumentManifest scope id)

variable [CsvChunks]

/-- What the repository does with a call. -/
def run (profiles : ParserProfiles) : KnowledgeCall → KnowledgeOp KnowledgeReply
  | .createUploadSession scope command id now => reply .session (createUploadSession scope command id now)
  | .putUploadContent scope id content now => reply .session (putUploadContent scope id content now)
  | .completeUpload scope id idempotencyKey completion fresh =>
    reply .acceptance (completeUpload profiles scope id idempotencyKey completion fresh)
  | .completeAttachmentUpload scope id idempotencyKey completion =>
    reply (fun found => .attachment found.1 found.2) (completeAttachmentUpload scope id idempotencyKey completion)
  | .importReceipt scope item => reply .receipt (importReceipt scope item)
  | .importItem scope item fetched objectId fresh =>
    reply .acceptance (importItem profiles scope item fetched objectId fresh)
  | .reviseSourceText scope sourceId expectedRevision idempotencyKey command fresh =>
    reply .revision (reviseSourceText scope sourceId expectedRevision idempotencyKey command fresh)
  | .claimParse p scope jobId leaseId leaseSeconds clock =>
    reply .lease (claimParse p scope jobId leaseId leaseSeconds clock)
  | .renewParse p scope lease leaseSeconds checkedAt renewedAt =>
    reply .lease (renewParse p scope lease leaseSeconds checkedAt renewedAt)
  | .recordManifest p scope lease manifest now => reply (fun _ => .recorded) (recordManifest p scope lease manifest now)
  | .recordUnit p scope lease result now => reply (fun _ => .recorded) (recordUnit p scope lease result now)
  | .finishParse p scope lease fresh => reply .acceptance (finishParse p scope lease fresh)
  | .failParse p scope lease code checkedAt updatedAt =>
    reply .acceptance (failParse p scope lease code checkedAt updatedAt)
  | .retryParse p scope jobId fresh => reply .job (retryParse p scope jobId fresh)
  | .planDocumentManifest scope request documentScope =>
    reply .manifest (planDocumentManifest scope request documentScope)
  | .saveOnDemandManifest scope manifest => reply .manifest (saveOnDemandManifest scope manifest)
  | .query query => reply .answer (runQuery query)

end

end MemoryKnowledgeRepository

/-- The same entries in the maps that are walked, listed in some other order. -/
structure MemoryState.Reordered (s s' : MemoryState) : Prop where
  uploadSessions : AssocMap.SameEntries s.uploadSessions s'.uploadSessions
  sources : AssocMap.SameEntries s.sources s'.sources
  versions : AssocMap.SameEntries s.versions s'.versions
  jobs : AssocMap.SameEntries s.jobs s'.jobs
  chunks : AssocMap.SameEntries s.chunks s'.chunks
  facts : AssocMap.SameEntries s.facts s'.facts
  rest : s' = { s with
    uploadSessions := s'.uploadSessions
    sources := s'.sources
    versions := s'.versions
    jobs := s'.jobs
    chunks := s'.chunks
    facts := s'.facts }

/-- A step of a run: a call with its reply or error, or a rehash. -/
abbrev KnowledgeEvent : Type :=
  CallEvent KnowledgeCall AppError KnowledgeReply

/-- The repository as a machine. -/
def knowledgeMachine [Sha256] [CsvChunks] (profiles : ParserProfiles) : Machine MemoryState KnowledgeEvent :=
  callMachine (MemoryKnowledgeRepository.run profiles) MemoryState.Reordered

/-- An identifier no record is stored under. -/
structure MemoryState.Unused (s : MemoryState) (id : Uuid) : Prop where
  uploadSessions : s.uploadSessions.lookup id = none
  storedObjects : s.storedObjects.lookup id = none
  objectBytes : s.objectBytes.lookup id = none
  sources : s.sources.lookup id = none
  versions : s.versions.lookup id = none
  chunks : s.chunks.lookup id = none
  jobs : s.jobs.lookup id = none
  parseJobs : ∀ p, (s.parseJobs p).lookup id = none
  operations : s.operations.lookup id = none
  releases : s.releases.lookup id = none

/-- The identifiers a call draws. -/
def KnowledgeCall.newIds : KnowledgeCall → List Uuid
  | .createUploadSession _ _ id _ => [id]
  | .completeUpload _ _ _ completion fresh =>
    [completion.objectId, fresh.sourceId, fresh.versionId, fresh.operationId, fresh.jobId, fresh.releaseId]
  | .completeAttachmentUpload _ _ _ completion => [completion.objectId]
  | .importItem _ _ _ objectId fresh =>
    [objectId, fresh.sourceId, fresh.versionId, fresh.operationId, fresh.jobId, fresh.releaseId]
  | .reviseSourceText _ _ _ _ _ fresh => [fresh.versionId, fresh.releaseId]
  | .finishParse _ _ _ fresh => [fresh.versionId, fresh.releaseId]
  | .retryParse _ _ _ fresh => [fresh.jobId, fresh.operationId]
  | _ => []

/-- What the repository asks of the generator of identifiers: a new one is not in use. -/
def FreshKnowledgeIds (s : MemoryState) : KnowledgeEvent → Prop
  | .call call _ => ∀ id ∈ call.newIds, s.Unused id
  | .reorder => True

end GeoMaster
