import GeoMaster.Domain.KnowledgeState

/-!
# Uploads and imports

A file is uploaded in a session and committed by one of two operations: `complete_upload` imports it as a
source, `complete_attachment_upload` keeps it as an object that an import may name later. An import is
immediate for text, and queued for a document that has a parser. The clock and the new identifiers an
operation draws are arguments, and so is what a fetch of a page returned.
-/

namespace GeoMaster

open Text

def maxInlineTextBytes : Nat :=
  256 * 1024

def uploadSessionTtlSeconds : Int :=
  60 * 60

namespace UploadSession

/-- The session has received its content. -/
def upload (session : UploadSession) : UploadSession :=
  { session with state := .uploaded, revision := session.revision + 1 }

/-- The time of the session is over. -/
def expire (session : UploadSession) : UploadSession :=
  { session with state := .expired }

/-- The content is not what the session announced. -/
def fail (session : UploadSession) : UploadSession :=
  { session with state := .failed, revision := session.revision + 1 }

/-- The content has become an object. -/
def commit (session : UploadSession) (objectId : Uuid) : UploadSession :=
  { session with
    state := .committed
    revision := session.revision + 1
    committedObjectId := some objectId }

end UploadSession

/-- What an import draws from outside: new identifiers, and the clock each time it is read. -/
structure ImportInputs where
  (sourceId versionId operationId jobId releaseId : Uuid)
  chunkIds : Nat → Uuid
  (capturedAt queuedAt releasedAt : DateTime)

namespace ImportItem

def kindText : SourceKind → String
  | .file => "file"
  | .url => "url"
  | .text => "text"
  | .object => "object"
  | .knowledgeCollection => "knowledge_collection"
  | .manual => "manual"

def purposeText : KnowledgePurpose → String
  | .publicUse => "public"
  | .internalUse => "internal"

/-- The item as `serde` writes it, fields in their declared order. -/
def json (item : ImportItem) : Json :=
  .object ([("client_item_id", .string item.clientItemId), ("kind", .string (kindText item.kind)),
      ("name", .string item.name), ("purpose", .string (purposeText item.purpose))]
    ++ Json.optionalField "text" (item.text.map .string)
    ++ Json.optionalField "url" (item.url.map .string)
    ++ Json.optionalField "object_id" (item.objectId.map fun id => .string id.toString)
    ++ Json.optionalField "knowledge_release_id" (item.knowledgeReleaseId.map fun id => .string id.toString))

end ImportItem

def importItemHash [Sha256] (item : ImportItem) : String :=
  sha256Hex (Text.bytes item.json.toText)

namespace MemoryKnowledgeRepository

open Op (read modify throw failIf okOr lift recover)

/-- `expect`: the thread panics when there is no value. -/
def expect {α : Type} (found : Option α) (message : String) : KnowledgeOp α :=
  okOr found (.new .internal message)

/-! ### Sources -/

/-- The source an import makes. -/
def newSource (scope : TenantScope) (projectId : ProjectId) (kind : SourceKind) (name : String)
    (purpose : KnowledgePurpose) (locator : SourceLocator) (fresh : ImportInputs) : Source where
  sourceId := fresh.sourceId
  operatorId := scope.operatorId
  tenantId := scope.tenantId
  projectId
  revision := 1
  kind
  name
  purpose
  state := .active
  locator
  currentVersionId := some fresh.versionId
  syncEnabled := false
  nextSyncAt := none
  lastSyncAt := none

/-- The first version of a source. -/
def newVersion (scope : TenantScope) (projectId : ProjectId) (object : Option StoredObject)
    (contentHash : String) (fresh : ImportInputs) : SourceVersion where
  sourceVersionId := fresh.versionId
  operatorId := scope.operatorId
  tenantId := scope.tenantId
  projectId
  sourceId := fresh.sourceId
  version := 1
  representation := .original
  objectId := object.map StoredObject.objectId
  objectVersion := object.map StoredObject.objectVersion
  contentSha256 := contentHash
  capturedAt := fresh.capturedAt
  originalUrl := none
  parentVersionId := none
  parserVersion := "deterministic-text-v1"
  extractionVersion := "none-v1"
  createdAt := fresh.capturedAt

/-- A job of a new source, before anything is known about its outcome. -/
def newJob (scope : TenantScope) (projectId : ProjectId) (inputHash : String) (fresh : ImportInputs) : ImportJob where
  importJobId := fresh.jobId
  operatorId := scope.operatorId
  tenantId := scope.tenantId
  projectId
  operationId := fresh.operationId
  sourceId := fresh.sourceId
  sourceVersionId := none
  stage := .parse
  status := .queued
  attempt := 1
  leaseUntil := none
  inputHash
  stageOutputRefs := []
  completedUnits := 0
  failedUnits := 0
  errors := []
  resumedFrom := none

/-! ### Immediate imports -/

section

variable [Sha256] [CsvChunks]

/-- The source of an imported text: a fetched page, a stored object, or the request itself. -/
def textLocator (object : Option StoredObject) (page : Option FetchedUrlPage) : SourceLocator :=
  match page, object with
  | some page, _ => .web page.requestedUrl page.finalUrl page.capturedAt
  | none, some object => .object object.objectId object.objectVersion
  | none, none => .inlineText

/-- The chunks of a fetched page name the page. -/
def pageChunks (object : Option StoredObject) (page : Option FetchedUrlPage) (chunks : List Chunk) :
    Except AppError (List Chunk) :=
  match page, object with
  | none, _ => .ok chunks
  | some _, none => .error (.new .internal "URL import supplies its snapshot")
  | some page, some object =>
    .ok (chunks.map fun chunk =>
      { chunk with
        extractionMethod := page.parserVersion
        locator := .web object.objectId page.requestedUrl none none none })

/-- The records an immediate import stores. -/
structure TextImport where
  source : Source
  version : SourceVersion
  chunks : List Chunk
  job : ImportJob
  operation : Operation

variable (scope : TenantScope)

/-- The source of an immediate import. -/
def importedSource (projectId : ProjectId) (item : ImportItem)
    (object : Option StoredObject) (page : Option FetchedUrlPage) (fresh : ImportInputs) : Source :=
  { newSource scope projectId item.kind item.name item.purpose (textLocator object page) fresh with
    lastSyncAt := page.map FetchedUrlPage.capturedAt }

/-- The version of an immediate import. A page was captured when it was fetched. -/
def importedVersion (projectId : ProjectId) (object : Option StoredObject)
    (page : Option FetchedUrlPage) (hash mediaType : String) (fresh : ImportInputs) : SourceVersion :=
  { newVersion scope projectId object hash fresh with
    parserVersion := (page.map FetchedUrlPage.parserVersion).getD (knowledgeParserVersion mediaType)
    capturedAt := (page.map FetchedUrlPage.capturedAt).getD fresh.capturedAt
    originalUrl := page.map FetchedUrlPage.requestedUrl }

/-- The job of an immediate import: it has already succeeded. -/
def importedJob (projectId : ProjectId) (hash : String) (chunks : List Chunk) (fresh : ImportInputs) : ImportJob :=
  { newJob scope projectId hash fresh with
    sourceVersionId := some fresh.versionId
    stage := .release
    status := .succeeded
    stageOutputRefs := ["chunks:" ++ toString chunks.length]
    completedUnits := chunks.length }

/-- The operation of an immediate import. -/
def importedOperation (fresh : ImportInputs) : Operation :=
  { Operation.queued "knowledge.import" scope fresh.operationId fresh.queuedAt with
    status := .succeeded }

/-- The checks of an immediate import and the records it makes. Nothing is written yet. -/
def prepareText (item : ImportItem) (text : String)
    (object : Option StoredObject) (page : Option FetchedUrlPage) (fresh : ImportInputs) :
    Except AppError TextImport := do
  Except.failIf (object = none ∧ maxInlineTextBytes < len text)
    (.invalidRequest "text exceeds inline limit; use an upload session")
  Except.failIf (isBlank text) (.invalidRequest "text must not be empty")
  let projectId ← Except.okOr scope.projectId (.new .internal "validated project scope")
  let hash := (page.map fun page => sha256Hex page.rawBytes).getD (sha256Hex (Text.bytes text))
  let mediaType := ((object.filter fun _ => page.isNone).map StoredObject.detectedMediaType).getD "text/plain"
  let chunks ← parsedKnowledgeChunks scope projectId fresh.versionId text mediaType fresh.chunkIds
  let chunks ← pageChunks object page chunks
  pure
    { source := importedSource scope projectId item object page fresh
      version := importedVersion scope projectId object page hash mediaType fresh
      chunks
      job := importedJob scope projectId hash chunks fresh
      operation := importedOperation scope fresh }

/-- Store the records of an immediate import. -/
def storeText (records : TextImport) (s : MemoryState) : MemoryState :=
  (((s.insertSource records.source).insertVersion records.version).insertChunks
    records.version.sourceVersionId records.chunks).insertJob records.job

/-- Store the object an import was made from, with its bytes when they were fetched. -/
def storeObject (object : Option StoredObject) (bytes : Option (List UInt8)) (s : MemoryState) : MemoryState :=
  match object, bytes with
  | none, _ => s
  | some object, none => s.insertObject object
  | some object, some bytes => (s.insertObjectBytes object.objectId bytes).insertObject object

/-- The operation of an immediate import names what it made. -/
def TextImport.reported (records : TextImport) (release : KnowledgeRelease) : Operation :=
  { records.operation with
    result := some (.imported records.source.sourceId records.version.sourceVersionId release.knowledgeReleaseId) }

/-- The answer to an immediate import. -/
def TextImport.acceptance (records : TextImport) (clientItemId : String)
    (release : KnowledgeRelease) : ImportAcceptance where
  clientItemId
  status := .succeeded
  source := some records.source
  sourceVersion := some records.version
  importJob := some records.job
  operation := some (records.reported release)
  release := some release
  error := none

def importTextLocked (item : ImportItem) (text : String)
    (object : Option StoredObject) (page : Option FetchedUrlPage) (fresh : ImportInputs) :
    KnowledgeOp ImportAcceptance := do
  let records ← lift (prepareText scope item text object page fresh)
  modify (storeText records)
  modify (storeObject object (page.map FetchedUrlPage.rawBytes))
  let release ← makeReleaseLocked scope fresh.releaseId fresh.releasedAt
  modify (MemoryState.setOperation records.operation.id (records.reported release))
  pure (records.acceptance item.clientItemId release)

end

/-! ### Queued and refused imports -/

variable (scope : TenantScope)

/-- The source of a queued import has no version yet. -/
def queuedSource (projectId : ProjectId) (item : ImportItem) (object : StoredObject) (fresh : ImportInputs) : Source :=
  { newSource scope projectId item.kind item.name item.purpose
      (.object object.objectId object.objectVersion) fresh with currentVersionId := none }

/-- A document no worker has seen yet. -/
def queuedParse {p : Parser} (object : StoredObject) (profile : String) (extra : p.Extra)
    (fresh : ImportInputs) : ParseState p where
  objectId := object.objectId
  parserProfile := profile
  createdAt := fresh.queuedAt
  manifest := none
  units := ∅
  lease := none
  fencingToken := 0
  acceptance := none
  extra

/-- The answer to a queued import. -/
def queuedAcceptance (item : ImportItem) (source : Source) (job : ImportJob)
    (operation : Operation) : ImportAcceptance where
  clientItemId := item.clientItemId
  status := .queued
  source := some source
  sourceVersion := none
  importJob := some job
  operation := some operation
  release := none
  error := none

/-- `queue_pdf_locked` and `queue_office_locked`: a job for a document that has a parser. -/
def queueParse (p : Parser) (scope : TenantScope) (item : ImportItem) (object : StoredObject)
    (profile : String) (extra : p.Extra) (fresh : ImportInputs) : KnowledgeOp ImportAcceptance := do
  let projectId ← expect scope.projectId "validated project scope"
  let source := queuedSource scope projectId item object fresh
  let operation := Operation.queued "knowledge.import" scope fresh.operationId fresh.queuedAt
  let job := newJob scope projectId object.sha256 fresh
  modify (MemoryState.setParse p fresh.jobId (queuedParse object profile extra fresh))
  modify (MemoryState.setOperation fresh.operationId operation)
  modify (MemoryState.insertSource source)
  modify (MemoryState.insertJob job)
  pure (queuedAcceptance item source job operation)

def queuePdfLocked (profiles : ParserProfiles) (scope : TenantScope) (item : ImportItem)
    (object : StoredObject) (fresh : ImportInputs) : KnowledgeOp ImportAcceptance := do
  let profile ← expect profiles.pdfParserProfile "configured PDF parser"
  queueParse .pdf scope item object profile none fresh

def queueOfficeLocked (profiles : ParserProfiles) (scope : TenantScope) (item : ImportItem)
    (object : StoredObject) (format : OfficeFormat) (fresh : ImportInputs) : KnowledgeOp ImportAcceptance := do
  let profile ← expect (profiles.officeProfile format) "configured parser"
  queueParse .office scope item object profile format fresh

/-- The source of an import that no adapter can carry out. -/
def pendingSource (projectId : ProjectId) (item : ImportItem) (capability : String) (fresh : ImportInputs) : Source :=
  { newSource scope projectId item.kind item.name item.purpose (.pending capability) fresh with
    currentVersionId := none }

/-- The job of an import that no adapter can carry out: it has already failed. -/
def pendingJob [Sha256] (scope : TenantScope) (projectId : ProjectId) (item : ImportItem)
    (capability : String) (fresh : ImportInputs) : ImportJob :=
  { newJob scope projectId (sha256Hex (Text.bytes item.clientItemId)) fresh with
    stage := .acquire
    status := .failed
    attempt := 0
    errors := [{ code := "capability_missing", page := none, unitId := none, format := none
                 capability := some capability }] }

/-- The records of an import that no adapter can carry out. -/
def failedMissingAdapter [Sha256] (scope : TenantScope) (item : ImportItem) (capability : String)
    (fresh : ImportInputs) : KnowledgeOp ImportAcceptance := do
  let projectId ← expect scope.projectId "validated project scope"
  let error := AppError.capabilityMissing (capability ++ " is not configured")
  pure
    { clientItemId := item.clientItemId
      status := .failed
      source := some (pendingSource scope projectId item capability fresh)
      sourceVersion := none
      importJob := some (pendingJob scope projectId item capability fresh)
      operation := some
        { Operation.queued "knowledge.import" scope fresh.operationId fresh.queuedAt with
          status := .failed
          error := some error }
      release := none
      error := some error }

/-- Store the source and the job of an acceptance that has no version. -/
def insertPending (acceptance : ImportAcceptance) : KnowledgeOp Unit := do
  match acceptance.source with
  | none => pure ()
  | some source => modify (MemoryState.insertSource source)
  match acceptance.importJob with
  | none => pure ()
  | some job => modify (MemoryState.insertJob job)

/-- An acceptance with a version has stored its records already. -/
def insertUnversioned (acceptance : ImportAcceptance) : KnowledgeOp Unit :=
  match acceptance.sourceVersion with
  | some _ => pure ()
  | none => insertPending acceptance

/-! ### Upload sessions -/

def validateSha256 (value : String) : Except AppError Unit :=
  Except.failIf (len value ≠ 64 ∨ ¬ value.toList.all isAsciiHexdigit)
    (.invalidRequest "expected_sha256 must be a 64-character hexadecimal SHA-256")

def validateUpload (command : UploadSessionCommand) : Except AppError Unit := do
  Except.failIf (isBlank command.filename ∨ 255 < len command.filename)
    (.invalidRequest "filename must be between 1 and 255 characters")
  Except.failIf (isBlank command.declaredMediaType ∨ 255 < len command.declaredMediaType)
    (.invalidRequest "declared_media_type is required")
  Except.failIf (command.expectedSize = 0 ∨ maxUploadBytes < command.expectedSize)
    (.invalidRequest ("expected_size must be between 1 and " ++ toString maxUploadBytes))
  validateSha256 command.expectedSha256

/-- A session for a file that was announced. -/
def newSession (projectId : ProjectId) (command : UploadSessionCommand)
    (id : Uuid) (now : DateTime) : UploadSession where
  uploadSessionId := id
  operatorId := scope.operatorId
  tenantId := scope.tenantId
  projectId
  revision := 1
  filename := trim command.filename
  declaredMediaType := normalizeMediaType command.declaredMediaType
  expectedSize := command.expectedSize
  expectedSha256 := toAsciiLowercase command.expectedSha256
  purpose := command.purpose
  state := .created
  expiresAt := now + DateTime.seconds uploadSessionTtlSeconds
  stagingObjectRef := some ("memory-staging/" ++ id.toString)
  committedObjectId := none
  operationId := none

def createUploadSession (command : UploadSessionCommand) (id : Uuid) (now : DateTime) : KnowledgeOp UploadSession := do
  let projectId ← requireProject scope
  lift (validateUpload command)
  let session := newSession scope projectId command id now
  modify (MemoryState.setSession id session)
  pure session

/-- The session a caller may see. -/
def visibleSession (id : Uuid) : KnowledgeOp UploadSession := do
  let found ← read fun s => (s.uploadSessions.lookup id).filter (inScope scope)
  okOr found (.notFound "upload session not found")

/-- A session whose time is over is marked, whatever state it is in. -/
def expireSession (id : Uuid) (session : UploadSession) (now : DateTime) : KnowledgeOp Unit :=
  if session.expiresAt ≤ now then do
    modify (MemoryState.setSession id session.expire)
    throw (.conflict "upload session has expired")
  else pure ()

/-- Content that is not what the session announced fails the session. -/
def checkContent [Sha256] (id : Uuid) (session : UploadSession) (content : List UInt8) : KnowledgeOp Unit :=
  if content.length ≠ session.expectedSize ∨ sha256Hex content ≠ session.expectedSha256 then do
    modify (MemoryState.setSession id session.fail)
    throw (.invalidRequest "uploaded content size or sha256 does not match upload session")
  else pure ()

def putUploadContent (id : Uuid) (content : List UInt8) (now : DateTime) : KnowledgeOp UploadSession := do
  let _ ← requireProject scope
  let session ← visibleSession scope id
  expireSession id session now
  failIf (session.state ≠ .created ∧ session.state ≠ .uploading ∧ session.state ≠ .uploaded)
    (.conflict "upload session cannot accept content")
  failIf (session.expectedSize < content.length ∨ maxUploadBytes < content.length)
    (.invalidRequest "uploaded content exceeds declared size")
  modify (MemoryState.setSession id session.upload)
  modify (MemoryState.insertUploadBytes id content)
  pure session.upload

/-- What a completion draws from outside, besides what its import draws. -/
structure CompletionInputs where
  (objectId opaqueId : Uuid)
  (checkedAt createdAt : DateTime)

/-- The object that the content of a session becomes. -/
def committedObject (projectId : ProjectId) (session : UploadSession)
    (size : Nat) (sha256 : String) (fresh : CompletionInputs) : StoredObject where
  objectId := fresh.objectId
  operatorId := scope.operatorId
  tenantId := scope.tenantId
  projectId
  objectVersion := 1
  backend := "memory"
  opaqueKey := "memory-object/" ++ fresh.opaqueId.toString
  actualSize := size
  detectedMediaType := session.declaredMediaType
  sha256
  state := .committed
  createdAt := fresh.createdAt

section

variable [Sha256]

/-- An idempotency key is kept as the hash of its trimmed text. -/
def keyHash (idempotencyKey : String) : String :=
  sha256Hex (Text.bytes (trim idempotencyKey))

/-- The text of stored bytes: `String::from_utf8`. -/
def textOfBytes (bytes : List UInt8) : Except AppError String :=
  Except.okOr (String.fromUTF8? ⟨bytes.toArray⟩) (.invalidRequest "text upload bytes must be valid UTF-8")

variable [CsvChunks]

variable (scope : TenantScope) (profiles : ParserProfiles)

/-- Import the object of a completed upload. -/
def importUpload (scope : TenantScope) (session : UploadSession)
    (item : ImportItem) (object : StoredObject) (content : List UInt8) (fresh : ImportInputs) :
    KnowledgeOp ImportAcceptance := do
  if isSupportedKnowledgeMediaType session.declaredMediaType then do
    let text ← lift (textOfBytes content)
    importTextLocked scope item text (some object) none fresh
  else if session.declaredMediaType = "application/pdf" ∧ profiles.pdfParserProfile.isSome then do
    modify (MemoryState.insertObject object)
    queuePdfLocked profiles scope item object fresh
  else
    match profiles.queuedOfficeFormat session.declaredMediaType with
    | some format => do
      modify (MemoryState.insertObject object)
      queueOfficeLocked profiles scope item object format fresh
    | none => do
      let result ← failedMissingAdapter scope item "document_parser" fresh
      insertPending result
      modify (MemoryState.insertObject object)
      pure result

/-- The session after its content was committed. -/
def commitSession (id : Uuid) (objectId : Uuid) (operationId : Option Uuid) : KnowledgeOp Unit := do
  let found ← read fun s => s.uploadSessions.lookup id
  let session ← expect found "session remains present"
  modify (MemoryState.setSession id { session.commit objectId with operationId })

/-- The operation of a completed upload reports the session and the object. -/
def reportUpload (id : Uuid) (objectId : Uuid) (acceptance : ImportAcceptance) : ImportAcceptance :=
  { acceptance with
    operation := acceptance.operation.map fun operation =>
      { operation with
        result := some (.uploaded id objectId (acceptance.source.map Source.sourceId)
          (acceptance.release.map KnowledgeRelease.knowledgeReleaseId)) } }

def completeUpload (scope : TenantScope) (id : Uuid)
    (idempotencyKey : String) (completion : CompletionInputs) (fresh : ImportInputs) :
    KnowledgeOp ImportAcceptance := do
  let projectId ← requireProject scope
  failIf (isBlank idempotencyKey) (.invalidRequest "Idempotency-Key must not be empty")
  let stored ← read fun s => s.uploadCompletions.lookup (id, keyHash idempotencyKey)
  match stored with
  | some acceptance => pure acceptance
  | none => do
    let session ← visibleSession scope id
    expireSession id session completion.checkedAt
    failIf (session.state = .committed) (.conflict "upload session was completed with a different idempotency key")
    let found ← read fun s => s.uploadBytes.lookup id
    let content ← okOr found (.conflict "upload content has not been received")
    checkContent id session content
    let object := committedObject scope projectId session content.length (sha256Hex content)
      completion
    let item : ImportItem :=
      { clientItemId := "upload:" ++ id.toString
        kind := .file
        name := session.filename
        purpose := session.purpose
        text := none
        url := none
        objectId := some object.objectId
        knowledgeReleaseId := none }
    let acceptance ← importUpload profiles scope session item object content fresh
    modify (MemoryState.insertObjectBytes object.objectId content)
    let acceptance := reportUpload id object.objectId acceptance
    commitSession id object.objectId (acceptance.operation.map Operation.id)
    modify (MemoryState.insertUploadCompletion (id, keyHash idempotencyKey) acceptance)
    pure acceptance

def completeAttachmentUpload (id : Uuid) (idempotencyKey : String)
    (completion : CompletionInputs) : KnowledgeOp (StoredObject × String) := do
  let projectId ← requireProject scope
  failIf (isBlank idempotencyKey) (.invalidRequest "Idempotency-Key must not be empty")
  let session ← visibleSession scope id
  if session.state = .committed then do
    let imported ← read fun s => s.uploadCompletions.keys.any fun key => key.1 = id
    failIf (imported ∨ session.operationId.isSome) (.conflict "upload session was already imported")
    let stored ← read fun s => s.attachmentCompletions.lookup id
    failIf (stored ≠ some (keyHash idempotencyKey))
      (.conflict "upload session was completed with a different idempotency key")
    let objectId ← expect session.committedObjectId "committed object"
    let found ← read fun s => s.storedObjects.lookup objectId
    let object ← okOr found (.notFound "attachment object not found")
    pure (object, session.filename)
  else do
    expireSession id session completion.checkedAt
    failIf (session.state ≠ .uploaded) (.conflict "upload session content is not ready to complete")
    let found ← read fun s => s.uploadBytes.lookup id
    let content ← okOr found (.conflict "upload content has not been received")
    checkContent id session content
    let object := committedObject scope projectId session session.expectedSize (sha256Hex content) completion
    modify (MemoryState.insertObjectBytes object.objectId content)
    modify (MemoryState.insertObject object)
    modify (MemoryState.setSession id (session.commit object.objectId))
    modify (MemoryState.insertAttachmentCompletion id (keyHash idempotencyKey))
    pure (object, session.filename)

/-! ### Import items -/

/-- The acceptance stored for an item, or the refusal of an identifier that was used for another. -/
def storedItem (item : ImportItem) : KnowledgeOp (Option ImportAcceptance) := do
  let found ← read fun s => s.importItems.lookup (scope.storageKey, trim item.clientItemId)
  match found with
  | none => pure none
  | some (priorHash, prior) =>
    if priorHash = importItemHash item then pure (some prior)
    else pure (some (.refused item.clientItemId (.conflict "client_item_id was already used with different input")))

/-- Import an item of kind text. -/
def importTextItem (item : ImportItem) (fresh : ImportInputs) : KnowledgeOp ImportAcceptance := do
  let text ← okOr item.text (.invalidRequest "text imports require the text field")
  importTextLocked scope item text none none fresh

/-- Import the page that was fetched for an item of kind URL; without a fetcher there is none. -/
def importUrlItem (item : ImportItem)
    (fetched : Except AppError (Option FetchedUrlPage)) (objectId : Uuid) (fresh : ImportInputs) :
    KnowledgeOp ImportAcceptance := do
  let page ← lift fetched
  match page with
  | none => failedMissingAdapter scope item "url_fetch" fresh
  | some page => do
    failIf (item.url ≠ some page.requestedUrl ∨ page.rawBytes = []
        ∨ maxUploadBytes < page.rawBytes.length ∨ maxUploadBytes < len page.text
        ∨ isBlank page.parserVersion)
      (.invalidRequest "fetched URL page is invalid")
    let projectId ← requireProject scope
    let object : StoredObject :=
      { objectId
        operatorId := scope.operatorId
        tenantId := scope.tenantId
        projectId
        objectVersion := 1
        backend := "memory"
        opaqueKey := "url-snapshots/" ++ objectId.toString
        actualSize := page.rawBytes.length
        detectedMediaType := page.mediaType
        sha256 := sha256Hex page.rawBytes
        state := .committed
        createdAt := page.capturedAt }
    importTextLocked scope item page.text (some object) (some page) fresh

/-- The session that committed an object as an attachment in a scope. -/
def attachmentSession (objectId : Uuid) (s : MemoryState) : Option UploadSession :=
  (AssocMap.values s.uploadSessions).find? fun session =>
    session.committedObjectId = some objectId
      && (s.attachmentCompletions.lookup session.uploadSessionId).isSome && inScope scope session

/-- The committed object a caller may see. -/
def committedObjectIn (objectId : Uuid) (s : MemoryState) : Option StoredObject :=
  (s.storedObjects.lookup objectId).filter fun object => object.state = .committed && inScope scope object

/-- Import an attachment that was committed before. -/
def importObjectItem (scope : TenantScope) (item : ImportItem)
    (fresh : ImportInputs) : KnowledgeOp ImportAcceptance := do
  let id ← okOr item.objectId (.invalidRequest "object imports require object_id")
  let found ← read (committedObjectIn scope id)
  let object ← okOr found (.notFound "committed attachment object not found")
  let found ← read (attachmentSession scope id)
  let session ← okOr found (.notFound "committed attachment object not found")
  failIf (item.name ≠ session.filename) (.invalidRequest "object name does not match uploaded filename")
  let found ← read fun s => s.objectBytes.lookup id
  let bytes ← okOr found (.notFound "committed attachment bytes not found")
  failIf (bytes.length ≠ object.actualSize ∨ sha256Hex bytes ≠ object.sha256)
    (.conflict "committed attachment bytes do not match object metadata")
  if object.detectedMediaType = "application/pdf" ∧ profiles.pdfParserProfile.isSome then
    queuePdfLocked profiles scope item object fresh
  else
    match profiles.queuedOfficeFormat object.detectedMediaType with
    | some format => queueOfficeLocked profiles scope item object format fresh
    | none => do
      failIf (¬ isSupportedKnowledgeMediaType object.detectedMediaType)
        (.capabilityMissing "document_parser is not configured")
      let text ← lift (textOfBytes bytes)
      importTextLocked scope item text (some object) none fresh

/-- Import an item by its kind. A failure becomes the acceptance of the item. -/
def acceptItem (scope : TenantScope) (item : ImportItem) (fetched : Except AppError (Option FetchedUrlPage))
    (objectId : Uuid) (fresh : ImportInputs) : KnowledgeOp ImportAcceptance :=
  match item.kind with
  | .text => recover (importTextItem scope item fresh) (.refused item.clientItemId)
  | .url => recover (importUrlItem scope item fetched objectId fresh) (.refused item.clientItemId)
  | .object => recover (importObjectItem profiles scope item fresh) (.refused item.clientItemId)
  | .knowledgeCollection =>
    pure (.refused item.clientItemId (.capabilityMissing "knowledge collection materialization is not implemented"))
  | .file | .manual =>
    pure (.refused item.clientItemId
      (.invalidRequest "file imports require an upload session; manual imports require text"))

/-- The receipt lookup of one item of `import_batch`, before anything is fetched for it. -/
def importReceipt (item : ImportItem) : KnowledgeOp (Option ImportAcceptance) := do
  let _ ← requireProject scope
  let itemKey := trim item.clientItemId
  if itemKey = "" ∨ 200 < len itemKey then
    pure (some (.refused item.clientItemId (.invalidRequest "client_item_id is required and at most 200 characters")))
  else storedItem scope item

/-- One item of `import_batch` after its fetch. The receipt is looked up again under the lock. -/
def importItem (scope : TenantScope) (item : ImportItem)
    (fetched : Except AppError (Option FetchedUrlPage)) (objectId : Uuid) (fresh : ImportInputs) :
    KnowledgeOp ImportAcceptance := do
  let _ ← requireProject scope
  let stored ← storedItem scope item
  match stored with
  | some acceptance => pure acceptance
  | none => do
    let acceptance ← acceptItem profiles scope item fetched objectId fresh
    insertUnversioned acceptance
    modify (MemoryState.insertImportItem (scope.storageKey, trim item.clientItemId) (importItemHash item) acceptance)
    pure acceptance

end

end MemoryKnowledgeRepository

end GeoMaster
