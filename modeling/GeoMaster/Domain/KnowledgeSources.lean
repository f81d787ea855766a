import GeoMaster.Domain.KnowledgeParse

/-!
# Sources, releases and document manifests

The text of a source may be revised under an idempotency key. Everything else here reads: sources with
their versions, chunks and jobs, attachments, the progress of an import, releases, and the manifests
that plan documents from a release, which are stored once and then read back.
-/

namespace GeoMaster

open Text

/-! ### Progress -/

/-- Error codes that may be shown. -/
def progressErrorCodes : List String :=
  ["capability_missing", "invalid_request", "not_found", "conflict", "dependency_unavailable",
    "invalid_pdf", "encrypted_pdf", "parse_failed", "page_limit", "ocr_required", "empty_text",
    "invalid_docx", "invalid_xlsx", "encrypted_office", "unit_limit", "unsupported_content"]

/-- An error without the text a parser put into it. -/
def knowledgeImportProgressError (error : ImportError) : KnowledgeImportProgressError where
  code := if error.code ∈ progressErrorCodes then error.code else "import_failed"
  page := error.page.filter (0 < ·)
  unitId := error.unitId
  format := error.format

def knowledgeImportProgressAppError (error : AppError) : KnowledgeImportProgressError where
  code :=
    match error.code with
    | .invalidRequest => "invalid_request"
    | .unauthorized => "unauthorized"
    | .forbidden => "forbidden"
    | .notFound => "not_found"
    | .conflict => "conflict"
    | .notReady => "not_ready"
    | .capabilityMissing => "capability_missing"
    | .dependencyUnavailable => "dependency_unavailable"
    | .internal => "import_failed"
  page := none
  unitId := none
  format := none

/-! ### Document plans -/

inductive QuestionClusterState where
  | pendingResolution
  | resolved
  deriving DecidableEq

structure QuestionClusterScope where
  key : String
  state : QuestionClusterState
  deriving DecidableEq

structure DocumentScope where
  allActiveProducts : Bool
  (excludedProductIds markets languages contentTypes : List String)
  questionClusters : List QuestionClusterScope
  deriving DecidableEq

def QuestionClusterState.text : QuestionClusterState → String
  | pendingResolution => "pending_resolution"
  | resolved => "resolved"

/-- The scope as `serde` writes it, fields in their declared order. -/
def DocumentScope.json (scope : DocumentScope) : Json :=
  .object [("all_active_products", .bool scope.allActiveProducts),
    ("excluded_product_ids", .array (scope.excludedProductIds.map .string)),
    ("markets", .array (scope.markets.map .string)), ("languages", .array (scope.languages.map .string)),
    ("content_types", .array (scope.contentTypes.map .string)),
    ("question_clusters", .array (scope.questionClusters.map fun cluster =>
      .object [("key", .string cluster.key), ("state", .string cluster.state.text)]))]

def documentPlannerVersion : String :=
  "deterministic-document-v1"

def onDemandDocumentPlannerVersion : String :=
  "on-demand-document-v1"

/-- The values of a dimension: trimmed, sorted, each once, and a fallback when there is none. -/
def normalizedDimension (values : List String) (fallback : String) : List String :=
  let values := (((values.map trim).filter (· ≠ "")).insertionSort (· ≤ ·)).dedup
  if values = [] then [fallback] else values

section

variable [Sha256]

/-- The first sixteen bytes of a digest, marked as a UUID of version five. -/
def deterministicUuid (value : String) : Uuid :=
  let digits := ((sha256Hex (Text.bytes value)).toList.take 32).map hexValue
  let digits := (digits.set 12 5).set 16 (8 + digits[16]?.getD 0 % 4)
  ⟨BitVec.ofNat 128 (digits.foldl (fun n d => 16 * n + d) 0)⟩

/-- The values of one planned document. -/
structure DocumentDimensions where
  (market language contentType questionCluster : String)

def DocumentDimensions.documentKey (dimensions : DocumentDimensions) : String :=
  "project:" ++ sha256Hex (Text.bytes
    (Json.toText (.array [.string dimensions.market, .string dimensions.language,
      .string dimensions.contentType, .string dimensions.questionCluster])))

/-- Every combination of the values of the dimensions. -/
def documentDimensions (scope : DocumentScope) : List DocumentDimensions :=
  let markets := normalizedDimension scope.markets "default"
  let languages := normalizedDimension scope.languages "default"
  let contentTypes := normalizedDimension scope.contentTypes "company_profile"
  let questionClusters := normalizedDimension
    ((scope.questionClusters.filter fun cluster => cluster.state = .resolved).map QuestionClusterScope.key) "general"
  markets.flatMap fun market =>
    languages.flatMap fun language =>
      contentTypes.flatMap fun contentType =>
        questionClusters.map fun questionCluster =>
          { market, language, contentType, questionCluster }

/-- The branch of a manifest for one combination. -/
def plannedItem (manifestId knowledgeReleaseId : Uuid) (publicRefs : List Uuid)
    (dimensions : DocumentDimensions) : DocumentManifestItem :=
  let documentKey := dimensions.documentKey
  { documentManifestItemId := deterministicUuid (manifestId.toString ++ ":" ++ documentKey)
    manifestId
    knowledgeReleaseId
    documentKey
    contentType := dimensions.contentType
    productId := none
    market := dimensions.market
    language := dimensions.language
    state := if publicRefs = [] then .blocked else .planned
    blockReason :=
      if publicRefs = [] then some "knowledge_release_has_no_public_sources" else none
    dependencyHash := sha256Hex (Text.bytes (documentKey ++ "\n" ++ documentPlannerVersion ++ "\n"
      ++ ",".intercalate (publicRefs.map Uuid.toString)))
    sourceVersionRefs := publicRefs }

/-- The items of each state. -/
def manifestCoverage (items : List DocumentManifestItem) : DocumentManifestCoverage where
  total := items.length
  planned := (items.filter fun item => item.state = .planned).length
  blocked := (items.filter fun item => item.state = .blocked).length
  deferred := (items.filter fun item => item.state = .deferred).length
  notApplicable := (items.filter fun item => item.state = .notApplicable).length

/-- `plan_document_manifest`: the bounded set of documents of a release. -/
def plannedManifest (scope : TenantScope) (release : KnowledgeRelease) (manifestId : Uuid)
    (documentScope : DocumentScope) (publicRefs : List Uuid) : Except AppError DocumentManifest := do
  let projectId ← Except.okOr scope.projectId
    (.invalidRequest "project_id is required for document planning")
  Except.failIf (release.operatorId ≠ scope.operatorId ∨ release.tenantId ≠ scope.tenantId
      ∨ release.projectId ≠ projectId)
    (.notFound "knowledge release not found")
  let dimensions := documentDimensions documentScope
  let expectedCount := dimensions.length
  Except.failIf (2 ^ 64 ≤ expectedCount) (.invalidRequest "document coverage exceeds maximum")
  Except.failIf (10000 < expectedCount) (.invalidRequest "document coverage exceeds 10,000 planned items")
  let items := (dimensions.map
    (plannedItem manifestId release.knowledgeReleaseId publicRefs)).insertionSort fun a b =>
      a.documentKey ≤ b.documentKey
  pure
    { manifestId
      operatorId := scope.operatorId
      tenantId := scope.tenantId
      projectId
      revision := 1
      knowledgeReleaseId := release.knowledgeReleaseId
      plannerVersion := documentPlannerVersion
      state := .ready
      sealed := true
      expectedCount := some expectedCount
      scopeHash := sha256Hex (Text.bytes documentScope.json.toText)
      items
      coverage := manifestCoverage items }

end

namespace MemoryKnowledgeRepository

open Op (read modify throw failIf okOr lift recover)

section

variable [Sha256]

/-! ### Revisions of a text -/

def ReviseSourceTextCommand.validate (command : ReviseSourceTextCommand) : Except AppError Unit := do
  Except.failIf (command.mediaType ∉ ["text/plain", "text/markdown"])
    (.invalidRequest "media_type must be text/plain or text/markdown")
  Except.failIf (isBlank command.text ∨ maxInlineTextBytes < len command.text)
    (.invalidRequest "text must be nonblank and no more than 256 KiB")

/-- The hash of a revision request. -/
def revisionFingerprint (expectedRevision : Int) (command : ReviseSourceTextCommand) : String :=
  sha256Hex (Text.bytes (Json.toText (.array [.ofInt expectedRevision,
    .object [("base_version_id", .string command.baseVersionId.toString),
      ("media_type", .string command.mediaType), ("text", .string command.text)]])))

variable (scope : TenantScope) (id : Uuid)

/-- A parse job of the source has not ended. -/
def parseInProgress (sourceId : Uuid) (s : MemoryState) : Bool :=
  (AssocMap.values s.jobs).any fun job =>
    decide (job.sourceId = sourceId) && inScope scope job && decide (job.status = .queued ∨ job.status = .running)
      && ((s.pdfJobs.lookup job.importJobId).isSome || (s.officeJobs.lookup job.importJobId).isSome)

/-- The largest version number of a source, or the one given when it has no version. -/
def lastVersion (sourceId : Uuid) (base : Int) (s : MemoryState) : Int :=
  let numbers := ((AssocMap.values s.versions).filter fun version =>
    decide (version.sourceId = sourceId) && inScope scope version).map SourceVersion.version
  match numbers with
  | [] => base
  | first :: rest => rest.foldl max first

/-- What a revision draws from outside. -/
structure RevisionInputs where
  (versionId releaseId : Uuid)
  chunkIds : Nat → Uuid
  (now releasedAt : DateTime)

/-- The version a revision makes. -/
def revisedVersion (projectId : ProjectId) (sourceId : Uuid) (number : Int)
    (base : SourceVersion) (command : ReviseSourceTextCommand) (fresh : RevisionInputs) : SourceVersion where
  sourceVersionId := fresh.versionId
  operatorId := scope.operatorId
  tenantId := scope.tenantId
  projectId
  sourceId
  version := number
  representation := .authoredText
  objectId := none
  objectVersion := none
  contentSha256 := sha256Hex (Text.bytes command.text)
  capturedAt := fresh.now
  originalUrl := none
  parentVersionId := some base.sourceVersionId
  parserVersion := knowledgeParserVersion command.mediaType
  extractionVersion := "authored-text-v1"
  createdAt := fresh.now

/-- The source after a revision. -/
def revisedSource (source : Source) (versionId : Uuid) : Source :=
  { source with revision := source.revision + 1, currentVersionId := some versionId }

/-- Store a revision: the version with its chunks and its text, and the source that shows it. -/
def storeRevision (sourceId : Uuid) (source : Source) (version : SourceVersion)
    (chunks : List Chunk) (command : ReviseSourceTextCommand) (s : MemoryState) : MemoryState :=
  { (((s.insertVersion version).insertChunks version.sourceVersionId chunks).insertAuthoredText
      version.sourceVersionId command.mediaType command.text) with
    sources := s.sources.insert sourceId source }

def reviseSourceText [CsvChunks] (scope : TenantScope) (sourceId : Uuid) (expectedRevision : Int)
    (idempotencyKey : String) (command : ReviseSourceTextCommand) (fresh : RevisionInputs) :
    KnowledgeOp SourceTextRevisionReceipt := do
  let projectId ← requireProject scope
  lift (ReviseSourceTextCommand.validate command)
  failIf (idempotencyKey = "") (.invalidRequest "Idempotency-Key must not be empty")
  let fingerprint := revisionFingerprint expectedRevision command
  let receiptKey := (scope.storageKey, sourceId, sha256Hex (Text.bytes idempotencyKey))
  let stored ← read fun s => s.revisionReceipts.lookup receiptKey
  match stored with
  | some (storedHash, receipt) => do
    failIf (storedHash ≠ fingerprint)
      ((AppError.conflict "idempotency key reused for a different request").withDetails
        (.ofFields [("reason", .string "idempotency_conflict")]))
    pure receipt
  | none => do
    let found ← read fun s => (s.sources.lookup sourceId).filter (inScope scope)
    let source ← okOr found (.notFound "knowledge source not found")
    let found ← read fun s => (s.versions.lookup command.baseVersionId).filter fun version =>
      version.sourceId = sourceId && inScope scope version
    let base ← okOr found (.notFound "source version not found")
    failIf (source.state ≠ .active ∨ source.revision ≠ expectedRevision
        ∨ source.currentVersionId ≠ some base.sourceVersionId)
      ((AppError.conflict "knowledge source revision changed").withDetails
        (.ofFields [("reason", .string "source_revision_conflict")]))
    let inProgress ← read (parseInProgress scope sourceId)
    failIf (inProgress = true)
      ((AppError.conflict "source parse in progress").withDetails
        (.ofFields [("reason", .string "source_parse_in_progress")]))
    let last ← read (lastVersion scope sourceId base.version)
    let chunks ← lift (parsedKnowledgeChunks scope projectId fresh.versionId command.text
      command.mediaType fresh.chunkIds)
    let version := revisedVersion scope projectId sourceId (last + 1) base command fresh
    let source := revisedSource source fresh.versionId
    modify (storeRevision sourceId source version chunks command)
    let knowledgeRelease ← makeReleaseLocked scope fresh.releaseId fresh.releasedAt
    let receipt : SourceTextRevisionReceipt := { source, sourceVersion := version, knowledgeRelease }
    modify (MemoryState.insertRevisionReceipt receiptKey fingerprint receipt)
    pure receipt

/-! ### Attachments -/

def getAttachmentObject : KnowledgeOp (Option (StoredObject × String)) := do
  let _ ← requireProject scope
  let found ← read (committedObjectIn scope id)
  let session ← read (attachmentSession scope id)
  match found, session with
  | some object, some session => pure (some (object, session.filename))
  | _, _ => pure none

/-- `AttachmentObjectBytes::verified`. -/
def AttachmentObjectBytes.verified (object : StoredObject) (bytes : List UInt8) :
    Except AppError AttachmentObjectBytes :=
  if object.state ≠ .committed ∨ object.actualSize = 0 ∨ maxUploadBytes < object.actualSize
      ∨ bytes.length ≠ object.actualSize ∨ sha256Hex bytes ≠ object.sha256 then
    .error (.conflict "committed attachment bytes do not match object metadata")
  else .ok { object, bytes }

/-- A session that is committed as an attachment holds the object. -/
def isCommittedAttachment (objectId : Uuid) (s : MemoryState) : Bool :=
  (AssocMap.values s.uploadSessions).any fun session =>
    decide (session.committedObjectId = some objectId) && decide (session.state = .committed)
      && (s.attachmentCompletions.lookup session.uploadSessionId).isSome && inScope scope session

def getAttachmentObjectBytes (objectId : Uuid) (objectVersion : Int)
    (sha256 : String) : KnowledgeOp (Option AttachmentObjectBytes) := do
  let _ ← requireProject scope
  let found ← read fun s => (s.storedObjects.lookup objectId).filter fun object =>
    inScope scope object && decide (object.state = .committed)
      && decide (object.objectVersion = objectVersion) && decide (object.sha256 = sha256)
  match found with
  | none => pure none
  | some object => do
    let committed ← read (isCommittedAttachment scope objectId)
    if committed then do
      let found ← read fun s => s.objectBytes.lookup objectId
      let bytes ← okOr found (.conflict "committed attachment bytes do not match object metadata")
      let attachment ← lift (AttachmentObjectBytes.verified object bytes)
      pure (some attachment)
    else pure none

/-! ### Sources -/

def listSources : KnowledgeOp (List Source) := do
  let _ ← requireProject scope
  read fun s => ((AssocMap.values s.sources).filter (inScope scope)).insertionSort fun a b => a.sourceId ≤ b.sourceId

def getSource : KnowledgeOp (Option Source) := do
  let _ ← requireProject scope
  read fun s => (s.sources.lookup id).filter (inScope scope)

/-- The chunks of some versions, by version and ordinal. -/
def chunksOfVersions (versionIds : List Uuid) (s : MemoryState) : List Chunk :=
  ((AssocMap.values s.chunks).flatten.filter fun chunk =>
    chunk.sourceVersionId ∈ versionIds).insertionSort fun a b =>
      a.sourceVersionId < b.sourceVersionId ∨ (a.sourceVersionId = b.sourceVersionId ∧ a.ordinal ≤ b.ordinal)

def getSourceDetail : KnowledgeOp (Option SourceDetail) := do
  let _ ← requireProject scope
  read fun s =>
    ((s.sources.lookup id).filter (inScope scope)).map fun source =>
      let versions := (AssocMap.values s.versions).filter fun version =>
        decide (version.sourceId = id) && inScope scope version
      let chunks := chunksOfVersions (versions.map SourceVersion.sourceVersionId) s
      let chunkIds := chunks.map Chunk.chunkId
      { source
        versions
        chunks
        facts := (AssocMap.values s.facts).filter fun fact =>
          inScope scope fact && fact.evidenceRefs.any fun evidence => evidence.chunkId.getD Uuid.nil ∈ chunkIds
        importJobs := (AssocMap.values s.jobs).filter fun job => decide (job.sourceId = id) && inScope scope job }

/-- A version of a source a caller may see. -/
def versionOf (sourceId versionId : Uuid) (s : MemoryState) : Option SourceVersion :=
  (s.versions.lookup versionId).filter fun version => decide (version.sourceId = sourceId) && inScope scope version

def getSourceVersion (sourceId versionId : Uuid) : KnowledgeOp (Option SourceVersion) := do
  let _ ← requireProject scope
  read (versionOf scope sourceId versionId)

/-- The snapshot of a fetched page is what the version was made from. -/
def snapshotMatches (version : SourceVersion) (s : MemoryState) : Bool :=
  match version.objectId.bind (s.storedObjects.lookup ·), version.objectId.bind (s.objectBytes.lookup ·) with
  | some object, some bytes =>
    inScope scope object && decide (object.state = .committed
      ∧ some object.objectVersion = version.objectVersion ∧ bytes.length = object.actualSize
      ∧ sha256Hex bytes = object.sha256 ∧ object.sha256 = version.contentSha256)
  | _, _ => false

/-- The text a version was made from, when its object is a text. -/
def exactText (version : SourceVersion) (s : MemoryState) : Option (String × String) := do
  let objectId ← version.objectId
  let object ← s.storedObjects.lookup objectId
  let bytes ← s.objectBytes.lookup objectId
  if object.detectedMediaType ∈ ["text/plain", "text/markdown"]
      ∧ object.objectVersion = version.objectVersion.getD 0 ∧ bytes.length = object.actualSize
      ∧ sha256Hex bytes = object.sha256 ∧ object.sha256 = version.contentSha256 then do
    let text ← String.fromUTF8? ⟨bytes.toArray⟩
    pure (object.detectedMediaType, text)
  else none

def getSourceVersionContent (sourceId versionId : Uuid) : KnowledgeOp (Option SourceVersionContent) := do
  let _ ← requireProject scope
  let found ← read (versionOf scope sourceId versionId)
  match found with
  | none => pure none
  | some version => do
    let authored ← read fun s => s.authoredText.lookup versionId
    match authored with
    | some (mediaType, text) =>
      pure (some
        { sourceVersionId := versionId, representation := .authoredText, mediaType, text
          textBasis := .exact })
    | none => do
      let isSnapshot ← read (snapshotMatches scope version)
      failIf (version.originalUrl.isSome ∧ ¬ isSnapshot) (.conflict "URL snapshot bytes do not match source version")
      let text ← read (exactText version)
      match text with
      | some (mediaType, text) =>
        pure (some
          { sourceVersionId := versionId, representation := .original, mediaType, text
            textBasis := .exact })
      | none => do
        let chunks ← read fun s => (s.chunks.lookup versionId).getD []
        let chunks := chunks.insertionSort fun a b => a.ordinal ≤ b.ordinal
        pure (some
          { sourceVersionId := versionId, representation := .original, mediaType := "text/plain"
            text := "\n\n".intercalate (chunks.map Chunk.text), textBasis := .extracted })

def listProducts : KnowledgeOp (List Product) := do
  let _ ← requireProject scope
  read fun s => (AssocMap.values s.products).filter (inScope scope)

def listFacts : KnowledgeOp (List Fact) := do
  let _ ← requireProject scope
  read fun s => (AssocMap.values s.facts).filter (inScope scope)

def overview : KnowledgeOp KnowledgeOverview := do
  let _ ← requireProject scope
  read fun s =>
    { sourceCount := ((AssocMap.values s.sources).filter (inScope scope)).length
      factCount := ((AssocMap.values s.facts).filter (inScope scope)).length
      importingCount := ((AssocMap.values s.jobs).filter fun job =>
        inScope scope job && decide (job.status = .queued ∨ job.status = .running)).length
      currentReleaseId := s.currentRelease.lookup scope.storageKey }

/-! ### Progress of an import -/

/-- The receipt of a finished document agrees with its job. -/
def receiptMatches (job : ImportJob) (versionId releaseId : Uuid) (acceptance : ImportAcceptance) : Bool :=
  acceptance.status = job.status ∧ acceptance.importJob.map ImportJob.importJobId = some job.importJobId
    ∧ acceptance.sourceVersion.map SourceVersion.sourceVersionId = some versionId
    ∧ acceptance.release.map KnowledgeRelease.knowledgeReleaseId = some releaseId

/-- The object a version names is stored in scope with the bytes the job read. -/
def jobObjectMatches (job : ImportJob) (version : SourceVersion) (objectId : Uuid) (s : MemoryState) : Bool :=
  ((s.storedObjects.lookup objectId).filter fun object =>
    inScope scope object && decide (object.sha256 = job.inputHash
      ∧ version.objectVersion = some object.objectVersion)).isSome

/-- The records a finished job names, checked one against the other. -/
def checkFinishedJob (job : ImportJob) (source : Source) : KnowledgeOp (Uuid × Uuid) := do
  failIf (job.stage ≠ .release) (.conflict "import completion is inconsistent")
  let versionId ← okOr job.sourceVersionId (.conflict "import version is missing")
  let found ← read fun s => (s.versions.lookup versionId).filter fun version =>
    inScope scope version && decide (version.sourceId = job.sourceId ∧ version.contentSha256 = job.inputHash)
  let version ← okOr found (.conflict "import version is inconsistent")
  let found ← read fun s => (s.operations.lookup job.operationId).filter fun operation =>
    operation.scope = scope ∧ operation.status = .succeeded
  let operation ← okOr found (.conflict "import operation is inconsistent")
  let result ← okOr operation.result (.conflict "import result is missing")
  failIf (result.sourceId ≠ some source.sourceId ∨ result.sourceVersionId ≠ some version.sourceVersionId)
    (.conflict "import result is inconsistent")
  let releaseId ← okOr result.knowledgeReleaseId (.conflict "import release is missing")
  let found ← read fun s => (s.releases.lookup releaseId).filter fun release =>
    inScope scope release && decide (versionId ∈ release.sourceVersionRefs)
  let release ← okOr found (.conflict "import release is inconsistent")
  let pdf ← read fun s => s.pdfJobs.lookup job.importJobId
  let office ← read fun s => s.officeJobs.lookup job.importJobId
  match pdf, office with
  | some pdf, _ => do
    let isObject ← read (jobObjectMatches scope job version pdf.objectId)
    failIf (¬ isObject ∨ version.objectId ≠ some pdf.objectId) (.conflict "import object is inconsistent")
    let acceptance ← okOr pdf.acceptance (.conflict "PDF final receipt is missing")
    failIf (¬ receiptMatches job versionId releaseId acceptance
        ∨ acceptance.source.map Source.sourceId ≠ some source.sourceId)
      (.conflict "PDF final receipt is inconsistent")
  | none, some office => do
    let isObject ← read (jobObjectMatches scope job version office.objectId)
    failIf (¬ isObject ∨ version.objectId ≠ some office.objectId) (.conflict "Office import object is inconsistent")
    let acceptance ← okOr office.acceptance (.conflict "Office final receipt is missing")
    failIf (¬ receiptMatches job versionId releaseId acceptance) (.conflict "Office final receipt is inconsistent")
  | none, none =>
    match version.objectId with
    | none => pure ()
    | some objectId => do
      let isObject ← read (jobObjectMatches scope job version objectId)
      failIf (¬ isObject) (.conflict "import object is inconsistent")
  pure (versionId, release.knowledgeReleaseId)

def progressForJobLocked (job : ImportJob) (purpose : KnowledgePurpose) :
    KnowledgeOp (Option KnowledgeImportProgress) := do
  let found ← read fun s => (s.sources.lookup job.sourceId).filter fun source =>
    inScope scope source && decide (source.state = .active
      ∧ (purpose = .internalUse ∨ source.purpose = .publicUse))
  match found with
  | none => pure none
  | some source => do
    let progress : KnowledgeImportProgress :=
      { importJobId := some job.importJobId
        status := job.status
        stage := some job.stage
        sourceId := some source.sourceId
        sourceVersionId := none
        knowledgeReleaseId := none
        completedUnits := job.completedUnits
        failedUnits := job.failedUnits
        errorCount := min job.errors.length (2 ^ 32 - 1)
        errors := (job.errors.take 100).map knowledgeImportProgressError }
    if job.status = .succeeded ∨ job.status = .partialImport then do
      let (versionId, releaseId) ← checkFinishedJob scope job source
      pure (some { progress with
        sourceVersionId := some versionId
        knowledgeReleaseId := some releaseId })
    else pure (some progress)

def getImportProgress (jobId : Uuid) (purpose : KnowledgePurpose) : KnowledgeOp (Option KnowledgeImportProgress) := do
  let _ ← requireProject scope
  let found ← read fun s => (s.jobs.lookup jobId).filter (inScope scope)
  match found with
  | none => pure none
  | some job => progressForJobLocked scope job purpose

/-- The progress of an item whose receipt names no job. -/
def progressWithoutJob (expected : ImportItem) (receipt : ImportAcceptance) :
    KnowledgeOp (Option KnowledgeImportProgress) := do
  failIf (receipt.status ≠ .failed ∨ receipt.sourceVersion.isSome ∨ receipt.release.isSome)
    (.conflict "import receipt is inconsistent")
  let visible ← read fun s => receipt.source.all fun source =>
    ((s.sources.lookup source.sourceId).filter fun current =>
      inScope scope current && decide (current.state = .active
        ∧ current.purpose = expected.purpose)).isSome
  if visible then
    pure (some
      { importJobId := none
        status := .failed
        stage := none
        sourceId := receipt.source.map Source.sourceId
        sourceVersionId := none
        knowledgeReleaseId := none
        completedUnits := 0
        failedUnits := 0
        errorCount := if receipt.error.isSome then 1 else 0
        errors := (receipt.error.map knowledgeImportProgressAppError).toList })
  else pure none

def resolveImportReceipt (expected : ImportItem) : KnowledgeOp (Option KnowledgeImportProgress) := do
  let _ ← requireProject scope
  let found ← read fun s => s.importItems.lookup (scope.storageKey, trim expected.clientItemId)
  match found with
  | none => pure none
  | some (hash, receipt) => do
    failIf (hash ≠ importItemHash expected) (.conflict "client_item_id was already used with different input")
    match receipt.importJob with
    | none => progressWithoutJob scope expected receipt
    | some job => do
      let found ← read fun s => (s.jobs.lookup job.importJobId).filter (inScope scope)
      let current ← okOr found (.conflict "import receipt job is inconsistent")
      failIf (job.sourceId ≠ current.sourceId ∨ job.operationId ≠ current.operationId
          ∨ receipt.source.map Source.sourceId ≠ some current.sourceId)
        (.conflict "import receipt job is inconsistent")
      let found ← read fun s => (s.sources.lookup current.sourceId).filter fun source =>
        inScope scope source && decide (source.state = .active ∧ source.purpose = expected.purpose)
      match found with
      | none => pure none
      | some _ => progressForJobLocked scope current expected.purpose

/-! ### Releases and manifests -/

def currentRelease : KnowledgeOp CurrentKnowledgeRelease := do
  let projectId ← requireProject scope
  read fun s =>
    let releaseId := s.currentRelease.lookup scope.storageKey
    { projectId
      knowledgeReleaseId := releaseId
      sequence := (releaseId.bind fun id => s.releases.lookup id).map KnowledgeRelease.sequence }

def getRelease : KnowledgeOp (Option KnowledgeRelease) := do
  let _ ← requireProject scope
  read fun s => (s.releases.lookup id).filter (inScope scope)

def getDocumentManifest : KnowledgeOp (Option DocumentManifest) := do
  let _ ← requireProject scope
  read fun s => (s.documentManifests.lookup id).filter (inScope scope)

/-- The versions of a release whose source is public, in order. -/
def publicVersions (release : KnowledgeRelease) (s : MemoryState) : List Uuid :=
  (release.sourceVersionRefs.filter fun id =>
    match s.versions.lookup id with
    | none => false
    | some version =>
      ((s.sources.lookup version.sourceId).filter fun source =>
        source.purpose = .publicUse).isSome).insertionSort (· ≤ ·)

/-- The source plans between a read lock and a write lock. A release never changes, and neither does the
purpose of a source, so planning under one lock gives the same manifest. -/
def planDocumentManifest (request : DocumentManifestPlanRequest)
    (documentScope : DocumentScope) : KnowledgeOp DocumentManifest := do
  let _ ← requireProject scope
  let found ← read fun s => (s.releases.lookup request.knowledgeReleaseId).filter (inScope scope)
  let release ← okOr found (.notFound "knowledge release not found")
  let publicRefs ← read (publicVersions release)
  let manifest ← lift (plannedManifest scope release request.manifestId documentScope publicRefs)
  let stored ← read fun s => s.documentManifests.lookup request.manifestId
  match stored with
  | some existing => do
    failIf (existing.knowledgeReleaseId ≠ request.knowledgeReleaseId ∨ existing.scopeHash ≠ manifest.scopeHash
        ∨ existing.plannerVersion ≠ manifest.plannerVersion)
      (.conflict "document manifest ID was already used with different planning input")
    pure existing
  | none => do
    modify (MemoryState.insertManifest manifest)
    pure manifest

/-- The version an on-demand branch selects: in the release, and the current one of a public source. -/
def checkSelectedVersion (release : KnowledgeRelease) (s : MemoryState) (id : Uuid) : Except AppError Unit := do
  let version ← Except.okOr ((s.versions.lookup id).filter fun version =>
      inScope scope version && decide (id ∈ release.sourceVersionRefs))
    (.conflict "selected source is outside frozen release")
  Except.failIf (((s.sources.lookup version.sourceId).filter fun source =>
      inScope scope source && decide (source.state = .active ∧ source.purpose = .publicUse
        ∧ source.currentVersionId = some id)) = none)
    (.conflict "selected source is no longer public or current")

/-- The branches of an on-demand manifest, with the keys and the identifiers of those before them. -/
def checkOnDemandItems (scope : TenantScope) (release : KnowledgeRelease) (manifestId : Uuid) (s : MemoryState)
    (keys : List String) (itemIds : List Uuid) : List DocumentManifestItem → Except AppError Unit
  | [] => .ok ()
  | item :: rest => do
    Except.failIf (item.manifestId ≠ manifestId
        ∨ item.knowledgeReleaseId ≠ release.knowledgeReleaseId ∨ item.state ≠ .planned
        ∨ item.documentKey ∈ keys ∨ item.documentManifestItemId ∈ itemIds
        ∨ item.sourceVersionRefs = [])
      (.invalidRequest "on-demand manifest has inconsistent branches")
    let _ ← item.sourceVersionRefs.forM (checkSelectedVersion scope release s)
    checkOnDemandItems scope release manifestId s (item.documentKey :: keys)
      (item.documentManifestItemId :: itemIds) rest

def saveOnDemandManifest (manifest : DocumentManifest) : KnowledgeOp DocumentManifest := do
  let projectId ← requireProject scope
  failIf (manifest.operatorId ≠ scope.operatorId ∨ manifest.tenantId ≠ scope.tenantId ∨ manifest.projectId ≠ projectId)
    (.forbidden "manifest is outside project scope")
  failIf (manifest.plannerVersion ≠ onDemandDocumentPlannerVersion ∨ manifest.sealed = false
      ∨ manifest.expectedCount ≠ some (manifest.items.length : Int) ∨ manifest.items = [])
    (.invalidRequest "sealed on-demand manifest required")
  let stored ← read fun s => s.documentManifests.lookup manifest.manifestId
  match stored with
  | some existing => do
    failIf (existing.operatorId ≠ scope.operatorId ∨ existing.tenantId ≠ scope.tenantId
        ∨ existing.projectId ≠ projectId ∨ existing.scopeHash ≠ manifest.scopeHash
        ∨ existing.plannerVersion ≠ manifest.plannerVersion)
      (.conflict "content request ID was already used with different input")
    pure existing
  | none => do
    let found ← read fun s => (s.releases.lookup manifest.knowledgeReleaseId).filter (inScope scope)
    let release ← okOr found (.notFound "knowledge release not found")
    let checked ← read fun s => checkOnDemandItems scope release manifest.manifestId s [] [] manifest.items
    lift checked
    modify (MemoryState.insertManifest manifest)
    pure manifest

end

end MemoryKnowledgeRepository

end GeoMaster
