import GeoMaster.Domain.Evidence
import GeoMaster.Lib.AssocMap
import GeoMaster.Lib.Op

/-!
# Records of the knowledge store

Upload sessions and the objects they commit, sources with their immutable versions and chunks, import
jobs, operations, releases and document manifests. Every record names its operator, tenant and project,
and `inScope` compares them with a caller's scope. Sizes and counts are naturals; the confidence of a
chunk is left out.
-/

namespace GeoMaster

/-! ### Enumerations -/

inductive KnowledgePurpose where
  | publicUse
  | internalUse
  deriving DecidableEq

inductive UploadSessionState where
  | created
  | uploading
  | uploaded
  | committed
  | failed
  | expired
  | cancelled
  deriving DecidableEq

inductive StoredObjectState where
  | staged
  | committed
  deriving DecidableEq

inductive SourceKind where
  | file
  | url
  | text
  | object
  | knowledgeCollection
  | manual
  deriving DecidableEq

inductive SourceState where
  | active
  | removed
  deriving DecidableEq

inductive ImportStage where
  | acquire
  | parse
  | extract
  | index
  | release
  deriving DecidableEq

inductive ImportStatus where
  | queued
  | running
  | partialImport
  | succeeded
  | failed
  | cancelled
  deriving DecidableEq

inductive ChunkKind where
  | paragraph
  | table
  | imageDescription
  deriving DecidableEq

inductive SourceVersionRepresentation where
  | original
  | authoredText
  deriving DecidableEq

inductive SourceTextBasis where
  | exact
  | extracted

inductive OperationStatus where
  | queued
  | running
  | succeeded
  | failed
  deriving DecidableEq

inductive OfficeFormat where
  | docx
  | xlsx
  deriving DecidableEq

/-! ### Scopes -/

/-- Records that belong to one project of one tenant. -/
class ScopedKnowledge (α : Type) where
  operatorId : α → OperatorId
  tenantId : α → TenantId
  projectId : α → ProjectId

namespace ScopedKnowledge

variable {α : Type} [ScopedKnowledge α]

/-- The scope a record belongs to. -/
def scope (item : α) : TenantScope where
  operatorId := operatorId item
  tenantId := tenantId item
  projectId := some (projectId item)

end ScopedKnowledge

/-- Whether a record belongs to exactly the scope of a caller. -/
def inScope {α : Type} [ScopedKnowledge α] (scope : TenantScope) (item : α) : Bool :=
  ScopedKnowledge.operatorId item = scope.operatorId ∧ ScopedKnowledge.tenantId item = scope.tenantId
    ∧ scope.projectId = some (ScopedKnowledge.projectId item)

theorem inScope_iff {α : Type} [ScopedKnowledge α] {scope : TenantScope} {item : α} :
    inScope scope item = true ↔ ScopedKnowledge.scope item = scope := by
  obtain ⟨operator, tenant, project⟩ := scope
  simp only [inScope, ScopedKnowledge.scope, decide_eq_true_eq, TenantScope.mk.injEq]
  exact and_congr_right' (and_congr_right' eq_comm)

/-- The text that stands for an operator and a tenant in a key. -/
def TenantScope.storageKey (scope : TenantScope) : String :=
  match scope.projectId with
  | some projectId =>
    scope.operatorId.asUuid.toString ++ ":" ++ scope.tenantId.asUuid.toString ++ ":" ++ projectId.asUuid.toString
  | none => scope.operatorId.asUuid.toString ++ ":" ++ scope.tenantId.asUuid.toString

/-! ### Uploads and objects -/

structure UploadSession where
  uploadSessionId : Uuid
  operatorId : OperatorId
  tenantId : TenantId
  projectId : ProjectId
  revision : Int
  (filename declaredMediaType : String)
  expectedSize : Nat
  expectedSha256 : String
  purpose : KnowledgePurpose
  state : UploadSessionState
  expiresAt : DateTime
  stagingObjectRef : Option String
  (committedObjectId operationId : Option Uuid)

structure StoredObject where
  objectId : Uuid
  operatorId : OperatorId
  tenantId : TenantId
  projectId : ProjectId
  objectVersion : Int
  (backend opaqueKey : String)
  actualSize : Nat
  (detectedMediaType sha256 : String)
  state : StoredObjectState
  createdAt : DateTime
  deriving DecidableEq

/-- The original bytes of a committed attachment. -/
structure AttachmentObjectBytes where
  object : StoredObject
  bytes : List UInt8

/-! ### Sources and chunks -/

/-- Where a source comes from. The memory store writes these shapes and no other. -/
inductive SourceLocator where
  | object (objectId : Uuid) (objectVersion : Int)
  | inlineText
  | web (url finalUrl : String) (capturedAt : DateTime)
  | pending (capability : String)
  deriving DecidableEq

structure Source where
  sourceId : Uuid
  operatorId : OperatorId
  tenantId : TenantId
  projectId : ProjectId
  revision : Int
  kind : SourceKind
  name : String
  purpose : KnowledgePurpose
  state : SourceState
  locator : SourceLocator
  currentVersionId : Option Uuid
  syncEnabled : Bool
  (nextSyncAt lastSyncAt : Option DateTime)
  deriving DecidableEq

structure SourceVersion where
  sourceVersionId : Uuid
  operatorId : OperatorId
  tenantId : TenantId
  projectId : ProjectId
  sourceId : Uuid
  version : Int
  representation : SourceVersionRepresentation
  objectId : Option Uuid
  objectVersion : Option Int
  contentSha256 : String
  capturedAt : DateTime
  originalUrl : Option String
  parentVersionId : Option Uuid
  (parserVersion extractionVersion : String)
  createdAt : DateTime
  deriving DecidableEq

structure Chunk where
  chunkId : Uuid
  operatorId : OperatorId
  tenantId : TenantId
  projectId : ProjectId
  sourceVersionId : Uuid
  ordinal : Nat
  kind : ChunkKind
  (text textHash : String)
  locator : ChunkLocator
  productIds : List Uuid
  (market language : Option String)
  extractionMethod : String
  deriving DecidableEq

structure Product where
  productId : Uuid
  operatorId : OperatorId
  tenantId : TenantId
  projectId : ProjectId
  revision : Int

structure Fact where
  factId : Uuid
  operatorId : OperatorId
  tenantId : TenantId
  projectId : ProjectId
  revision : Int
  evidenceRefs : List EvidenceRef

/-! ### Jobs and operations -/

/-- An entry of the error list of a job. -/
structure ImportError where
  code : String
  (page unitId : Option UInt32)
  format : Option OfficeFormat
  capability : Option String
  deriving DecidableEq

structure ImportJob where
  importJobId : Uuid
  operatorId : OperatorId
  tenantId : TenantId
  projectId : ProjectId
  (operationId sourceId : Uuid)
  sourceVersionId : Option Uuid
  stage : ImportStage
  status : ImportStatus
  attempt : Int
  leaseUntil : Option DateTime
  inputHash : String
  stageOutputRefs : List String
  (completedUnits failedUnits : Nat)
  errors : List ImportError
  resumedFrom : Option Uuid
  deriving DecidableEq

/-- What an operation reports. The memory store writes these shapes and no other. -/
inductive OperationResult where
  | imported (sourceId sourceVersionId knowledgeReleaseId : Uuid)
  | uploaded (uploadSessionId objectId : Uuid) (sourceId knowledgeReleaseId : Option Uuid)
  | parsed (sourceId : Uuid) (sourceVersionId knowledgeReleaseId : Option Uuid)
      (completed failed total : Nat) (format : Option OfficeFormat)
  deriving DecidableEq

namespace OperationResult

/-- `result.get("source_id")`. -/
def sourceId : OperationResult → Option Uuid
  | imported id _ _ => some id
  | uploaded _ _ id _ => id
  | parsed id _ _ _ _ _ _ => some id

/-- `result.get("source_version_id")`. -/
def sourceVersionId : OperationResult → Option Uuid
  | imported _ id _ => some id
  | uploaded _ _ _ _ => none
  | parsed _ id _ _ _ _ _ => id

/-- `result.get("knowledge_release_id")`. -/
def knowledgeReleaseId : OperationResult → Option Uuid
  | imported _ _ id => some id
  | uploaded _ _ _ id => id
  | parsed _ _ id _ _ _ _ => id

end OperationResult

/-- An asynchronous operation handle. -/
structure Operation where
  id : Uuid
  kind : String
  status : OperationStatus
  scope : TenantScope
  result : Option OperationResult
  error : Option AppError
  (createdAt updatedAt : DateTime)
  deriving DecidableEq

/-- A new operation. -/
def Operation.queued (kind : String) (scope : TenantScope) (id : Uuid) (now : DateTime) : Operation where
  id
  kind
  status := .queued
  scope
  result := none
  error := none
  createdAt := now
  updatedAt := now

/-! ### Releases and manifests -/

structure KnowledgeCoverage where
  (sourceVersionCount chunkCount failedSourceCount : Nat)
  blockedReasons : List String
  deriving DecidableEq

/-- The pipeline that built a release; `parsers` is written when one is not the text parser. -/
structure PipelineVersions where
  (parser extractor index : String)
  parsers : Option (List String)
  deriving DecidableEq

structure KnowledgeRelease where
  knowledgeReleaseId : Uuid
  operatorId : OperatorId
  tenantId : TenantId
  projectId : ProjectId
  sequence : Int
  previousReleaseId : Option Uuid
  sourceVersionRefs : List Uuid
  factRevisionRefs : List (Uuid × Int)
  indexBuildId : String
  pipelineVersions : PipelineVersions
  contentHash : String
  coverage : KnowledgeCoverage
  createdAt : DateTime
  deriving DecidableEq

inductive DocumentManifestState where
  | awaitingKnowledge
  | planning
  | ready
  | closed

inductive DocumentManifestItemState where
  | planned
  | blocked
  | deferred
  | notApplicable
  deriving DecidableEq

structure DocumentManifestItem where
  (documentManifestItemId manifestId knowledgeReleaseId : Uuid)
  (documentKey contentType : String)
  productId : Option Uuid
  (market language : String)
  state : DocumentManifestItemState
  blockReason : Option String
  dependencyHash : String
  sourceVersionRefs : List Uuid

structure DocumentManifestCoverage where
  (total planned blocked deferred notApplicable : Nat)

structure DocumentManifest where
  manifestId : Uuid
  operatorId : OperatorId
  tenantId : TenantId
  projectId : ProjectId
  revision : Int
  knowledgeReleaseId : Uuid
  plannerVersion : String
  state : DocumentManifestState
  sealed : Bool
  expectedCount : Option Int
  scopeHash : String
  items : List DocumentManifestItem
  coverage : DocumentManifestCoverage

instance : ScopedKnowledge UploadSession :=
  ⟨UploadSession.operatorId, UploadSession.tenantId, UploadSession.projectId⟩

instance : ScopedKnowledge StoredObject :=
  ⟨StoredObject.operatorId, StoredObject.tenantId, StoredObject.projectId⟩

instance : ScopedKnowledge Source :=
  ⟨Source.operatorId, Source.tenantId, Source.projectId⟩

instance : ScopedKnowledge SourceVersion :=
  ⟨SourceVersion.operatorId, SourceVersion.tenantId, SourceVersion.projectId⟩

instance : ScopedKnowledge ImportJob :=
  ⟨ImportJob.operatorId, ImportJob.tenantId, ImportJob.projectId⟩

instance : ScopedKnowledge Chunk :=
  ⟨Chunk.operatorId, Chunk.tenantId, Chunk.projectId⟩

instance : ScopedKnowledge Product :=
  ⟨Product.operatorId, Product.tenantId, Product.projectId⟩

instance : ScopedKnowledge Fact :=
  ⟨Fact.operatorId, Fact.tenantId, Fact.projectId⟩

instance : ScopedKnowledge KnowledgeRelease :=
  ⟨KnowledgeRelease.operatorId, KnowledgeRelease.tenantId, KnowledgeRelease.projectId⟩

/-- The store compares the scope of a manifest field by field, with the same result. -/
instance : ScopedKnowledge DocumentManifest :=
  ⟨DocumentManifest.operatorId, DocumentManifest.tenantId, DocumentManifest.projectId⟩

/-! ### Requests and answers -/

structure UploadSessionCommand where
  (filename declaredMediaType : String)
  expectedSize : Nat
  expectedSha256 : String
  purpose : KnowledgePurpose

structure ImportItem where
  clientItemId : String
  kind : SourceKind
  name : String
  purpose : KnowledgePurpose
  (text url : Option String)
  (objectId knowledgeReleaseId : Option Uuid)
  deriving DecidableEq

structure ImportAcceptance where
  clientItemId : String
  status : ImportStatus
  source : Option Source
  sourceVersion : Option SourceVersion
  importJob : Option ImportJob
  operation : Option Operation
  release : Option KnowledgeRelease
  error : Option AppError
  deriving DecidableEq

/-- The answer to an item that leaves no record behind. -/
def ImportAcceptance.refused (clientItemId : String) (error : AppError) : ImportAcceptance where
  clientItemId
  status := .failed
  source := none
  sourceVersion := none
  importJob := none
  operation := none
  release := none
  error := some error

structure ReviseSourceTextCommand where
  baseVersionId : Uuid
  (mediaType text : String)

structure SourceTextRevisionReceipt where
  source : Source
  sourceVersion : SourceVersion
  knowledgeRelease : KnowledgeRelease

structure SourceVersionContent where
  sourceVersionId : Uuid
  representation : SourceVersionRepresentation
  (mediaType text : String)
  textBasis : SourceTextBasis

structure SourceDetail where
  source : Source
  versions : List SourceVersion
  chunks : List Chunk
  facts : List Fact
  importJobs : List ImportJob

structure KnowledgeImportProgressError where
  code : String
  (page unitId : Option UInt32)
  format : Option OfficeFormat

structure KnowledgeImportProgress where
  importJobId : Option Uuid
  status : ImportStatus
  stage : Option ImportStage
  (sourceId sourceVersionId knowledgeReleaseId : Option Uuid)
  (completedUnits failedUnits errorCount : Nat)
  errors : List KnowledgeImportProgressError

structure CurrentKnowledgeRelease where
  projectId : ProjectId
  knowledgeReleaseId : Option Uuid
  sequence : Option Int

structure KnowledgeOverview where
  (sourceCount factCount importingCount : Nat)
  currentReleaseId : Option Uuid

structure DocumentManifestPlanRequest where
  (manifestId knowledgeReleaseId : Uuid)

/-- One acquired page and its original response body. -/
structure FetchedUrlPage where
  (requestedUrl finalUrl : String)
  capturedAt : DateTime
  rawBytes : List UInt8
  (mediaType text parserVersion : String)

end GeoMaster
