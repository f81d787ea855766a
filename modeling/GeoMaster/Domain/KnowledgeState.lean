import GeoMaster.Domain.OfficeParse

/-!
# The state of the memory knowledge store

Twenty maps behind one lock. The store parses PDF files and Office documents by two parallel sets of
operations that differ in what a parser reports, in the texts of their errors and in a few checks. A
`Parser` says which, and every definition below that depends on it lists both sides.
-/

namespace GeoMaster

open AssocMap

/-! ### Parsers -/

inductive Parser where
  | pdf
  | office
  deriving DecidableEq

namespace Parser

/-- What a parser reports about a document. -/
abbrev Manifest : Parser → Type
  | pdf => PdfDocumentManifest
  | office => OfficeDocumentManifest

/-- What a parser reports about a page or a unit. -/
abbrev Result : Parser → Type
  | pdf => PdfPageResult
  | office => OfficeUnitResult

/-- What a job of one parser keeps and a job of the other does not: the job a PDF job resumes, the
format of an Office document. -/
abbrev Extra : Parser → Type
  | pdf => Option Uuid
  | office => OfficeFormat

instance instDecidableEqManifest : (p : Parser) → DecidableEq p.Manifest
  | pdf => inferInstanceAs (DecidableEq PdfDocumentManifest)
  | office => inferInstanceAs (DecidableEq OfficeDocumentManifest)

instance instDecidableEqResult : (p : Parser) → DecidableEq p.Result
  | pdf => inferInstanceAs (DecidableEq PdfPageResult)
  | office => inferInstanceAs (DecidableEq OfficeUnitResult)

end Parser

structure ParseLease where
  (jobId leaseId : Uuid)
  fencingToken : Int
  expiresAt : DateTime

/-- `MemoryPdfState` and `MemoryOfficeState`: a document that is being parsed, with one entry of `units`
for each page or unit that has a result. -/
structure ParseState (p : Parser) where
  objectId : Uuid
  parserProfile : String
  createdAt : DateTime
  manifest : Option p.Manifest
  units : AssocMap UInt32 p.Result
  lease : Option ParseLease
  fencingToken : Int
  acceptance : Option ImportAcceptance
  extra : p.Extra

abbrev MemoryPdfState : Type :=
  ParseState .pdf

abbrev MemoryOfficeState : Type :=
  ParseState .office

/-! ### The maps -/

structure MemoryState where
  uploadSessions : AssocMap Uuid UploadSession
  uploadBytes : AssocMap Uuid (List UInt8)
  storedObjects : AssocMap Uuid StoredObject
  objectBytes : AssocMap Uuid (List UInt8)
  sources : AssocMap Uuid Source
  versions : AssocMap Uuid SourceVersion
  authoredText : AssocMap Uuid (String × String)
  revisionReceipts : AssocMap (String × Uuid × String) (String × SourceTextRevisionReceipt)
  jobs : AssocMap Uuid ImportJob
  pdfJobs : AssocMap Uuid MemoryPdfState
  officeJobs : AssocMap Uuid MemoryOfficeState
  operations : AssocMap Uuid Operation
  chunks : AssocMap Uuid (List Chunk)
  products : AssocMap Uuid Product
  facts : AssocMap Uuid Fact
  releases : AssocMap Uuid KnowledgeRelease
  documentManifests : AssocMap Uuid DocumentManifest
  currentRelease : AssocMap String Uuid
  importItems : AssocMap (String × String) (String × ImportAcceptance)
  uploadCompletions : AssocMap (Uuid × String) ImportAcceptance
  attachmentCompletions : AssocMap Uuid String

namespace MemoryState

def default : MemoryState where
  uploadSessions := ∅
  uploadBytes := ∅
  storedObjects := ∅
  objectBytes := ∅
  sources := ∅
  versions := ∅
  authoredText := ∅
  revisionReceipts := ∅
  jobs := ∅
  pdfJobs := ∅
  officeJobs := ∅
  operations := ∅
  chunks := ∅
  products := ∅
  facts := ∅
  releases := ∅
  documentManifests := ∅
  currentRelease := ∅
  importItems := ∅
  uploadCompletions := ∅
  attachmentCompletions := ∅

def setSession (id : Uuid) (session : UploadSession) (s : MemoryState) : MemoryState :=
  { s with uploadSessions := s.uploadSessions.insert id session }

def insertUploadBytes (id : Uuid) (content : List UInt8) (s : MemoryState) : MemoryState :=
  { s with uploadBytes := s.uploadBytes.insert id content }

def insertObject (object : StoredObject) (s : MemoryState) : MemoryState :=
  { s with storedObjects := s.storedObjects.insert object.objectId object }

def insertObjectBytes (id : Uuid) (bytes : List UInt8) (s : MemoryState) : MemoryState :=
  { s with objectBytes := s.objectBytes.insert id bytes }

def insertSource (source : Source) (s : MemoryState) : MemoryState :=
  { s with sources := s.sources.insert source.sourceId source }

def insertVersion (version : SourceVersion) (s : MemoryState) : MemoryState :=
  { s with versions := s.versions.insert version.sourceVersionId version }

def insertAuthoredText (versionId : Uuid) (mediaType text : String) (s : MemoryState) : MemoryState :=
  { s with authoredText := s.authoredText.insert versionId (mediaType, text) }

def insertChunks (versionId : Uuid) (chunks : List Chunk) (s : MemoryState) : MemoryState :=
  { s with chunks := s.chunks.insert versionId chunks }

def setJob (id : Uuid) (job : ImportJob) (s : MemoryState) : MemoryState :=
  { s with jobs := s.jobs.insert id job }

def insertJob (job : ImportJob) (s : MemoryState) : MemoryState :=
  s.setJob job.importJobId job

def setOperation (id : Uuid) (operation : Operation) (s : MemoryState) : MemoryState :=
  { s with operations := s.operations.insert id operation }

/-- Store a release and make it the current one of a scope. -/
def insertRelease (scopeKey : String) (release : KnowledgeRelease) (s : MemoryState) : MemoryState :=
  { s with
    currentRelease := s.currentRelease.insert scopeKey release.knowledgeReleaseId
    releases := s.releases.insert release.knowledgeReleaseId release }

def insertManifest (manifest : DocumentManifest) (s : MemoryState) : MemoryState :=
  { s with documentManifests := s.documentManifests.insert manifest.manifestId manifest }

def insertRevisionReceipt (key : String × Uuid × String) (fingerprint : String)
    (receipt : SourceTextRevisionReceipt) (s : MemoryState) : MemoryState :=
  { s with revisionReceipts := s.revisionReceipts.insert key (fingerprint, receipt) }

def insertImportItem (key : String × String) (requestHash : String) (acceptance : ImportAcceptance)
    (s : MemoryState) : MemoryState :=
  { s with importItems := s.importItems.insert key (requestHash, acceptance) }

def insertUploadCompletion (key : Uuid × String) (acceptance : ImportAcceptance) (s : MemoryState) : MemoryState :=
  { s with uploadCompletions := s.uploadCompletions.insert key acceptance }

def insertAttachmentCompletion (id : Uuid) (keyHash : String) (s : MemoryState) : MemoryState :=
  { s with attachmentCompletions := s.attachmentCompletions.insert id keyHash }

/-- The documents a parser has been given. -/
def parseJobs (p : Parser) (s : MemoryState) : AssocMap Uuid (ParseState p) :=
  match p with
  | .pdf => s.pdfJobs
  | .office => s.officeJobs

/-- Set a document in the map of its parser. -/
def setParse (p : Parser) (id : Uuid) (parse : ParseState p) (s : MemoryState) : MemoryState :=
  { s with
    pdfJobs :=
      match p, parse with
      | .pdf, parse => s.pdfJobs.insert id parse
      | .office, _ => s.pdfJobs
    officeJobs :=
      match p, parse with
      | .pdf, _ => s.officeJobs
      | .office, parse => s.officeJobs.insert id parse }

@[simp]
theorem parseJobs_setParse (p : Parser) (id : Uuid) (parse : ParseState p) (s : MemoryState) :
    (s.setParse p id parse).parseJobs p = (s.parseJobs p).insert id parse := by
  cases p <;> rfl

theorem parseJobs_setParse_of_ne {p q : Parser} (h : q ≠ p) (id : Uuid) (parse : ParseState p)
    (s : MemoryState) : (s.setParse p id parse).parseJobs q = s.parseJobs q := by
  cases p <;> cases q <;> first | rfl | exact absurd rfl h

/-- What holds of the document that was set and of those that were there holds of all. -/
theorem forall_setParse {P : (q : Parser) → Uuid → ParseState q → Prop} {p : Parser} {id : Uuid}
    {parse : ParseState p} {s : MemoryState} (hnew : P p id parse)
    (hold : ∀ q id' parse', (s.parseJobs q).lookup id' = some parse' → P q id' parse')
    (q : Parser) (id' : Uuid) (parse' : ParseState q)
    (h : ((s.setParse p id parse).parseJobs q).lookup id' = some parse') : P q id' parse' := by
  by_cases hq : q = p
  · subst hq
    rw [parseJobs_setParse, lookup_insert] at h
    by_cases hid : id' = id
    · subst hid
      rw [if_pos rfl] at h
      exact Option.some.inj h ▸ hnew
    · rw [if_neg hid] at h
      exact hold q id' parse' h
  · rw [parseJobs_setParse_of_ne hq] at h
    exact hold q id' parse' h

end MemoryState

abbrev KnowledgeOp (α : Type) : Type :=
  Op MemoryState AppError α

/-- What the repository is configured with. -/
structure ParserProfiles where
  (pdfParserProfile docxParserProfile xlsxParserProfile : Option String)

namespace ParserProfiles

def officeProfile (profiles : ParserProfiles) : OfficeFormat → Option String
  | .docx => profiles.docxParserProfile
  | .xlsx => profiles.xlsxParserProfile

/-- The format a media type is parsed as, if its parser is configured. -/
def queuedOfficeFormat (profiles : ParserProfiles) (mediaType : String) : Option OfficeFormat :=
  [OfficeFormat.docx, .xlsx].find? fun format => format.mediaType = mediaType && (profiles.officeProfile format).isSome

end ParserProfiles

namespace MemoryKnowledgeRepository

open Op (read modify throw failIf okOr lift)

def requireProject (scope : TenantScope) : KnowledgeOp ProjectId :=
  okOr scope.projectId (.invalidRequest "project_id is required for knowledge resources")

/-! ### Releases -/

/-- Whether a version belongs in the next release: its source is active, it is the current version of
it, and it has chunks. -/
def isReleasable (s : MemoryState) (version : SourceVersion) : Bool :=
  match s.sources.lookup version.sourceId with
  | none => false
  | some source =>
    source.state = .active ∧ (s.chunks.lookup version.sourceVersionId).isSome
      ∧ source.currentVersionId = some version.sourceVersionId

/-- The versions of the next release, in order. -/
def releaseVersions (scope : TenantScope) (s : MemoryState) : List Uuid :=
  (((values s.versions).filter fun version =>
    inScope scope version && isReleasable s version).map SourceVersion.sourceVersionId).insertionSort (· ≤ ·)

/-- Whether a job left its source at the version the source still has. -/
def isCurrentImport (s : MemoryState) (job : ImportJob) : Bool :=
  match s.sources.lookup job.sourceId with
  | none => false
  | some source => source.currentVersionId = job.sourceVersionId

/-- The jobs a release counts as failed. -/
def failedImports (scope : TenantScope) (s : MemoryState) : List ImportJob :=
  (values s.jobs).filter fun job =>
    inScope scope job && decide (job.status = .failed ∨ job.status = .partialImport) && isCurrentImport s job

/-- `BTreeSet` of the parsers, as the list of its elements. -/
def distinctParsers (parsers : List String) : List String :=
  (parsers.insertionSort (· ≤ ·)).dedup

def pipelineVersions (s : MemoryState) (sourceVersions : List Uuid) : PipelineVersions :=
  let parsers := distinctParsers
    ((sourceVersions.filterMap fun id => s.versions.lookup id).map SourceVersion.parserVersion)
  if parsers.any (· ≠ "deterministic-text-v1") then
    { parser := "deterministic-knowledge-v1", extractor := "none-v1", index := "substring-v1"
      parsers := some parsers }
  else
    { parser := "deterministic-text-v1", extractor := "none-v1", index := "substring-v1"
      parsers := none }

def blockedReasons (scope : TenantScope) (s : MemoryState) : List String :=
  ((values s.jobs).filter fun job =>
    inScope scope job && decide (job.status = .partialImport) && isCurrentImport s job).map fun job =>
      "source " ++ job.sourceId.toString ++ " has " ++ toString job.failedUnits ++ " failed PDF pages"

section

variable [Sha256]

/-- The release `make_release_locked` builds from what the store holds. -/
def nextRelease (scope : TenantScope) (projectId : ProjectId) (s : MemoryState) (id : Uuid)
    (now : DateTime) : KnowledgeRelease :=
  let previousReleaseId := s.currentRelease.lookup scope.storageKey
  let previous := previousReleaseId.bind fun id => s.releases.lookup id
  let sourceVersions := releaseVersions scope s
  { knowledgeReleaseId := id
    operatorId := scope.operatorId
    tenantId := scope.tenantId
    projectId
    sequence := (previous.map fun release => release.sequence + 1).getD 1
    previousReleaseId
    sourceVersionRefs := sourceVersions
    factRevisionRefs := ((values s.facts).filter (inScope scope)).map fun fact => (fact.factId, fact.revision)
    indexBuildId := "deterministic-text-index-v1"
    pipelineVersions := pipelineVersions s sourceVersions
    contentHash := sha256Hex
      (Text.bytes ("\n".intercalate (sourceVersions.map Uuid.toString)))
    coverage :=
      { sourceVersionCount := sourceVersions.length
        chunkCount := ((sourceVersions.filterMap fun id => s.chunks.lookup id).map List.length).sum
        failedSourceCount := (failedImports scope s).length
        blockedReasons := blockedReasons scope s }
    createdAt := now }

def makeReleaseLocked (scope : TenantScope) (id : Uuid) (now : DateTime) : KnowledgeOp KnowledgeRelease := do
  let projectId ← requireProject scope
  let release ← read fun s => nextRelease scope projectId s id now
  modify (MemoryState.insertRelease scope.storageKey release)
  pure release

end

end MemoryKnowledgeRepository

end GeoMaster
