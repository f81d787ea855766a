import GeoMaster.Domain.KnowledgeImport

/-!
# Parse jobs

A queued document is parsed by a worker outside the store. The worker claims the job under a lease with a
fencing token, records the manifest and one result for each page or unit, and finishes or fails the job;
a retry copies what has succeeded into a new job. The operations for PDF files and for Office documents
are one definition each, in the words of the source for both. The clock is an argument each time it is
read.
-/

namespace GeoMaster

open AssocMap

/-! ### What differs between the parsers -/

namespace Parser

/-- The name in the texts of errors. -/
def label : Parser → String
  | pdf => "PDF"
  | office => "Office"

/-- The word for a part of a document. -/
def unitName : Parser → String
  | pdf => "page"
  | office => "unit"

/-- The client item of a finished job starts with this. -/
def slug : Parser → String
  | pdf => "pdf"
  | office => "office"

def unitCount : (p : Parser) → p.Manifest → Nat
  | pdf, manifest => manifest.pageCount.toNat
  | office, manifest => manifest.unitCount

def unitId : (p : Parser) → p.Result → UInt32
  | pdf, result => result.page
  | office, result => result.unitId

def isSuccess : (p : Parser) → p.Result → Bool
  | pdf, result => result.isSuccess
  | office, result => result.isSuccess

def validateManifest : (p : Parser) → p.Manifest → String → String → Except AppError Unit
  | pdf, manifest, inputSha256, profile => manifest.validate inputSha256 profile
  | office, manifest, inputSha256, profile => manifest.validate inputSha256 profile

def validateResult : (p : Parser) → p.Result → p.Manifest → Except AppError Unit
  | pdf, result, manifest => result.validate manifest.pageCount
  | office, result, manifest => result.validate manifest

/-- A manifest has to be of the format the job was queued for. -/
def sameFormat : (p : Parser) → p.Extra → p.Manifest → Bool
  | pdf, _, _ => true
  | office, format, manifest => manifest.format = format

def manifestChanged : Parser → String
  | pdf => "PDF manifest cannot change across retries"
  | office => "Office format or manifest changed across retries"

def documentErrorCode : Parser → String → Bool
  | pdf => pdfDocumentErrorCode
  | office => officeDocumentErrorCode

/-- The format in the errors of a job. -/
def errorFormat : (p : Parser) → p.Extra → Option OfficeFormat
  | pdf, _ => none
  | office, format => some format

/-- The error a failed page or unit leaves in the job. -/
def unitError : (p : Parser) → p.Extra → UInt32 → p.Result → Option ImportError
  | pdf, _, page, .failure _ code =>
    some { code, page := some page, unitId := none, format := none, capability := none }
  | office, format, id, .failure _ code =>
    some { code, page := none, unitId := some id, format := some format, capability := none }
  | pdf, _, _, .success _ _ => none
  | office, _, _, .docxSuccess _ _ => none
  | office, _, _, .xlsxSuccess _ _ => none

/-- What the errors of a job are sorted by. -/
def errorKey (error : ImportError) : Nat :=
  (error.page.or error.unitId).elim 0 UInt32.toNat

/-- What a retry keeps of the job it resumes. -/
def resumedExtra : (p : Parser) → Uuid → p.Extra → p.Extra
  | pdf, jobId, _ => some jobId
  | office, _, format => format

def extractionVersion : (p : Parser) → p.Extra → String
  | pdf, _ => "pdf-text-v1"
  | office, format => format.extractionMethod

/-- The reference to the output of a finished job. -/
def outputRef : (p : Parser) → p.Extra → Nat → Nat → String
  | pdf, _, completed, total => "pdf:pages:" ++ toString completed ++ "/" ++ toString total
  | office, format, completed, total =>
    "office:" ++ format.name ++ ":units:" ++ toString completed ++ "/" ++ toString total

/-- Only the Office operations compare the scope of the object. -/
def objectVisible : Parser → TenantScope → StoredObject → Bool
  | pdf, _, _ => true
  | office, scope, object => inScope scope object

/-- Only the Office operations compare the media type when a job is finished. -/
def finishedMediaMatches : (p : Parser) → p.Extra → StoredObject → Bool
  | pdf, _, _ => true
  | office, format, object => object.detectedMediaType = format.mediaType

def mediaMatches : (p : Parser) → p.Extra → StoredObject → Bool
  | pdf, _, object => object.detectedMediaType = "application/pdf"
  | office, format, object => object.detectedMediaType = format.mediaType

/-- What is wrong with the input of a job. -/
def inputChanged : Parser → String
  | pdf => "PDF bytes or media type no longer match verified object"
  | office => "Office original bytes or media type changed"

end Parser

namespace ParseState

variable {p : Parser}

variable (parse : ParseState p)

/-- The results of the units, in no particular order. -/
def results : List p.Result :=
  values parse.units

def successCount : Nat :=
  (parse.results.filter p.isSuccess).length

/-- The errors of the failed units, in the order of their numbers. -/
def unitErrors : List ImportError :=
  (parse.units.entries.filterMap fun e => p.unitError parse.extra e.1 e.2).insertionSort fun a b =>
    Parser.errorKey a ≤ Parser.errorKey b

/-- The numbers of the successful units, in order. -/
def successfulUnits : List UInt32 :=
  ((parse.units.entries.filter fun e => p.isSuccess e.2).map Sigma.fst).insertionSort (· ≤ ·)

/-- A lease is granted under the next token. -/
def grant (lease : ParseLease) : ParseState p :=
  { parse with fencingToken := lease.fencingToken, lease := some lease }

/-- The lease is granted for longer. -/
def renew (lease : ParseLease) : ParseState p :=
  { parse with lease := some lease }

def withManifest (manifest : p.Manifest) : ParseState p :=
  { parse with manifest := some manifest }

def withUnit (result : p.Result) : ParseState p :=
  { parse with units := parse.units.insert (p.unitId result) result }

/-- The lease is dropped, and what the job ended with is kept. -/
def settle (acceptance : ImportAcceptance) : ParseState p :=
  { parse with lease := none, acceptance := some acceptance }

/-- The lease is the stored one and has not run out. -/
def holds (lease : ParseLease) (now : DateTime) : Bool :=
  match parse.lease with
  | none => false
  | some current =>
    current.jobId = lease.jobId ∧ current.leaseId = lease.leaseId
      ∧ current.fencingToken = lease.fencingToken ∧ now < current.expiresAt

end ParseState

namespace ImportJob

/-- A worker runs the job under a lease. -/
def run (job : ImportJob) (leaseUntil : DateTime) : ImportJob :=
  { job with status := .running, leaseUntil := some leaseUntil }

/-- The lease of the job runs longer. -/
def renew (job : ImportJob) (leaseUntil : DateTime) : ImportJob :=
  { job with leaseUntil := some leaseUntil }

/-- The job counts its units. -/
def count (job : ImportJob) (completed : Nat) (errors : List ImportError) : ImportJob :=
  { job with completedUnits := completed, failedUnits := errors.length, errors }

end ImportJob

namespace MemoryKnowledgeRepository

open Op (read modify throw failIf okOr lift recover)

section

variable [Sha256]

/-! ### Units -/

/-- The bytes of the texts of the other successful pages. -/
def otherPagesLen (pdf : MemoryPdfState) (page : UInt32) : Nat :=
  ((pdf.units.entries.filter fun e => e.1 ≠ page).map fun e =>
    match e.2 with
    | .success _ text => Text.len text
    | .failure _ _ => 0).sum

/-- A page that takes the document past its budget is a failed page. -/
def boundedPage (pdf : MemoryPdfState) (result : PdfPageResult) : PdfPageResult :=
  match result with
  | .success page text =>
    if pdfMaxDocumentTextBytes < otherPagesLen pdf page + Text.len text then
      .failure page "page_limit"
    else result
  | .failure _ _ => result

/-- The bytes of the other successful units, as they are serialized. -/
def otherUnitsLen (office : MemoryOfficeState) (unitId : UInt32) : Nat :=
  ((office.units.entries.filter fun e => decide (e.1 ≠ unitId) && e.2.isSuccess).map fun e => e.2.json.toVecLen).sum

/-- A unit without text, or one that takes the document past its budget, is a failed unit. -/
def boundedUnit (scope : TenantScope) (office : MemoryOfficeState) (manifest : OfficeDocumentManifest)
    (result : OfficeUnitResult) : Except AppError OfficeUnitResult := do
  if result.isSuccess then do
    let chunks ← officeUnitChunks scope Uuid.nil manifest result 0 fun _ => Uuid.nil
    if chunks = [] then pure (.failure result.unitId "empty_text")
    else if officeMaxDocumentTextBytes < otherUnitsLen office result.unitId + result.json.toVecLen then
      pure (.failure result.unitId "unit_limit")
    else pure result
  else pure result

/-- The result that is stored for a recorded one. -/
def boundedResult : (p : Parser) → TenantScope → ParseState p → p.Manifest → p.Result → Except AppError p.Result
  | .pdf, _, parse, _, result => .ok (boundedPage parse result)
  | .office, scope, parse, manifest, result => boundedUnit scope parse manifest result

/-- The successful pages, in order. -/
def successfulPages (pdf : MemoryPdfState) : List PdfPageText :=
  (pdf.results.filterMap fun
    | .success page text => some { page, text }
    | .failure _ _ => none).insertionSort fun a b => a.page ≤ b.page

/-- The chunks of a finished document: of the successful pages in order, or of the successful units in
the order of the manifest. -/
def documentChunks : (p : Parser) → TenantScope → Uuid → p.Manifest → ParseState p →
    (Nat → Uuid) → Except AppError (List Chunk)
  | .pdf, scope, versionId, _, parse, chunkIds =>
    (successfulPages parse).foldlM (fun chunks page => do
      let more ← pdfPageChunks scope versionId page chunks.length chunkIds
      pure (chunks ++ more)) []
  | .office, scope, versionId, manifest, parse, chunkIds => do
    let chunks ← manifest.unitIds.foldlM (fun chunks unitId => do
      let result ← Except.okOr (parse.units.lookup unitId) (.new .internal "all Office units recorded")
      if result.isSuccess then do
        let more ← officeUnitChunks scope versionId manifest result chunks.length chunkIds
        pure (chunks ++ more)
      else pure chunks) []
    Except.failIf (chunks = []) (.conflict "Office success has no usable source evidence")
    pure chunks

/-! ### Leases -/

/-- `checked_pdf_lease` and `checked_office_lease`: the job and its document, for a caller who presents
the lease that is stored. -/
def checkedLease (p : Parser) (scope : TenantScope) (lease : ParseLease) (now : DateTime) :
    KnowledgeOp (ImportJob × ParseState p) := do
  let found ← read fun s => (s.jobs.lookup lease.jobId).filter (inScope scope)
  let job ← okOr found (.notFound (p.label ++ " parse job not found"))
  let found ← read fun s => (s.parseJobs p).lookup lease.jobId
  let parse ← okOr found (.notFound (p.label ++ " parse job not found"))
  failIf (job.status ≠ .running ∨ ¬ parse.holds lease now) (.conflict (p.label ++ " parse lease is expired or fenced"))
  pure (job, parse)

/-- The clock, each time a claim reads it. -/
structure ClaimClock where
  (checkedAt grantedAt updatedAt : DateTime)

/-- The operation of a job, if it is stored, starts to run. -/
def runOperation (id : Uuid) (now : DateTime) : KnowledgeOp Unit := do
  let found ← read fun s => s.operations.lookup id
  match found with
  | none => pure ()
  | some operation => modify (MemoryState.setOperation id { operation with status := .running, updatedAt := now })

/-- `claim_pdf_parse` and `claim_office_parse`. -/
def claimParse (p : Parser) (scope : TenantScope) (jobId leaseId : Uuid) (leaseSeconds : Int)
    (clock : ClaimClock) : KnowledgeOp (Option ParseLease) := do
  let _ ← requireProject scope
  failIf (¬ (1 ≤ leaseSeconds ∧ leaseSeconds ≤ 3600) ∨ leaseId.isNil)
    (.invalidRequest ("invalid " ++ p.label ++ " lease duration or ID"))
  let found ← read fun s => (s.jobs.lookup jobId).filter (inScope scope)
  match found with
  | none => pure none
  | some job =>
    if job.status ≠ .queued ∧ job.status ≠ .running then pure none
    else do
      let found ← read fun s => (s.parseJobs p).lookup jobId
      match found with
      | none => pure none
      | some parse =>
        if ∃ lease ∈ parse.lease, clock.checkedAt < lease.expiresAt then pure none
        else do
          let lease : ParseLease :=
            { jobId
              leaseId
              fencingToken := parse.fencingToken + 1
              expiresAt := clock.grantedAt + DateTime.seconds leaseSeconds }
          modify (MemoryState.setParse p jobId (parse.grant lease))
          modify (MemoryState.setJob jobId (job.run lease.expiresAt))
          runOperation job.operationId clock.updatedAt
          pure (some lease)

/-- `renew_pdf_parse` and `renew_office_parse`. A lease that is not current is no error. -/
def renewParse (p : Parser) (scope : TenantScope) (lease : ParseLease) (leaseSeconds : Int)
    (checkedAt renewedAt : DateTime) : KnowledgeOp (Option ParseLease) := do
  failIf (¬ (1 ≤ leaseSeconds ∧ leaseSeconds ≤ 3600)) (.invalidRequest ("invalid " ++ p.label ++ " lease duration"))
  let checked ← recover (do
    let checked ← checkedLease p scope lease checkedAt
    pure (some checked)) fun _ => none
  match checked with
  | none => pure none
  | some (job, parse) => do
    let renewed := { lease with expiresAt := renewedAt + DateTime.seconds leaseSeconds }
    modify (MemoryState.setParse p lease.jobId (parse.renew renewed))
    modify (MemoryState.setJob lease.jobId (job.renew renewed.expiresAt))
    pure (some renewed)

/-! ### Results -/

/-- `record_pdf_manifest` and `record_office_manifest`. -/
def recordManifest (p : Parser) (scope : TenantScope) (lease : ParseLease) (manifest : p.Manifest)
    (now : DateTime) : KnowledgeOp Unit := do
  let (job, parse) ← checkedLease p scope lease now
  lift (p.validateManifest manifest job.inputHash parse.parserProfile)
  failIf (¬ p.sameFormat parse.extra manifest ∨ ∃ prior ∈ parse.manifest, prior ≠ manifest)
    (.conflict p.manifestChanged)
  modify (MemoryState.setParse p lease.jobId (parse.withManifest manifest))

/-- `record_pdf_page` and `record_office_unit`. The same result again changes nothing. -/
def recordUnit (p : Parser) (scope : TenantScope) (lease : ParseLease) (result : p.Result)
    (now : DateTime) : KnowledgeOp Unit := do
  let (job, parse) ← checkedLease p scope lease now
  let manifest ← okOr parse.manifest (.conflict (p.label ++ " manifest not recorded"))
  lift (p.validateResult result manifest)
  let stored := parse.units.lookup (p.unitId result)
  if stored = some result then pure ()
  else do
    failIf (∃ prior ∈ stored, p.isSuccess prior)
      (.conflict ("successful " ++ p.label ++ " " ++ p.unitName ++ " cannot be overwritten"))
    let result ← lift (boundedResult p scope parse manifest result)
    let parse := parse.withUnit result
    modify (MemoryState.setParse p lease.jobId parse)
    modify (MemoryState.setJob lease.jobId (job.count parse.successCount parse.unitErrors))

/-! ### Ends -/

/-- What a finished job draws from outside. -/
structure ParseInputs where
  (versionId releaseId : Uuid)
  chunkIds : Nat → Uuid
  (checkedAt capturedAt createdAt releasedAt updatedAt : DateTime)

/-- The source of a job that may be finished: active, and without a text written over it. -/
def finishedSource (p : Parser) (scope : TenantScope) (job : ImportJob) : KnowledgeOp Source := do
  let found ← read fun s => (s.sources.lookup job.sourceId).filter (inScope scope)
  let source ← okOr found (.notFound (p.label ++ " source not found"))
  failIf (source.state ≠ .active) (.conflict (p.label ++ " source was removed"))
  let current ← read fun s => source.currentVersionId.bind fun id => s.versions.lookup id
  failIf (∃ version ∈ current, version.representation = .authoredText)
    (.conflict (p.label ++ " source has a newer authored version"))
  pure source

/-- The object of a job, if its bytes are still the ones that were parsed. -/
def finishedObject (p : Parser) (scope : TenantScope) (job : ImportJob) (parse : ParseState p) :
    KnowledgeOp StoredObject := do
  let found ← read fun s => (s.storedObjects.lookup parse.objectId).filter (p.objectVisible scope)
  let object ← okOr found (.notFound (p.label ++ " object not found"))
  let found ← read fun s => s.objectBytes.lookup parse.objectId
  let bytes ← okOr found (.notFound (p.label ++ " bytes not found"))
  failIf (sha256Hex bytes ≠ object.sha256 ∨ bytes.length ≠ object.actualSize
      ∨ job.inputHash ≠ object.sha256 ∨ ¬ p.finishedMediaMatches parse.extra object)
    (.conflict (p.label ++ " object changed during parsing"))
  pure object

/-- The version a finished job makes. -/
def parsedVersion (p : Parser) (scope : TenantScope) (source : Source) (object : StoredObject)
    (parse : ParseState p) (parent : Option SourceVersion) (fresh : ParseInputs) : SourceVersion where
  sourceVersionId := fresh.versionId
  operatorId := scope.operatorId
  tenantId := scope.tenantId
  projectId := source.projectId
  sourceId := source.sourceId
  version := (parent.map fun version => version.version + 1).getD 1
  representation := .original
  objectId := some object.objectId
  objectVersion := some object.objectVersion
  contentSha256 := object.sha256
  capturedAt := fresh.capturedAt
  originalUrl := none
  parentVersionId := source.currentVersionId
  parserVersion := parse.parserProfile
  extractionVersion := p.extractionVersion parse.extra
  createdAt := fresh.createdAt

/-- The status of a job by its successful and its failed units. -/
def finishedStatus (completed failed : Nat) : ImportStatus :=
  if completed = 0 then .failed else if failed = 0 then .succeeded else .partialImport

/-- A job after it was finished. -/
def finishedJob (p : Parser) (job : ImportJob) (parse : ParseState p) (total : Nat)
    (version : Option SourceVersion) : ImportJob :=
  { job with
    status := finishedStatus parse.successCount (total - parse.successCount)
    stage := if version.isSome then .release else .parse
    sourceVersionId := version.map SourceVersion.sourceVersionId
    completedUnits := parse.successCount
    failedUnits := total - parse.successCount
    leaseUntil := none
    errors := parse.unitErrors
    stageOutputRefs := [p.outputRef parse.extra parse.successCount total] }

/-- Store the version of a finished job with its chunks. -/
def storeParsed (source : Source) (version : SourceVersion) (chunks : List Chunk) (s : MemoryState) : MemoryState :=
  ((s.insertSource source).insertChunks version.sourceVersionId chunks).insertVersion version

/-- The source of a finished job shows the version the job made. -/
def finishedView (source : Source) (version : Option SourceVersion) : Source :=
  { source with
    currentVersionId := (version.map SourceVersion.sourceVersionId).or source.currentVersionId }

/-- The operation of a finished job. -/
def finishedOperation (p : Parser) (operation : Operation) (job : ImportJob) (parse : ParseState p) (source : Source)
    (version : Option SourceVersion) (release : Option KnowledgeRelease) (total : Nat) (now : DateTime) : Operation :=
  { operation with
    status := if version.isSome then .succeeded else .failed
    updatedAt := now
    result := some (.parsed source.sourceId (version.map SourceVersion.sourceVersionId)
      (release.map KnowledgeRelease.knowledgeReleaseId) job.completedUnits job.failedUnits total
      (p.errorFormat parse.extra))
    error := if version.isSome then operation.error
      else some (.capabilityMissing ("no " ++ p.label ++ " " ++ p.unitName ++ "s could be parsed")) }

/-- The answer when a job has ended. -/
def endedAcceptance (p : Parser) (job : ImportJob) (source : Option Source) (version : Option SourceVersion)
    (operation : Operation) (release : Option KnowledgeRelease) : ImportAcceptance where
  clientItemId := p.slug ++ ":" ++ job.importJobId.toString
  status := job.status
  source
  sourceVersion := version
  importJob := some job
  operation := some operation
  release
  error := operation.error

/-- `operations.get_mut(..).expect("queued operation")`. -/
def queuedOperation (id : Uuid) : KnowledgeOp Operation := do
  let found ← read fun s => s.operations.lookup id
  expect found "queued operation"

/-- The lease of a job that has ended is dropped, and what it ended with is kept. -/
def settleParse (p : Parser) (id : Uuid) (acceptance : ImportAcceptance) : KnowledgeOp Unit := do
  let found ← read fun s => (s.parseJobs p).lookup id
  let parse ← expect found "checked"
  modify (MemoryState.setParse p id (parse.settle acceptance))

/-- Store the version of a finished job, if it made one. -/
def storeVersion (source : Source) (version : Option SourceVersion) (chunks : List Chunk) : KnowledgeOp Unit :=
  match version with
  | none => pure ()
  | some version => modify (storeParsed source version chunks)

/-- A version makes a release. -/
def releaseVersion (scope : TenantScope) (version : Option SourceVersion) (fresh : ParseInputs) :
    KnowledgeOp (Option KnowledgeRelease) :=
  match version with
  | none => pure none
  | some _ => do
    let release ← makeReleaseLocked scope fresh.releaseId fresh.releasedAt
    pure (some release)

/-- `finish_pdf_parse` and `finish_office_parse`. -/
def finishParse (p : Parser) (scope : TenantScope) (lease : ParseLease) (fresh : ParseInputs) :
    KnowledgeOp ImportAcceptance := do
  let (job, parse) ← checkedLease p scope lease fresh.checkedAt
  let manifest ← okOr parse.manifest (.conflict (p.label ++ " manifest not recorded"))
  let total := p.unitCount manifest
  failIf (parse.results.length ≠ total) (.conflict (p.label ++ " " ++ p.unitName ++ "s are incomplete"))
  let source ← finishedSource p scope job
  let object ← finishedObject p scope job parse
  let parent ← read fun s => source.currentVersionId.bind fun id => s.versions.lookup id
  let version := if parse.successCount = 0 then none
    else some (parsedVersion p scope source object parse parent fresh)
  let chunks ← lift (if parse.successCount = 0 then .ok []
    else documentChunks p scope fresh.versionId manifest parse fresh.chunkIds)
  let source := finishedView source version
  storeVersion source version chunks
  let job := finishedJob p job parse total version
  modify (MemoryState.insertJob job)
  let release ← releaseVersion scope version fresh
  let operation ← queuedOperation job.operationId
  let operation := finishedOperation p operation job parse source version release total fresh.updatedAt
  modify (MemoryState.setOperation job.operationId operation)
  let acceptance := endedAcceptance p job (some source) version operation release
  settleParse p lease.jobId acceptance
  pure acceptance

/-- A job whose document could not be read. -/
def failedJob (p : Parser) (job : ImportJob) (parse : ParseState p) (code : String) : ImportJob :=
  { job with
    status := .failed
    leaseUntil := none
    failedUnits := 1
    errors := [{ code, page := none, unitId := none, format := p.errorFormat parse.extra
                 capability := none }] }

/-- The operation of a job whose document could not be read. -/
def failedOperation (p : Parser) (operation : Operation) (code : String) (now : DateTime) : Operation :=
  { operation with
    status := .failed
    updatedAt := now
    error := some ((AppError.invalidRequest (p.label ++ " document could not be parsed")).withDetails
      (.ofFields [("reason", .string code)])) }

/-- `fail_pdf_parse` and `fail_office_parse`: the document could not be read at all. -/
def failParse (p : Parser) (scope : TenantScope) (lease : ParseLease) (code : String)
    (checkedAt updatedAt : DateTime) : KnowledgeOp ImportAcceptance := do
  failIf (¬ p.documentErrorCode code) (.invalidRequest ("unknown " ++ p.label ++ " document failure code"))
  let (job, parse) ← checkedLease p scope lease checkedAt
  failIf (parse.manifest.isSome ∨ parse.results ≠ [])
    (.conflict (p.label ++ " " ++ p.unitName ++ " results already recorded"))
  let job := failedJob p job parse code
  let source ← read fun s => s.sources.lookup job.sourceId
  let operation ← queuedOperation job.operationId
  let operation := failedOperation p operation code updatedAt
  modify (MemoryState.setOperation job.operationId operation)
  let acceptance := endedAcceptance p job source none operation none
  modify (MemoryState.insertJob job)
  settleParse p lease.jobId acceptance
  pure acceptance

/-! ### Retries -/

/-- What a retry draws from outside. -/
structure RetryInputs where
  (jobId operationId : Uuid)
  queuedAt : DateTime

/-- The job that resumes another. -/
def resumedJob (prior : ImportJob) (jobId : Uuid) (completedUnits : Nat) (fresh : RetryInputs) : ImportJob :=
  { prior with
    importJobId := fresh.jobId
    operationId := fresh.operationId
    status := .queued
    attempt := prior.attempt + 1
    stage := .parse
    sourceVersionId := none
    leaseUntil := none
    stageOutputRefs := []
    completedUnits
    failedUnits := 0
    errors := []
    resumedFrom := some jobId }

/-- The document of a job that resumes another: what has succeeded is kept. -/
def resumedParse {p : Parser} (parse : ParseState p) (jobId : Uuid) (now : DateTime) : ParseState p :=
  { parse with
    createdAt := now
    lease := none
    acceptance := none
    extra := p.resumedExtra jobId parse.extra
    units := retain p.isSuccess parse.units }

/-- `retry_pdf_parse` and `retry_office_parse`. -/
def retryParse (p : Parser) (scope : TenantScope) (jobId : Uuid) (fresh : RetryInputs) : KnowledgeOp ImportJob := do
  let found ← read fun s => (s.jobs.lookup jobId).filter (inScope scope)
  let prior ← okOr found (.notFound (p.label ++ " parse job not found"))
  failIf (prior.status ≠ .failed ∧ prior.status ≠ .partialImport) (.conflict (p.label ++ " parse job is not retryable"))
  let found ← read fun s => (s.parseJobs p).lookup jobId
  let parse ← okOr found (.notFound (p.label ++ " parse job not found"))
  let existing ← read fun s => (values s.jobs).find? fun job => job.resumedFrom = some jobId
  match existing with
  | some job => pure job
  | none => do
    let found ← read fun s => s.sources.lookup prior.sourceId
    let source ← okOr found (.notFound (p.label ++ " source not found"))
    failIf (source.state ≠ .active) (.conflict (p.label ++ " source was removed"))
    failIf (source.currentVersionId ≠ prior.sourceVersionId)
      (.conflict (p.label ++ " source has a newer current version"))
    let operation := Operation.queued "knowledge.import" scope fresh.operationId fresh.queuedAt
    let next := resumedJob prior jobId parse.successCount fresh
    modify (MemoryState.setOperation fresh.operationId operation)
    modify (MemoryState.setParse p fresh.jobId (resumedParse parse jobId fresh.queuedAt))
    modify (MemoryState.insertJob next)
    pure next

/-! ### Reads -/

/-- What a worker is given to parse. -/
structure ParseInput (p : Parser) where
  bytes : List UInt8
  (inputSha256 mediaType parserProfile : String)
  successfulUnits : List UInt32
  manifest : Option p.Manifest

/-- `pdf_parse_input` and `office_parse_input`. -/
def parseInput (p : Parser) (scope : TenantScope) (lease : ParseLease) (now : DateTime) :
    KnowledgeOp (ParseInput p) := do
  let (job, parse) ← checkedLease p scope lease now
  let found ← read fun s => (s.storedObjects.lookup parse.objectId).filter (inScope scope)
  let object ← okOr found (.notFound (p.label ++ " object not found"))
  let found ← read fun s => s.objectBytes.lookup parse.objectId
  let bytes ← okOr found (.notFound (p.label ++ " bytes not found"))
  failIf (object.actualSize ≠ bytes.length ∨ sha256Hex bytes ≠ object.sha256
      ∨ job.inputHash ≠ object.sha256 ∨ ¬ p.mediaMatches parse.extra object)
    (.conflict p.inputChanged)
  pure
    { bytes
      inputSha256 := object.sha256
      mediaType := object.detectedMediaType
      parserProfile := parse.parserProfile
      successfulUnits := parse.successfulUnits
      manifest := parse.manifest }

/-- `pdf_parse_operation` and `office_parse_operation`. -/
def parseOperation (p : Parser) (scope : TenantScope) (jobId : Uuid) : KnowledgeOp (Option Operation) := do
  let _ ← requireProject scope
  read fun s =>
    ((s.jobs.lookup jobId).filter fun job =>
      inScope scope job && ((s.parseJobs p).lookup jobId).isSome).bind fun job => s.operations.lookup job.operationId

/-! ### The operations by name -/

def claimPdfParse := claimParse .pdf
def claimOfficeParse := claimParse .office
def renewPdfParse := renewParse .pdf
def renewOfficeParse := renewParse .office
def recordPdfManifest := recordManifest .pdf
def recordOfficeManifest := recordManifest .office
def recordPdfPage := recordUnit .pdf
def recordOfficeUnit := recordUnit .office
def finishPdfParse := finishParse .pdf
def finishOfficeParse := finishParse .office
def failPdfParse := failParse .pdf
def failOfficeParse := failParse .office
def retryPdfParse := retryParse .pdf
def retryOfficeParse := retryParse .office
def pdfParseInput := parseInput .pdf
def officeParseInput := parseInput .office
def pdfParseOperation := parseOperation .pdf
def officeParseOperation := parseOperation .office

end

end MemoryKnowledgeRepository

end GeoMaster
