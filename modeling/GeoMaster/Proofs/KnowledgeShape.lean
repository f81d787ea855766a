import GeoMaster.Proofs.KnowledgeSteps

/-!
# The shape of the knowledge store

Records sit under their own identifiers, and a call writes records of its own project only. Both are shown
of each effect, and the first holds in every state that is reached when new identifiers are new.
-/

namespace GeoMaster

open Option MemoryState

namespace MemoryKnowledgeRepository

/-- The job of a parsed document and the operation of the job are stored, in one project. -/
def HasOperation (s : MemoryState) (id : Uuid) : Prop :=
  ∃ job operation, s.jobs.lookup id = some job ∧ s.operations.lookup job.operationId = some operation
    ∧ operation.scope = ScopedKnowledge.scope job

variable {id : Uuid} {job : ImportJob} {s : MemoryState} {scope : TenantScope}

/-- An operation is written that is new, or in the project of the one it replaces. -/
theorem HasOperation.setOperation {operationId : Uuid} {operation : Operation} (h : HasOperation s id)
    (hscope : ∀ old, s.operations.lookup operationId = some old → operation.scope = old.scope) :
    HasOperation (s.setOperation operationId operation) id := by
  obtain ⟨job, stored, hjob, hstored, howner⟩ := h
  by_cases hid : job.operationId = operationId
  · have hsame := (hscope stored (hid ▸ hstored)).trans howner
    exact ⟨job, operation, hjob, by rw [hid]; exact AList.lookup_insert _, hsame⟩
  · exact ⟨job, stored, hjob, by rw [← hstored]; exact AList.lookup_insert_ne hid, howner⟩

theorem HasOperation.setJob {id' : Uuid} (h : HasOperation s id)
    (hjob : id = id' → ∃ operation,
      s.operations.lookup job.operationId = some operation
        ∧ operation.scope = ScopedKnowledge.scope job) : HasOperation (s.setJob id' job) id := by
  by_cases hid : id = id'
  · obtain ⟨operation, hoperation, howner⟩ := hjob hid
    subst hid
    exact ⟨job, operation, AList.lookup_insert _, hoperation, howner⟩
  · obtain ⟨stored, operation, hstored, hoperation, howner⟩ := h
    exact ⟨stored, operation, by rw [← hstored]; exact AList.lookup_insert_ne hid, hoperation, howner⟩

/-- The identifiers an import draws are new. -/
structure NewImport (fresh : ImportInputs) (s : MemoryState) : Prop where
  source : s.sources.lookup fresh.sourceId = none
  version : s.versions.lookup fresh.versionId = none
  chunks : s.chunks.lookup fresh.versionId = none
  operation : s.operations.lookup fresh.operationId = none
  job : s.jobs.lookup fresh.jobId = none
  parses : ∀ p, (s.parseJobs p).lookup fresh.jobId = none
  release : s.releases.lookup fresh.releaseId = none

variable {fresh : ImportInputs} {objectId : Uuid} {s' : MemoryState} {operation' : Operation}

theorem NewImport.of_unused {first : Uuid}
    (h : ∀ id ∈ [first, fresh.sourceId, fresh.versionId, fresh.operationId, fresh.jobId, fresh.releaseId], s.Unused id) :
    NewImport fresh s where
  source := (h fresh.sourceId (by simp)).sources
  version := (h fresh.versionId (by simp)).versions
  chunks := (h fresh.versionId (by simp)).chunks
  operation := (h fresh.operationId (by simp)).operations
  job := (h fresh.jobId (by simp)).jobs
  parses := (h fresh.jobId (by simp)).parseJobs
  release := (h fresh.releaseId (by simp)).releases

theorem NewImport.insertObject (h : NewImport fresh s) (object : StoredObject) :
    NewImport fresh (s.insertObject object) :=
  ⟨h.source, h.version, h.chunks, h.operation, h.job, h.parses, h.release⟩

theorem unused_first {first : Uuid} {ids : List Uuid} (h : ∀ id ∈ first :: ids, s.Unused id) : s.Unused first :=
  h first List.mem_cons_self

theorem Brought.shape (h : Brought scope objectId s s') (hs : StoreShape s) : StoreShape s' := by
  cases h with
  | nothing => exact hs
  | page object bytes => exact { hs with objects := hs.objects.insert rfl }
  | stored object => exact { hs with objects := hs.objects.insert rfl }

/-- A document changes in place. -/
theorem StoreShape.setParse (hs : StoreShape s) {p : Parser} {parse : ParseState p} (hready : HasOperation s id) :
    StoreShape (s.setParse p id parse) :=
  { hs with parses := forall_setParse hready hs.parses }

theorem StoreShape.setOperation (hs : StoreShape s) {operation : Operation}
    (hscope : ∀ old, s.operations.lookup id = some old → operation.scope = old.scope) :
    StoreShape (s.setOperation id operation) :=
  { hs with
    parses := fun p id' parse hparse => HasOperation.setOperation (hs.parses p id' parse hparse) hscope }

theorem StoreShape.setJob (hs : StoreShape s) (hid : job.importJobId = id)
    (hoperation : ∃ operation, s.operations.lookup job.operationId = some operation
      ∧ operation.scope = ScopedKnowledge.scope job) : StoreShape (s.setJob id job) :=
  { hs with
    jobs := hs.jobs.insert hid
    parses := fun p id' parse hparse => HasOperation.setJob (hs.parses p id' parse hparse) fun _ => hoperation }

section

variable {p : Parser} {lease : ParseLease} {now : DateTime} {parse : ParseState p} {held : Operation}
  (h : Checked p scope lease now s job parse) (hs : StoreShape s)

include h hs

theorem Checked.jobStored : s.jobs.lookup job.importJobId = some job := by
  rw [hs.jobs _ _ h.jobFound]
  exact h.jobFound

theorem Checked.operation :
    ∃ operation, s.operations.lookup job.operationId = some operation
      ∧ operation.scope = ScopedKnowledge.scope job := by
  obtain ⟨_, operation, hjob, hoperation⟩ := hs.parses p lease.jobId parse h.parseFound
  rw [h.jobFound] at hjob
  exact ⟨operation, some.inj hjob ▸ hoperation⟩

theorem Checked.operation_scope (hfound : s.operations.lookup job.operationId = some held) :
    held.scope = ScopedKnowledge.scope job := by
  obtain ⟨_, hoperation', howner⟩ := h.operation hs
  rw [hfound] at hoperation'
  exact some.inj hoperation' ▸ howner

/-- The operation of the job is the caller's. -/
theorem Checked.owner (hfound : s.operations.lookup job.operationId = some held) : held.scope = scope :=
  (h.operation_scope hs hfound).trans (inScope_iff.mp h.visible)

end

theorem same_operation {operation : Operation} (hfound : s.operations.lookup id = some operation)
    (hscope : operation'.scope = operation.scope) (old : Operation) (hold : s.operations.lookup id = some old) :
    operation'.scope = old.scope := by
  rw [hfound] at hold
  exact some.inj hold ▸ hscope

/-- The operation and the parse of a document that ended are written behind its job. -/
theorem Checked.ended {p : Parser} {lease : ParseLease} {now : DateTime} {parse : ParseState p} {s₁ : MemoryState}
    {operation : Operation} {job' : ImportJob} {a : ImportAcceptance}
    (h : Checked p scope lease now s job parse) (hs : StoreShape s)
    (hfound : s.operations.lookup job.operationId = some operation) (hs₁ : StoreShape s₁)
    (hsame : s₁.operations = s.operations) (hjob : s₁.jobs.lookup job.importJobId = some job')
    (hkept : job'.operationId = job.operationId) (howner : ScopedKnowledge.scope job' = ScopedKnowledge.scope job)
    (hscope : operation'.scope = operation.scope) :
    StoreShape (storeEnded p lease.jobId job.operationId parse operation' a s₁) := by
  rw [hs.jobs _ _ h.jobFound] at hjob
  refine (hs₁.setOperation (same_operation (hsame ▸ hfound) hscope)).setParse ⟨job', operation', hjob, ?_, ?_⟩
  · rw [hkept]
    exact AList.lookup_insert _
  · rw [hscope, howner]
    exact h.operation_scope hs hfound

theorem new_operation (hnew : s.operations.lookup id = none) (old : Operation)
    (hold : s.operations.lookup id = some old) : operation'.scope = old.scope := by
  rw [hnew] at hold
  simp at hold

theorem Brought.newImport (h : Brought scope objectId s s') (hnew : NewImport fresh s) : NewImport fresh s' := by
  cases h <;> exact ⟨hnew.source, hnew.version, hnew.chunks, hnew.operation, hnew.job, hnew.parses, hnew.release⟩

section

variable [Sha256]

variable {s' : MemoryState}

theorem Imported.shape {fresh : ImportInputs} {a : ImportAcceptance}
    (h : Imported scope fresh s a s') (hs : StoreShape s) (hnew : NewImport fresh s) : StoreShape s' := by
  have hother {id : Uuid} {p : Parser} {parse : ParseState p}
      (hparse : (s.parseJobs p).lookup id = some parse) : id ≠ fresh.jobId := by
    rintro rfl
    rw [hnew.parses p] at hparse
    simp at hparse
  cases h with
  | refused => exact hs
  | text r fits =>
    constructor
    case sessions => exact hs.sessions
    case objects => exact hs.objects
    case sources => exact hs.sources.insert rfl
    case versions => exact hs.versions.insert rfl
    case jobs => exact hs.jobs.insert rfl
    case releases => exact hs.releases.insert rfl
    case manifests => exact hs.manifests
    case parses =>
      intro p id parse hparse
      have hready : HasOperation s id := hs.parses p id parse hparse
      have hid : id ≠ r.job.importJobId := fits.jobId ▸ hother hparse
      have hstored : HasOperation (s.insertJob r.job) id := hready.setJob fun h => absurd h hid
      exact hstored.setOperation (new_operation hnew.operation)
  | queued _ _ _ _ _ _ project =>
    constructor
    case sessions => exact hs.sessions
    case objects => exact hs.objects
    case sources => exact hs.sources.insert rfl
    case versions => exact hs.versions
    case jobs => exact hs.jobs.insert rfl
    case releases => exact hs.releases
    case manifests => exact hs.manifests
    case parses =>
      refine forall_setParse ?_ ?_
      · exact ⟨_, _, AList.lookup_insert _, AList.lookup_insert _, (scope_eq project).symm⟩
      · intro q id parse hparse
        have hready : HasOperation s id := hs.parses q id parse hparse
        exact (hready.setOperation (new_operation hnew.operation)).setJob fun h => absurd h (hother hparse)
  | pending =>
    constructor
    case sessions => exact hs.sessions
    case objects => exact hs.objects
    case sources => exact hs.sources.insert rfl
    case versions => exact hs.versions
    case jobs => exact hs.jobs.insert rfl
    case releases => exact hs.releases
    case manifests => exact hs.manifests
    case parses =>
      intro p id parse hparse
      have hready : HasOperation s id := hs.parses p id parse hparse
      exact hready.setJob fun h => absurd h (hother hparse)

theorem KnowledgeEffect.shape {call : KnowledgeCall} {r : Except AppError KnowledgeReply} (h : KnowledgeEffect s call r s') (hs : StoreShape s)
    (hfresh : ∀ id ∈ call.newIds, s.Unused id) : StoreShape s' := by
  cases h with
  | same => exact hs
  | sessionCreated => exact { hs with sessions := hs.sessions.insert rfl }
  | contentPut _ id _ _ session found =>
    have hid : session.uploadSessionId = id := hs.sessions _ _ found
    exact { hs with sessions := hs.sessions.insert hid }
  | sessionExpired _ id session _ _ found =>
    have hid : session.uploadSessionId = id := hs.sessions _ _ found
    exact { hs with sessions := hs.sessions.insert hid }
  | contentRejected _ id session _ found =>
    have hid : session.uploadSessionId = id := hs.sessions _ _ found
    exact { hs with sessions := hs.sessions.insert hid }
  | uploadCompleted _ id _ _ fresh _ session _ _ object _ _ found _ _ _ _ _ _ imported =>
    have hbrought : StoreShape (s.insertObject object) := { hs with objects := hs.objects.insert rfl }
    have hnew : NewImport fresh s := .of_unused hfresh
    have hs₁ := imported.shape hbrought (hnew.insertObject object)
    have hid : session.uploadSessionId = id := hs.sessions _ _ found
    exact { hs₁ with sessions := hs₁.sessions.insert hid }
  | attachmentCompleted _ id _ _ _ session _ _ _ found =>
    have hid : session.uploadSessionId = id := hs.sessions _ _ found
    exact { hs with
      sessions := hs.sessions.insert hid
      objects := hs.objects.insert rfl }
  | itemImported _ _ _ _ fresh _ s₀ _ _ _ brought imported =>
    have hnew : NewImport fresh s₀ := brought.newImport (.of_unused hfresh)
    have hs₁ := imported.shape (brought.shape hs) hnew
    exact { hs₁ with }
  | revised _ sourceId _ _ _ _ _ source _ _ _ _ _ found _ _ _ _ stored =>
    subst stored
    have hid : source.sourceId = sourceId := hs.sources _ _ found
    exact { hs with
      sources := hs.sources.insert hid
      versions := hs.versions.insert rfl
      releases := hs.releases.insert rfl }
  | claimed p _ jobId _ _ _ job parse _ lease found _ _ parseFound _ operationFound =>
    have hready : HasOperation s jobId := hs.parses p jobId parse parseFound
    have hjobId : job.importJobId = jobId := hs.jobs _ _ found
    have hs₁ : StoreShape (s.setParse p jobId (parse.grant lease)) := hs.setParse hready
    have hs₂ : StoreShape ((s.setParse p jobId (parse.grant lease)).setJob jobId (job.run lease.expiresAt)) := by
      refine hs₁.setJob hjobId ?_
      obtain ⟨_, operation', hjob', hoperation'⟩ := hready
      rw [found] at hjob'
      exact ⟨operation', some.inj hjob' ▸ hoperation'⟩
    exact hs₂.setOperation (same_operation operationFound rfl)
  | renewed p _ lease _ _ _ job _ _ checked =>
    have hready : HasOperation s lease.jobId := hs.parses p _ _ checked.parseFound
    have hjobId : job.importJobId = lease.jobId := hs.jobs _ _ checked.jobFound
    exact (hs.setParse hready).setJob hjobId (checked.operation hs)
  | manifestRecorded p _ lease _ _ _ _ checked =>
    have hready : HasOperation s lease.jobId := hs.parses p _ _ checked.parseFound
    exact hs.setParse hready
  | unitRecorded p _ lease _ _ _ job _ checked =>
    have hready : HasOperation s lease.jobId := hs.parses p _ _ checked.parseFound
    have hjobId : job.importJobId = lease.jobId := hs.jobs _ _ checked.jobFound
    exact (hs.setParse hready).setJob hjobId (checked.operation hs)
  | finished p scope lease _ job parse total source version chunks operation _ release _ _ checked found _ _ _ _
      operationFound _ stored =>
    subst stored
    have hstored : StoreShape (storeParsed (finishedView source (some version)) version chunks s) :=
      { hs with
        sources := hs.sources.insert rfl
        versions := hs.versions.insert rfl }
    have hs₁ : StoreShape (storeParsedJob p job parse total source version chunks s) :=
      hstored.setJob rfl (checked.operation hs)
    have hs₂ : StoreShape ((storeParsedJob p job parse total source version chunks s).insertRelease
        scope.storageKey release) := { hs₁ with releases := hs₁.releases.insert rfl }
    exact checked.ended hs operationFound hs₂ rfl (AList.lookup_insert _) rfl rfl rfl
  | finishedEmpty p _ _ _ job parse total _ _ _ checked _ _ _ operationFound =>
    have hs₁ : StoreShape (s.insertJob (finishedJob p job parse total none)) := hs.setJob rfl (checked.operation hs)
    exact checked.ended hs operationFound hs₁ rfl (AList.lookup_insert _) rfl rfl rfl
  | failed p _ _ code _ _ job parse _ _ checked operationFound =>
    have hs₁ : StoreShape (s.insertJob (failedJob p job parse code)) := hs.setJob rfl (checked.operation hs)
    exact checked.ended hs operationFound hs₁ rfl (AList.lookup_insert _) rfl rfl rfl
  | resumed _ scope jobId fresh prior parse _ _ _ visible _ _ _ _ _ _ made =>
    subst made
    have hnew := (hfresh fresh.operationId (by simp [KnowledgeCall.newIds])).operations
    have howner : scope = ScopedKnowledge.scope (resumedJob prior jobId parse.successCount fresh) :=
      (inScope_iff.mp visible).symm
    have hs₁ : StoreShape (s.setOperation fresh.operationId
        (.queued "knowledge.import" scope fresh.operationId fresh.queuedAt)) :=
      hs.setOperation (new_operation hnew)
    have hs₂ : StoreShape ((s.setOperation fresh.operationId
        (.queued "knowledge.import" scope fresh.operationId fresh.queuedAt)).insertJob
          (resumedJob prior jobId parse.successCount fresh)) :=
      hs₁.setJob rfl ⟨_, AList.lookup_insert _, howner⟩
    exact hs₂.setParse ⟨_, _, AList.lookup_insert _, AList.lookup_insert _, howner⟩
  | manifestStored => exact { hs with manifests := hs.manifests.insert rfl }

end

/-! ### Runs -/

theorem storeShape_default : StoreShape MemoryState.default where
  sessions := .empty
  objects := .empty
  sources := .empty
  versions := .empty
  jobs := .empty
  releases := .empty
  manifests := .empty
  parses p id parse h := by cases p <;> simp [MemoryState.parseJobs, MemoryState.default] at h

theorem StoreShape.reordered (hs : StoreShape s) (h : s.Reordered s') : StoreShape s' := by
  have hjobs := h.jobs.lookup_eq
  have hrest := h.rest
  have hobjects : s'.storedObjects = s.storedObjects := by rw [hrest]
  have hreleases : s'.releases = s.releases := by rw [hrest]
  have hmanifests : s'.documentManifests = s.documentManifests := by rw [hrest]
  have hoperations : s'.operations = s.operations := by rw [hrest]
  have hparses (p : Parser) : s'.parseJobs p = s.parseJobs p := by rw [hrest]; rfl
  constructor
  case sessions => exact hs.sessions.sameEntries h.uploadSessions
  case objects => exact hobjects ▸ hs.objects
  case sources => exact hs.sources.sameEntries h.sources
  case versions => exact hs.versions.sameEntries h.versions
  case jobs => exact hs.jobs.sameEntries h.jobs
  case releases => exact hreleases ▸ hs.releases
  case manifests => exact hmanifests ▸ hs.manifests
  case parses =>
    intro p id parse hparse
    rw [hparses p] at hparse
    obtain ⟨job, operation, hjob, hoperation, howner⟩ := hs.parses p id parse hparse
    exact ⟨job, operation, by rw [← hjobs, hjob], by rw [hoperations, hoperation], howner⟩

section

variable [Sha256] [CsvChunks] {profiles : ParserProfiles} {s s' : MemoryState} {e : KnowledgeEvent}

/-- The repository with identifiers that are new when they are drawn. -/
abbrev freshMachine (profiles : ParserProfiles) : Machine MemoryState KnowledgeEvent :=
  (knowledgeMachine profiles).restrict FreshKnowledgeIds

theorem step_effect (hs : StoreShape s) (h : (freshMachine profiles).step s e s') :
    (e = .reorder ∧ s.Reordered s') ∨ ∃ call r, e = .call call r
      ∧ (∀ id ∈ call.newIds, s.Unused id) ∧ KnowledgeEffect s call r s' := by
  obtain ⟨hfresh, hstep⟩ := h
  cases e with
  | reorder => exact .inl ⟨rfl, hstep⟩
  | call call r => exact .inr ⟨call, r, rfl, hfresh, run_effect hs hstep⟩

theorem storeShape_step (hs : StoreShape s) (h : (freshMachine profiles).step s e s') : StoreShape s' := by
  rcases step_effect hs h with ⟨-, hreordered⟩ | ⟨call, r, -, hfresh, heffect⟩
  · exact hs.reordered hreordered
  · exact heffect.shape hs hfresh

end

end MemoryKnowledgeRepository

/-! ### Runs of given calls -/

instance MemoryState.decidableUnused (s : MemoryState) (id : Uuid) : Decidable (s.Unused id) :=
  decidable_of_iff
    (s.uploadSessions.lookup id = none ∧ s.storedObjects.lookup id = none
      ∧ s.objectBytes.lookup id = none ∧ s.sources.lookup id = none ∧ s.versions.lookup id = none
      ∧ s.chunks.lookup id = none ∧ s.jobs.lookup id = none
      ∧ ((s.parseJobs .pdf).lookup id = none ∧ (s.parseJobs .office).lookup id = none)
      ∧ s.operations.lookup id = none ∧ s.releases.lookup id = none)
    ⟨fun ⟨hsession, hobject, hbytes, hsource, hversion, hchunks, hjob, hparse, hoperation, hrelease⟩ =>
      ⟨hsession, hobject, hbytes, hsource, hversion, hchunks, hjob,
        fun p => by cases p <;> simp only [hparse], hoperation, hrelease⟩,
    fun h => ⟨h.uploadSessions, h.storedObjects, h.objectBytes, h.sources, h.versions, h.chunks,
      h.jobs, ⟨h.parseJobs .pdf, h.parseJobs .office⟩, h.operations, h.releases⟩⟩

instance decidableFreshKnowledgeIds (s : MemoryState) : (e : KnowledgeEvent) → Decidable (FreshKnowledgeIds s e)
  | .call call _ => inferInstanceAs (Decidable (∀ id ∈ call.newIds, s.Unused id))
  | .reorder => .isTrue trivial

namespace Sample

/-- A project of another tenant. -/
def otherScope : TenantScope :=
  { operatorId := ⟨uuid 1⟩, tenantId := ⟨uuid 4⟩, projectId := some ⟨uuid 5⟩ }

/-- No parser is configured. -/
def noParsers : ParserProfiles :=
  { pdfParserProfile := none, docxParserProfile := none, xlsxParserProfile := none }

/-- The content of an upload. -/
def image : List UInt8 :=
  [80, 78, 71]

def imageDigest : String :=
  "796120837694d3f3f29259cfeb25091698c2a0aa87873658d840b4993ee889b3"

/-- SHA-256 on the byte strings the runs below hash. -/
@[reducible] def uploadSha256 : Sha256 :=
  ⟨fun bytes =>
    if bytes = image then imageDigest
    else if bytes = Text.bytes "complete-1" then
      "59fb3ecfa87a6a0ccdfedcd1e0d07e09827a8e3aa53ca7ee9470bc0e0b3ea6cd"
    else ""⟩

/-- No table is read. -/
@[reducible] def noTables : CsvChunks :=
  ⟨fun _ _ _ _ _ => .ok []⟩

def imageCommand : UploadSessionCommand :=
  { filename := "photo.png", declaredMediaType := "image/png", expectedSize := 3
    expectedSha256 := imageDigest, purpose := .internalUse }

/-- What an import draws, numbered from a first identifier. -/
def importInputs (first : Nat) : ImportInputs :=
  { sourceId := uuid first, versionId := uuid (first + 1), operationId := uuid (first + 2)
    jobId := uuid (first + 3), releaseId := uuid (first + 4)
    chunkIds := fun n => uuid (first + 100 + n), capturedAt := 0, queuedAt := 0, releasedAt := 0 }

/-- What a completion draws, numbered from a first identifier. -/
def completionInputs (first : Nat) (now : DateTime) : MemoryKnowledgeRepository.CompletionInputs :=
  { objectId := uuid first, opaqueId := uuid (first + 1), checkedAt := now, createdAt := now }

/-- An image is announced and received. -/
def imageReceived : List KnowledgeCall :=
  [.createUploadSession scope imageCommand (uuid 10) 0, .putUploadContent scope (uuid 10) image 0]

end Sample

end GeoMaster
