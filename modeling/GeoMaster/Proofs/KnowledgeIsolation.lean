import GeoMaster.Proofs.Identifiers
import GeoMaster.Proofs.KnowledgeOwners

/-!
# Projects do not see each other's knowledge

A call answers with records of the caller's project and leaves every other project alone, except that a
completed upload is answered from its receipt before anyone looks at whose session it is.
-/

namespace GeoMaster

open Op Except List Option AList Bool MemoryState Calls

/-! ### Replies -/

/-- Every record an answer contains belongs to a project. -/
inductive KnowledgeAnswer.InScope (scope : TenantScope) : KnowledgeAnswer → Prop where
  | parseInput (p : Parser) (input : MemoryKnowledgeRepository.ParseInput p) : InScope scope (.parseInput p input)
  | operation (operation : Option Operation) : InScope scope (.operation operation)
  | attachment (found : Option (StoredObject × String))
      (records : ∀ x, found = some x → ScopedKnowledge.scope x.1 = scope) :
      InScope scope (.attachment found)
  | attachmentBytes (found : Option AttachmentObjectBytes)
      (records : ∀ x, found = some x → ScopedKnowledge.scope x.object = scope) :
      InScope scope (.attachmentBytes found)
  | sources (sources : List Source) (records : ∀ x ∈ sources, ScopedKnowledge.scope x = scope) :
      InScope scope (.sources sources)
  | source (source : Option Source) (records : ∀ x, source = some x → ScopedKnowledge.scope x = scope) :
      InScope scope (.source source)
  | sourceDetail (detail : Option SourceDetail)
      (sources : ∀ x, detail = some x → ScopedKnowledge.scope x.source = scope)
      (versions : ∀ x, detail = some x → ∀ version ∈ x.versions, ScopedKnowledge.scope version = scope)
      (facts : ∀ x, detail = some x → ∀ fact ∈ x.facts, ScopedKnowledge.scope fact = scope)
      (jobs : ∀ x, detail = some x → ∀ job ∈ x.importJobs, ScopedKnowledge.scope job = scope) :
      InScope scope (.sourceDetail detail)
  | sourceVersion (version : Option SourceVersion) (records : ∀ x, version = some x → ScopedKnowledge.scope x = scope) :
      InScope scope (.sourceVersion version)
  | sourceVersionContent (content : Option SourceVersionContent) : InScope scope (.sourceVersionContent content)
  | products (products : List Product) (records : ∀ x ∈ products, ScopedKnowledge.scope x = scope) :
      InScope scope (.products products)
  | facts (facts : List Fact) (records : ∀ x ∈ facts, ScopedKnowledge.scope x = scope) : InScope scope (.facts facts)
  | overview (overview : KnowledgeOverview) : InScope scope (.overview overview)
  | progress (progress : Option KnowledgeImportProgress) : InScope scope (.progress progress)
  | currentRelease (current : CurrentKnowledgeRelease) : InScope scope (.currentRelease current)
  | release (release : Option KnowledgeRelease) (records : ∀ x, release = some x → ScopedKnowledge.scope x = scope) :
      InScope scope (.release release)
  | manifest (manifest : Option DocumentManifest) (records : ∀ x, manifest = some x → ScopedKnowledge.scope x = scope) :
      InScope scope (.manifest manifest)

/-- Every record a reply contains belongs to a project. -/
def KnowledgeReply.InScope (scope : TenantScope) : KnowledgeReply → Prop
  | .session x => ScopedKnowledge.scope x = scope
  | .acceptance x => x.InScope scope
  | .attachment x _ => ScopedKnowledge.scope x = scope
  | .receipt x => ∀ acceptance, x = some acceptance → acceptance.InScope scope
  | .revision x => x.InScope scope
  | .lease _ => True
  | .recorded => True
  | .job x => ScopedKnowledge.scope x = scope
  | .manifest x => ScopedKnowledge.scope x = scope
  | .answer x => x.InScope scope

namespace MemoryKnowledgeRepository

section

variable {α : Type} [ScopedKnowledge α] {scope : TenantScope}

/-- A filtered lookup finds records of the caller's project. -/
theorem filter_inScope {found : Option α} {x : α} (h : found.filter (inScope scope) = some x) :
    ScopedKnowledge.scope x = scope :=
  inScope_iff.mp (filter_eq_some_iff.mp h).2

theorem mem_filter_inScope {l : List α} {x : α} (h : x ∈ l.filter (inScope scope)) : ScopedKnowledge.scope x = scope :=
  inScope_iff.mp (mem_filter.mp h).2

end

variable {id : Uuid} {s s' : MemoryState} {scope : TenantScope}

theorem read_returns {α : Type} {f : MemoryState → α} {a : α}
    (h : Op.Returns (do let _ ← requireProject scope; read f : KnowledgeOp α) s a s') : f s = a := by
  simp only [requireProject, returns_iff] at h
  obtain ⟨_, _, ⟨-, rfl⟩, rfl, -⟩ := h
  rfl

theorem getAttachmentObject_inScope {found : Option (StoredObject × String)}
    (h : Op.Returns (getAttachmentObject scope id) s found s') (x : StoredObject × String) (hx : found = some x) :
    ScopedKnowledge.scope x.1 = scope := by
  simp only [getAttachmentObject, requireProject, returns_iff] at h
  obtain ⟨_, _, ⟨-, rfl⟩, _, _, ⟨hobject, rfl⟩, _, _, ⟨-, rfl⟩, h⟩ := h
  split at h
  · obtain ⟨rfl, -⟩ := returns_pure.mp h
    obtain rfl := some.inj hx
    exact inScope_iff.mp (committedObjectIn_some hobject).2.2
  · obtain ⟨rfl, -⟩ := returns_pure.mp h
    simp at hx

theorem getSourceDetail_inScope {detail : Option SourceDetail} (h : Op.Returns (getSourceDetail scope id) s detail s') :
    (KnowledgeAnswer.sourceDetail detail).InScope scope := by
  obtain rfl := read_returns h
  refine .sourceDetail _ ?_ ?_ ?_ ?_
  · intro x hx
    obtain ⟨_, hsource, rfl⟩ := map_eq_some_iff.mp hx
    exact filter_inScope hsource
  · intro x hx version hversion
    obtain ⟨_, -, rfl⟩ := map_eq_some_iff.mp hx
    have hmem := (mem_filter.mp hversion).2
    simp only [and_eq_true] at hmem
    exact inScope_iff.mp hmem.2
  · intro x hx fact hfact
    obtain ⟨_, -, rfl⟩ := map_eq_some_iff.mp hx
    have hmem := (mem_filter.mp hfact).2
    simp only [and_eq_true] at hmem
    exact inScope_iff.mp hmem.1
  · intro x hx job hjob
    obtain ⟨_, -, rfl⟩ := map_eq_some_iff.mp hx
    have hmem := (mem_filter.mp hjob).2
    simp only [and_eq_true] at hmem
    exact inScope_iff.mp hmem.2

theorem versionOf_inScope {sourceId versionId : Uuid} {version : SourceVersion}
    (h : versionOf scope sourceId versionId s = some version) : ScopedKnowledge.scope version = scope := by
  have hvisible := (filter_eq_some_iff.mp h).2
  simp only [and_eq_true] at hvisible
  exact inScope_iff.mp hvisible.2

theorem refused_inScope {clientItemId : String} {error : AppError} :
    (ImportAcceptance.refused clientItemId error).InScope scope := by
  constructor <;> intro x hx <;> cases hx

/-! ### What a call leaves alone -/

/-- What belongs to records of other projects is as it was: bytes, texts, chunks and documents, receipts,
and the current release. Products and facts are not written for any project. -/
structure PartsKept (scope : TenantScope) (s s' : MemoryState) : Prop where
  products : s'.products = s.products
  facts : s'.facts = s.facts
  received : ∀ id session, s.uploadSessions.lookup id = some session →
    ScopedKnowledge.scope session ≠ scope → s'.uploadBytes.lookup id = s.uploadBytes.lookup id
  uploadReceipts : ∀ id hash session, s.uploadSessions.lookup id = some session → ScopedKnowledge.scope session
    ≠ scope → s'.uploadCompletions.lookup (id, hash) = s.uploadCompletions.lookup (id, hash)
  attachmentReceipts : ∀ id session, s.uploadSessions.lookup id = some session → ScopedKnowledge.scope session ≠ scope →
    s'.attachmentCompletions.lookup id = s.attachmentCompletions.lookup id
  bytes : ∀ id object, s.storedObjects.lookup id = some object →
    ScopedKnowledge.scope object ≠ scope → s'.objectBytes.lookup id = s.objectBytes.lookup id
  chunks : ∀ id version, s.versions.lookup id = some version →
    ScopedKnowledge.scope version ≠ scope → s'.chunks.lookup id = s.chunks.lookup id
  texts : ∀ id version, s.versions.lookup id = some version →
    ScopedKnowledge.scope version ≠ scope → s'.authoredText.lookup id = s.authoredText.lookup id
  parses : ∀ p id job, s.jobs.lookup id = some job → ScopedKnowledge.scope job ≠ scope →
    (s'.parseJobs p).lookup id = (s.parseJobs p).lookup id
  current : ∀ key, key ≠ scope.storageKey → s'.currentRelease.lookup key = s.currentRelease.lookup key
  importReceipts : ∀ key item, key ≠ scope.storageKey →
    s'.importItems.lookup (key, item) = s.importItems.lookup (key, item)
  revisionReceipts : ∀ key id hash, key ≠ scope.storageKey →
    s'.revisionReceipts.lookup (key, id, hash) = s.revisionReceipts.lookup (key, id, hash)

/-- The records of every other project, and what belongs to them, are as they were. -/
structure OthersUnchanged (scope : TenantScope) (s s' : MemoryState) : Prop where
  sessions : ∀ id x, ScopedKnowledge.scope x ≠ scope →
    (s'.uploadSessions.lookup id = some x ↔ s.uploadSessions.lookup id = some x)
  objects : ∀ id x, ScopedKnowledge.scope x ≠ scope →
    (s'.storedObjects.lookup id = some x ↔ s.storedObjects.lookup id = some x)
  sources : ∀ id x, ScopedKnowledge.scope x ≠ scope → (s'.sources.lookup id = some x ↔ s.sources.lookup id = some x)
  versions : ∀ id x, ScopedKnowledge.scope x ≠ scope → (s'.versions.lookup id = some x ↔ s.versions.lookup id = some x)
  jobs : ∀ id x, ScopedKnowledge.scope x ≠ scope → (s'.jobs.lookup id = some x ↔ s.jobs.lookup id = some x)
  releases : ∀ id x, ScopedKnowledge.scope x ≠ scope → (s'.releases.lookup id = some x ↔ s.releases.lookup id = some x)
  manifests : ∀ id x, ScopedKnowledge.scope x ≠ scope →
    (s'.documentManifests.lookup id = some x ↔ s.documentManifests.lookup id = some x)
  operations : ∀ id x, Operation.scope x ≠ scope → (s'.operations.lookup id = some x ↔ s.operations.lookup id = some x)
  parts : PartsKept scope s s'

theorem WritesFor.others (h : WritesFor scope s s') (hparts : PartsKept scope s s') : OthersUnchanged scope s s' where
  sessions _ _ hx := h.sessions.others hx
  objects _ _ hx := h.objects.others hx
  sources _ _ hx := h.sources.others hx
  versions _ _ hx := h.versions.others hx
  jobs _ _ hx := h.jobs.others hx
  releases _ _ hx := h.releases.others hx
  manifests _ _ hx := h.manifests.others hx
  operations _ _ hx := h.operations.others hx
  parts := hparts

theorem PartsKept.refl (scope : TenantScope) (s : MemoryState) : PartsKept scope s s := by
  constructor <;> intros <;> rfl

/-- Two writes for one project, one after the other. -/
theorem PartsKept.trans {s₁ : MemoryState} (h : PartsKept scope s s₁) (hwrites : WritesFor scope s s₁)
    (h' : PartsKept scope s₁ s') : PartsKept scope s s' where
  products := h'.products.trans h.products
  facts := h'.facts.trans h.facts
  received id x hx hother :=
    (h'.received id x ((hwrites.sessions.others hother).mpr hx) hother).trans (h.received id x hx hother)
  uploadReceipts id hash x hx hother :=
    (h'.uploadReceipts id hash x ((hwrites.sessions.others hother).mpr hx) hother).trans
      (h.uploadReceipts id hash x hx hother)
  attachmentReceipts id x hx hother :=
    (h'.attachmentReceipts id x ((hwrites.sessions.others hother).mpr hx) hother).trans
      (h.attachmentReceipts id x hx hother)
  bytes id x hx hother := (h'.bytes id x ((hwrites.objects.others hother).mpr hx) hother).trans (h.bytes id x hx hother)
  chunks id x hx hother :=
    (h'.chunks id x ((hwrites.versions.others hother).mpr hx) hother).trans (h.chunks id x hx hother)
  texts id x hx hother :=
    (h'.texts id x ((hwrites.versions.others hother).mpr hx) hother).trans (h.texts id x hx hother)
  parses p id x hx hother :=
    (h'.parses p id x ((hwrites.jobs.others hother).mpr hx) hother).trans (h.parses p id x hx hother)
  current key hkey := (h'.current key hkey).trans (h.current key hkey)
  importReceipts key item hkey := (h'.importReceipts key item hkey).trans (h.importReceipts key item hkey)
  revisionReceipts key id hash hkey := (h'.revisionReceipts key id hash hkey).trans
    (h.revisionReceipts key id hash hkey)

theorem other_key {α : Type} [ScopedKnowledge α] {m : AssocMap Uuid α} {id' : Uuid} {x y : α}
    (hx : m.lookup id = some x) (hvisible : inScope scope x = true) (hy : m.lookup id' = some y)
    (hother : ScopedKnowledge.scope y ≠ scope) : id' ≠ id := by
  rintro rfl
  rw [hx] at hy
  exact hother (some.inj hy ▸ inScope_iff.mp hvisible)

/-- The entry of a new key is no entry of a record that is stored. -/
theorem lookup_insert_new {K V W : Type} [DecidableEq K] {records : AssocMap K V}
    {m : AssocMap K W} {k k' : K} {x : V} {w : W} (hnew : records.lookup k = none)
    (hx : records.lookup k' = some x) : (m.insert k w).lookup k' = m.lookup k' := by
  have hne : k' ≠ k := by
    rintro rfl
    rw [hnew] at hx
    simp at hx
  exact lookup_insert_ne hne

/-- A document is written whose job, if there is one, belongs to the caller's project. -/
theorem PartsKept.setParse {s₁ : MemoryState} {p : Parser} (h : PartsKept scope s s₁) (parse : ParseState p)
    (hown : ∀ job, s.jobs.lookup id = some job → ScopedKnowledge.scope job = scope) :
    PartsKept scope s (s₁.setParse p id parse) := by
  refine { h with parses := fun q id' job hjob hother => ?_ }
  have hne : id' ≠ id := by
    rintro rfl
    exact hother (hown job hjob)
  rw [← h.parses q id' job hjob hother]
  by_cases hq : q = p
  · subst hq
    rw [MemoryState.parseJobs_setParse, lookup_insert_ne hne]
  · rw [MemoryState.parseJobs_setParse_of_ne hq]

theorem PartsKept.ended {s₁ : MemoryState} {p : Parser} {operationId : Uuid} {parse : ParseState p}
    {operation : Operation} {a : ImportAcceptance} (h : PartsKept scope s s₁)
    (hown : ∀ job, s.jobs.lookup id = some job → ScopedKnowledge.scope job = scope) :
    PartsKept scope s (storeEnded p id operationId parse operation a s₁) := by
  have hset : PartsKept scope s (s₁.setOperation operationId operation) := { h with }
  exact hset.setParse _ hown

theorem Brought.parts {objectId : Uuid} (h : Brought scope objectId s s')
    (hnew : s.storedObjects.lookup objectId = none) : PartsKept scope s s' := by
  cases h with
  | nothing => exact .refl _ _
  | page _ bytes id =>
    subst id
    exact { PartsKept.refl scope s with bytes := fun id x hx _ => lookup_insert_new hnew hx }
  | stored => exact { PartsKept.refl scope s with }

theorem no_job (hnew : s.jobs.lookup id = none) (job : ImportJob) (hjob : s.jobs.lookup id = some job) :
    ScopedKnowledge.scope job = scope := by
  rw [hnew] at hjob
  simp at hjob

/-- A job that the caller may see is the only one under its identifier. -/
theorem visible_only {job : ImportJob} (hfound : s.jobs.lookup id = some job) (hvisible : inScope scope job = true)
    (job' : ImportJob) (hjob' : s.jobs.lookup id = some job') : ScopedKnowledge.scope job' = scope := by
  rw [hfound] at hjob'
  exact some.inj hjob' ▸ inScope_iff.mp hvisible

section

variable [Sha256]

variable {s s' : MemoryState}

theorem getAttachmentObjectBytes_inScope {scope : TenantScope} {objectId : Uuid} {objectVersion : Int}
    {sha256 : String} {found : Option AttachmentObjectBytes}
    (h : Op.Returns (getAttachmentObjectBytes scope objectId objectVersion sha256) s found s')
    (x : AttachmentObjectBytes) (hx : found = some x) : ScopedKnowledge.scope x.object = scope := by
  simp only [getAttachmentObjectBytes, requireProject, returns_iff] at h
  obtain ⟨_, _, ⟨-, rfl⟩, object, _, ⟨hobject, rfl⟩, h⟩ := h
  cases object with
  | none =>
    obtain ⟨rfl, -⟩ := returns_pure.mp h
    simp at hx
  | some object =>
    have hvisible := (filter_eq_some_iff.mp hobject).2
    simp only [and_eq_true] at hvisible
    simp only [returns_iff] at h
    obtain ⟨_, _, ⟨-, rfl⟩, h⟩ := h
    split at h
    · simp only [returns_iff] at h
      obtain ⟨_, _, ⟨-, rfl⟩, _, _, ⟨-, rfl⟩, _, _, ⟨hverified, rfl⟩, rfl, -⟩ := h
      obtain rfl := some.inj hx
      unfold AttachmentObjectBytes.verified at hverified
      split at hverified
      · simp at hverified
      · obtain rfl := ok.inj hverified
        exact inScope_iff.mp hvisible.1.1.1
    · obtain ⟨rfl, -⟩ := returns_pure.mp h
      simp at hx

/-- A read answers with records of the caller's project. -/
theorem runQuery_inScope {query : KnowledgeQuery} {answer : KnowledgeAnswer}
    (h : Op.Returns (runQuery query) s answer s') : answer.InScope query.scope := by
  cases query with
  | parseInput p =>
    obtain ⟨input, -, rfl⟩ := reply_returns h
    exact .parseInput p input
  | parseOperation =>
    obtain ⟨operation, -, rfl⟩ := reply_returns h
    exact .operation operation
  | getAttachmentObject scope id =>
    obtain ⟨found, hret, rfl⟩ := reply_returns h
    exact .attachment found (getAttachmentObject_inScope hret)
  | getAttachmentObjectBytes =>
    obtain ⟨found, hret, rfl⟩ := reply_returns h
    exact .attachmentBytes found (getAttachmentObjectBytes_inScope hret)
  | listSources scope =>
    obtain ⟨sources, hret, rfl⟩ := reply_returns h
    refine .sources sources fun x hx => ?_
    rw [← read_returns hret, mem_insertionSort] at hx
    exact mem_filter_inScope hx
  | getSource scope id =>
    obtain ⟨source, hret, rfl⟩ := reply_returns h
    refine .source source fun x hx => ?_
    exact filter_inScope ((read_returns hret).trans hx)
  | getSourceDetail scope id =>
    obtain ⟨_, hret, rfl⟩ := reply_returns h
    exact getSourceDetail_inScope hret
  | getSourceVersion =>
    obtain ⟨version, hret, rfl⟩ := reply_returns h
    refine .sourceVersion version fun x hx => ?_
    exact versionOf_inScope ((read_returns hret).trans hx)
  | getSourceVersionContent =>
    obtain ⟨content, -, rfl⟩ := reply_returns h
    exact .sourceVersionContent content
  | listProducts scope =>
    obtain ⟨products, hret, rfl⟩ := reply_returns h
    refine .products products fun x hx => ?_
    rw [← read_returns hret] at hx
    exact mem_filter_inScope hx
  | listFacts scope =>
    obtain ⟨facts, hret, rfl⟩ := reply_returns h
    refine .facts facts fun x hx => ?_
    rw [← read_returns hret] at hx
    exact mem_filter_inScope hx
  | overview scope =>
    obtain ⟨overview, -, rfl⟩ := reply_returns h
    exact .overview overview
  | getImportProgress =>
    obtain ⟨progress, -, rfl⟩ := reply_returns h
    exact .progress progress
  | resolveImportReceipt scope expected =>
    obtain ⟨progress, -, rfl⟩ := reply_returns h
    exact .progress progress
  | currentRelease scope =>
    obtain ⟨current, -, rfl⟩ := reply_returns h
    exact .currentRelease current
  | getRelease scope id =>
    obtain ⟨release, hret, rfl⟩ := reply_returns h
    refine .release release fun x hx => ?_
    exact filter_inScope ((read_returns hret).trans hx)
  | getDocumentManifest scope id =>
    obtain ⟨manifest, hret, rfl⟩ := reply_returns h
    refine .manifest manifest fun x hx => ?_
    exact filter_inScope ((read_returns hret).trans hx)

/-- The receipt of an upload belongs to a session of another project. -/
def ForeignReceipt (s : MemoryState) (call : KnowledgeCall) : Prop :=
  ∃ scope id key completion fresh session, call = .completeUpload scope id key completion fresh
    ∧ Text.isBlank key = false ∧ (s.uploadCompletions.lookup (id, keyHash key)).isSome
    ∧ s.uploadSessions.lookup id = some session ∧ inScope scope session = false

/-- An answer from the store, without a write, is about the caller's project. -/
theorem Kept.owned {call : KnowledgeCall} {reply : KnowledgeReply} (h : Kept s call reply) (hs : Isolated s)
    (hown : ¬ ForeignReceipt s call) : reply.InScope call.scope := by
  cases h with
  | uploadReceipt scope id key completion fresh _ _ nonblank stored =>
    obtain ⟨session, hsession, hin, -⟩ := hs.uploadReceipts _ _ _ stored
    have hvisible : inScope scope session = true := by
      by_contra hnot
      exact hown ⟨scope, id, key, completion, fresh, session, rfl, nonblank, by simp [stored],
        hsession, by simpa using hnot⟩
    rw [inScope_iff.mp hvisible] at hin
    exact hin
  | attachmentReceipt _ id _ _ session objectId _ found visible committed stored =>
    obtain ⟨_, hobject', hscope⟩ := hs.sessionObjects id session objectId found committed
    rw [stored] at hobject'
    obtain rfl := some.inj hobject'
    exact hscope.trans (inScope_iff.mp visible)
  | receipt _ _ _ _ known =>
    intro acceptance hacceptance
    rcases known acceptance hacceptance with ⟨error, rfl⟩ | ⟨hash, hstored⟩
    · exact refused_inScope
    · obtain ⟨_, _, hkey, hin⟩ := hs.importReceipts _ _ _ _ hstored
      rw [TenantScope.storageKey_injective hkey] at hin
      exact hin
  | item _ _ _ _ _ _ _ known =>
    rcases known with ⟨error, rfl⟩ | ⟨hash, hstored⟩
    · exact refused_inScope
    · obtain ⟨_, _, hkey, hin⟩ := hs.importReceipts _ _ _ _ hstored
      rw [TenantScope.storageKey_injective hkey] at hin
      exact hin
  | revision _ _ _ _ _ _ _ _ _ _ stored =>
    obtain ⟨_, _, hkey, hin⟩ := hs.revisionReceipts _ _ _ _ _ stored
    rw [TenantScope.storageKey_injective hkey] at hin
    exact hin
  | notClaimed => trivial
  | notRenewed => trivial
  | recorded => trivial
  | resumed _ _ jobId _ _ next id found visible stored resumedFrom =>
    obtain ⟨_, hprior', hscope⟩ := hs.jobPriors id next jobId stored resumedFrom
    rw [found] at hprior'
    obtain rfl := some.inj hprior'
    exact hscope.symm.trans (inScope_iff.mp visible)
  | planned _ _ _ _ manifest found visible stored sameRelease =>
    obtain ⟨_, hrelease', hscope⟩ := hs.manifestReleases _ manifest _ stored rfl
    rw [sameRelease, found] at hrelease'
    obtain rfl := some.inj hrelease'
    exact hscope.symm.trans (inScope_iff.mp visible)
  | saved _ _ _ visible => exact inScope_iff.mp visible
  | query _ _ answered => exact runQuery_inScope answered

/-- A reply contains records of the caller's project only. -/
theorem KnowledgeEffect.owned {call : KnowledgeCall} {r : Except AppError KnowledgeReply} {reply : KnowledgeReply}
    (h : KnowledgeEffect s call r s') (hs : Isolated s) (hown : ¬ ForeignReceipt s call) (hreply : r = .ok reply) :
    reply.InScope call.scope := by
  cases h with
  | same _ _ kept => exact (kept reply hreply).owned hs hown
  | sessionCreated _ _ _ _ _ project =>
    obtain rfl := ok.inj hreply
    exact scope_eq project
  | contentPut _ _ _ _ _ _ visible =>
    obtain rfl := ok.inj hreply
    exact inScope_iff.mp visible
  | sessionExpired => simp at hreply
  | contentRejected => simp at hreply
  | uploadCompleted _ _ _ _ _ _ _ _ _ _ _ _ _ _ _ _ _ _ _ imported =>
    obtain rfl := ok.inj hreply
    exact { imported.inScope with }
  | attachmentCompleted _ _ _ _ _ _ _ _ project _ _ _ _ _ made =>
    obtain rfl := ok.inj hreply
    exact made ▸ scope_eq project
  | itemImported _ _ _ _ _ _ _ _ _ _ _ imported =>
    obtain rfl := ok.inj hreply
    exact imported.inScope
  | revised _ _ _ _ _ _ _ _ _ _ _ _ project _ visible _ _ made _ built =>
    obtain rfl := ok.inj hreply
    obtain ⟨_, _, rfl⟩ := made
    exact ⟨inScope_iff.mp visible, scope_eq project, built ▸ nextRelease_scope project⟩
  | claimed =>
    obtain rfl := ok.inj hreply
    trivial
  | renewed =>
    obtain rfl := ok.inj hreply
    trivial
  | manifestRecorded =>
    obtain rfl := ok.inj hreply
    trivial
  | unitRecorded =>
    obtain rfl := ok.inj hreply
    trivial
  | finished _ _ _ _ _ _ _ source _ _ _ _ release _ _ checked _ visible _ made _ _ project _ built answered =>
    obtain rfl := ok.inj hreply
    have howner := inScope_iff.mp visible
    subst answered
    constructor
    case source => rintro _ ⟨⟩; exact howner
    case sourceVersion =>
      rintro _ ⟨⟩
      obtain ⟨_, _, rfl, -⟩ := made
      rw [← howner]
      rfl
    case importJob => rintro _ ⟨⟩; exact inScope_iff.mp checked.visible
    case release => rintro _ ⟨⟩; exact built ▸ nextRelease_scope project
  | finishedEmpty _ _ _ _ _ _ _ source _ _ checked _ visible _ _ answered =>
    obtain rfl := ok.inj hreply
    subst answered
    constructor
    case source => rintro _ ⟨⟩; exact inScope_iff.mp visible
    case importJob => rintro _ ⟨⟩; exact inScope_iff.mp checked.visible
    all_goals intro x hx; cases hx
  | failed _ _ lease _ _ _ job _ _ _ checked _ answered =>
    obtain rfl := ok.inj hreply
    subst answered
    have howner := inScope_iff.mp checked.visible
    constructor
    case source =>
      intro x hx
      obtain ⟨_, hsource, hscope⟩ := hs.jobSources lease.jobId job job.sourceId checked.jobFound rfl
      have hsame := hsource.symm.trans hx
      obtain rfl := some.inj hsame
      exact hscope.trans howner
    case importJob => rintro _ ⟨⟩; exact howner
    all_goals intro x hx; cases hx
  | resumed _ _ _ _ _ _ _ _ _ visible _ _ _ _ _ _ made =>
    obtain rfl := ok.inj hreply
    exact made ▸ inScope_iff.mp visible
  | manifestStored call scope _ _ caller _ _ manifestVisible =>
    obtain rfl := ok.inj hreply
    have hcaller : call.scope = scope := by rcases caller with ⟨request, documentScope, rfl⟩ | rfl <;> rfl
    rw [hcaller]
    exact inScope_iff.mp manifestVisible

theorem Imported.parts {scope : TenantScope} {fresh : ImportInputs} {a : ImportAcceptance}
    (h : Imported scope fresh s a s') (hnew : NewImport fresh s) : PartsKept scope s s' := by
  cases h with
  | refused => exact .refl _ _
  | text r fits _ _ _ release =>
    have hstored : PartsKept scope s (storeText r s) :=
      { PartsKept.refl scope s with
        chunks := fun id x hx _ => lookup_insert_new (fits.versionId ▸ hnew.version) hx }
    have hreleased : PartsKept scope s ((storeText r s).insertRelease scope.storageKey release) :=
      { hstored with current := fun key hkey => lookup_insert_ne hkey }
    exact { hreleased with }
  | queued _ _ object profile extra =>
    have hparse := (PartsKept.refl scope s).setParse (queuedParse object profile extra fresh) (no_job hnew.job)
    exact { hparse with }
  | pending => exact { PartsKept.refl scope s with }

/-- A call leaves what belongs to other projects alone. -/
theorem KnowledgeEffect.parts {call : KnowledgeCall} {r : Except AppError KnowledgeReply}
    (h : KnowledgeEffect s call r s') (hfresh : ∀ id ∈ call.newIds, s.Unused id) : PartsKept call.scope s s' := by
  cases h with
  | same => exact .refl _ _
  | sessionCreated => exact { PartsKept.refl _ s with }
  | contentPut _ _ _ _ _ found visible =>
    exact { PartsKept.refl _ s with
      received := fun id' y hy hother => lookup_insert_ne (other_key found visible hy hother) }
  | sessionExpired => exact { PartsKept.refl _ s with }
  | contentRejected => exact { PartsKept.refl _ s with }
  | uploadCompleted _ id _ completion fresh _ _ content _ object s₁ _ found visible _ _ _ _ made imported =>
    have hnew : NewImport fresh s := .of_unused hfresh
    have hobject : s.storedObjects.lookup object.objectId = none := made ▸ (unused_first hfresh).storedObjects
    have hparts := imported.parts (hnew.insertObject object)
    have hbytes : s₁.objectBytes = s.objectBytes := by cases imported <;> rfl
    refine { hparts with uploadReceipts := fun id' hash y hy hother => ?_, bytes := ?_ }
    · refine Eq.trans ?_ (hparts.uploadReceipts id' hash y hy hother)
      refine lookup_insert_ne fun hkey => ?_
      exact other_key found visible hy hother (Prod.mk.inj hkey).1
    · intro id x hx _
      show (s₁.objectBytes.insert object.objectId content).lookup id = _
      rw [hbytes]
      exact lookup_insert_new hobject hx
  | attachmentCompleted scope id _ completion _ _ _ object _ found visible _ _ _ made =>
    have hobject : s.storedObjects.lookup object.objectId = none := made ▸ (unused_first hfresh).storedObjects
    exact { PartsKept.refl scope s with
      bytes := fun id x hx _ => lookup_insert_new hobject hx
      attachmentReceipts := fun id' y hy hother => lookup_insert_ne (other_key found visible hy hother) }
  | itemImported _ _ _ objectId fresh _ s₀ _ _ _ brought imported =>
    have hnew : NewImport fresh s₀ := brought.newImport (.of_unused hfresh)
    have hobject := (unused_first hfresh).storedObjects
    have hbrought := brought.parts hobject
    have himported := imported.parts hnew
    have hboth := hbrought.trans (brought.writes hobject) himported
    refine { hboth with importReceipts := fun key item' hkey => ?_ }
    rw [← hboth.importReceipts key item' hkey]
    exact lookup_insert_ne fun h => hkey (Prod.mk.inj h).1
  | revised scope sourceId _ key command fresh projectId source _ chunks release _ _ _ _ _ _ made stored =>
    obtain ⟨number, base, rfl⟩ := made
    subst stored
    have hversion := (unused_first hfresh).versions
    have hstored : PartsKept scope s (storeRevision sourceId (revisedSource source fresh.versionId)
        (revisedVersion scope projectId sourceId number base command fresh) chunks command s) :=
      { PartsKept.refl scope s with
        chunks := fun id x hx _ => lookup_insert_new hversion hx
        texts := fun id x hx _ => lookup_insert_new hversion hx }
    have hreleased : PartsKept scope s ((storeRevision sourceId
        (revisedSource source fresh.versionId)
          (revisedVersion scope projectId sourceId number base command fresh) chunks command
            s).insertRelease scope.storageKey release) :=
      { hstored with current := fun key hkey => lookup_insert_ne hkey }
    exact { hreleased with
      revisionReceipts := fun key id hash hkey => lookup_insert_ne fun h => hkey (Prod.mk.inj h).1 }
  | claimed _ scope _ _ _ _ _ parse _ lease found visible =>
    have hparse := (PartsKept.refl scope s).setParse (parse.grant lease) (visible_only found visible)
    exact { hparse with }
  | renewed _ scope _ _ _ _ _ parse next checked =>
    have hparse := (PartsKept.refl scope s).setParse (parse.renew next) (visible_only checked.jobFound checked.visible)
    exact { hparse with }
  | manifestRecorded _ scope _ manifest _ _ parse checked =>
    have hparse := (PartsKept.refl scope s).setParse (parse.withManifest manifest)
      (visible_only checked.jobFound checked.visible)
    exact { hparse with }
  | unitRecorded _ scope _ _ stored _ _ parse checked =>
    have hparse := (PartsKept.refl scope s).setParse (parse.withUnit stored)
      (visible_only checked.jobFound checked.visible)
    exact { hparse with }
  | finished p scope _ fresh job parse total source _ chunks _ _ release _ _ checked _ visible _ made _ _ _ stored =>
    obtain ⟨object, parent, rfl, -⟩ := made
    subst stored
    have hversion := (unused_first hfresh).versions
    have hstored : PartsKept scope s (storeParsedJob p job parse total source
        (parsedVersion p scope source object parse parent fresh) chunks s) :=
      { PartsKept.refl scope s with
        chunks := fun id x hx _ => lookup_insert_new hversion hx }
    have hreleased : PartsKept scope s ((storeParsedJob p job parse total source
        (parsedVersion p scope source object parse parent fresh) chunks s).insertRelease scope.storageKey release) :=
      { hstored with current := fun key hkey => lookup_insert_ne hkey }
    exact hreleased.ended (visible_only checked.jobFound checked.visible)
  | finishedEmpty p scope _ _ job parse total _ _ _ checked =>
    have hjob : PartsKept scope s (s.insertJob (finishedJob p job parse total none)) :=
      { PartsKept.refl scope s with }
    exact hjob.ended (visible_only checked.jobFound checked.visible)
  | failed p scope _ code _ _ job parse _ _ checked =>
    have hjob : PartsKept scope s (s.insertJob (failedJob p job parse code)) := { PartsKept.refl scope s with }
    exact hjob.ended (visible_only checked.jobFound checked.visible)
  | resumed _ scope jobId fresh _ parse =>
    have hjob := (unused_first hfresh).jobs
    have hparse := (PartsKept.refl scope s).setParse (resumedParse parse jobId fresh.queuedAt) (no_job hjob)
    exact { hparse with }
  | manifestStored => exact { PartsKept.refl _ s with }

end

theorem Isolated.reordered (hs : Isolated s) (h : s.Reordered s') : Isolated s' := by
  have hsessions := h.uploadSessions.lookup_eq
  have hsources := h.sources.lookup_eq
  have hversions := h.versions.lookup_eq
  have hjobs := h.jobs.lookup_eq
  have hrest := h.rest
  have hobjects : s'.storedObjects = s.storedObjects := by rw [hrest]
  have hreleases : s'.releases = s.releases := by rw [hrest]
  have hmanifests : s'.documentManifests = s.documentManifests := by rw [hrest]
  have huploads : s'.uploadCompletions = s.uploadCompletions := by rw [hrest]
  have hitems : s'.importItems = s.importItems := by rw [hrest]
  have hrevisions : s'.revisionReceipts = s.revisionReceipts := by rw [hrest]
  constructor
  case sessionObjects =>
    intro k v j hk hj
    rw [hobjects]
    exact hs.sessionObjects k v j (by rw [hsessions, hk]) hj
  case versionSources =>
    intro k v j hk hj
    rw [← hsources]
    exact hs.versionSources k v j (by rw [hversions, hk]) hj
  case jobSources =>
    intro k v j hk hj
    rw [← hsources]
    exact hs.jobSources k v j (by rw [hjobs, hk]) hj
  case jobPriors =>
    intro k v j hk hj
    rw [← hjobs]
    exact hs.jobPriors k v j (by rw [hjobs, hk]) hj
  case manifestReleases => rw [hmanifests, hreleases]; exact hs.manifestReleases
  case uploadReceipts =>
    intro id hash a ha
    rw [huploads] at ha
    rw [← hsessions]
    exact hs.uploadReceipts id hash a ha
  case importReceipts => rw [hitems]; exact hs.importReceipts
  case revisionReceipts => rw [hrevisions]; exact hs.revisionReceipts

section

variable [Sha256] [CsvChunks] {profiles : ParserProfiles} {s s' : MemoryState} {e : KnowledgeEvent}

theorem isolated_step (hs : StoreShape s ∧ Isolated s) (h : (freshMachine profiles).step s e s') :
    StoreShape s' ∧ Isolated s' := by
  refine ⟨storeShape_step hs.1 h, ?_⟩
  rcases step_effect hs.1 h with ⟨-, hreordered⟩ | ⟨call, r, -, hfresh, heffect⟩
  · exact hs.2.reordered hreordered
  · exact heffect.isolated hs.2 hs.1 hfresh

theorem isolated_run {h : List KnowledgeEvent}
    (hrun : (freshMachine profiles).Run default h s) : StoreShape s ∧ Isolated s :=
  Machine.Run.invariant (I := fun s => StoreShape s ∧ Isolated s) (fun _ _ _ => isolated_step) hrun
    ⟨storeShape_default, isolated_default⟩

/-- The call answers with records of the caller's project and leaves every other project alone. -/
def KeepsApart (profiles : ParserProfiles) (s : MemoryState) (call : KnowledgeCall) : Prop :=
  ∀ r s', (run profiles call).run s = (r, s') →
    (∀ reply, r = .ok reply → reply.InScope call.scope) ∧ OthersUnchanged call.scope s s'

theorem foreignReceipt_disclosed {call : KnowledgeCall} (hs : Isolated s) (hproject : call.scope.projectId.isSome)
    (hforeign : ForeignReceipt s call) : ¬ KeepsApart profiles s call := by
  intro hapart
  obtain ⟨scope, id, key, completion, fresh, session, rfl, hblank, hreceipt, hsession, hother⟩ := hforeign
  obtain ⟨acceptance, hstored⟩ := isSome_iff_exists.mp hreceipt
  obtain ⟨projectId, hprojectId⟩ := isSome_iff_exists.mp hproject
  have hreturns : Op.Returns (completeUpload profiles scope id key completion fresh) s acceptance s := by
    have hscope : scope.projectId = some projectId := hprojectId
    simp [completeUpload, requireProject, hscope, hblank, hstored]
  have hcall : (run profiles (.completeUpload scope id key completion fresh)).run s
      = (.ok (.acceptance acceptance), s) :=
    returns_map.mpr ⟨acceptance, hreturns, rfl⟩
  have hin := (hapart _ _ hcall).1 _ rfl
  obtain ⟨_, hsession', hown, hsourced⟩ := hs.uploadReceipts id _ acceptance hstored
  rw [hsession] at hsession'
  obtain rfl := some.inj hsession'
  obtain ⟨source, hsource⟩ := isSome_iff_exists.mp hsourced
  have hscope : ScopedKnowledge.scope session = scope :=
    (hown.source source hsource).symm.trans (hin.source source hsource)
  rw [inScope_iff.mpr hscope] at hother
  simp at hother

end

end MemoryKnowledgeRepository

open MemoryKnowledgeRepository

/-- A call under a scope with a project keeps projects apart exactly when it is not answered with the
upload receipt of another project. -/
theorem knowledge_isolation [Sha256] [CsvChunks] {profiles : ParserProfiles} {h : List KnowledgeEvent}
    {s : MemoryState} (hrun : (freshMachine profiles).Run MemoryState.default h s) {call : KnowledgeCall}
    (hfresh : ∀ id ∈ call.newIds, s.Unused id) (hproject : call.scope.projectId.isSome) :
    KeepsApart profiles s call ↔ ¬ ForeignReceipt s call := by
  obtain ⟨hshape, hisolated⟩ := isolated_run hrun
  constructor
  · intro hapart hforeign
    exact foreignReceipt_disclosed hisolated hproject hforeign hapart
  · intro hown r s' hcall
    have heffect := run_effect hshape hcall
    constructor
    · intro reply hreply
      exact heffect.owned hisolated hown hreply
    · exact (heffect.writes hshape hfresh).others (heffect.parts hfresh)

namespace Sample

/-- The image of one project is completed, in the way that leaves a receipt. -/
def uploadCalls : List KnowledgeCall :=
  imageReceived ++ [.completeUpload scope (uuid 10) "complete-1" (completionInputs 20 0) (importInputs 30)]

/-- The state after it. -/
def uploaded : MemoryState :=
  after (@run uploadSha256 noTables noParsers) default uploadCalls

/-- The events of it. -/
def uploadTrace : List KnowledgeEvent :=
  trace (@run uploadSha256 noTables noParsers) default uploadCalls

theorem uploadTrace_run : (@freshMachine uploadSha256 noTables noParsers).Run default uploadTrace uploaded :=
  run_trace _ _ (by decide +kernel)

/-- Someone completes the upload, under the same key. -/
def completion (caller : TenantScope) : KnowledgeCall :=
  .completeUpload caller (uuid 10) "complete-1" (completionInputs 40 0) (importInputs 50)

/-- The project of the source a call is answered with. -/
def answeredScope (r : Except AppError KnowledgeReply) : Option TenantScope :=
  match r with
  | .ok (.acceptance a) => a.source.map ScopedKnowledge.scope
  | _ => none

theorem inScope_of_answeredScope {r : Except AppError KnowledgeReply} {owner caller : TenantScope}
    (h : answeredScope r = some owner) (hin : ∀ reply, r = .ok reply → reply.InScope caller) : owner = caller := by
  unfold answeredScope at h
  split at h
  · obtain ⟨source, hsource, hscope⟩ := map_eq_some_iff.mp h
    rw [← hscope]
    exact (hin _ rfl).source source hsource
  · simp at h

/-- Either completion draws new identifiers, and the foreign one is answered with the source of the owner. -/
theorem completion_answered :
    (∀ id ∈ (completion scope).newIds, uploaded.Unused id) ∧ (∀ id ∈ (completion otherScope).newIds, uploaded.Unused id)
      ∧ answeredScope ((@run uploadSha256 noTables noParsers (completion otherScope)).run uploaded).1 = some scope := by
  decide +kernel

end Sample

open Sample

/-- The owner of the upload may ask for the receipt. -/
theorem knowledge_isolation_owner :
    @KeepsApart uploadSha256 noTables noParsers uploaded (completion scope)
      ↔ ¬ @ForeignReceipt uploadSha256 uploaded (completion scope) :=
  @knowledge_isolation uploadSha256 noTables noParsers _ _
    uploadTrace_run _ completion_answered.1 (by decide)

/-- Another tenant completes the upload under its key and is answered with the source of its owner. -/
theorem foreign_receipt_disclosed :
    (@freshMachine uploadSha256 noTables noParsers).Run MemoryState.default
      uploadTrace uploaded
    ∧ (∀ id ∈ (completion otherScope).newIds, uploaded.Unused id)
    ∧ answeredScope ((@run uploadSha256 noTables noParsers
        (completion otherScope)).run uploaded).1 = some scope
    ∧ ¬ @KeepsApart uploadSha256 noTables noParsers uploaded
        (completion otherScope) := by
  obtain ⟨-, hunused, hanswer⟩ := completion_answered
  refine ⟨uploadTrace_run, hunused, hanswer, fun hapart => ?_⟩
  have hsame := inScope_of_answeredScope hanswer (hapart _ _ rfl).1
  exact absurd hsame (by decide)

end GeoMaster
