import GeoMaster.Domain.ImportBatches
import GeoMaster.Proofs.JsonText
import GeoMaster.Proofs.KnowledgeShape

/-!
# Imports happen once

The receipt of an item is stored in the locked section that makes its records, and no call replaces a receipt. So the
first import of an identifier in a scope is the only one that changes anything, whatever batches it is repeated in and
whatever lies between its two lookups. `Reports` says what a batch reports for an item in terms of the store alone.
-/

namespace GeoMaster

open Op Except AssocMap List Option ImportBatch Json Text

open MemoryKnowledgeRepository

/-! ### Texts of items -/

namespace ImportItem

/-- The fields of an item, in the order in which they are written. -/
def fields (item : ImportItem) : List (String × String) :=
  [("client_item_id", item.clientItemId), ("kind", kindText item.kind), ("name", item.name),
      ("purpose", purposeText item.purpose)]
    ++ (item.text.map fun text => ("text", text)).toList
    ++ (item.url.map fun url => ("url", url)).toList
    ++ (item.objectId.map fun id => ("object_id", id.toString)).toList
    ++ (item.knowledgeReleaseId.map fun id => ("knowledge_release_id", id.toString)).toList

theorem json_eq (item : ImportItem) : item.json = ofStrings item.fields := by
  obtain ⟨_, _, _, _, text, url, objectId, knowledgeReleaseId⟩ := item
  cases text <;> cases url <;> cases objectId <;> cases knowledgeReleaseId <;> rfl

theorem fields_lookup (item : ImportItem) :
    item.fields.lookup "client_item_id" = some item.clientItemId ∧ item.fields.lookup "kind" = some (kindText item.kind)
      ∧ item.fields.lookup "name" = some item.name ∧ item.fields.lookup "purpose" = some (purposeText item.purpose)
      ∧ item.fields.lookup "text" = item.text ∧ item.fields.lookup "url" = item.url ∧ item.fields.lookup "object_id"
      = item.objectId.map Uuid.toString ∧ item.fields.lookup "knowledge_release_id" = item.knowledgeReleaseId.map
      Uuid.toString := by
  obtain ⟨_, _, _, _, text, url, objectId, knowledgeReleaseId⟩ := item
  cases text <;> cases url <;> cases objectId <;> cases knowledgeReleaseId <;>
    exact ⟨rfl, rfl, rfl, rfl, rfl, rfl, rfl, rfl⟩

theorem kindText_injective : Function.Injective kindText := by
  intro k k' h
  cases k <;> cases k' <;> first | rfl | exact absurd h (by decide)

theorem purposeText_injective : Function.Injective purposeText := by
  intro p p' h
  cases p <;> cases p' <;> first | rfl | exact absurd h (by decide)

theorem toText_injective : Function.Injective fun item : ImportItem => item.json.toText := by
  intro item item' h
  have hfields : item.fields = item'.fields := by
    refine ofStrings_toText_injective ?_
    show (ofStrings item.fields).toText = (ofStrings item'.fields).toText
    rw [← json_eq, ← json_eq]
    exact h
  have hlook := item.fields_lookup
  rw [hfields] at hlook
  obtain ⟨hid, hkind, hname, hpurpose, htext, hurl, hobject, hrelease⟩ := item'.fields_lookup
  simp only [hid, hkind, hname, hpurpose, htext, hurl, hobject, hrelease, Option.some.injEq] at hlook
  obtain ⟨hid, hkind, hname, hpurpose, htext, hurl, hobject, hrelease⟩ := hlook
  have hmap := map_injective fun _ _ h => Uuid.toString_injective h
  obtain ⟨_, _, _, _, _, _, _, _⟩ := item
  obtain ⟨_, _, _, _, _, _, _, _⟩ := item'
  obtain rfl := kindText_injective hkind
  obtain rfl := purposeText_injective hpurpose
  obtain rfl := hmap hobject
  obtain rfl := hmap hrelease
  subst hid hname htext hurl
  rfl

end ImportItem

/-- No two texts of the items in use have one digest. -/
def DistinctItems [Sha256] (used : ImportItem → Prop) : Prop :=
  ∀ item item', used item → used item' → importItemHash item = importItemHash item' →
    item.json.toText = item'.json.toText

theorem DistinctItems.eq [Sha256] {used : ImportItem → Prop} (h : DistinctItems used) {item item' : ImportItem}
    (hitem : used item) (hitem' : used item') (hhash : importItemHash item = importItemHash item') : item = item' :=
  ImportItem.toText_injective (h item item' hitem hitem' hhash)

/-! ### One item -/

/-- An identifier the repository takes. -/
def ImportItem.Valid (item : ImportItem) : Prop :=
  ¬ (trim item.clientItemId = "" ∨ 200 < len (trim item.clientItemId))

def invalidItemId : AppError :=
  .invalidRequest "client_item_id is required and at most 200 characters"

def itemIdInUse : AppError :=
  .conflict "client_item_id was already used with different input"

/-- The receipt of an identifier in a scope. -/
def MemoryState.receiptOf (s : MemoryState) (scope : TenantScope) (clientItemId : String) :
    Option (String × ImportAcceptance) :=
  s.importItems.lookup (scope.storageKey, trim clientItemId)

section

variable [Sha256]

/-- The result of an item whose identifier is not valid, or has a receipt. -/
def Reports (used : ImportItem → Prop) (s : MemoryState) (scope : TenantScope) (item : ImportItem)
    (a : ImportAcceptance) : Prop :=
  (¬ item.Valid ∧ a = .refused item.clientItemId invalidItemId)
    ∨ (item.Valid ∧ ∃ original prior, used original
      ∧ s.receiptOf scope item.clientItemId = some (importItemHash original, prior)
      ∧ (original = item → a = prior)
      ∧ (original ≠ item → a = .refused item.clientItemId itemIdInUse))

/-- What the one import of an identifier does: its receipt is stored, and with it one source, one job and one version
at most, all of which the receipt names. -/
structure ImportedOnce (s : MemoryState) (scope : TenantScope) (item : ImportItem)
    (a : ImportAcceptance) (s' : MemoryState) : Prop where
  unanswered : s.receiptOf scope item.clientItemId = none
  answered : s'.importItems = s.importItems.insert (scope.storageKey, trim item.clientItemId) (importItemHash item, a)
  named : a.clientItemId = item.clientItemId
  sources : ∀ id, s'.sources.lookup id
    = if a.source.map Source.sourceId = some id then a.source else s.sources.lookup id
  jobs : ∀ id, s'.jobs.lookup id
    = if a.importJob.map ImportJob.importJobId = some id then a.importJob else s.jobs.lookup id
  versions : ∀ id, s'.versions.lookup id
    = if a.sourceVersion.map SourceVersion.sourceVersionId = some id then a.sourceVersion
      else s.versions.lookup id
  /-- The records are new. -/
  newSource : ∀ source ∈ a.source, s.sources.lookup source.sourceId = none
  newJob : ∀ job ∈ a.importJob, s.jobs.lookup job.importJobId = none
  newVersion : ∀ version ∈ a.sourceVersion, s.versions.lookup version.sourceVersionId = none
  /-- A refusal leaves nothing but its receipt. -/
  refused : a.source = none → a.importJob = none ∧ a.sourceVersion = none
    ∧ s' = s.insertImportItem (scope.storageKey, trim item.clientItemId) (importItemHash item) a

/-- What `Imported` says of the maps of sources, jobs and versions. -/
structure ImportedRecords (s : MemoryState) (fresh : ImportInputs) (a : ImportAcceptance)
    (s' : MemoryState) : Prop where
  items : s'.importItems = s.importItems
  sources : s'.sources = a.source.elim s.sources fun source => s.sources.insert fresh.sourceId source
  jobs : s'.jobs = a.importJob.elim s.jobs fun job => s.jobs.insert fresh.jobId job
  versions : s'.versions = a.sourceVersion.elim s.versions fun version => s.versions.insert fresh.versionId version
  source : ∀ source ∈ a.source, source.sourceId = fresh.sourceId
  job : ∀ job ∈ a.importJob, job.importJobId = fresh.jobId
  version : ∀ version ∈ a.sourceVersion, version.sourceVersionId = fresh.versionId
  refused : a.source = none → a.importJob = none ∧ a.sourceVersion = none ∧ s' = s

variable {scope : TenantScope} {s s' : MemoryState}

theorem MemoryKnowledgeRepository.Imported.records {fresh : ImportInputs}
    {a : ImportAcceptance} (h : Imported scope fresh s a s') : ImportedRecords s fresh a s' := by
  cases h with
  | refused clientItemId error =>
    exact ⟨rfl, rfl, rfl, rfl, by simp [ImportAcceptance.refused], by simp [ImportAcceptance.refused],
      by simp [ImportAcceptance.refused], fun _ => ⟨rfl, rfl, rfl⟩⟩
  | text r fits =>
    refine ⟨rfl, ?_, ?_, ?_, ?_, ?_, ?_, ?_⟩
    · show s.sources.insert r.source.sourceId r.source = s.sources.insert fresh.sourceId r.source
      rw [fits.sourceId]
    · show s.jobs.insert r.job.importJobId r.job = s.jobs.insert fresh.jobId r.job
      rw [fits.jobId]
    · show s.versions.insert r.version.sourceVersionId r.version = s.versions.insert fresh.versionId r.version
      rw [fits.versionId]
    · rintro _ ⟨⟩
      exact fits.sourceId
    · rintro _ ⟨⟩
      exact fits.jobId
    · rintro _ ⟨⟩
      exact fits.versionId
    · intro hnone
      cases hnone
  | queued =>
    refine ⟨rfl, rfl, rfl, rfl, ?_, ?_, ?_, ?_⟩
    · rintro _ ⟨⟩
      rfl
    · rintro _ ⟨⟩
      rfl
    · rintro _ ⟨⟩
    · intro hnone
      cases hnone
  | pending =>
    refine ⟨rfl, rfl, rfl, rfl, ?_, ?_, ?_, ?_⟩
    · rintro _ ⟨⟩
      rfl
    · rintro _ ⟨⟩
      rfl
    · rintro _ ⟨⟩
    · intro hnone
      cases hnone

omit [Sha256] in
/-- The object an item brings along is no receipt and no record. -/
theorem MemoryKnowledgeRepository.Brought.keeps {objectId : Uuid} (h : Brought scope objectId s s') :
    s'.importItems = s.importItems ∧ s'.sources = s.sources ∧ s'.jobs = s.jobs ∧ s'.versions = s.versions := by
  cases h <;> exact ⟨rfl, rfl, rfl, rfl⟩

end

section

variable [Sha256] [CsvChunks] {scope : TenantScope} {item : ImportItem} {fresh : ImportInputs}
  {s s' : MemoryState} {a : ImportAcceptance}

/-- An import that was accepted has a source, and goes by the identifier of its item. -/
def Named (item : ImportItem) (a : ImportAcceptance) : Prop :=
  a.clientItemId = item.clientItemId ∧ a.source.isSome

theorem importTextLocked_named {text : String} {object : Option StoredObject} {page : Option FetchedUrlPage}
    (h : Op.Returns (importTextLocked scope item text object page fresh) s a s') : Named item a := by
  simp only [importTextLocked, returns_iff] at h
  obtain ⟨_, _, -, _, _, -, _, _, -, _, _, -, _, _, -, rfl, -⟩ := h
  exact ⟨rfl, rfl⟩

omit [CsvChunks] in
theorem failedMissingAdapter_named {capability : String}
    (h : Op.Returns (failedMissingAdapter scope item capability fresh) s a s') : Named item a := by
  simp only [failedMissingAdapter, returns_iff] at h
  obtain ⟨_, _, -, rfl, -⟩ := h
  exact ⟨rfl, rfl⟩

omit [Sha256] [CsvChunks] in
theorem queueParse_named {p : Parser} {object : StoredObject} {profile : String} {extra : p.Extra}
    (h : Op.Returns (queueParse p scope item object profile extra fresh) s a s') : Named item a := by
  simp only [queueParse, returns_iff] at h
  obtain ⟨_, _, -, _, _, -, _, _, -, _, _, -, _, _, -, rfl, -⟩ := h
  exact ⟨rfl, rfl⟩

theorem importTextItem_named (h : Op.Returns (importTextItem scope item fresh) s a s') : Named item a := by
  simp only [importTextItem, returns_bind] at h
  obtain ⟨_, _, -, h⟩ := h
  exact importTextLocked_named h

variable {fetched : Except AppError (Option FetchedUrlPage)} {objectId : Uuid} {profiles : ParserProfiles}

theorem importUrlItem_named (h : Op.Returns (importUrlItem scope item fetched objectId fresh) s a s') :
    Named item a := by
  simp only [importUrlItem, returns_bind] at h
  obtain ⟨page, _, -, h⟩ := h
  cases page with
  | none => exact failedMissingAdapter_named h
  | some page =>
    simp only [returns_bind] at h
    obtain ⟨_, _, -, _, _, -, h⟩ := h
    exact importTextLocked_named h

theorem importObjectItem_named (h : Op.Returns (importObjectItem profiles scope item fresh) s a s') : Named item a := by
  simp only [importObjectItem, returns_bind] at h
  obtain ⟨id, _, -, _, _, -, object, _, -, _, _, -, session, _, -, _, _, -, _, _, -, bytes, _, -, _, _, -, h⟩ := h
  split at h
  · simp only [queuePdfLocked, returns_bind] at h
    obtain ⟨_, _, -, h⟩ := h
    exact queueParse_named h
  · split at h
    · simp only [queueOfficeLocked, returns_bind] at h
      obtain ⟨_, _, -, h⟩ := h
      exact queueParse_named h
    · simp only [returns_bind] at h
      obtain ⟨_, _, -, _, _, -, h⟩ := h
      exact importTextLocked_named h

theorem acceptItem_named (h : Op.Returns (acceptItem profiles scope item fetched objectId fresh) s a s') :
    a.clientItemId = item.clientItemId
      ∧ (a.source = none → s' = s ∧ ∃ error, a = .refused item.clientItemId error) := by
  have haccepted (hnamed : Named item a) : a.clientItemId = item.clientItemId
      ∧ (a.source = none → s' = s ∧ ∃ error, a = .refused item.clientItemId error) := by
    refine ⟨hnamed.1, fun hnone => ?_⟩
    have hsome := hnamed.2
    rw [hnone] at hsome
    cases hsome
  unfold acceptItem at h
  split at h
  · rcases returns_recover.mp h with hreturns | ⟨error, hfails, rfl⟩
    · exact haccepted (importTextItem_named hreturns)
    · exact ⟨rfl, fun _ => ⟨importTextItem_failed hfails, error, rfl⟩⟩
  · rcases returns_recover.mp h with hreturns | ⟨error, hfails, rfl⟩
    · exact haccepted (importUrlItem_named hreturns)
    · exact ⟨rfl, fun _ => ⟨importUrlItem_failed hfails, error, rfl⟩⟩
  · rcases returns_recover.mp h with hreturns | ⟨error, hfails, rfl⟩
    · exact haccepted (importObjectItem_named hreturns)
    · exact ⟨rfl, fun _ => ⟨importObjectItem_failed hfails, error, rfl⟩⟩
  all_goals
    obtain ⟨rfl, rfl⟩ := returns_pure.mp h
    exact ⟨rfl, fun _ => ⟨rfl, _, rfl⟩⟩

/-! ### The two locked sections -/

omit [CsvChunks] in
theorem storedItem_none (h : s.receiptOf scope item.clientItemId = none) :
    Op.Returns (storedItem scope item) s none s := by
  have hlook : s.importItems.lookup (scope.storageKey, trim item.clientItemId) = none := h
  simp only [storedItem, returns_iff]
  exact ⟨_, s, ⟨rfl, rfl⟩, by rw [hlook]; exact returns_pure.mpr ⟨rfl, rfl⟩⟩

omit [CsvChunks] in
theorem storedItem_some {used : ImportItem → Prop} (hdistinct : DistinctItems used)
    {original : ImportItem} {prior : ImportAcceptance} (hused : used item) (horiginal : used original)
    (h : s.receiptOf scope item.clientItemId = some (importItemHash original, prior)) :
    ∃ a, Op.Returns (storedItem scope item) s (some a) s
      ∧ (original = item → a = prior) ∧ (original ≠ item → a = .refused item.clientItemId itemIdInUse) := by
  have hlook : s.importItems.lookup (scope.storageKey, trim item.clientItemId)
      = some (importItemHash original, prior) := h
  by_cases hsame : original = item
  · subst hsame
    refine ⟨prior, ?_, fun _ => rfl, fun hne => absurd rfl hne⟩
    simp only [storedItem, returns_iff]
    refine ⟨_, s, ⟨rfl, rfl⟩, ?_⟩
    rw [hlook]
    dsimp only
    rw [if_pos rfl]
    exact returns_pure.mpr ⟨rfl, rfl⟩
  · refine ⟨.refused item.clientItemId itemIdInUse, ?_, fun heq => absurd heq hsame, fun _ => rfl⟩
    simp only [storedItem, returns_iff]
    refine ⟨_, s, ⟨rfl, rfl⟩, ?_⟩
    rw [hlook]
    dsimp only
    rw [if_neg fun hhash => hsame (hdistinct.eq horiginal hused hhash)]
    exact returns_pure.mpr ⟨rfl, rfl⟩

variable {e : AppError}

omit [CsvChunks] in
theorem storedItem_total : ¬ Op.Fails (storedItem scope item) s e s' := by
  unfold storedItem
  rw [fails_bind]
  rintro (hread | ⟨found, t, -, hrest⟩)
  · exact not_fails_read hread
  · split at hrest
    · exact not_fails_pure hrest
    · split at hrest <;> exact not_fails_pure hrest

omit [Sha256] [CsvChunks] in
theorem insertUnversioned_total : ¬ Op.Fails (insertUnversioned a) s e s' := by
  unfold insertUnversioned
  split
  · exact not_fails_pure
  · exact insertPending_returns

theorem importItem_total (hproject : scope.projectId.isSome) :
    ¬ Op.Fails (importItem profiles scope item fetched objectId fresh) s e s' := by
  obtain ⟨_, hproject⟩ := isSome_iff_exists.mp hproject
  intro h
  simp only [importItem, requireProject, fails_iff, returns_iff, hproject] at h
  rcases h with ⟨hnone, -⟩ | ⟨_, _, -, hstored | ⟨stored, t, -, h⟩⟩
  · cases hnone
  · exact storedItem_total hstored
  · cases stored with
    | some prior => exact not_fails_pure h
    | none =>
      simp only [fails_iff, returns_iff] at h
      rcases h with haccept | ⟨a, _, -, hinsert | ⟨_, _, -, hlater⟩⟩
      · exact acceptItem_returns haccept
      · exact insertUnversioned_total hinsert
      · simp at hlater

/-- The receipts are those of items in use. -/
def ReceiptsKnown (used : ImportItem → Prop) (s : MemoryState) : Prop :=
  ∀ key trimmed hash a, s.importItems.lookup (key, trimmed) = some (hash, a) →
    ∃ original, used original ∧ trim original.clientItemId = trimmed
      ∧ hash = importItemHash original ∧ a.clientItemId = original.clientItemId

variable {used : ImportItem → Prop}

omit [CsvChunks] in
theorem Reports.clientItemId (h : Reports used s scope item a) (hdistinct : DistinctItems used)
    (hknown : ReceiptsKnown used s) : a.clientItemId = item.clientItemId := by
  rcases h with ⟨-, rfl⟩ | ⟨-, original, prior, hused, hreceipt, hsame, hother⟩
  · rfl
  · by_cases heq : original = item
    · obtain ⟨_, hknown, -, hhash, hid⟩ := hknown _ _ _ _ hreceipt
      rw [hsame heq, hid, ← hdistinct.eq hused hknown hhash, heq]
    · rw [hother heq]
      rfl

omit [CsvChunks] in
/-- The first locked section. -/
theorem importReceipt_outcome (hdistinct : DistinctItems used) (hknown : ReceiptsKnown used s)
    (hused : used item) (hproject : scope.projectId.isSome) :
    (∃ a, Reports used s scope item a ∧ Op.Returns (importReceipt scope item) s (some a) s)
      ∨ (item.Valid ∧ s.receiptOf scope item.clientItemId = none ∧ Op.Returns (importReceipt scope item) s none s) := by
  obtain ⟨project, hproject⟩ := isSome_iff_exists.mp hproject
  have hrun {receipt : Option ImportAcceptance} (hvalid : item.Valid)
      (hstored : Op.Returns (storedItem scope item) s receipt s) :
      Op.Returns (importReceipt scope item) s receipt s := by
    simp only [importReceipt, requireProject, returns_iff, hproject]
    refine ⟨project, s, ⟨rfl, rfl⟩, ?_⟩
    rw [if_neg hvalid]
    exact hstored
  by_cases hvalid : item.Valid
  · cases hreceipt : s.receiptOf scope item.clientItemId with
    | none => exact .inr ⟨hvalid, rfl, hrun hvalid (storedItem_none hreceipt)⟩
    | some found =>
      obtain ⟨_, prior⟩ := found
      obtain ⟨original, horiginal, -, rfl, -⟩ := hknown _ _ _ _ hreceipt
      obtain ⟨a, hstored, hsame, hother⟩ := storedItem_some hdistinct hused horiginal hreceipt
      exact .inl ⟨a, .inr ⟨hvalid, original, prior, horiginal, hreceipt, hsame, hother⟩, hrun hvalid hstored⟩
  · refine .inl ⟨.refused item.clientItemId invalidItemId, .inl ⟨hvalid, rfl⟩, ?_⟩
    simp only [importReceipt, requireProject, returns_iff, hproject]
    refine ⟨project, s, ⟨rfl, rfl⟩, ?_⟩
    rw [if_pos (not_not.mp hvalid)]
    exact returns_pure.mpr ⟨rfl, rfl⟩

/-- The identifiers of an import are new. -/
def NewIds (s : MemoryState) (objectId : Uuid) (fresh : ImportInputs) : Prop :=
  ∀ id ∈ [objectId, fresh.sourceId, fresh.versionId, fresh.operationId, fresh.jobId, fresh.releaseId], s.Unused id

omit [CsvChunks] in
theorem importedOnce {s₀ s₁ : MemoryState} (hbrought : Brought scope objectId s s₀)
    (h : ImportedRecords s₀ fresh a s₁) (hreceipt : s.receiptOf scope item.clientItemId = none)
    (hnamed : a.clientItemId = item.clientItemId) (hnew : NewIds s objectId fresh)
    (hrefused : a.source = none →
      s₁.insertImportItem (scope.storageKey, trim item.clientItemId) (importItemHash item) a
        = s.insertImportItem (scope.storageKey, trim item.clientItemId) (importItemHash item) a) :
    ImportedOnce s scope item a
      (s₁.insertImportItem (scope.storageKey, trim item.clientItemId) (importItemHash item) a) := by
  obtain ⟨hitems, hsources, hjobs, hversions⟩ := hbrought.keeps
  constructor
  case unanswered => exact hreceipt
  case answered =>
    show s₁.importItems.insert _ _ = _
    rw [h.items, hitems]
  case named => exact hnamed
  case sources =>
    intro id
    show s₁.sources.lookup id = _
    rw [h.sources, hsources]
    cases hsource : a.source with
    | none => simp
    | some source =>
      show (s.sources.insert fresh.sourceId source).lookup id = _
      rw [lookup_insert]
      simp only [map_some, Option.some.injEq, h.source source hsource, eq_comm]
  case jobs =>
    intro id
    show s₁.jobs.lookup id = _
    rw [h.jobs, hjobs]
    cases hjob : a.importJob with
    | none => simp
    | some job =>
      show (s.jobs.insert fresh.jobId job).lookup id = _
      rw [lookup_insert]
      simp only [map_some, Option.some.injEq, h.job job hjob, eq_comm]
  case versions =>
    intro id
    show s₁.versions.lookup id = _
    rw [h.versions, hversions]
    cases hversion : a.sourceVersion with
    | none => simp
    | some version =>
      show (s.versions.insert fresh.versionId version).lookup id = _
      rw [lookup_insert]
      simp only [map_some, Option.some.injEq, h.version version hversion, eq_comm]
  case newSource =>
    intro source hsource
    rw [h.source source hsource]
    exact (hnew fresh.sourceId (by simp)).sources
  case newJob =>
    intro job hjob
    rw [h.job job hjob]
    exact (hnew fresh.jobId (by simp)).jobs
  case newVersion =>
    intro version hversion
    rw [h.version version hversion]
    exact (hnew fresh.versionId (by simp)).versions
  case refused =>
    intro hnone
    obtain ⟨hjob, hversion, -⟩ := h.refused hnone
    exact ⟨hjob, hversion, hrefused hnone⟩

omit [Sha256] [CsvChunks] in
/-- Nothing is stored for a refusal. -/
theorem insertUnversioned_refused {error : AppError} {clientItemId : String} {u : Unit}
    (h : Op.Returns (insertUnversioned (.refused clientItemId error)) s u s') : s' = s := by
  have hpending : Op.Returns (pure () >>= fun _ => pure () : KnowledgeOp Unit) s u s' := h
  obtain ⟨_, _, hfirst, hsecond⟩ := returns_bind.mp hpending
  obtain ⟨-, rfl⟩ := returns_pure.mp hfirst
  exact (returns_pure.mp hsecond).2.symm

/-- The second locked section. -/
theorem importItem_outcome (hdistinct : DistinctItems used) (hknown : ReceiptsKnown used s) (hs : StoreShape s)
    (hused : used item) (hvalid : item.Valid) (hproject : scope.projectId.isSome) (hnew : NewIds s objectId fresh) :
    ∃ a s', Op.Returns (importItem profiles scope item fetched objectId fresh) s a s'
      ∧ ((s' = s ∧ Reports used s scope item a) ∨ ImportedOnce s scope item a s') := by
  rcases returns_or_fails (importItem profiles scope item fetched objectId fresh) s with
    ⟨a, s', h⟩ | ⟨e, s', h⟩
  case inr => exact absurd h (importItem_total hproject)
  refine ⟨a, s', h, ?_⟩
  have heffect := importItem_effect hs.objects h
  simp only [importItem, requireProject, returns_iff] at h
  obtain ⟨_, _, ⟨-, rfl⟩, stored, t, hstored, h⟩ := h
  have ht : t = s := storedItem_readOnly.returns hstored
  subst ht
  cases hreceipt : t.receiptOf scope item.clientItemId with
  | some found =>
    obtain ⟨_, prior⟩ := found
    obtain ⟨original, horiginal, -, rfl, -⟩ := hknown _ _ _ _ hreceipt
    obtain ⟨a', hstored', hsame, hother⟩ := storedItem_some hdistinct hused horiginal hreceipt
    have hfound : some a' = stored := by
      have heq := hstored'.symm.trans hstored
      simpa using heq
    subst hfound
    obtain ⟨rfl, rfl⟩ := returns_pure.mp h
    exact .inl ⟨rfl, .inr ⟨hvalid, original, prior, horiginal, hreceipt, hsame, hother⟩⟩
  | none =>
    have hfound : none = stored := by
      have heq := (storedItem_none hreceipt).symm.trans hstored
      simpa using heq
    subst hfound
    refine .inr ?_
    simp only [returns_iff] at h
    obtain ⟨a', _, haccept, _, s₃, hinsert, -, _, rfl, rfl, rfl⟩ := h
    obtain ⟨hnamed, hrefused⟩ := acceptItem_named haccept
    rcases heffect with ⟨hsame, -⟩ | ⟨s₀, s₁, hbrought, himported, hstore, -⟩
    · -- The receipt that was just stored was not there before.
      have hthere : (s₃.insertImportItem (scope.storageKey, trim item.clientItemId)
          (importItemHash item) a').receiptOf scope item.clientItemId = some (importItemHash item, a') :=
        AList.lookup_insert _
      rw [hsame, hreceipt] at hthere
      cases hthere
    · rw [hstore]
      exact importedOnce hbrought himported.records hreceipt hnamed hnew fun hnone => by
        obtain ⟨rfl, _, rfl⟩ := hrefused hnone
        rw [← hstore, insertUnversioned_refused hinsert]

end

/-! ### Calls that import nothing -/

/-- What was answered stays answered. -/
def ReceiptsLast (s s' : MemoryState) : Prop :=
  ∀ key receipt, s.importItems.lookup key = some receipt → s'.importItems.lookup key = some receipt

variable {s s' : MemoryState}

theorem ReceiptsLast.of_eq (h : s'.importItems = s.importItems) : ReceiptsLast s s' :=
  fun key receipt hlook => by rw [h, hlook]

theorem MemoryKnowledgeRepository.KnowledgeEffect.importItems [Sha256] [CsvChunks]
    {call : KnowledgeCall} {r : Except AppError KnowledgeReply} (h : KnowledgeEffect s call r s')
    (hnot : call.NotImport) : s'.importItems = s.importItems := by
  cases h with
  | itemImported => exact hnot.elim
  | uploadCompleted _ _ _ _ _ _ _ _ _ _ _ _ _ _ _ _ _ _ _ imported => exact imported.records.items
  | revised | finished =>
    -- the release is built on a store that has a name of its own
    subst_vars
    rfl
  | _ => rfl

theorem MemoryState.Reordered.importItems (h : s.Reordered s') : s'.importItems = s.importItems := by
  have hrest := h.rest
  rw [hrest]

/-! ### Batches -/

section

variable [Sha256] {used : ImportItem → Prop} {s s' : MemoryState} {batch batch' : ImportBatch}
  {item : ImportItem} {phase : Bool}

/-- A batch in flight: its results are those of its first items, one each and in their order. -/
structure BatchSound (used : ImportItem → Prop) (s : MemoryState) (batch : ImportBatch) : Prop where
  project : batch.scope.projectId.isSome
  items : ∀ item ∈ batch.items, used item
  size : 1 ≤ batch.items.length ∧ batch.items.length ≤ 100
  /-- No item ends the batch. -/
  running : batch.failure = none
  results : List.Forall₂ (Reports used s batch.scope) (batch.items.take batch.output.length) batch.output
  fetching : batch.fetching = true → ∃ item, batch.next = some item ∧ item.Valid

/-- What a batch does for the item whose turn it is. -/
inductive BatchItemStep (used : ImportItem → Prop) (s : MemoryState) (batch : ImportBatch) (item : ImportItem) :
    Bool → ImportBatch → MemoryState → Prop where
  /-- The item is not valid, or it has a receipt: nothing is stored. -/
  | answered (phase : Bool) (a : ImportAcceptance) (answers : Reports used s batch.scope item a)
      (named : a.clientItemId = item.clientItemId) : BatchItemStep used s batch item phase (batch.push a) s
  /-- There is no receipt yet. -/
  | waits (valid : item.Valid) (unanswered : s.receiptOf batch.scope item.clientItemId = none) :
      BatchItemStep used s batch item false { batch with fetching := true } s
  | imported (a : ImportAcceptance) (s' : MemoryState) (valid : item.Valid)
      (once : ImportedOnce s batch.scope item a s') : BatchItemStep used s batch item true (batch.push a) s'

theorem Reports.last {scope : TenantScope} {a : ImportAcceptance} (h : Reports used s scope item a)
    (hlast : ReceiptsLast s s') : Reports used s' scope item a := by
  rcases h with hinvalid | ⟨hvalid, original, prior, hused, hreceipt, hsame, hother⟩
  · exact .inl hinvalid
  · exact .inr ⟨hvalid, original, prior, hused, hlast _ _ hreceipt, hsame, hother⟩

theorem BatchSound.last (h : BatchSound used s batch) (hlast : ReceiptsLast s s') : BatchSound used s' batch :=
  { h with results := h.results.imp fun _ _ hanswers => hanswers.last hlast }

variable {a : ImportAcceptance}

variable {scope : TenantScope}

theorem ImportedOnce.receiptsLast (h : ImportedOnce s scope item a s') : ReceiptsLast s s' := by
  intro key receipt hlook
  rw [h.answered, lookup_insert, if_neg]
  · exact hlook
  · rintro rfl
    have hnone : s.importItems.lookup (scope.storageKey, trim item.clientItemId) = none := h.unanswered
    rw [hnone] at hlook
    cases hlook

theorem ImportedOnce.known (h : ImportedOnce s scope item a s') (hused : used item)
    (hknown : ReceiptsKnown used s) : ReceiptsKnown used s' := by
  intro key trimmed hash receipt hlook
  rw [h.answered, lookup_insert] at hlook
  split_ifs at hlook with hkey
  · obtain ⟨rfl, rfl⟩ := Prod.mk.inj (some.inj hlook)
    exact ⟨item, hused, (Prod.mk.inj hkey).2.symm, rfl, h.named⟩
  · exact hknown key trimmed hash receipt hlook

theorem ImportedOnce.answers (h : ImportedOnce s scope item a s') (hused : used item)
    (hvalid : item.Valid) : Reports used s' scope item a := by
  refine .inr ⟨hvalid, item, a, hused, ?_, fun _ => rfl, fun hne => absurd rfl hne⟩
  show s'.importItems.lookup _ = _
  rw [h.answered]
  exact AList.lookup_insert _

theorem BatchItemStep.receiptsLast (h : BatchItemStep used s batch item phase batch' s') : ReceiptsLast s s' := by
  cases h with
  | answered => exact .of_eq rfl
  | waits => exact .of_eq rfl
  | imported _ _ _ once => exact once.receiptsLast

theorem BatchItemStep.known (h : BatchItemStep used s batch item phase batch' s') (hused : used item)
    (hknown : ReceiptsKnown used s) : ReceiptsKnown used s' := by
  cases h with
  | answered => exact hknown
  | waits => exact hknown
  | imported _ _ _ once => exact once.known hused hknown

omit [Sha256] in
theorem ImportBatch.next_mem (h : batch.next = some item) : item ∈ batch.items := by
  unfold ImportBatch.next at h
  split at h
  · cases h
  · exact mem_of_getElem? h

/-- The result of the next item is put behind the results of the items before it. -/
theorem BatchSound.push (h : BatchSound used s batch) (hnext : batch.next = some item)
    (hanswers : Reports used s batch.scope item a) : BatchSound used s (batch.push a) := by
  have hitem : batch.items[batch.output.length]? = some item := by
    unfold ImportBatch.next at hnext
    rwa [if_neg (by rw [h.running]; exact Bool.false_ne_true)] at hnext
  refine ⟨h.project, h.items, h.size, h.running, ?_, fun hfetching => by cases hfetching⟩
  show List.Forall₂ _ (batch.items.take (batch.output ++ [a]).length) (batch.output ++ [a])
  rw [length_append, length_singleton, take_add_one, hitem]
  exact rel_append h.results (.cons hanswers .nil)

theorem BatchItemStep.sound (h : BatchItemStep used s batch item phase batch' s') (hb : BatchSound used s batch)
    (hnext : batch.next = some item) : BatchSound used s' batch' := by
  have hused : used item := hb.items item (next_mem hnext)
  cases h with
  | answered _ a answers => exact hb.push hnext answers
  | waits valid => exact { hb with fetching := fun _ => ⟨item, hnext, valid⟩ }
  | imported a _ valid once => exact (hb.last once.receiptsLast).push hnext (once.answers hused valid)

end

/-! ### Runs -/

section

variable [Sha256] [CsvChunks] [UrlParser] {profiles : ParserProfiles} {used : ImportItem → Prop}
  {d d' : ImportDesk} {id : Nat} {batch : ImportBatch} {item : ImportItem}

structure ImportSound (used : ImportItem → Prop) (d : ImportDesk) : Prop where
  shape : StoreShape d.store
  known : ReceiptsKnown used d.store
  batches : ∀ id batch, d.batches.lookup id = some batch → BatchSound used d.store batch

variable {phase : Bool} {s' : MemoryState}

omit [Sha256] [CsvChunks] [UrlParser] in
theorem turn_eq_some :
    d.turn id phase = some (batch, item) ↔
      d.batches.lookup id = some batch ∧ batch.next = some item ∧ batch.fetching = phase := by
  simp only [ImportDesk.turn, bind_eq_bind, bind_eq_some_iff, ite_none_right_eq_some, Option.some.injEq, Prod.mk.injEq]
  constructor
  · rintro ⟨_, hfound, _, hnext, hphase, rfl, rfl⟩
    exact ⟨hfound, hnext, hphase⟩
  · rintro ⟨hfound, hnext, hphase⟩
    exact ⟨batch, hfound, item, hnext, hphase, rfl, rfl⟩

omit [CsvChunks] [UrlParser] in
theorem ImportSound.look (hd : ImportSound used d) (hdistinct : DistinctItems used)
    (hbatch : d.batches.lookup id = some batch) (hnext : batch.next = some item) :
    ∃ batch', d.look id batch item = { store := d.store, batches := d.batches.insert id batch' }
      ∧ BatchItemStep used d.store batch item false batch' d.store := by
  have hb := hd.batches id batch hbatch
  have hused := hb.items item (next_mem hnext)
  rcases importReceipt_outcome hdistinct hd.known hused hb.project with
    ⟨a, hanswers, hrun⟩ | ⟨hvalid, hreceipt, hrun⟩
  · refine ⟨batch.push a, ?_, .answered false a hanswers (hanswers.clientItemId hdistinct hd.known)⟩
    unfold ImportDesk.look
    rw [hrun]
    rfl
  · refine ⟨{ batch with fetching := true }, ?_, .waits hvalid hreceipt⟩
    unfold ImportDesk.look
    rw [hrun]
    rfl

theorem ImportSound.save (hd : ImportSound used d) (hdistinct : DistinctItems used)
    (hbatch : d.batches.lookup id = some batch) (hnext : batch.next = some item)
    (hfetching : batch.fetching = true) {fetched : Option (Except AppError FetchedUrlPage)}
    {objectId : Uuid} {fresh : ImportInputs} (hnew : NewIds d.store objectId fresh) :
    ∃ batch' s', d.save profiles id batch item fetched objectId fresh
        = { store := s', batches := d.batches.insert id batch' }
      ∧ BatchItemStep used d.store batch item true batch' s' ∧ StoreShape s' := by
  have hb := hd.batches id batch hbatch
  have hused := hb.items item (next_mem hnext)
  obtain ⟨_, hnext', hvalid⟩ := hb.fetching hfetching
  obtain rfl := some.inj (hnext.symm.trans hnext')
  obtain ⟨a, s', hrun, houtcome⟩ : ∃ a s',
      Op.Returns (importItem profiles batch.scope item (fetchedPage fetched item) objectId fresh) d.store a s'
      ∧ ((s' = d.store ∧ Reports used d.store batch.scope item a) ∨ ImportedOnce d.store batch.scope item a s') :=
    importItem_outcome hdistinct hd.known hd.shape hused hvalid hb.project hnew
  have hshape := (importItem_returns hd.shape hrun).shape hd.shape hnew
  refine ⟨batch.push a, s', ?_, ?_, hshape⟩
  · unfold ImportDesk.save
    rw [hrun]
    rfl
  · rcases houtcome with ⟨rfl, hanswers⟩ | honce
    · exact .answered true a hanswers (hanswers.clientItemId hdistinct hd.known)
    · exact .imported a s' hvalid honce

variable {batch' : ImportBatch}

omit [CsvChunks] [UrlParser] in
theorem ImportSound.item_step (hd : ImportSound used d) (hbatch : d.batches.lookup id = some batch)
    (hnext : batch.next = some item) (hstep : BatchItemStep used d.store batch item phase batch' s')
    (hshape : StoreShape s') : ImportSound used { store := s', batches := d.batches.insert id batch' } := by
  have hb := hd.batches id batch hbatch
  have hused := hb.items item (next_mem hnext)
  refine ⟨hshape, hstep.known hused hd.known, ?_⟩
  intro other found hlook
  rw [lookup_insert] at hlook
  split_ifs at hlook with hother
  · obtain rfl := some.inj hlook
    exact hstep.sound hb hnext
  · exact (hd.batches other found hlook).last hstep.receiptsLast

omit [CsvChunks] [UrlParser] in
theorem ImportBatch.start_ok {scope : TenantScope} {items : List ImportItem} {s : MemoryState}
    (h : ImportBatch.start scope items = .ok batch) (hused : ∀ item ∈ items, used item) : BatchSound used s batch := by
  simp only [ImportBatch.start, eq_ok_iff, not_or, Nat.not_lt] at h
  obtain ⟨_, hproject, _, ⟨hne, hsize⟩, rfl⟩ := h
  refine ⟨by rw [hproject]; rfl, hused, ⟨length_pos_iff.mpr hne, hsize⟩, rfl, .nil, ?_⟩
  intro hfetching
  cases hfetching

theorem ImportSound.act (hd : ImportSound used d) (hdistinct : DistinctItems used) {act : ImportAct}
    (hallowed : act.Allowed used d) :
    ImportSound used (d.run profiles act) ∧ ReceiptsLast d.store (d.run profiles act).store := by
  cases act with
  | start id scope items =>
    simp only [ImportDesk.run]
    split
    case h_2 => exact ⟨hd, .of_eq rfl⟩
    case h_1 batch hnone hstart =>
      refine ⟨⟨hd.shape, hd.known, ?_⟩, .of_eq rfl⟩
      intro other found hlook
      rw [lookup_insert] at hlook
      split_ifs at hlook with hother
      · obtain rfl := some.inj hlook
        exact start_ok hstart (hallowed.items id scope items rfl)
      · exact hd.batches other found hlook
  | look id =>
    simp only [ImportDesk.run]
    split
    case h_2 => exact ⟨hd, .of_eq rfl⟩
    case h_1 batch item hturn =>
      obtain ⟨hbatch, hnext, -⟩ := turn_eq_some.mp hturn
      obtain ⟨_, heq, hstep⟩ := hd.look hdistinct hbatch hnext
      rw [heq]
      exact ⟨hd.item_step hbatch hnext hstep hd.shape, hstep.receiptsLast⟩
  | store _ _ _ fresh =>
    simp only [ImportDesk.run]
    split
    case h_2 => exact ⟨hd, .of_eq rfl⟩
    case h_1 batch item hturn =>
      obtain ⟨hbatch, hnext, hfetching⟩ := turn_eq_some.mp hturn
      obtain ⟨_, _, heq, hstep, hshape⟩ := hd.save hdistinct hbatch hnext hfetching hallowed.fresh
      rw [heq]
      exact ⟨hd.item_step hbatch hnext hstep hshape, hstep.receiptsLast⟩
  | other call =>
    have hstep : (freshMachine profiles).step d.store
        (.call call ((MemoryKnowledgeRepository.run profiles call).run d.store).1)
        ((MemoryKnowledgeRepository.run profiles call).run d.store).2 := ⟨hallowed.fresh, rfl⟩
    have hitems : (d.run profiles (.other call)).store.importItems = d.store.importItems := by
      rcases MemoryKnowledgeRepository.step_effect hd.shape hstep with ⟨heq, -⟩ | ⟨_, _, heq, -, heffect⟩
      · cases heq
      · cases heq
        exact heffect.importItems (hallowed.other call rfl)
    refine ⟨⟨storeShape_step hd.shape hstep, ?_, ?_⟩, .of_eq hitems⟩
    · intro key trimmed hash a hlook
      rw [hitems] at hlook
      exact hd.known key trimmed hash a hlook
    · intro other found hlook
      exact (hd.batches other found hlook).last (.of_eq hitems)

theorem ImportSound.step (hd : ImportSound used d) (hdistinct : DistinctItems used) {e : ImportEvent}
    (h : (importMachine profiles used).step d e d') : ImportSound used d' ∧ ReceiptsLast d.store d'.store := by
  cases e with
  | act act =>
    obtain ⟨hallowed, rfl⟩ := h
    exact hd.act hdistinct hallowed
  | reorder =>
    obtain ⟨hreordered, hbatches⟩ := h
    have hitems := hreordered.importItems
    refine ⟨⟨hd.shape.reordered hreordered, ?_, ?_⟩, .of_eq hitems⟩
    · intro key trimmed hash a hlook
      rw [hitems] at hlook
      exact hd.known key trimmed hash a hlook
    · intro other found hlook
      rw [hbatches] at hlook
      exact (hd.batches other found hlook).last (.of_eq hitems)

omit [CsvChunks] [UrlParser] in
theorem ImportSound.start : ImportSound used .default where
  shape := storeShape_default
  known _ _ _ _ h := by cases h
  batches _ _ h := by cases h

/-- The step a batch takes for its next item: a lookup, or an import after its fetch. -/
def ImportAct.TakesTurn (id : Nat) (fetching : Bool) : ImportAct → Prop
  | .look batch => batch = id ∧ fetching = false
  | .store batch _ _ _ => batch = id ∧ fetching = true
  | _ => False

theorem ImportSound.turn (hd : ImportSound used d) (hdistinct : DistinctItems used)
    (hbatch : d.batches.lookup id = some batch) (hnext : batch.next = some item) {act : ImportAct}
    (hturn : act.TakesTurn id batch.fetching) (hallowed : act.Allowed used d) :
    ∃ batch', (d.run profiles act).batches = d.batches.insert id batch'
      ∧ BatchItemStep used d.store batch item batch.fetching batch' (d.run profiles act).store := by
  cases act with
  | start => exact hturn.elim
  | other => exact hturn.elim
  | look other =>
    obtain ⟨rfl, hphase⟩ := hturn
    obtain ⟨batch', heq, hstep⟩ := hd.look hdistinct hbatch hnext
    have hrun : d.run profiles (.look other) = d.look other batch item := by
      rw [ImportDesk.run, turn_eq_some.mpr ⟨hbatch, hnext, hphase⟩]
    rw [hrun, heq, hphase]
    exact ⟨batch', rfl, hstep⟩
  | store other fetched objectId fresh =>
    obtain ⟨rfl, hphase⟩ := hturn
    obtain ⟨batch', _, heq, hstep, -⟩ := hd.save hdistinct hbatch hnext hphase hallowed.fresh
    have hrun : d.run profiles (.store other fetched objectId fresh)
        = d.save profiles other batch item fetched objectId fresh := by
      rw [ImportDesk.run, turn_eq_some.mpr ⟨hbatch, hnext, hphase⟩]
    rw [hrun, heq, hphase]
    exact ⟨batch', rfl, hstep⟩

/-! ### What an item depends on -/

/-- What a step adds to the results of a batch, and whether the batch goes on to fetch. -/
def ImportDesk.gained (profiles : ParserProfiles) (d : ImportDesk) (id : Nat) (act : ImportAct) :
    Option (List ImportAcceptance × Bool) := do
  let before ← d.batches.lookup id
  let after ← (d.run profiles act).batches.lookup id
  pure (after.output.drop before.output.length, after.fetching)

/-- Two batches, of any other items and any results, whose next item is the same. -/
structure OneSection (d d' : ImportDesk) (id id' : Nat) : Prop where
  store : d.store = d'.store
  next : ∃ batch batch' item, d.batches.lookup id = some batch ∧ d'.batches.lookup id' = some batch' ∧ batch.next = some
    item ∧ batch'.next = some item ∧ batch.scope = batch'.scope ∧ batch.fetching = batch'.fetching

omit [Sha256] [CsvChunks] [UrlParser] in
theorem ImportBatch.looked_gained (hphase : batch.fetching = batch'.fetching)
    (r : Except AppError (Option ImportAcceptance)) :
    ((batch.looked r).output.drop batch.output.length, (batch.looked r).fetching)
      = ((batch'.looked r).output.drop batch'.output.length, (batch'.looked r).fetching) := by
  cases r with
  | error e => simp [looked, hphase]
  | ok found => cases found <;> simp [looked, push]

omit [Sha256] [CsvChunks] [UrlParser] in
theorem ImportBatch.imported_gained (hphase : batch.fetching = batch'.fetching) (r : Except AppError ImportAcceptance) :
    ((batch.imported r).output.drop batch.output.length, (batch.imported r).fetching)
      = ((batch'.imported r).output.drop batch'.output.length, (batch'.imported r).fetching) := by
  cases r with
  | error e => simp [ImportBatch.imported, hphase]
  | ok a => simp [ImportBatch.imported, push]

/-- What becomes of an item depends on the store and the item, not on the rest of its batch. -/
theorem OneSection.gained {id' : Nat} (h : OneSection d d' id id') {act act' : ImportAct}
    (hact : (act = .look id ∧ act' = .look id')
      ∨ ∃ fetched objectId fresh, act = .store id fetched objectId fresh ∧ act' = .store id' fetched objectId fresh) :
    (d.run profiles act).store = (d'.run profiles act').store
      ∧ d.gained profiles id act = d'.gained profiles id' act' := by
  obtain ⟨hstore, batch, batch', item, hbatch, hbatch', hnext, hnext', hscope, hphase⟩ := h
  have hlook (phase : Bool) (hne : batch.fetching ≠ phase) : d.turn id phase = none ∧ d'.turn id' phase = none := by
    constructor
    · refine eq_none_iff_forall_ne_some.mpr fun found hfound => ?_
      obtain ⟨hfound, -, heq⟩ := turn_eq_some.mp (show d.turn id phase = some (found.1, found.2) from hfound)
      rw [hbatch] at hfound
      exact hne (some.inj hfound ▸ heq)
    · refine eq_none_iff_forall_ne_some.mpr fun found hfound => ?_
      obtain ⟨hfound, -, heq⟩ := turn_eq_some.mp (show d'.turn id' phase = some (found.1, found.2) from hfound)
      rw [hbatch'] at hfound
      exact hne (hphase.trans (some.inj hfound ▸ heq))
  have hidle {act act' : ImportAct} (hrun : d.run profiles act = d) (hrun' : d'.run profiles act' = d') :
      (d.run profiles act).store = (d'.run profiles act').store
        ∧ d.gained profiles id act = d'.gained profiles id' act' := by
    refine ⟨by rw [hrun, hrun', hstore], ?_⟩
    simp only [ImportDesk.gained, hrun, hrun', hbatch, hbatch', bind_eq_bind, bind_some, drop_length, hphase]
  rcases hact with ⟨rfl, rfl⟩ | ⟨fetched, objectId, fresh, rfl, rfl⟩
  · by_cases hturn : batch.fetching = false
    · have hrun : d.run profiles (.look id) = d.look id batch item := by
        rw [ImportDesk.run, turn_eq_some.mpr ⟨hbatch, hnext, hturn⟩]
      have hrun' : d'.run profiles (.look id') = d'.look id' batch' item := by
        rw [ImportDesk.run, turn_eq_some.mpr ⟨hbatch', hnext', hphase.symm.trans hturn⟩]
      refine ⟨by rw [hrun, hrun', ImportDesk.look, ImportDesk.look, hscope, hstore], ?_⟩
      simp only [ImportDesk.gained, hrun, hrun', hbatch, hbatch', bind_eq_bind, bind_some,
        ImportDesk.look, lookup_insert, if_true, hscope, hstore]
      exact congrArg some (looked_gained hphase _)
    · obtain ⟨hnone, hnone'⟩ := hlook false hturn
      exact hidle (by rw [ImportDesk.run, hnone]) (by rw [ImportDesk.run, hnone'])
  · by_cases hturn : batch.fetching = true
    · have hrun : d.run profiles (.store id fetched objectId fresh)
          = d.save profiles id batch item fetched objectId fresh := by
        rw [ImportDesk.run, turn_eq_some.mpr ⟨hbatch, hnext, hturn⟩]
      have hrun' : d'.run profiles (.store id' fetched objectId fresh)
          = d'.save profiles id' batch' item fetched objectId fresh := by
        rw [ImportDesk.run, turn_eq_some.mpr ⟨hbatch', hnext', hphase.symm.trans hturn⟩]
      refine ⟨by rw [hrun, hrun', ImportDesk.save, ImportDesk.save, hscope, hstore], ?_⟩
      simp only [ImportDesk.gained, hrun, hrun', hbatch, hbatch', bind_eq_bind, bind_some,
        ImportDesk.save, lookup_insert, if_true, hscope, hstore]
      exact congrArg some (imported_gained hphase _)
    · obtain ⟨hnone, hnone'⟩ := hlook true hturn
      exact hidle (by rw [ImportDesk.run, hnone]) (by rw [ImportDesk.run, hnone'])

omit [CsvChunks] [UrlParser] in
/-- The results of a batch go by the identifiers of its items. -/
theorem ImportSound.named (hd : ImportSound used d) (hdistinct : DistinctItems used)
    (hbatch : d.batches.lookup id = some batch) :
    batch.output.map ImportAcceptance.clientItemId
      = (batch.items.take batch.output.length).map ImportItem.clientItemId := by
  have hall (items : List ImportItem) (output : List ImportAcceptance)
      (h : List.Forall₂ (Reports used d.store batch.scope) items output) :
      output.map ImportAcceptance.clientItemId = items.map ImportItem.clientItemId := by
    induction h with
    | nil => rfl
    | cons hanswers _ ih =>
      rw [map_cons, map_cons, hanswers.clientItemId hdistinct hd.known, ih]
  exact hall _ _ (hd.batches id batch hbatch).results

omit [CsvChunks] [UrlParser] in
theorem BatchItemStep.again (h : BatchItemStep used d.store batch item phase batch' s')
    (hreceipt : (d.store.receiptOf batch.scope item.clientItemId).isSome) : s' = d.store := by
  cases h with
  | answered => rfl
  | waits => rfl
  | imported _ _ _ once =>
    rw [once.unanswered] at hreceipt
    cases hreceipt

/-- What a batch may do next for an item. -/
structure NextTurn (used : ImportItem → Prop) (d : ImportDesk) (id : Nat) (batch : ImportBatch)
    (item : ImportItem) (act : ImportAct) : Prop where
  found : d.batches.lookup id = some batch
  first : batch.next = some item
  turn : act.TakesTurn id batch.fetching
  allowed : act.Allowed used d

/-- In every run of batches, interleaved as they may be, an identifier has one receipt in a scope for good, and the
step that stores it is the only one for that identifier that stores anything: one source, one job and one version at
most. Each batch comes to one result for each of its items in their order, and whatever the other items are. -/
theorem importBatches_once (hdistinct : DistinctItems used) {history : List ImportEvent}
    (h : (importMachine profiles used).Run .default history d) :
    ReceiptsKnown used d.store
      ∧ (∀ id batch, d.batches.lookup id = some batch → BatchSound used d.store batch
        ∧ batch.output.map ImportAcceptance.clientItemId
          = (batch.items.take batch.output.length).map ImportItem.clientItemId)
      ∧ (∀ id batch item act, NextTurn used d id batch item act →
          ∃ batch', (d.run profiles act).batches = d.batches.insert id batch'
            ∧ BatchItemStep used d.store batch item batch.fetching batch' (d.run profiles act).store)
      ∧ (∀ later d', (importMachine profiles used).Run d later d' → ReceiptsLast d.store d'.store
        ∧ ∀ id batch item act, NextTurn used d' id batch item act →
          (d.store.receiptOf batch.scope item.clientItemId).isSome → (d'.run profiles act).store = d'.store)
      ∧ ∀ d' id id', OneSection d d' id id' → ∀ act act', ((act = .look id ∧ act' = .look id')
        ∨ ∃ fetched objectId fresh, act = .store id fetched objectId fresh ∧ act' = .store id' fetched objectId fresh) →
        (d.run profiles act).store = (d'.run profiles act').store
          ∧ d.gained profiles id act = d'.gained profiles id' act' := by
  have hinvariant {d d' : ImportDesk} {history : List ImportEvent} (hd : ImportSound used d)
      (hrun : (importMachine profiles used).Run d history d') : ImportSound used d' :=
    hrun.invariant (fun _ _ _ hd hstep => (hd.step hdistinct hstep).1) hd
  have hturn {d : ImportDesk} {id : Nat} {batch : ImportBatch} {item : ImportItem} {act : ImportAct}
      (hd : ImportSound used d) (hnext : NextTurn used d id batch item act) :
      ∃ batch', (d.run profiles act).batches = d.batches.insert id batch'
        ∧ BatchItemStep used d.store batch item batch.fetching batch' (d.run profiles act).store :=
    hd.turn hdistinct hnext.found hnext.first hnext.turn hnext.allowed
  have hsound : ImportSound used d := hinvariant .start h
  refine ⟨hsound.known, fun id batch hbatch => ⟨hsound.batches id batch hbatch, hsound.named hdistinct hbatch⟩,
    fun id batch item act hnext => hturn hsound hnext, ?_, fun d' id id' hsame act act' hact => hsame.gained hact⟩
  intro later d' hlater
  have hlast : ReceiptsLast d.store d'.store :=
    hlater.relates (I := ImportSound used) (R := fun d d' => ReceiptsLast d.store d'.store)
      (fun _ _ _ hd hstep => (hd.step hdistinct hstep).1) (fun _ _ _ hlook => hlook)
      (fun _ _ _ h₁ h₂ key receipt hlook => h₂ key receipt (h₁ key receipt hlook))
      (fun _ _ _ hd hstep => (hd.step hdistinct hstep).2) hsound
  refine ⟨hlast, fun id batch item act hnext hreceipt => ?_⟩
  obtain ⟨_, -, hstep⟩ := hturn (hinvariant hsound hlater) hnext
  obtain ⟨_, hfound⟩ := isSome_iff_exists.mp hreceipt
  exact hstep.again (by rw [MemoryState.receiptOf, hlast _ _ hfound]; rfl)

end

namespace Sample

/-- No page is fetched. -/
@[reducible] def noPages : UrlParser :=
  ⟨fun _ => none, fun _ _ => none⟩

attribute [local instance] secureHash noTables noPages

/-- A text, and another text under the same identifier. -/
def notes : ImportItem where
  clientItemId := "notes"
  kind := .text
  name := "notes"
  purpose := .internalUse
  text := some "first"
  url := none
  objectId := none
  knowledgeReleaseId := none

def otherNotes : ImportItem :=
  { notes with clientItemId := " notes", text := some "second" }

def noteItems : List ImportItem :=
  [notes, otherNotes]

/-- The acts of two batches that look up the same receipt before either imports it. -/
def noteActs : List ImportAct :=
  [.start 0 scope [notes, otherNotes, notes], .start 1 scope [notes], .look 0, .look 1,
    .store 0 none (uuid 10) (importInputs 11), .store 1 none (uuid 30) (importInputs 31), .look 0, .look 0]

/-- The conditions on an act, as far as these acts need them. -/
def checks (d : ImportDesk) : ImportAct → Bool
  | .start _ _ items => items.all (· ∈ noteItems)
  | .look _ => true
  | .store id fetched objectId fresh =>
    (ImportAct.store id fetched objectId fresh).newIds.all fun id => decide (d.store.Unused id)
  | .other _ => false

theorem allowed_of_checks {d : ImportDesk} {act : ImportAct} (h : checks d act = true) :
    act.Allowed (· ∈ noteItems) d := by
  cases act with
  | start =>
    refine ⟨by simp [ImportAct.newIds], ?_, by simp⟩
    rintro _ _ _ ⟨⟩ item hitem
    simpa using all_eq_true.mp h item hitem
  | look id => exact ⟨by simp [ImportAct.newIds], by simp, by simp⟩
  | store id =>
    refine ⟨fun id hid => ?_, by simp, by simp⟩
    simpa using all_eq_true.mp h id hid
  | other call => cases h

def deskAfter (d : ImportDesk) : List ImportAct → ImportDesk
  | [] => d
  | act :: rest => deskAfter (d.run noParsers act) rest

def allChecks (d : ImportDesk) : List ImportAct → Bool
  | [] => true
  | act :: rest => checks d act && allChecks (d.run noParsers act) rest

theorem run_of_checks {acts : List ImportAct} {d : ImportDesk} (h : allChecks d acts = true) :
    (importMachine noParsers (· ∈ noteItems)).Run d (acts.map .act) (deskAfter d acts) := by
  induction acts generalizing d with
  | nil => exact .refl
  | cons act _ ih =>
    rw [allChecks, Bool.and_eq_true] at h
    have hfirst : (importMachine noParsers (· ∈ noteItems)).Run d [.act act] (d.run noParsers act) :=
      .single ⟨allowed_of_checks h.1, rfl⟩
    exact hfirst.append (ih h.2)

def noteDesk : ImportDesk :=
  deskAfter .default noteActs

theorem noteItems_distinct : DistinctItems (· ∈ noteItems) := by
  have hall : noteItems.all (fun item => noteItems.all fun item' =>
      importItemHash item != importItemHash item' || item.json.toText == item'.json.toText) = true := by
    decide +kernel
  intro item item' hitem hitem' hhash
  have hpair := all_eq_true.mp (all_eq_true.mp hall item hitem) item' hitem'
  simpa [hhash] using hpair

/-- One source for three imports of the notes, and a refusal of the other text. -/
theorem importBatches_once_sample :
    (ReceiptsKnown (· ∈ noteItems) noteDesk.store
      ∧ ∀ id batch, noteDesk.batches.lookup id = some batch → BatchSound (· ∈ noteItems) noteDesk.store batch)
      ∧ (values noteDesk.store.sources).length = 1
      ∧ (noteDesk.batches.lookup 0).map (fun batch => batch.output.map fun a => (a.clientItemId, a.error))
        = some [("notes", none), (" notes", some itemIdInUse), ("notes", none)]
      ∧ (noteDesk.batches.lookup 0).map (fun batch => batch.output.head?)
        = (noteDesk.batches.lookup 1).map fun batch => batch.output.head? := by
  have hrun := importBatches_once noteItems_distinct (@run_of_checks noteActs .default (by decide +kernel))
  refine ⟨⟨hrun.1, fun id batch hbatch => (hrun.2.1 id batch hbatch).1⟩, ?_⟩
  decide +kernel

end Sample

end GeoMaster
