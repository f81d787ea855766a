import GeoMaster.Domain.KnowledgeCalls
import GeoMaster.Domain.RichContent

/-!
# Import batches

`import_batch` takes its items one after the other. It looks up the receipt of an item, fetches the page of a URL
without the lock, and imports the item under the lock, where it looks up the receipt again. A batch in flight is its
items, the results so far, and whether the next item is between its two locked sections. Any number of batches take
their steps in any order, and the other calls of the repository come between them.
-/

namespace GeoMaster

open MemoryKnowledgeRepository (importReceipt importItem)

/-- A batch in flight. -/
structure ImportBatch where
  scope : TenantScope
  items : List ImportItem
  output : List ImportAcceptance
  /-- There was no receipt of the next item, and its page is being fetched. -/
  fetching : Bool
  /-- The error that ended the batch. -/
  failure : Option AppError

namespace ImportBatch

def start (scope : TenantScope) (items : List ImportItem) : Except AppError ImportBatch := do
  let _ ← Except.okOr scope.projectId (.invalidRequest "project_id is required for knowledge resources")
  Except.failIf (items = [] ∨ 100 < items.length) (.invalidRequest "imports must contain between 1 and 100 items")
  pure { scope, items, output := [], fetching := false, failure := none }

/-- The item whose turn it is. -/
def next (batch : ImportBatch) : Option ImportItem :=
  if batch.failure.isSome then none else batch.items[batch.output.length]?

/-- The result of the next item. -/
def push (batch : ImportBatch) (acceptance : ImportAcceptance) : ImportBatch :=
  { batch with output := batch.output ++ [acceptance], fetching := false }

/-- The batch after a lookup of the next receipt. -/
def looked (batch : ImportBatch) : Except AppError (Option ImportAcceptance) → ImportBatch
  | .ok (some acceptance) => batch.push acceptance
  | .ok none => { batch with fetching := true }
  | .error error => { batch with failure := some error }

/-- The batch after the import of the next item. -/
def imported (batch : ImportBatch) : Except AppError ImportAcceptance → ImportBatch
  | .ok acceptance => batch.push acceptance
  | .error error => { batch with failure := some error }

end ImportBatch

/-- Whether a page can be fetched from a text. -/
def isFetchable [UrlParser] (value : String) : Bool :=
  (UrlParser.parse value).any fun url => (url.scheme = "http" || url.scheme = "https") && url.host.isSome

/-- What is fetched for an item; there may be no fetcher. -/
def fetchedPage [UrlParser] (fetched : Option (Except AppError FetchedUrlPage)) (item : ImportItem) :
    Except AppError (Option FetchedUrlPage) :=
  if item.kind = .url then
    if item.url.any isFetchable then
      match fetched with
      | some result => result.map some
      | none => .ok none
    else .error (.invalidRequest "url imports require an http or https URL")
  else .ok none

/-! ### Runs -/

/-- The repository and the batches that use it. -/
structure ImportDesk where
  store : MemoryState
  batches : AssocMap Nat ImportBatch

inductive ImportAct where
  /-- `import_batch` is called. -/
  | start (id : Nat) (scope : TenantScope) (items : List ImportItem)
  /-- A batch looks up the receipt of its next item. -/
  | look (id : Nat)
  /-- A batch imports its next item, with what was fetched for it. -/
  | store (id : Nat) (fetched : Option (Except AppError FetchedUrlPage)) (objectId : Uuid) (fresh : ImportInputs)
  /-- Another call of the repository. -/
  | other (call : KnowledgeCall)

namespace ImportDesk

def default : ImportDesk where
  store := .default
  batches := ∅

section

variable [Sha256] [CsvChunks] [UrlParser]

def look (id : Nat) (batch : ImportBatch) (item : ImportItem) (d : ImportDesk) : ImportDesk :=
  let found := (importReceipt batch.scope item).run d.store
  { store := found.2, batches := d.batches.insert id (batch.looked found.1) }

def save (profiles : ParserProfiles) (id : Nat) (batch : ImportBatch) (item : ImportItem)
    (fetched : Option (Except AppError FetchedUrlPage)) (objectId : Uuid) (fresh : ImportInputs)
    (d : ImportDesk) : ImportDesk :=
  let made := (importItem profiles batch.scope item (fetchedPage fetched item) objectId fresh).run d.store
  { store := made.2, batches := d.batches.insert id (batch.imported made.1) }

/-- The batch and the item that may take a step of one of the two kinds. -/
def turn (d : ImportDesk) (id : Nat) (fetching : Bool) : Option (ImportBatch × ImportItem) := do
  let batch ← d.batches.lookup id
  let item ← batch.next
  if batch.fetching = fetching then some (batch, item) else none

def run (profiles : ParserProfiles) (d : ImportDesk) : ImportAct → ImportDesk
  | .start id scope items =>
    match d.batches.lookup id, ImportBatch.start scope items with
    | none, .ok batch => { d with batches := d.batches.insert id batch }
    | _, _ => d
  | .look id =>
    match d.turn id false with
    | some (batch, item) => d.look id batch item
    | none => d
  | .store id fetched objectId fresh =>
    match d.turn id true with
    | some (batch, item) => d.save profiles id batch item fetched objectId fresh
    | none => d
  | .other call => { d with store := ((MemoryKnowledgeRepository.run profiles call).run d.store).2 }

end

end ImportDesk

/-- Items are imported by batches only. -/
def KnowledgeCall.NotImport : KnowledgeCall → Prop
  | .importReceipt _ _ => False
  | .importItem _ _ _ _ _ => False
  | _ => True

/-- The identifiers an act draws. -/
def ImportAct.newIds : ImportAct → List Uuid
  | .store _ _ objectId fresh =>
    [objectId, fresh.sourceId, fresh.versionId, fresh.operationId, fresh.jobId, fresh.releaseId]
  | .other call => call.newIds
  | _ => []

/-- What is asked of an act: new identifiers are not in use, and the items are among given ones. -/
structure ImportAct.Allowed (used : ImportItem → Prop) (d : ImportDesk) (act : ImportAct) : Prop where
  fresh : ∀ id ∈ act.newIds, d.store.Unused id
  items : ∀ id scope items, act = .start id scope items → ∀ item ∈ items, used item
  other : ∀ call, act = .other call → call.NotImport

inductive ImportEvent where
  | act (act : ImportAct)
  /-- The maps are listed in another order. -/
  | reorder

def importMachine [Sha256] [CsvChunks] [UrlParser] (profiles : ParserProfiles)
    (used : ImportItem → Prop) : Machine ImportDesk ImportEvent where
  step d e d' :=
    match e with
    | .act act => act.Allowed used d ∧ d' = d.run profiles act
    | .reorder => d.store.Reordered d'.store ∧ d'.batches = d.batches

end GeoMaster
