import GeoMaster.Domain.ContentCalls
import GeoMaster.Domain.CycleInputs

/-!
# The evidence of an item

`readEvidence` pages through the sources of an item, has a model select quotes from each page, and merges
the selections of pages like a binary carry, so that one group of candidates is kept for each level.
-/

namespace GeoMaster

open Except JsValue

namespace ContentWorkflow

open Script (failIf lift recover)

def pageSize : Nat :=
  32

def evidenceLimit : Nat :=
  24

def quoteCharLimit : Nat :=
  1600

structure EvidenceReference where
  sourceVersionId : JsValue
  chunkId : String
  locator : Json

structure EvidenceQuote where
  reference : EvidenceReference
  exactQuote : String

def EvidenceQuote.toJson (quote : EvidenceQuote) : Json :=
  object
    [("reference", some (object
        [("source_version_id", quote.reference.sourceVersionId), ("chunk_id", some (.string quote.reference.chunkId)),
          ("locator", some quote.reference.locator)])),
      ("exact_quote", some (.string quote.exactQuote))]

/-- What a selector chooses from: a chunk or a candidate, and what the prompt shows of it. -/
structure Offered where
  reference : EvidenceReference
  text : String
  shown : Json

/-- A candidate is offered by its quote. -/
def EvidenceQuote.offered (quote : EvidenceQuote) : Offered :=
  { reference := quote.reference
    text := quote.exactQuote
    shown := object
      [("source_version_id", quote.reference.sourceVersionId), ("chunk_id", some (.string quote.reference.chunkId)),
        ("exact_quote", some (.string quote.exactQuote))] }

/-! ### The chunks of a page -/

structure SourceChunk where
  ordinal : Nat
  (chunkId text : String)
  locator : Json
  fields : List (String × Json)

/-- A chunk after the ordinal of the one before it. -/
def checkChunk (ordinal : Option Nat) (chunk : Json) : Except WorkflowError SourceChunk := do
  let invalid := WorkflowError.preparation "source_read" "invalid_source_chunks"
  let position ← readMember (some chunk) "ordinal"
  let position ← okOr position.safeInteger invalid
  Except.failIf (∃ last ∈ ordinal, position ≤ last) invalid
  let member := optionalMember (some chunk)
  let chunkId ← okOr (member "chunk_id").asString invalid
  let text ← okOr (member "text").asString invalid
  let locator ← okOr ((member "locator").filter fun v => truthy (some v)) invalid
  let fields ← okOr (match chunk with | .object fields => some fields | _ => none) invalid
  pure { ordinal := position, chunkId, text, locator, fields }

def checkChunks (ordinal : Option Nat) : List Json → Except WorkflowError (List SourceChunk)
  | [] => .ok []
  | chunk :: rest => do
    let first ← checkChunk ordinal chunk
    let others ← checkChunks (some first.ordinal) rest
    pure (first :: others)

/-- `{...chunk, source_version_id}`. -/
def SourceChunk.offered (chunk : SourceChunk) (sourceVersionId : JsValue) : Offered :=
  { reference := { sourceVersionId, chunkId := chunk.chunkId, locator := chunk.locator }
    text := chunk.text
    shown := object
      ((chunk.fields.filter fun field => field.1 ≠ "source_version_id").map
          (fun field => (field.1, some field.2))
        ++ [("source_version_id", sourceVersionId)]) }

/-! ### Selecting -/

/-- The document of an on-demand request that has the key of the item. -/
def findDocument (documentKey : JsValue) : List Json → Except WorkflowError JsValue
  | [] => .ok none
  | document :: rest => do
    let key ← readMember (some document) "key"
    if key.strictEq documentKey then pure (some document) else findDocument documentKey rest

/-- What the task context adds for an on-demand request. -/
def requestContext (item context : Json) : Except WorkflowError (List (String × JsValue)) := do
  let request := optionalMember (some context) "on_demand_request"
  if request.truthy = false then pure []
  else do
    let topic ← readMember request "topic"
    let documents ← readMember request "documents"
    let documents ← okOr documents.asArray .typeError
    let documentKey ← readMember (some item) "document_key"
    let document ← findDocument documentKey documents
    let versions ← readMember request "source_version_ids"
    pure [("topic", topic), ("document_request", document), ("source_version_ids", versions)]

def selectionPrompt (item context : Json) (available : List Offered) (fromCandidates : Bool) :
    Except WorkflowError Json := do
  let ofItem := readMember (some item)
  let ofContext := readMember (some context)
  let documentKey ← ofItem "document_key"
  let objective ← ofContext "objective"
  let brandName ← ofContext "brand_name"
  let productName ← ofContext "product_name"
  let targetAudience ← ofContext "target_audience"
  let questionClusters ← ofContext "question_clusters"
  let contentType ← ofItem "content_type"
  let market ← ofItem "market"
  let language ← ofItem "language"
  let request ← requestContext item context
  pure (object
    [("document_key", documentKey),
      ("task_context", some (object
        ([("objective", objective), ("brand_name", brandName), ("product_name", productName),
          ("target_audience", targetAudience), ("question_clusters", questionClusters),
          ("content_type", contentType), ("market", market), ("language", language)] ++ request))),
      (if fromCandidates then "candidates" else "chunks", some (.array (available.map (·.shown))))])

/-- `source.locator.kind === "csv"`. -/
def isCsv (locator : Json) : Bool :=
  (optionalMember (some locator) "kind").isText "csv"

/-- One choice of the selector, with the key of its chunk. -/
def validChoice (available : List Offered) (fromCandidates : Bool) (choice : Json) :
    Except WorkflowError (String × EvidenceQuote) := do
  let invalid (reason : String) := WorkflowError.preparation "evidence_validation" reason
  let member := optionalMember (some choice)
  let versionId ← okOr (member "source_version_id").asString (invalid "invalid_choice")
  let chunkId ← okOr (member "chunk_id").asString (invalid "invalid_choice")
  let quote ← okOr (member "exact_quote").asString (invalid "invalid_choice")
  let ofVersion (entry : Offered) := entry.reference.sourceVersionId.isText versionId
  Except.failIf (available.any ofVersion = false) (invalid "unknown_source_version")
  let found := available.find? fun entry => ofVersion entry && entry.reference.chunkId = chunkId
  let source ← okOr found (invalid "unknown_chunk")
  Except.failIf (Js.isBlank quote) (invalid "blank_quote")
  Except.failIf (quote.length > quoteCharLimit) (invalid "quote_limit")
  Except.failIf (fromCandidates = false ∧ isCsv source.reference.locator ∧ source.text ≠ quote)
    (invalid "partial_csv_record")
  Except.failIf (if fromCandidates then source.text ≠ quote else Js.includes source.text quote = false)
    (invalid "quote_mismatch")
  pure (s!"{versionId}:{chunkId}", { reference := source.reference, exactQuote := quote })

/-- Every choice is checked; the first quote of a chunk is kept. -/
def chooseEvidence (available : List Offered) (fromCandidates : Bool) (seen : List String) :
    List Json → Except WorkflowError (List EvidenceQuote)
  | [] => .ok []
  | choice :: rest => do
    let (key, quote) ← validChoice available fromCandidates choice
    if key ∈ seen then chooseEvidence available fromCandidates seen rest
    else do
      Except.failIf (seen.length ≥ evidenceLimit) (.preparation "evidence_validation" "evidence_limit")
      let others ← chooseEvidence available fromCandidates (key :: seen) rest
      pure (quote :: others)

/-- The choices in a completion; a completion that is null has none. -/
def selectedChoices [JsonText] (completion : Json) : Except WorkflowError (List Json) := do
  let invalid (reason : String) := WorkflowError.preparation "evidence_validation" reason
  let member := optionalMember (some completion)
  Except.failIf (((member "tool_calls").optionalMember "length").truthy) (invalid "invalid_completion")
  let text ← okOr (member "text").asString (invalid "invalid_completion")
  let selected ← okOr (JsonText.parse text) (invalid "invalid_json")
  okOr (optionalMember (some selected) "evidence").asArray (invalid "invalid_evidence_shape")

def preparationCancelled : WorkflowError :=
  .error "Content preparation cancelled."

def selectEvidence [JsonText] (item context : Json) (available : List Offered)
    (fromCandidates : Bool) : Workflow (List EvidenceQuote) := do
  stopIfCancelled preparationCancelled
  let request : Workflow Json := do
    let prompt ← lift (selectionPrompt item context available fromCandidates)
    modelComplete .evidenceSelector prompt 16384
  let completion ← recover request fun error => Script.throw (preparationHostError "evidence_model" error)
  stopIfCancelled preparationCancelled
  lift do
    let choices ← selectedChoices completion
    chooseEvidence available fromCandidates [] choices

def combineEvidence [JsonText] (item context : Json) (left right : List EvidenceQuote) :
    Workflow (List EvidenceQuote) :=
  let candidates := left ++ right
  if candidates.length > evidenceLimit then
    selectEvidence item context (candidates.map (·.offered)) true
  else pure candidates

/-! ### Paging -/

/-- A candidate group for each level that has one. -/
abbrev Levels : Type :=
  List (Option (List EvidenceQuote))

/-- Carry a group into the levels: equal levels are combined and move up. -/
def carryEvidence [JsonText] (item context : Json) : Levels → List EvidenceQuote → Workflow Levels
  | [], candidates => pure [some candidates]
  | none :: rest, candidates => pure (some candidates :: rest)
  | some level :: rest, candidates => do
    let combined ← combineEvidence item context level candidates
    let levels ← carryEvidence item context rest combined
    pure (none :: levels)

/-- What is left of the levels when all pages are read. -/
def mergeLevels [JsonText] (item context : Json) : Levels → List EvidenceQuote → Workflow (List EvidenceQuote)
  | [], evidence => pure evidence
  | none :: rest, evidence => mergeLevels item context rest evidence
  | some candidates :: rest, evidence => do
    let combined ← combineEvidence item context candidates evidence
    mergeLevels item context rest combined

/-- The request for one page of a source. -/
def sourceRequest (item source : Json) (executionId : String) (afterOrdinal : Option Nat) :
    Except WorkflowError Json := do
  let itemId ← readMember (some item) "item_id"
  let sourceId ← readMember (some source) "source_id"
  let versionId ← readMember (some source) "source_version_id"
  pure (object
    [("execution_id", some (.string executionId)), ("item_id", itemId), ("source_id", sourceId),
      ("source_version_id", versionId), ("after_ordinal", some (afterOrdinal.elim .null Json.ofNat)),
      ("limit", some (.ofNat pageSize))])

/-- Two objects have the same value in a member. -/
def sameMember (a b : Json) (key : String) : Except WorkflowError Bool := do
  let ofA ← readMember (some a) key
  let ofB ← readMember (some b) key
  pure (ofA.strictEq ofB)

/-- The chunks of a page that is about the source that was asked for. -/
def pageChunks (item source page : Json) (executionId : String) (afterOrdinal : Option Nat) :
    Except WorkflowError (List SourceChunk) := do
  let mismatch := WorkflowError.preparation "source_read" "source_binding_mismatch"
  let execution ← readMember (some page) "execution_id"
  Except.failIf (execution.isText executionId = false) mismatch
  let sameItem ← sameMember page item "item_id"
  Except.failIf (sameItem = false) mismatch
  let sameSource ← sameMember page source "source_id"
  Except.failIf (sameSource = false) mismatch
  let sameVersion ← sameMember page source "source_version_id"
  Except.failIf (sameVersion = false) mismatch
  let chunks ← readMember (some page) "chunks"
  let chunks ← okOr chunks.asArray mismatch
  Except.failIf (chunks.length > pageSize) mismatch
  checkChunks afterOrdinal chunks

/-- Where a page says the next one begins: after its last chunk, if there is a next one. -/
def nextOrdinal (page : Json) (chunks : List SourceChunk) : Except WorkflowError (Option Nat) :=
  let next := optionalMember (some page) "next_ordinal"
  if next.isNullish then .ok none
  else
    match chunks.getLast? with
    | some last =>
      if next.isNumber last.ordinal then .ok (some last.ordinal)
      else .error (.preparation "source_read" "source_cursor_stalled")
    | none => .error (.preparation "source_read" "source_cursor_stalled")

/-- Select from the chunks of a page and carry the selection into the levels; an empty page has none. -/
def addPage [JsonText] (item context source : Json) (levels : Levels) (chunks : List SourceChunk) : Workflow Levels :=
  if chunks = [] then pure levels
  else do
    let versionId ← lift (readMember (some source) "source_version_id")
    let candidates ← selectEvidence item context (chunks.map (·.offered versionId)) false
    carryEvidence item context levels candidates

/-- One page of a source: go on after it, or leave with the levels. -/
def readPage [JsonText] (item context source : Json) (executionId : String)
    (state : Option Nat × Levels) : Workflow ((Option Nat × Levels) ⊕ Levels) := do
  let (afterOrdinal, levels) := state
  stopIfCancelled preparationCancelled
  let request : Workflow Json := do
    let input ← lift (sourceRequest item source executionId afterOrdinal)
    callHost .sourceRead input
  let page ← recover request fun error => Script.throw (preparationHostError "source_read" error)
  let chunks ← lift (pageChunks item source page executionId afterOrdinal)
  let next ← lift (nextOrdinal page chunks)
  let levels ← addPage item context source levels chunks
  match next with
  | some ordinal => pure (.inl (some ordinal, levels))
  | none => pure (.inr levels)

/-- The pages of the sources, one source after the other. -/
def readSources [JsonText] (fuel : Nat) (item context : Json) (executionId : String) :
    List Json → Levels → Workflow Levels
  | [], levels => pure levels
  | source :: rest, levels => do
    let levels ← Script.loop (readPage item context source executionId) fuel (none, levels)
    readSources fuel item context executionId rest levels

/-- A ready revision that is reused has its evidence already. -/
def readEvidence [JsonText] (fuel : Nat) (item context : Json) (executionId : String) : Workflow Json := do
  let reusable ← lift (readMember (some item) "reusable_evidence")
  match reusable with
  | some (.null) | none => do
    let invalid := WorkflowError.preparation "source_read" "invalid_source_references"
    let _ ← lift (okOr (optionalMember (some item) "document_key").asString invalid)
    let sources ← lift (okOr (optionalMember (some item) "source_refs").asArray invalid)
    let levels ← readSources fuel item context executionId sources []
    let evidence ← mergeLevels item context levels []
    pure (.array (evidence.map (·.toJson)))
  | some evidence => pure evidence

end ContentWorkflow

end GeoMaster
