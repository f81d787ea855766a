import GeoMaster.Domain.AnalysisRepository

/-!
# Extractions

Durable inferences from saved sources. A scan discovers the sources that no extraction has been asked for: it
reads the captures a page at a time, leaves out those with an intent, and goes on until its own page is full or
a page of captures is not.
-/

namespace GeoMaster

structure ObservationExtractionRequest where
  (targetId attemptId : Uuid)
  sourceCaptureId : Option Uuid
  sourceEvidenceIndex : Option UInt32
  manualRevisionId : Option Uuid
  (sourceSha256 promptVersion parserVersion policyVersion : String)

inductive ObservationExtractionState where
  | queued
  | running
  | responseReceived
  | completed
  | interrupted

inductive ObservationExtractionInterruption where
  | inferenceInterrupted
  | inferenceFailed
  | groundingInterrupted
  | responseNotPersistable

inductive ObservationExtractionResponseDisposition where
  | complete
  | incomplete
  | toolCalls
  | unexpectedFinish

structure ObservationExtractionResponse where
  /-- The exact text of the model, malformed JSON included. -/
  modelText : String
  disposition : ObservationExtractionResponseDisposition
  actualModel : String
  configRevision : Option Int
  (promptTokens completionTokens : UInt64)

structure ObservationExtractionIntent where
  intentId : Uuid
  request : ObservationExtractionRequest
  intentKey : String
  state : ObservationExtractionState
  createdAt : DateTime
  (startedAt responseReceivedAt finishedAt : Option DateTime)
  response : Option ObservationExtractionResponse
  completion : Option ObservationAnalysisResult
  interruption : Option ObservationExtractionInterruption

/-- Discovery is not authorization to enqueue or perform inference. -/
structure ObservationExtractionBackfillItem where
  scope : TenantScope
  captureId : Uuid
  deriving DecidableEq

structure StoredExtraction where
  scope : TenantScope
  intent : ObservationExtractionIntent
  claimToken : Option Uuid

/-- The intents of a store, in any state. -/
abbrev MemoryObservationExtractionRepository : Type :=
  AssocMap Uuid StoredExtraction

namespace MemoryObservationExtractionRepository

/-! ### Sources without an intent -/

/-- A source that some intent of its scope is about. -/
def hasIntent (records : MemoryObservationExtractionRepository) (source : ObservationCaptureSourceItem) : Bool :=
  (AssocMap.values records).any fun stored =>
    stored.scope = source.scope && stored.intent.request.sourceCaptureId = some source.captureId

/-- How far a scan has come: its page is full, or it goes on behind a cursor. -/
inductive ScanProgress where
  | full (items : List ObservationExtractionBackfillItem)
  | behind (cursor : Option Uuid) (items : List ObservationExtractionBackfillItem)

/-- The sources of one page of captures, one after the other. -/
def takeSources (records : MemoryObservationExtractionRepository) (limit : Nat) :
    List ObservationCaptureSourceItem → Option Uuid → List ObservationExtractionBackfillItem → ScanProgress
  | [], cursor, items => .behind cursor items
  | source :: rest, _, items =>
    if records.hasIntent source then takeSources records limit rest (some source.captureId) items
    else
      let items := items ++ [{ scope := source.scope, captureId := source.captureId }]
      if items.length = limit then .full items
      else takeSources records limit rest (some source.captureId) items

/-- The loop of a scan, with the stores as each of its rounds finds them. A scan that is given too few rounds
has no result. -/
def scanRounds (captures : Nat → MemoryObservationCaptureRepository)
    (records : Nat → MemoryObservationExtractionRepository) (asOf : DateTime) (limit : Nat) :
    Nat → Nat → Option Uuid → List ObservationExtractionBackfillItem →
      Option (Except AppError (List ObservationExtractionBackfillItem) × Nat)
  | 0, _, _, _ => none
  | rounds + 1, time, cursor, items =>
    match (captures time).scanSources asOf cursor limit with
    | .error e => some (.error e, time + 1)
    | .ok sources =>
      match takeSources (records time) limit sources cursor items with
      | .full items => some (.ok items, time + 1)
      | .behind cursor items =>
        if sources.length < limit then some (.ok items, time + 1)
        else scanRounds captures records asOf limit rounds (time + 1) cursor items

/-- A scan that starts at some time: its page, and the time after its last round. -/
def scanUnqueuedSources (captures : Nat → MemoryObservationCaptureRepository)
    (records : Nat → MemoryObservationExtractionRepository) (rounds time : Nat) (asOf : DateTime)
    (after : Option Uuid) (limit : Nat) : Option (Except AppError (List ObservationExtractionBackfillItem) × Nat) :=
  match validateObservationExtractionPageSize limit with
  | .error e => some (.error e, time)
  | .ok _ => scanRounds captures records asOf limit rounds time after []

end MemoryObservationExtractionRepository

end GeoMaster
