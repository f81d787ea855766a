import GeoMaster.Domain.CycleInputs
import GeoMaster.Domain.ReportInputs
import GeoMaster.Domain.SourceRedaction

/-!
# Observation captures

Durable browser observation checkpoints, independent of any interpretation. A capture is a text with its
digest: the source of an attempt, a raw extraction from it, or a candidate answer. The text itself is what is
stored, and it is read as JSON only to be checked.
-/

namespace GeoMaster

open Except Text Json

def maxObservationSourceBytes : Nat :=
  750000

def maxObservationCandidateBytes : Nat :=
  150000

inductive ExtractionRoute where
  | signedInBrowser
  | configuredModelApi
  deriving DecidableEq

inductive ObservationCaptureSnapshot where
  | source (sourceJson sourceSha256 : String)
  | extraction (sourceCaptureId : Uuid) (sourceJson sourceSha256 : String)
  | candidate (sourceCaptureId : Uuid) (route : ExtractionRoute) (candidateJson candidateSha256 : String)
    (groundingReason : Option String)
  deriving DecidableEq

namespace ObservationCaptureSnapshot

/-- The text of a capture. -/
def text : ObservationCaptureSnapshot → String
  | .source sourceJson _ => sourceJson
  | .extraction _ sourceJson _ => sourceJson
  | .candidate _ _ candidateJson _ _ => candidateJson

/-- The digest that comes with the text. -/
def digest : ObservationCaptureSnapshot → String
  | .source _ sourceSha256 => sourceSha256
  | .extraction _ _ sourceSha256 => sourceSha256
  | .candidate _ _ _ candidateSha256 _ => candidateSha256

end ObservationCaptureSnapshot

def ObservationCaptureSnapshot.isSource : ObservationCaptureSnapshot → Bool
  | .source _ _ => true
  | _ => false

/-- Only a fresh-chat response or an independently verified page may establish ownership. -/
inductive ConversationCorrelation where
  | createResponse
  | verifiedPage
  deriving DecidableEq

inductive CapturedConversationPurpose where
  | measurement
  | extraction
  deriving DecidableEq

structure CapturedConversation where
  (provider externalConversationId : String)
  purpose : CapturedConversationPurpose
  correlation : ConversationCorrelation
  deriving DecidableEq

structure ObservationProviderIdentity where
  (provider platformAccountId : String)
  deriving DecidableEq

inductive ObservationCompletionOutcome where
  | complete
  | clearedFailure
  deriving DecidableEq

/-- Transport lifecycle proof, independent of answer interpretation. -/
structure ObservationCaptureCompletion where
  outcome : ObservationCompletionOutcome
  messageInventory : List (String × String)
  deriving DecidableEq

structure ObservationCaptureInput where
  (captureId targetId attemptId accountId runnerSessionId : Uuid)
  /-- Frozen by the trusted execution path, never inferred from current account state. -/
  originalIdentity : Option ObservationProviderIdentity
  /-- A source is zero; raw extractions and candidates share the positive ones. -/
  ordinal : UInt32
  observedAt : DateTime
  snapshot : ObservationCaptureSnapshot
  ownedConversation : Option CapturedConversation
  completion : Option ObservationCaptureCompletion
  deriving DecidableEq

structure ObservationCaptureReceipt where
  captureId : Uuid
  schemaVersion : Nat
  digestSha256 : String
  storedAt : DateTime

structure ObservationCapture where
  input : ObservationCaptureInput
  receipt : ObservationCaptureReceipt

/-! ### Checks -/

/-- Letters, digits, `_` and `-`, at least one and at most `max`. -/
def isHandle (value : String) (max : Nat) : Bool :=
  value ≠ "" && len value ≤ max && value.toList.all fun c => c.isAlphanum || c = '_' || c = '-'

/-- `windows(2)`, each in ascending order. -/
def strictlyAscending : List String → Bool
  | first :: second :: rest => first < second && strictlyAscending (second :: rest)
  | _ => true

def ObservationCaptureCompletion.validate (completion : ObservationCaptureCompletion) : Except AppError Unit :=
  let inventory := completion.messageInventory
  let hasRole (role : String) : Bool := inventory.any fun message => message.2 = role
  let valid :=
    inventory.length ≤ 32768
      && inventory.all (fun message => isHandle message.1 128 && message.2 ∈ ["user", "assistant", "system"])
      && strictlyAscending (inventory.map Prod.fst)
      && match completion.outcome with
        | .complete => hasRole "user" && hasRole "assistant"
        | .clearedFailure => inventory = []
  failIf (valid = false) (.invalidRequest "invalid observation completion inventory")

def ObservationProviderIdentity.validate (identity : ObservationProviderIdentity) : Except AppError Unit :=
  failIf
    (¬ (isHandle identity.provider 64 = true ∧ isBlank identity.platformAccountId = false
      ∧ len identity.platformAccountId ≤ 512
      ∧ identity.platformAccountId.toList.any isControl = false))
    (.invalidRequest "invalid original provider identity")

/-! ### Reading a text -/

/-- The value a text is written as, with every member of every object in the order of the text. Escapes are
resolved, but a name may stand in an object more than once. -/
class JsonSyntax where
  parse : String → Option Json

mutual

/-- The value that is read: of the members with one name, a map keeps the last one. -/
def Json.lastWins (value : Json) : Json :=
  match value with
  | .array items => .array (lastWinsItems items)
  | .object fields => .object (lastWinsFields fields)
  | value => value
termination_by structural value

def Json.lastWinsItems (items : List Json) : List Json :=
  match items with
  | [] => []
  | item :: rest => lastWins item :: lastWinsItems rest
termination_by structural items

def Json.lastWinsFields (fields : List (String × Json)) : List (String × Json) :=
  match fields with
  | [] => []
  | field :: rest =>
    if rest.any (fun later => later.1 = field.1) then lastWinsFields rest
    else lastWinsField field :: lastWinsFields rest
termination_by structural fields

def Json.lastWinsField (field : String × Json) : String × Json :=
  match field with
  | (key, value) => (key, lastWins value)
termination_by structural field

end

/-- A digest in lowercase hexadecimal. -/
def validDigest (value : String) : Bool :=
  len value = 64 && value.toList.all fun c => isAsciiHexdigit c && !c.isUpper

def checkedJson [Sha256] [JsonText] (raw digest : String) (limit : Nat) : Except AppError Json := do
  failIf (raw = "" ∨ limit < len raw ∨ validDigest digest = false ∨ sha256Hex (bytes raw) ≠ digest)
    (.invalidRequest "invalid observation capture digest or size")
  let value ← okOr (JsonText.parse raw) (.invalidRequest "invalid observation capture JSON")
  failIf (SourceRedaction.safeJson value 0 = false) (.invalidRequest "unsafe observation capture fields")
  pure value

/-! ### The text a capture is digested from -/

def ExtractionRoute.text : ExtractionRoute → String
  | .signedInBrowser => "signed_in_browser"
  | .configuredModelApi => "configured_model_api"

def ObservationCaptureSnapshot.json : ObservationCaptureSnapshot → Json
  | .source sourceJson sourceSha256 =>
    .object [("phase", .string "source"), ("source_json", .string sourceJson), ("source_sha256", .string sourceSha256)]
  | .extraction sourceCaptureId sourceJson sourceSha256 =>
    .object
      [("phase", .string "extraction"), ("source_capture_id", sourceCaptureId.json),
        ("source_json", .string sourceJson), ("source_sha256", .string sourceSha256)]
  | .candidate sourceCaptureId route candidateJson candidateSha256 groundingReason =>
    .object
      [("phase", .string "candidate"), ("source_capture_id", sourceCaptureId.json), ("route", .string route.text),
        ("candidate_json", .string candidateJson), ("candidate_sha256", .string candidateSha256),
        ("grounding_reason", nullable .string groundingReason)]

def CapturedConversationPurpose.text : CapturedConversationPurpose → String
  | .measurement => "measurement"
  | .extraction => "extraction"

def ConversationCorrelation.text : ConversationCorrelation → String
  | .createResponse => "create_response"
  | .verifiedPage => "verified_page"

def CapturedConversation.json (conversation : CapturedConversation) : Json :=
  .object
    [("provider", .string conversation.provider),
      ("external_conversation_id", .string conversation.externalConversationId),
      ("purpose", .string conversation.purpose.text), ("correlation", .string conversation.correlation.text)]

def ObservationProviderIdentity.json (identity : ObservationProviderIdentity) : Json :=
  .object [("provider", .string identity.provider), ("platform_account_id", .string identity.platformAccountId)]

def ObservationCompletionOutcome.text : ObservationCompletionOutcome → String
  | .complete => "complete"
  | .clearedFailure => "cleared_failure"

def ObservationCaptureCompletion.json (completion : ObservationCaptureCompletion) : Json :=
  .object
    [("outcome", .string completion.outcome.text),
      ("message_inventory",
        .array (completion.messageInventory.map fun message => .array [.string message.1, .string message.2]))]

def ObservationCaptureInput.json [InstantJson] (input : ObservationCaptureInput) : Json :=
  .object
    ([("capture_id", input.captureId.json), ("target_id", input.targetId.json), ("attempt_id", input.attemptId.json),
        ("account_id", input.accountId.json), ("runner_session_id", input.runnerSessionId.json)]
      ++ Json.optionalField "original_identity" (input.originalIdentity.map (·.json))
      ++ [("ordinal", .ofNat input.ordinal.toNat), ("observed_at", input.observedAt.json),
        ("snapshot", input.snapshot.json),
        ("owned_conversation", nullable CapturedConversation.json input.ownedConversation)]
      ++ Json.optionalField "completion" (input.completion.map (·.json)))

/-! ### Validation -/

namespace ObservationCaptureInput

/-- The purpose of a conversation that goes with a phase. -/
def purpose (input : ObservationCaptureInput) : CapturedConversationPurpose :=
  match input.snapshot with
  | .source _ _ => .measurement
  | .extraction _ _ _ | .candidate _ _ _ _ _ => .extraction

def validateIdentity (input : ObservationCaptureInput) : Except AppError Unit :=
  match input.originalIdentity with
  | none => pure ()
  | some identity => do
    identity.validate
    failIf (input.ownedConversation.any (fun conversation => conversation.provider ≠ identity.provider) = true)
      (.invalidRequest "observation provider identity mismatch")

def validateConversation (input : ObservationCaptureInput) : Except AppError Unit :=
  match input.ownedConversation with
  | none => pure ()
  | some conversation => do
    failIf (¬ (isHandle conversation.provider 64 = true ∧ isHandle conversation.externalConversationId 128 = true))
      (.invalidRequest "invalid correlated conversation")
    failIf (conversation.purpose ≠ input.purpose) (.invalidRequest "conversation purpose does not match capture phase")

/-- The checks of a source document and of the completion that comes with it. -/
def validateSource [Sha256] [JsonText] (input : ObservationCaptureInput) (sourceJson sourceSha256 : String) :
    Except AppError Unit := do
  let document ← checkedJson sourceJson sourceSha256 maxObservationSourceBytes
  failIf (SourceRedaction.validObservationSourceDocument document = false) (.invalidRequest "invalid source document")
  match input.completion with
  | none => pure ()
  | some completion => do
    let owned := input.ownedConversation.filter fun owned =>
      input.originalIdentity.any fun identity => identity.provider = owned.provider
    failIf (owned = none) (.invalidRequest "invalid observation completion evidence")
    completion.validate

def validateSnapshot [Sha256] [JsonText] (input : ObservationCaptureInput) : Except AppError Unit :=
  match input.snapshot with
  | .source sourceJson sourceSha256 => do
    failIf (input.ordinal ≠ 0) (.invalidRequest "source capture ordinal must be zero")
    input.validateSource sourceJson sourceSha256
  | .extraction sourceCaptureId sourceJson sourceSha256 => do
    failIf (input.ordinal = 0 ∨ sourceCaptureId.isNil = true) (.invalidRequest "invalid raw extraction identity")
    input.validateSource sourceJson sourceSha256
  | .candidate sourceCaptureId _ candidateJson candidateSha256 groundingReason => do
    failIf input.completion.isSome (.invalidRequest "candidate cannot prove conversation completion")
    failIf
      (input.ordinal = 0 ∨ sourceCaptureId.isNil = true
        ∨ groundingReason.any (fun reason =>
          !(len reason ≤ 64 && reason.toList.all fun c => c.isLower || c = '_')) = true)
      (.invalidRequest "invalid extraction candidate identity")
    -- A capture is evidence, not a second interpretation: rejected candidates are kept too.
    let _ ← checkedJson candidateJson candidateSha256 maxObservationCandidateBytes

/-- The digest of a capture that may be stored. -/
def validate [Sha256] [JsonText] [InstantJson] (input : ObservationCaptureInput) (scope : TenantScope) :
    Except AppError String := do
  failIf (scope.projectId = none) (.forbidden "project scope required")
  failIf
    ([input.captureId, input.targetId, input.attemptId, input.accountId, input.runnerSessionId].any Uuid.isNil = true)
    (.invalidRequest "observation identity required")
  input.validateIdentity
  input.validateConversation
  input.validateSnapshot
  pure (sha256Hex (bytes input.json.toText))

end ObservationCaptureInput

/-! ### The repository -/

/-- Service-only source discovery metadata; never includes captured content. -/
structure ObservationCaptureSourceItem where
  scope : TenantScope
  captureId : Uuid
  deriving DecidableEq

/-- The captures of a store, each with the scope it was saved under. -/
abbrev MemoryObservationCaptureRepository : Type :=
  AssocMap Uuid (TenantScope × ObservationCapture)

/-- Immutable interpretation input, without the lifecycle of the capture. -/
structure ObservationCaptureSource where
  (captureId targetId attemptId accountId runnerSessionId : Uuid)
  originalIdentity : Option ObservationProviderIdentity
  observedAt : DateTime
  (sourceJson sourceSha256 : String)
  storedAt : DateTime

def validateObservationExtractionScope (scope : TenantScope) : Except AppError Unit :=
  failIf
    (scope.operatorId.asUuid.isNil = true ∨ scope.tenantId.asUuid.isNil = true
      ∨ scope.projectId.all (fun project => project.asUuid.isNil) = true)
    (.forbidden "extraction project scope required")

namespace ObservationCaptureSource

def validate [Sha256] [JsonText] (source : ObservationCaptureSource) (scope : TenantScope) : Except AppError Unit := do
  validateObservationExtractionScope scope
  failIf
    ([source.captureId, source.targetId, source.attemptId, source.accountId,
      source.runnerSessionId].any Uuid.isNil = true)
    (.invalidRequest "observation source identity required")
  source.originalIdentity.elim (pure ()) ObservationProviderIdentity.validate
  let document ← checkedJson source.sourceJson source.sourceSha256 maxObservationSourceBytes
  failIf (SourceRedaction.validObservationSourceDocument document = false) (.invalidRequest "invalid source document")

def tryFrom (capture : ObservationCapture) : Except AppError ObservationCaptureSource :=
  match capture.input.snapshot with
  | .source sourceJson sourceSha256 => do
    failIf (capture.input.ordinal ≠ 0 ∨ capture.receipt.captureId ≠ capture.input.captureId)
      (.conflict "observation source binding differs")
    pure
      { captureId := capture.input.captureId, targetId := capture.input.targetId
        attemptId := capture.input.attemptId, accountId := capture.input.accountId
        runnerSessionId := capture.input.runnerSessionId
        originalIdentity := capture.input.originalIdentity, observedAt := capture.input.observedAt
        sourceJson, sourceSha256, storedAt := capture.receipt.storedAt }
  | _ => .error (.invalidRequest "analysis requires a source capture")

end ObservationCaptureSource

def validateObservationExtractionPageSize (limit : Nat) : Except AppError Unit :=
  failIf (¬ (1 ≤ limit ∧ limit ≤ 100)) (.invalidRequest "extraction scan limit must be between 1 and 100")

namespace MemoryObservationCaptureRepository

/-- A source that a scan finds. -/
def isFound (asOf : DateTime) (after : Option Uuid) (stored : TenantScope × ObservationCapture) : Bool :=
  stored.2.receipt.storedAt ≤ asOf && after.all (fun id => id < stored.2.input.captureId)
    && stored.2.input.ordinal = 0 && stored.2.input.snapshot.isSource

def scanSources (captures : MemoryObservationCaptureRepository) (asOf : DateTime) (after : Option Uuid)
    (limit : Nat) : Except AppError (List ObservationCaptureSourceItem) := do
  validateObservationExtractionPageSize limit
  let items := ((AssocMap.values captures).filter (isFound asOf after)).map fun stored =>
    ({ scope := stored.1, captureId := stored.2.input.captureId } : ObservationCaptureSourceItem)
  pure ((items.insertionSort fun a b => a.captureId ≤ b.captureId).take limit)

def get (captures : MemoryObservationCaptureRepository) (scope : TenantScope) (captureId : Uuid) :
    Except AppError (Option ObservationCapture) := do
  failIf (scope.projectId = none) (.forbidden "project scope required")
  pure (((captures.lookup captureId).filter fun stored => stored.1 = scope).map Prod.snd)

def getSource (captures : MemoryObservationCaptureRepository) (scope : TenantScope) (captureId : Uuid) :
    Except AppError (Option ObservationCaptureSource) := do
  let capture ← captures.get scope captureId
  match capture with
  | none => pure none
  | some capture => do
    let source ← ObservationCaptureSource.tryFrom capture
    pure (some source)

/-- The view of a target that an input is about. -/
def ofAttempt (input : ObservationCaptureInput) (target : ChannelTargetView) : Bool :=
  target.target.input.isMeasure && target.target.input.accountId = input.accountId
    && target.attempts.any fun attempt => attempt.attemptId = input.attemptId

def ofProvider (conversation : CapturedConversation) (target : ChannelTargetView) : Bool :=
  match target.target.input with
  | .measure measure => measure.provider = conversation.provider
  | _ => false

/-- What a capture that is derived from a source wants of that source. -/
def checkSource (captures : MemoryObservationCaptureRepository) (scope : TenantScope)
    (input : ObservationCaptureInput) : Except AppError Unit :=
  match input.snapshot with
  | .source _ _ => pure ()
  | .extraction sourceCaptureId _ _ | .candidate sourceCaptureId _ _ _ _ => do
    let source ← okOr (captures.lookup sourceCaptureId) (.conflict "source capture not saved")
    failIf
      (source.1 ≠ scope ∨ source.2.input.attemptId ≠ input.attemptId
        ∨ source.2.input.runnerSessionId ≠ input.runnerSessionId
        ∨ source.2.input.snapshot.isSource = false)
      (.conflict "candidate source capture mismatch")

def save [Sha256] [JsonText] [InstantJson] (jobs : ChannelLedger) (scope : TenantScope)
    (input : ObservationCaptureInput) (now : DateTime) :
    Op MemoryObservationCaptureRepository AppError ObservationCaptureReceipt := do
  let digest ← Op.lift (input.validate scope)
  let target ← Op.lift ((ChannelLedger.getTarget scope input.targetId).run jobs).1
  Op.failIf (ofAttempt input target = false) (.forbidden "observation attempt or account mismatch")
  Op.failIf (input.ownedConversation.any (fun conversation => !ofProvider conversation target) = true)
    (.forbidden "observation provider mismatch")
  let captures ← Op.read id
  match captures.lookup input.captureId with
  | some (priorScope, existing) => do
    Op.failIf (¬ (priorScope = scope ∧ existing.input = input ∧ existing.receipt.digestSha256 = digest))
      (.conflict "observation capture identity differs")
    pure existing.receipt
  | none => do
    Op.failIf
      ((AssocMap.values captures).any (fun stored =>
        stored.1 = scope && stored.2.input.attemptId = input.attemptId && stored.2.input.runnerSessionId
          = input.runnerSessionId && stored.2.input.ordinal = input.ordinal) = true)
      (.conflict "observation capture ordinal differs")
    Op.lift (checkSource captures scope input)
    let receipt : ObservationCaptureReceipt :=
      { captureId := input.captureId, schemaVersion := 1, digestSha256 := digest, storedAt := now }
    Op.modify fun captures => captures.insert input.captureId (scope, { input, receipt })
    pure receipt

end MemoryObservationCaptureRepository

end GeoMaster
