import GeoMaster.Domain.Base
import GeoMaster.Lib.Op

/-!
# Conversations and agent runs

The contracts of the agent: conversations, their messages and turns, the run behind a turn, the events
of a conversation, and the ledger of tool calls, with the checks that both repositories share.
-/

namespace GeoMaster

open Except Text

structure ConversationId where
  asUuid : Uuid
  deriving DecidableEq

structure MessageId where
  asUuid : Uuid
  deriving DecidableEq

structure TurnId where
  asUuid : Uuid
  deriving DecidableEq

structure RunId where
  asUuid : Uuid
  deriving DecidableEq

structure ConversationEventId where
  asUuid : Uuid

structure AttachmentId where
  asUuid : Uuid
  deriving DecidableEq

structure ToolCallLedgerId where
  asUuid : Uuid

structure UserId where
  asUuid : Uuid

/-- A durable object reference. -/
structure ObjectRef where
  objectId : String
  version : Option String

/-- Attachment metadata accepted on a user message. -/
structure AttachmentReference where
  attachmentId : AttachmentId
  (objectId filename : String)
  mediaType : Option String
  sizeBytes : Option Nat
  (sha256 objectVersion : Option String)

inductive ConversationStatus where
  | active
  | archived
  deriving DecidableEq

inductive MessageRole where
  | user
  | assistant
  | system
  | tool
  deriving DecidableEq

inductive TurnStatus where
  | queued
  | running
  | succeeded
  | failed
  | cancelled
  deriving DecidableEq

/-- Whether a turn still occupies its conversation. -/
def TurnStatus.isActive (status : TurnStatus) : Bool :=
  status = .queued ∨ status = .running

inductive RunStatus where
  | queued
  | running
  | succeeded
  | failed
  | cancelled
  deriving DecidableEq

/-- Whether a run has ended. -/
def RunStatus.isTerminal (status : RunStatus) : Bool :=
  status = .succeeded ∨ status = .failed ∨ status = .cancelled

inductive RuntimeCapabilityStatus where
  | available
  | missing
  | unavailable
  deriving DecidableEq

/-- The capability that was observed when a run was accepted. -/
structure RuntimeCapability where
  status : RuntimeCapabilityStatus
  runtime : String
  (version reason : Option String)

def RuntimeCapability.isAvailable (capability : RuntimeCapability) : Bool :=
  capability.status = .available

structure Conversation where
  id : ConversationId
  operatorId : OperatorId
  tenantId : TenantId
  projectId : ProjectId
  createdBy : Option UserId
  title : Option String
  status : ConversationStatus
  revision : Nat
  (createdAt updatedAt : DateTime)

def Conversation.scope (conversation : Conversation) : TenantScope :=
  { operatorId := conversation.operatorId
    tenantId := conversation.tenantId
    projectId := some conversation.projectId }

structure Message where
  id : MessageId
  conversationId : ConversationId
  operatorId : OperatorId
  tenantId : TenantId
  projectId : ProjectId
  turnId : Option TurnId
  role : MessageRole
  content : String
  attachments : List AttachmentReference
  metadata : Json
  sequence : Nat
  createdAt : DateTime

structure Turn where
  id : TurnId
  conversationId : ConversationId
  rootMessageId : MessageId
  previousTurnId : Option TurnId
  runId : Option RunId
  status : TurnStatus
  cancelVersion : Nat
  (createdAt updatedAt : DateTime)

/-- The agent run of a turn. -/
structure AgentRun where
  id : RunId
  conversationId : ConversationId
  turnId : TurnId
  operatorId : OperatorId
  tenantId : TenantId
  projectId : ProjectId
  status : RunStatus
  capability : RuntimeCapability
  error : Option AppError
  cancelVersion : Nat
  (createdAt updatedAt : DateTime)

def AgentRun.scope (run : AgentRun) : TenantScope :=
  { operatorId := run.operatorId
    tenantId := run.tenantId
    projectId := some run.projectId }

/-- What the payload of an event is made from. -/
inductive EventPayload where
  | conversation (conversationId : ConversationId)
  | message (message : Message)
  | accepted (turnId : TurnId) (runId : RunId)
  | status (runId : RunId) (status : RunStatus)
  | failure (runId : RunId) (status : RunStatus) (error : AppError)
  | abandoned (runId : RunId) (status : RunStatus) (error : AppError) (reason : String)
  | cancelled (runId : RunId) (cancelVersion : Nat)

/-- Durable event record for replay. -/
structure ConversationEvent where
  id : ConversationEventId
  conversationId : ConversationId
  operatorId : OperatorId
  tenantId : TenantId
  projectId : ProjectId
  sequence : Nat
  eventType : String
  turnId : Option TurnId
  runId : Option RunId
  payload : EventPayload
  occurredAt : DateTime

/-! ### Tool calls -/

/-- A permission or budget verdict recorded before a tool call is attempted. -/
inductive ToolCallDecision where
  | allowed
  | denied
  deriving DecidableEq

/-- `unknown` is a first-class outcome: a crash after an external send and before the receipt must never
be retried blindly. -/
inductive ToolCallOutcome where
  | intent
  | attempted
  | succeeded
  | failed
  | unknown
  deriving DecidableEq

/-- One entry of the tool-call ledger. -/
structure ToolCallLedgerEntry where
  id : ToolCallLedgerId
  runId : RunId
  turnId : TurnId
  conversationId : ConversationId
  operatorId : OperatorId
  tenantId : TenantId
  projectId : ProjectId
  (toolCallId toolName argumentsHash idempotencyKeyHash : String)
  (permission budget : ToolCallDecision)
  intent : Json
  attemptCount : Nat
  resultRef : Option ObjectRef
  outcome : ToolCallOutcome
  costMinor : Option Int
  currency : Option String
  (createdAt updatedAt : DateTime)

/-- Request for one ledger entry. -/
structure RecordToolCall where
  runId : RunId
  (toolCallId toolName argumentsHash idempotencyKeyHash : String)
  (permission budget : ToolCallDecision)
  intent : Json
  attemptCount : Nat
  resultRef : Option ObjectRef
  outcome : ToolCallOutcome
  costMinor : Option Int
  currency : Option String

/-- Immutable identity of a tool invocation. -/
structure ToolCallIdentity where
  runId : RunId
  (toolCallId toolName argumentsHash idempotencyKeyHash : String)

namespace ToolCallIdentity

def fromRecord (input : RecordToolCall) : ToolCallIdentity :=
  { runId := input.runId
    toolCallId := input.toolCallId
    toolName := input.toolName
    argumentsHash := input.argumentsHash
    idempotencyKeyHash := input.idempotencyKeyHash }

def «matches» (identity : ToolCallIdentity) (entry : ToolCallLedgerEntry) : Bool :=
  identity.runId = entry.runId ∧ identity.toolCallId = entry.toolCallId ∧ identity.toolName = entry.toolName
    ∧ identity.argumentsHash = entry.argumentsHash ∧ identity.idempotencyKeyHash = entry.idempotencyKeyHash

end ToolCallIdentity

/-- A text of 1 to `limit` characters that is not blank. -/
def validateAgentText (limit : Nat) (field value : String) : Except AppError Unit :=
  failIf (isBlank value ∨ value.length > limit) (.invalidRequest s!"{field} must be between 1 and {limit} characters")

def validateAgentKey (field value : String) : Except AppError Unit :=
  validateAgentText 200 field value

def validateAgentDigest (field value : String) : Except AppError Unit :=
  validateAgentText 512 field value

def validateObjectRef : Option ObjectRef → Except AppError Unit
  | none => pure ()
  | some objectRef =>
    failIf (isBlank objectRef.objectId ∨ objectRef.objectId.length > 500)
      (.invalidRequest "object_id must be between 1 and 500 characters")

def validateToolCallIdentity (identity : ToolCallIdentity) : Except AppError Unit := do
  validateAgentKey "tool_call_id" identity.toolCallId
  validateAgentKey "tool_name" identity.toolName
  validateAgentDigest "arguments_hash" identity.argumentsHash
  validateAgentDigest "idempotency_key_hash" identity.idempotencyKeyHash

def validateToolCallWrite (input : RecordToolCall) : Except AppError Unit := do
  validateAgentKey "tool_call_id" input.toolCallId
  validateAgentKey "tool_name" input.toolName
  validateAgentDigest "arguments_hash" input.argumentsHash
  validateAgentDigest "idempotency_key_hash" input.idempotencyKeyHash
  validateObjectRef input.resultRef
  failIf (∃ currency ∈ input.currency, currency.length ≠ 3 ∨ ¬ currency.toList.all fun c => 'A' ≤ c ∧ c ≤ 'Z')
    (.invalidRequest "currency must be a three letter uppercase code")
  failIf (∃ cost ∈ input.costMinor, cost < 0) (.invalidRequest "cost_minor must not be negative")

def validateToolCallBegin (input : RecordToolCall) : Except AppError Unit := do
  validateToolCallWrite input
  failIf
    (input.outcome ≠ .intent ∨ input.attemptCount ≠ 0 ∨ input.resultRef.isSome
      ∨ input.costMinor.isSome ∨ input.currency.isSome)
    (.invalidRequest "tool call intent must not include an attempt, result, or cost")

def validateToolCallFinish (outcome : ToolCallOutcome) : Except AppError Unit :=
  failIf (¬ (outcome = .succeeded ∨ outcome = .failed ∨ outcome = .unknown))
    (.invalidRequest "tool call completion must be succeeded, failed, or unknown")

/-- A durable decision controls the only transition that authorizes a real invocation. -/
def validateToolCallAuthorized (entry : ToolCallLedgerEntry) : Except AppError Unit :=
  failIf (entry.permission ≠ .allowed ∨ entry.budget ≠ .allowed)
    (.forbidden "tool call permission or budget was denied")

/-! ### Messages -/

/-- The longest message body either repository will persist. -/
def maxMessageChars : Nat :=
  100000

structure CreateConversation where
  title : Option String

structure AppendMessage where
  content : String
  attachments : List AttachmentReference
  metadata : Json

structure SubmitAcceptance where
  conversation : Conversation
  message : Message
  turn : Turn
  run : AgentRun
  eventsUrl : String

/-- The attachment checks, in order; an id may not repeat an earlier one. -/
def checkAttachments (seen : List AttachmentId) : List AttachmentReference → Except AppError Unit
  | [] => pure ()
  | attachment :: rest => do
    failIf (attachment.attachmentId ∈ seen) (.invalidRequest "attachment IDs must be unique within a message")
    failIf (isBlank attachment.objectId ∨ attachment.objectId.length > 500)
      (.invalidRequest "attachment object_id must be between 1 and 500 characters")
    failIf (isBlank attachment.filename ∨ attachment.filename.length > 512)
      (.invalidRequest "attachment filename must be between 1 and 512 characters")
    failIf (∃ size ∈ attachment.sizeBytes, size > 100 * 1024 * 1024)
      (.invalidRequest "attachment size_bytes must be at most 100 MiB")
    checkAttachments (attachment.attachmentId :: seen) rest

/-- The trimmed content to persist of a user message. -/
def validateAppendMessage (input : AppendMessage) : Except AppError String := do
  let content := trim input.content
  failIf (content = "" ∧ input.attachments = [])
    (.invalidRequest "message content or at least one attachment is required")
  failIf (content.length > maxMessageChars)
    (.invalidRequest s!"message content must be at most {maxMessageChars} characters")
  failIf (input.attachments.length > 100) (.invalidRequest "a message may contain at most 100 attachments")
  checkAttachments [] input.attachments
  pure content

/-- The trimmed content to persist of an answer. -/
def validateMessageContent (content : String) : Except AppError String := do
  let content := trim content
  failIf (content = "") (.invalidRequest "message content must not be empty")
  failIf (content.length > maxMessageChars)
    (.invalidRequest s!"message content must be at most {maxMessageChars} characters")
  pure content

/-- The terminal outcome of one run. There is no success without an answer. -/
inductive RunCompletion where
  | succeeded (content : String) (metadata : Json)
  | failed (error : AppError)

/-- Everything one terminal transition wrote. -/
structure RunTransition where
  run : AgentRun
  turn : Turn
  message : Option Message

end GeoMaster
