import GeoMaster.Domain.Agent
import GeoMaster.Lib.AssocMap

/-!
# The memory repository of the agent

`MemoryAgentRepository` keeps conversations with their messages, turns and runs, the events each
conversation has seen, and the ledger of tool calls. An operation holds the one lock of the store for
its whole body. The clock and the new identifiers an operation draws are arguments here; checkpoints
are left out.
-/

namespace GeoMaster

structure AgentState where
  conversations : AssocMap ConversationId Conversation
  messages : AssocMap MessageId Message
  turns : AssocMap TurnId Turn
  runs : AssocMap RunId AgentRun
  events : AssocMap ConversationId (List ConversationEvent)
  (nextMessageSequence nextEventSequence : AssocMap ConversationId Nat)
  idempotentSubmissions : AssocMap (String × ConversationId) (String × SubmitAcceptance)
  toolCalls : AssocMap (RunId × String) ToolCallLedgerEntry

namespace AgentState

def default : AgentState where
  conversations := ∅
  messages := ∅
  turns := ∅
  runs := ∅
  events := ∅
  nextMessageSequence := ∅
  nextEventSequence := ∅
  idempotentSubmissions := ∅
  toolCalls := ∅

/-- The counter of a conversation after one more entry. -/
def nextSequence (counters : AssocMap ConversationId Nat) (id : ConversationId) : Nat :=
  match counters.lookup id with
  | some sequence => sequence + 1
  | none => 1

def insertConversation (conversation : Conversation) (s : AgentState) : AgentState :=
  { s with conversations := s.conversations.insert conversation.id conversation }

def insertTurn (turn : Turn) (s : AgentState) : AgentState :=
  { s with turns := s.turns.insert turn.id turn }

def insertRun (run : AgentRun) (s : AgentState) : AgentState :=
  { s with runs := s.runs.insert run.id run }

/-- Store a message and count it. -/
def insertMessage (message : Message) (s : AgentState) : AgentState :=
  { s with
    messages := s.messages.insert message.id message
    nextMessageSequence := s.nextMessageSequence.insert message.conversationId message.sequence }

def insertToolCall (entry : ToolCallLedgerEntry) (s : AgentState) : AgentState :=
  { s with toolCalls := s.toolCalls.insert (entry.runId, entry.toolCallId) entry }

end AgentState

/-- The identifier and the instant of an event. -/
structure EventStamp where
  id : ConversationEventId
  occurredAt : DateTime

abbrev AgentOp (α : Type) : Type :=
  Op AgentState AppError α

namespace MemoryAgentRepository

open Op (read modify throw failIf okOr lift)
open AgentState (nextSequence)

variable (scope : TenantScope) (conversationId : ConversationId) (conversation : Conversation) (runId : RunId)

def emit (eventType : String) (turnId : Option TurnId)
    (runId : Option RunId) (payload : EventPayload) (stamp : EventStamp) : AgentOp Unit :=
  modify fun s =>
    let next := nextSequence s.nextEventSequence conversation.id
    let event : ConversationEvent :=
      { id := stamp.id
        conversationId := conversation.id
        operatorId := conversation.operatorId
        tenantId := conversation.tenantId
        projectId := conversation.projectId
        sequence := next
        eventType
        turnId
        runId
        payload
        occurredAt := stamp.occurredAt }
    { s with
      nextEventSequence := s.nextEventSequence.insert conversation.id next
      events := s.events.insert conversation.id
        ((s.events.lookup conversation.id).getD [] ++ [event]) }

/-- The conversation a caller may see. -/
def visible (id : ConversationId) : AgentOp Conversation := do
  let found ← read fun s => (s.conversations.lookup id).filter fun conversation => scope.contains conversation.scope
  okOr found (.notFound "conversation not found")

/-- The run a caller may see. -/
def findRun : AgentOp (Option AgentRun) :=
  read fun s => (s.runs.lookup runId).filter fun run => scope.contains run.scope

def visibleRun : AgentOp AgentRun := do
  let found ← findRun scope runId
  okOr found (.notFound "run not found")

def storedConversation (id : ConversationId) : AgentOp Conversation := do
  let found ← read fun s => s.conversations.lookup id
  okOr found (.notFound "conversation not found")

/-! ### Conversations and messages -/

def createConversation (createdBy : Option UserId) (input : CreateConversation)
    (id : ConversationId) (now : DateTime) (stamp : EventStamp) : AgentOp Conversation := do
  let projectId ← okOr scope.projectId (.invalidRequest "project selector is required")
  let title := (input.title.map Text.trim).filter (· ≠ "")
  failIf (∃ t ∈ title, t.length > 200) (.invalidRequest "conversation title must be at most 200 characters")
  let conversation : Conversation :=
    { id
      operatorId := scope.operatorId
      tenantId := scope.tenantId
      projectId
      createdBy
      title
      status := .active
      revision := 1
      createdAt := now
      updatedAt := now }
  modify (AgentState.insertConversation conversation)
  emit conversation "conversation.created" none none (.conversation id) stamp
  pure conversation

/-- What `append_message` draws from outside: new identifiers, and the clock each time it is read. -/
structure SubmissionInputs where
  turnId : TurnId
  runId : RunId
  messageId : MessageId
  (now failedAt : DateTime)
  (created accepted failed : EventStamp)

/-- The turns of a conversation. -/
def turnsOf (s : AgentState) (id : ConversationId) : List Turn :=
  (AssocMap.values s.turns).filter fun turn => turn.conversationId = id

/-- `max_by_key(|turn| turn.created_at)`: of equally late turns the last one. -/
def latest : List Turn → Option Turn
  | [] => none
  | turn :: rest =>
    match latest rest with
    | none => some turn
    | some later => if turn.createdAt ≤ later.createdAt then some later else some turn

/-- A turn that no runtime can take is failed as soon as it is accepted. -/
def failUnavailable (capability : RuntimeCapability) (turn : Turn)
    (run : AgentRun) (failedAt : DateTime) (stamp : EventStamp) : AgentOp (Turn × AgentRun) := do
  if capability.isAvailable then pure (turn, run)
  else do
    let error := AppError.capabilityMissing (capability.reason.getD "agent runtime is unavailable")
    let turn := { turn with status := .failed, updatedAt := failedAt }
    let run := { run with status := .failed, error := some error, updatedAt := failedAt }
    modify (AgentState.insertTurn turn)
    modify (AgentState.insertRun run)
    emit conversation "run.failed" (some turn.id) (some run.id) (.failure run.id run.status error)
      stamp
    pure (turn, run)

/-- The user message of a submission. -/
def userMessage (content : String) (input : AppendMessage) (sequence : Nat) (fresh : SubmissionInputs) : Message :=
  { id := fresh.messageId
    conversationId
    operatorId := conversation.operatorId
    tenantId := conversation.tenantId
    projectId := conversation.projectId
    turnId := some fresh.turnId
    role := .user
    content
    attachments := input.attachments
    metadata := input.metadata
    sequence
    createdAt := fresh.now }

/-- The turn of a submission. -/
def queuedTurn (previousTurnId : Option TurnId) (fresh : SubmissionInputs) : Turn :=
  { id := fresh.turnId
    conversationId
    rootMessageId := fresh.messageId
    previousTurnId
    runId := some fresh.runId
    status := .queued
    cancelVersion := 0
    createdAt := fresh.now
    updatedAt := fresh.now }

/-- The run of a submission. -/
def queuedRun (capability : RuntimeCapability) (fresh : SubmissionInputs) : AgentRun :=
  { id := fresh.runId
    conversationId
    turnId := fresh.turnId
    operatorId := conversation.operatorId
    tenantId := conversation.tenantId
    projectId := conversation.projectId
    status := .queued
    capability
    error := none
    cancelVersion := 0
    createdAt := fresh.now
    updatedAt := fresh.now }

/-- `append_message` behind its checks: the message, its turn and its run. -/
def submit (content : String) (input : AppendMessage) (idemKey : String × ConversationId) (requestHash : String)
    (capability : RuntimeCapability) (fresh : SubmissionInputs) : AgentOp SubmitAcceptance := do
  let previousTurnId ← read fun s => (latest (turnsOf s conversationId)).map (·.id)
  let sequence ← read fun s => nextSequence s.nextMessageSequence conversationId
  let conversation :=
    { conversation with revision := conversation.revision + 1, updatedAt := fresh.now }
  modify (AgentState.insertConversation conversation)
  let message := userMessage conversationId conversation content input sequence fresh
  let turn := queuedTurn conversationId previousTurnId fresh
  let run := queuedRun conversationId conversation capability fresh
  modify (AgentState.insertMessage message)
  modify (AgentState.insertTurn turn)
  modify (AgentState.insertRun run)
  emit conversation "message.created" (some turn.id) (some run.id) (.message message) fresh.created
  emit conversation "turn.accepted" (some turn.id) (some run.id) (.accepted turn.id run.id)
    fresh.accepted
  let (turn, run) ← failUnavailable conversation capability turn run fresh.failedAt fresh.failed
  let acceptance : SubmitAcceptance :=
    { conversation
      message
      turn
      run
      eventsUrl := s!"/api/v1/agent/conversations/{conversation.id.asUuid.toString}/events" }
  modify fun s =>
    { s with
      idempotentSubmissions := s.idempotentSubmissions.insert idemKey (requestHash, acceptance) }
  pure acceptance

def appendMessage (input : AppendMessage) (idempotencyKeyHash requestHash : String) (capability : RuntimeCapability)
    (fresh : SubmissionInputs) : AgentOp SubmitAcceptance := do
  let content ← lift (validateAppendMessage input)
  let conversation ← visible scope conversationId
  let replay ← read fun s => s.idempotentSubmissions.lookup (idempotencyKeyHash, conversationId)
  match replay with
  | some (existingHash, existing) => do
    failIf (existingHash ≠ requestHash) (.conflict "Idempotency-Key was already used with a different message request")
    pure existing
  | none => do
    failIf (conversation.status ≠ .active) (.conflict "conversation is archived")
    let active ← read fun s => (turnsOf s conversationId).any (·.status.isActive)
    failIf (active = true) (.conflict "conversation already has an active turn")
    submit conversationId conversation content input (idempotencyKeyHash, conversationId) requestHash capability fresh

/-! ### Turns and runs -/

/-- A turn and its run are cancelled; a run that has ended is returned as it is. -/
def cancelTurn (turnId : TurnId) (now : DateTime) (stamp : EventStamp) : AgentOp AgentRun := do
  let turn? ← read fun s => s.turns.lookup turnId
  let turn ← okOr turn? (.notFound "turn not found")
  let runId ← okOr turn.runId (.notFound "run not found")
  let run? ← read fun s => s.runs.lookup runId
  let run ← okOr run? (.notFound "run not found")
  failIf (scope.contains run.scope = false) (.notFound "turn not found")
  if run.status.isTerminal then pure run
  else do
    let conversation ← storedConversation turn.conversationId
    let turn :=
      { turn with status := .cancelled, cancelVersion := turn.cancelVersion + 1, updatedAt := now }
    let run :=
      { run with status := .cancelled, cancelVersion := turn.cancelVersion, updatedAt := now }
    modify (AgentState.insertTurn turn)
    modify (AgentState.insertRun run)
    emit conversation "run.cancelled" (some turn.id) (some run.id) (.cancelled run.id run.cancelVersion) stamp
    pure run

/-- The turn of a claimed run follows it, when it is still queued. -/
def startTurn (turnId : TurnId) (now : DateTime) (s : AgentState) : AgentState :=
  { s with
    turns := AssocMap.modify turnId
      (fun turn =>
        if turn.status = .queued then { turn with status := .running, updatedAt := now } else turn)
      s.turns }

def beginRun (now : DateTime) (stamp : EventStamp) : AgentOp (Option AgentRun) := do
  let found ← findRun scope runId
  match found with
  | none => pure none
  | some run =>
    if run.status ≠ .queued then pure none
    else do
      let conversation ← storedConversation run.conversationId
      let claimed := { run with status := .running, updatedAt := now }
      modify (AgentState.insertRun claimed)
      modify (startTurn claimed.turnId now)
      emit conversation "run.running" (some claimed.turnId) (some claimed.id)
        (.status claimed.id claimed.status) stamp
      pure (some claimed)

/-- What `finish_run` draws from outside. -/
structure FinishInputs where
  messageId : MessageId
  now : DateTime
  (created finished : EventStamp)

/-- An answer that cannot be stored is a failed run, never a truncated one. -/
def RunCompletion.outcome : RunCompletion → Except AppError (String × Json)
  | .succeeded content metadata => do
    let content ← validateMessageContent content
    pure (content, metadata)
  | .failed error => .error error

/-- The message an answer is stored as. -/
def assistantMessage (turnId : TurnId) (content : String)
    (metadata : Json) (sequence : Nat) (fresh : FinishInputs) : Message :=
  { id := fresh.messageId
    conversationId := conversation.id
    operatorId := conversation.operatorId
    tenantId := conversation.tenantId
    projectId := conversation.projectId
    turnId := some turnId
    role := .assistant
    content
    attachments := []
    metadata
    sequence
    createdAt := fresh.now }

/-- The run and its turn enter their terminal status. -/
def enterTerminal (turn : Turn) (run : AgentRun) : AgentOp Unit := do
  modify (AgentState.insertRun run)
  modify (AgentState.insertTurn turn)
  modify (AgentState.insertConversation conversation)

def finishRun (completion : RunCompletion) (fresh : FinishInputs) : AgentOp (Option RunTransition) := do
  let found ← findRun scope runId
  match found with
  | none => pure none
  | some run =>
    -- A cancellation that landed while the turn was executing outranks the completion.
    if run.status ≠ .running then pure none
    else do
      let conversation ← storedConversation run.conversationId
      let turn? ← read fun s => s.turns.lookup run.turnId
      let turn ← okOr turn? (.notFound "turn not found")
      let next := { conversation with revision := conversation.revision + 1, updatedAt := fresh.now }
      match RunCompletion.outcome completion with
      | .ok (content, metadata) => do
        let sequence ← read fun s => nextSequence s.nextMessageSequence conversation.id
        let message := assistantMessage conversation run.turnId content metadata sequence fresh
        let finished := { run with status := .succeeded, error := none, updatedAt := fresh.now }
        let turn := { turn with status := .succeeded, updatedAt := fresh.now }
        enterTerminal next turn finished
        modify (AgentState.insertMessage message)
        emit next "message.created" (some turn.id) (some finished.id) (.message message) fresh.created
        emit next "run.succeeded" (some turn.id) (some finished.id)
          (.status finished.id finished.status) fresh.finished
        pure (some { run := finished, turn, message := some message })
      | .error error => do
        let finished := { run with status := .failed, error := some error, updatedAt := fresh.now }
        let turn := { turn with status := .failed, updatedAt := fresh.now }
        enterTerminal next turn finished
        emit next "run.failed" (some turn.id) (some finished.id)
          (.failure finished.id finished.status error) fresh.finished
        pure (some { run := finished, turn, message := none })

/-- The instant and the event of one abandoned run. -/
structure AbandonInputs where
  now : DateTime
  failed : EventStamp

/-- The turn of an abandoned run fails with it, when it is still active. -/
def failTurn (turn : Turn) (now : DateTime) (s : AgentState) : AgentState :=
  if turn.status.isActive then
    s.insertTurn { turn with status := .failed, updatedAt := now }
  else s

/-- The error of an abandoned run. -/
def abandonment : AppError :=
  .new .dependencyUnavailable "run was abandoned when the single-process executor restarted"

/-- An abandoned run. -/
def abandonedRun (run : AgentRun) (now : DateTime) : AgentRun :=
  { run with status := .failed, error := some abandonment, updatedAt := now }

/-- One pass of `reconcile_running_runs`: a run whose records are incomplete is left alone. -/
def abandonRun (fresh : AbandonInputs) : AgentOp Nat := do
  let run? ← read fun s => s.runs.lookup runId
  let conversation? ← read fun s => run?.bind fun run => s.conversations.lookup run.conversationId
  let turn? ← read fun s => run?.bind fun run => s.turns.lookup run.turnId
  match run?, conversation?, turn? with
  | some run, some conversation, some turn => do
    let run := abandonedRun run fresh.now
    let conversation :=
      { conversation with revision := conversation.revision + 1, updatedAt := fresh.now }
    modify (failTurn turn fresh.now)
    modify (AgentState.insertRun run)
    modify (AgentState.insertConversation conversation)
    emit conversation "run.failed" (some run.turnId) (some run.id)
      (.abandoned run.id run.status abandonment "process_restart") fresh.failed
    pure 1
  | _, _, _ => pure 0

def abandonRuns (fresh : RunId → AbandonInputs) : List RunId → AgentOp Nat
  | [] => pure 0
  | runId :: rest => do
    let one ← abandonRun runId (fresh runId)
    let others ← abandonRuns fresh rest
    pure (one + others)

def runningRuns (s : AgentState) : List RunId :=
  ((AssocMap.values s.runs).filter fun run => run.status = .running).map (·.id)

/-- The whole state is the boundary of the abandoned process, whatever the tenant. -/
def reconcileRunningRuns (fresh : RunId → AbandonInputs) : AgentOp Nat := do
  let runIds ← read runningRuns
  abandonRuns fresh runIds

/-! ### The ledger of tool calls -/

/-- The entry that a caller names by its run and its tool call. -/
def toolCall (toolCallId : String) : AgentOp (Option ToolCallLedgerEntry) :=
  read fun s => s.toolCalls.lookup (runId, toolCallId)

/-- The entry that `append_tool_call` records. -/
def recordedEntry (run : AgentRun) (input : RecordToolCall) (id : ToolCallLedgerId)
    (now : DateTime) : ToolCallLedgerEntry :=
  { id
    runId := run.id
    turnId := run.turnId
    conversationId := run.conversationId
    operatorId := run.operatorId
    tenantId := run.tenantId
    projectId := run.projectId
    toolCallId := input.toolCallId
    toolName := input.toolName
    argumentsHash := input.argumentsHash
    idempotencyKeyHash := input.idempotencyKeyHash
    permission := input.permission
    budget := input.budget
    intent := input.intent
    attemptCount := input.attemptCount
    resultRef := input.resultRef
    outcome := input.outcome
    costMinor := input.costMinor
    currency := input.currency
    createdAt := now
    updatedAt := now }

def appendToolCall (input : RecordToolCall) (id : ToolCallLedgerId) (now : DateTime) : AgentOp ToolCallLedgerEntry := do
  lift (validateToolCallWrite input)
  let run ← visibleRun scope input.runId
  let existing? ← toolCall run.id input.toolCallId
  match existing? with
  | some existing => do
    failIf (existing.argumentsHash ≠ input.argumentsHash ∨ existing.idempotencyKeyHash ≠ input.idempotencyKeyHash)
      (.conflict "tool call was already recorded with different arguments")
    pure existing
  | none => do
    let entry := recordedEntry run input id now
    modify (AgentState.insertToolCall entry)
    pure entry

def beginToolCall (input : RecordToolCall) (id : ToolCallLedgerId) (now : DateTime) : AgentOp ToolCallLedgerEntry := do
  lift (validateToolCallBegin input)
  let run ← visibleRun scope input.runId
  let existing? ← toolCall run.id input.toolCallId
  match existing? with
  | some existing => do
    failIf
      ((ToolCallIdentity.fromRecord input).matches existing = false ∨ existing.permission ≠ input.permission
        ∨ existing.budget ≠ input.budget
        ∨ existing.intent ≠ input.intent
        ∨ existing.attemptCount > 1
        ∨ existing.resultRef.isSome
        ∨ existing.costMinor.isSome
        ∨ existing.currency.isSome)
      (.conflict "tool call intent conflicts with its ledger")
    pure existing
  | none => do
    failIf (run.status ≠ .running) (.conflict "run is not running")
    let entry :=
      { recordedEntry run input id now with
        attemptCount := 0
        resultRef := none
        outcome := .intent
        costMinor := none
        currency := none }
    modify (AgentState.insertToolCall entry)
    pure entry

def attemptToolCall (identity : ToolCallIdentity) (now : DateTime) : AgentOp Bool := do
  lift (validateToolCallIdentity identity)
  let run ← visibleRun scope identity.runId
  let found ← toolCall run.id identity.toolCallId
  let entry ← okOr found (.notFound "tool call not found")
  failIf (identity.matches entry = false) (.conflict "tool call identity conflicts with its ledger")
  if entry.outcome ≠ .intent then pure false
  else do
    failIf (entry.attemptCount ≠ 0) (.conflict "tool call attempt state is inconsistent")
    lift (validateToolCallAuthorized entry)
    failIf (run.status ≠ .running) (.conflict "run is not running")
    let attempted := { entry with outcome := .attempted, attemptCount := 1, updatedAt := now }
    modify fun s =>
      { s with toolCalls := s.toolCalls.insert (run.id, identity.toolCallId) attempted }
    pure true

def finishToolCall (identity : ToolCallIdentity) (outcome : ToolCallOutcome)
    (now : DateTime) : AgentOp ToolCallLedgerEntry := do
  lift (validateToolCallIdentity identity)
  lift (validateToolCallFinish outcome)
  let run ← visibleRun scope identity.runId
  let found ← toolCall run.id identity.toolCallId
  let entry ← okOr found (.notFound "tool call not found")
  failIf (identity.matches entry = false) (.conflict "tool call identity conflicts with its ledger")
  if entry.outcome = outcome ∧ entry.attemptCount = 1 then pure entry
  else do
    failIf (entry.outcome ≠ .attempted ∨ entry.attemptCount ≠ 1)
      (.conflict "tool call cannot change its recorded outcome")
    let finished := { entry with outcome, updatedAt := now }
    modify fun s =>
      { s with toolCalls := s.toolCalls.insert (run.id, identity.toolCallId) finished }
    pure finished

end MemoryAgentRepository

end GeoMaster
