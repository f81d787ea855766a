import GeoMaster.Domain.AgentCalls

/-!
# The input of a turn

`get_conversation` reads a conversation with its messages, turns and runs, and `turn_input` rebuilds
from them what one run needs: the message it answers, and the newest completed turns before it, as far
as they fit. Nothing here writes to the store.
-/

namespace GeoMaster

open Except

/-- `Uuid::parse_str`. -/
class UuidText where
  parse : String → Option Uuid

structure ConversationDetail where
  conversation : Conversation
  messages : List Message
  turns : List Turn
  runs : List AgentRun

/-- Durable text of an earlier message. -/
structure TurnHistoryMessage where
  messageId : MessageId
  role : MessageRole
  content : String
  rootMessageId : MessageId
  sequence : Nat

/-- What one turn needs in order to run. -/
structure TurnInput where
  conversationId : ConversationId
  messageId : MessageId
  turnId : TurnId
  runId : RunId
  prompt : String
  attachments : List AttachmentReference
  history : List TurnHistoryMessage
  historyOmittedTurns : Nat

def maxHistoryTurns : Nat :=
  20

def maxHistoryBytes : Nat :=
  128 * 1024

def Message.scope (message : Message) : TenantScope :=
  { operatorId := message.operatorId
    tenantId := message.tenantId
    projectId := some message.projectId }

/-- The text of a role in JSON. -/
def MessageRole.text : MessageRole → String
  | .user => "user"
  | .assistant => "assistant"
  | .system => "system"
  | .tool => "tool"

namespace TurnHistoryMessage

/-- The fields stand in the order in which the struct is written. -/
def toJson (message : TurnHistoryMessage) : Json :=
  .object
    [("message_id", .string message.messageId.asUuid.toString), ("role", .string message.role.text),
      ("content", .string message.content), ("root_message_id", .string message.rootMessageId.asUuid.toString),
      ("sequence", .ofNat message.sequence)]

end TurnHistoryMessage

/-- A history in JSON. -/
def historyJson (history : List TurnHistoryMessage) : Json :=
  .array (history.map TurnHistoryMessage.toJson)

/-- The one item that meets a condition, if there is exactly one. -/
def onlyOne {α : Type} (p : α → Bool) (items : List α) : Option α :=
  match items.filter p with
  | [item] => some item
  | _ => none

/-! ### The answer as it is shown again -/

/-- The plans an answer has recorded, each once and in order. -/
def measurementPlans [UuidText] (metadata : Json) : List Uuid :=
  let entries := ((metadata.get "measurement_plans").bind Json.asArray).getD []
  let ids := entries.filterMap fun entry => ((entry.get "plan_id").bind Json.asStr).bind UuidText.parse
  ((ids.filter fun id => ¬ id.isNil).dedup).insertionSort (· ≤ ·)

/-- One line for each plan, under a heading. -/
def planLines (plans : List Uuid) : String :=
  if plans = [] then ""
  else plans.foldl (fun text plan => text ++ s!"\nmeasurement_plan: {plan.toString}")
    "\n\n[Application measurement resources]"

/-- What a message is shown as: an answer names the plans it has recorded. -/
def historyContent [UuidText] (item : Message) : String :=
  if item.role = .assistant then item.content ++ planLines (measurementPlans item.metadata)
  else item.content

/-! ### The completed turns -/

namespace ConversationDetail

/-- The messages a turn began and ended with. -/
abbrev Pair : Type :=
  Message × Message

/-- The messages of a pair are of this conversation, and no other message has their identifiers. -/
def owns (detail : ConversationDetail) (item : Message) : Bool :=
  item.conversationId = detail.conversation.id ∧ item.scope = detail.conversation.scope
    ∧ detail.messages.countP (fun other => other.id = item.id) = 1

/-- The question and the answer of a turn that has been completed before a message. -/
def completedPair (detail : ConversationDetail) (currentTurnId : TurnId) (beforeSequence : Nat)
    (turn : Turn) : Option Pair := do
  guard
    (turn.id ≠ currentTurnId ∧ turn.conversationId = detail.conversation.id
      ∧ turn.status = .succeeded ∧ detail.turns.countP (fun other => other.id = turn.id) = 1)
  let run ← onlyOne (fun run => some run.id = turn.runId) detail.runs
  guard
    (run.turnId = turn.id ∧ run.conversationId = detail.conversation.id
      ∧ run.scope = detail.conversation.scope ∧ run.status = .succeeded)
  let root ← onlyOne (fun item => item.id = turn.rootMessageId) detail.messages
  let answer ← onlyOne (fun item => item.turnId = some turn.id ∧ item.role = .assistant) detail.messages
  guard
    (root.role = .user ∧ root.turnId = some turn.id ∧ answer.id ≠ root.id
      ∧ root.sequence < answer.sequence ∧ answer.sequence < beforeSequence
      ∧ Text.isBlank answer.content = false ∧ detail.owns root ∧ detail.owns answer)
  pure (root, answer)

/-- Pairs are ordered by the number and the identifier of their questions. -/
def pairLe (pair other : Pair) : Prop :=
  pair.1.sequence < other.1.sequence ∨ pair.1.sequence = other.1.sequence ∧ pair.1.id.asUuid ≤ other.1.id.asUuid

instance (pair other : Pair) : Decidable (pairLe pair other) :=
  inferInstanceAs (Decidable (_ ∨ _))

/-- From the newest pair back: one that ends after the next one begins is left out. -/
def keepOrdered (nextRootSequence : Nat) : List Pair → List Pair
  | [] => []
  | pair :: older =>
    if pair.2.sequence < nextRootSequence then pair :: keepOrdered pair.1.sequence older
    else keepOrdered pair.1.sequence older

/-- The pairs before a message, the newest first. -/
def completedPairs (detail : ConversationDetail) (currentTurnId : TurnId) (beforeSequence : Nat) : List Pair :=
  let pairs := detail.turns.filterMap (detail.completedPair currentTurnId beforeSequence)
  keepOrdered beforeSequence (pairs.insertionSort pairLe).reverse

variable [UuidText]

/-- A message of a pair, as it is shown again. -/
def historyMessage (pair : Pair) (item : Message) : TurnHistoryMessage :=
  { messageId := item.id
    role := item.role
    content := historyContent item
    rootMessageId := pair.1.id
    sequence := item.sequence }

/-- The two messages of a pair. -/
def pairMessages (pair : Pair) : List TurnHistoryMessage :=
  [historyMessage pair pair.1, historyMessage pair pair.2]

/-- Put pairs in front, the newest first, up to the first that makes the history too large. -/
def fillHistory (history : List TurnHistoryMessage) : List Pair → List TurnHistoryMessage
  | [] => history
  | pair :: older =>
    let longer := pairMessages pair ++ history
    if (historyJson longer).toVecLen > maxHistoryBytes then history else fillHistory longer older

def completedHistory (detail : ConversationDetail) (currentTurnId : TurnId) (beforeSequence : Nat) :
    List TurnHistoryMessage × Nat :=
  let pairs := detail.completedPairs currentTurnId beforeSequence
  let history := fillHistory [] (pairs.take maxHistoryTurns)
  (history, pairs.length - history.length / 2)

def turnInput (detail : ConversationDetail) (runId : RunId) : Except AppError TurnInput := do
  let run ← okOr
    (detail.runs.find? fun run =>
      run.id = runId ∧ run.conversationId = detail.conversation.id
        ∧ run.scope = detail.conversation.scope)
    (.notFound "run not found in conversation")
  let turn ← okOr
    (detail.turns.find? fun turn =>
      turn.id = run.turnId ∧ turn.runId = some run.id
        ∧ turn.conversationId = detail.conversation.id)
    (.notFound "run turn not found")
  let message ← okOr
    (detail.messages.find? fun message =>
      message.id = turn.rootMessageId ∧ message.conversationId = detail.conversation.id ∧ message.turnId = some turn.id
        ∧ message.role = .user ∧ message.scope = detail.conversation.scope)
    (.notFound "run input message not found")
  let completed := detail.completedHistory turn.id message.sequence
  pure
    { conversationId := detail.conversation.id
      messageId := message.id
      turnId := turn.id
      runId := run.id
      prompt := message.content
      attachments := message.attachments
      history := completed.1
      historyOmittedTurns := completed.2 }

end ConversationDetail

namespace MemoryAgentRepository

/-- A conversation with everything in it. Turns and runs created at the same time stand in the order in
which the store lists them. -/
def getConversation (s : AgentState) (scope : TenantScope) (id : ConversationId) : Option ConversationDetail :=
  ((s.conversations.lookup id).filter fun conversation => scope.contains conversation.scope).map
    fun conversation =>
      { conversation
        messages := ((AssocMap.values s.messages).filter fun message =>
          message.conversationId = id).insertionSort fun a b => a.sequence ≤ b.sequence
        turns := (turnsOf s id).insertionSort fun a b => a.createdAt ≤ b.createdAt
        runs := ((AssocMap.values s.runs).filter fun run =>
          run.conversationId = id).insertionSort fun a b => a.createdAt ≤ b.createdAt }

end MemoryAgentRepository

end GeoMaster
