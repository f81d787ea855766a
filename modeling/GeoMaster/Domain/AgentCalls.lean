import GeoMaster.Domain.AgentRepository
import GeoMaster.Lib.Calls

/-!
# Runs of the agent repository

Any call with any arguments in any order. Between two calls the maps that operations walk may be
rehashed, so nothing a run shows depends on the order in which a hash table is walked. What the
repository asks of the generator of identifiers, that a new one is not in use, is `FreshIds`.
-/

namespace GeoMaster

/-- A call, with its arguments. -/
inductive AgentCall where
  | createConversation (scope : TenantScope) (createdBy : Option UserId) (input : CreateConversation)
      (id : ConversationId) (now : DateTime) (stamp : EventStamp)
  | appendMessage (scope : TenantScope) (conversationId : ConversationId) (input : AppendMessage)
      (idempotencyKeyHash requestHash : String) (capability : RuntimeCapability)
      (fresh : MemoryAgentRepository.SubmissionInputs)
  | cancelTurn (scope : TenantScope) (turnId : TurnId) (now : DateTime) (stamp : EventStamp)
  | beginRun (scope : TenantScope) (runId : RunId) (now : DateTime) (stamp : EventStamp)
  | finishRun (scope : TenantScope) (runId : RunId) (completion : RunCompletion)
      (fresh : MemoryAgentRepository.FinishInputs)
  | reconcileRunningRuns (fresh : RunId → MemoryAgentRepository.AbandonInputs)
  | appendToolCall (scope : TenantScope) (input : RecordToolCall) (id : ToolCallLedgerId) (now : DateTime)
  | beginToolCall (scope : TenantScope) (input : RecordToolCall) (id : ToolCallLedgerId) (now : DateTime)
  | attemptToolCall (scope : TenantScope) (identity : ToolCallIdentity) (now : DateTime)
  | finishToolCall (scope : TenantScope) (identity : ToolCallIdentity) (outcome : ToolCallOutcome) (now : DateTime)

/-- What a call returns. -/
inductive AgentReply where
  | conversation (conversation : Conversation)
  | acceptance (acceptance : SubmitAcceptance)
  | run (run : AgentRun)
  | begun (run : Option AgentRun)
  | finished (transition : Option RunTransition)
  | reconciled (count : Nat)
  | entry (entry : ToolCallLedgerEntry)
  | attempted (granted : Bool)

namespace MemoryAgentRepository

/-- Give the result of an operation a reply. -/
def answer {α : Type} (f : α → AgentReply) (x : AgentOp α) : AgentOp AgentReply := do
  let a ← x
  pure (f a)

/-- What the repository does with a call. -/
def run : AgentCall → AgentOp AgentReply
  | .createConversation scope createdBy input id now stamp =>
    answer .conversation (createConversation scope createdBy input id now stamp)
  | .appendMessage scope conversationId input idempotencyKeyHash requestHash capability fresh =>
    answer .acceptance (appendMessage scope conversationId input idempotencyKeyHash requestHash capability fresh)
  | .cancelTurn scope turnId now stamp => answer .run (cancelTurn scope turnId now stamp)
  | .beginRun scope runId now stamp => answer .begun (beginRun scope runId now stamp)
  | .finishRun scope runId completion fresh => answer .finished (finishRun scope runId completion fresh)
  | .reconcileRunningRuns fresh => answer .reconciled (reconcileRunningRuns fresh)
  | .appendToolCall scope input id now => answer .entry (appendToolCall scope input id now)
  | .beginToolCall scope input id now => answer .entry (beginToolCall scope input id now)
  | .attemptToolCall scope identity now => answer .attempted (attemptToolCall scope identity now)
  | .finishToolCall scope identity outcome now => answer .entry (finishToolCall scope identity outcome now)

end MemoryAgentRepository

/-- The same entries in the maps that are walked, listed in some other order. -/
structure AgentState.Reordered (s s' : AgentState) : Prop where
  turns : AssocMap.SameEntries s.turns s'.turns
  runs : AssocMap.SameEntries s.runs s'.runs
  rest : s' = { s with turns := s'.turns, runs := s'.runs }

/-- A step of a run: a call with its reply or error, or a rehash. -/
abbrev AgentEvent : Type :=
  CallEvent AgentCall AppError AgentReply

/-- The repository as a machine. -/
def agentMachine : Machine AgentState AgentEvent :=
  callMachine MemoryAgentRepository.run AgentState.Reordered

/-- The identifiers a call draws name nothing the store already holds. -/
def FreshIds (s : AgentState) : AgentEvent → Prop
  | .call (.appendMessage _ _ _ _ _ _ fresh) _ =>
    s.turns.lookup fresh.turnId = none ∧ s.runs.lookup fresh.runId = none ∧ s.messages.lookup fresh.messageId = none
  | .call (.finishRun _ _ _ fresh) _ => s.messages.lookup fresh.messageId = none
  | _ => True

end GeoMaster
