import GeoMaster.Domain.AgentCalls

/-!
# What a call does to turns, runs and messages

Six operations write turns, runs and messages, and all they ever do is one of three things: accept a
turn with its run and its user message, move a run and its turn to a status without an answer, or end
both with an answer. `RunEffect` says which, with everything the operation has checked, and every
later fact about runs is a case analysis over it.
-/

namespace GeoMaster

open Op Except AssocMap List Option AgentState

open MemoryAgentRepository

/-- The status of the turn behind a run. -/
def RunStatus.turnStatus : RunStatus → TurnStatus
  | .queued => .queued
  | .running => .running
  | .succeeded => .succeeded
  | .failed => .failed
  | .cancelled => .cancelled

@[simp]
theorem RunStatus.turnStatus_isActive (status : RunStatus) : status.turnStatus.isActive = !status.isTerminal := by
  cases status <;> rfl

/-- The run without what its lifecycle changes. -/
structure SameRun (run run' : AgentRun) : Prop where
  id : run'.id = run.id
  conversationId : run'.conversationId = run.conversationId
  turnId : run'.turnId = run.turnId
  scope : run'.scope = run.scope

/-- The turn without what its lifecycle changes. -/
structure SameTurn (turn turn' : Turn) : Prop where
  id : turn'.id = turn.id
  conversationId : turn'.conversationId = turn.conversationId
  runId : turn'.runId = turn.runId

/-- The turns, the runs and the messages. -/
structure SameRuns (s s' : AgentState) : Prop where
  turns : ∀ k, s'.turns.lookup k = s.turns.lookup k
  runs : ∀ k, s'.runs.lookup k = s.runs.lookup k
  messages : ∀ k, s'.messages.lookup k = s.messages.lookup k
  sequences : ∀ k, s'.nextMessageSequence.lookup k = s.nextMessageSequence.lookup k

theorem SameRuns.refl (s : AgentState) : SameRuns s s :=
  ⟨fun _ => rfl, fun _ => rfl, fun _ => rfl, fun _ => rfl⟩

/-- Message `message` is stored and counted; the others stay. -/
structure Posted (s : AgentState) (message : Message) (s' : AgentState) : Prop where
  fresh : s.messages.lookup message.id = none
  messages : ∀ k, s'.messages.lookup k = if k = message.id then some message else s.messages.lookup k
  sequences : ∀ k, s'.nextMessageSequence.lookup k
    = if k = message.conversationId then some message.sequence else s.nextMessageSequence.lookup k
  sequence : message.sequence = nextSequence s.nextMessageSequence message.conversationId

/-- One turn and one run are written; the others stay. -/
structure Written (s : AgentState) (turn : Turn) (run : AgentRun) (s' : AgentState) : Prop where
  turns : ∀ k, s'.turns.lookup k = if k = turn.id then some turn else s.turns.lookup k
  runs : ∀ k, s'.runs.lookup k = if k = run.id then some run else s.runs.lookup k

/-- A turn and its run refer to each other and agree on their status. -/
structure Paired (turn : Turn) (run : AgentRun) : Prop where
  turnId : run.turnId = turn.id
  runId : turn.runId = some run.id
  conversationId : run.conversationId = turn.conversationId
  status : turn.status = run.status.turnStatus

/-- A new turn, its run and its message, in a conversation whose turns have all ended. -/
structure Submitted (s : AgentState) (turn : Turn) (run : AgentRun) (message : Message) (s' : AgentState) : Prop where
  newTurn : s.turns.lookup turn.id = none
  newRun : s.runs.lookup run.id = none
  written : Written s turn run s'
  posted : Posted s message s'
  paired : Paired turn run
  conversationId : message.conversationId = turn.conversationId
  role : message.role = .user
  turnId : message.turnId = some turn.id
  unanswered : run.status ≠ .succeeded
  ended : ∀ k t, s.turns.lookup k = some t → t.conversationId = turn.conversationId → t.status.isActive = false

/-- A stored turn and its stored run, before and after. -/
structure Moved (s : AgentState) (turn turn' : Turn) (run run' : AgentRun) (s' : AgentState) : Prop where
  storedTurn : s.turns.lookup turn.id = some turn
  storedRun : s.runs.lookup run.id = some run
  turnId : run.turnId = turn.id
  sameTurn : SameTurn turn turn'
  sameRun : SameRun run run'
  live : run.status.isTerminal = false
  requeued : run'.status ≠ .queued
  status : turn'.status = run'.status.turnStatus
  written : Written s turn' run' s'

/-- An answer that may be stored. -/
structure Answers (message : Message) (turn : Turn) : Prop where
  role : message.role = .assistant
  turnId : message.turnId = some turn.id
  conversationId : message.conversationId = turn.conversationId
  content : ∃ text, message.content = Text.trim text
  nonempty : message.content ≠ ""
  length : message.content.length ≤ maxMessageChars

/-- What a step does to turns, runs and messages. -/
inductive RunEffect (s s' : AgentState) : Prop where
  | same (h : SameRuns s s')
  | submitted (turn : Turn) (run : AgentRun) (message : Message) (h : Submitted s turn run message s')
  | moved (turn turn' : Turn) (run run' : AgentRun) (h : Moved s turn turn' run run' s')
      (unanswered : run'.status ≠ .succeeded) (messages : ∀ k, s'.messages.lookup k = s.messages.lookup k)
      (sequences : ∀ k, s'.nextMessageSequence.lookup k = s.nextMessageSequence.lookup k)
  | answered (turn turn' : Turn) (run run' : AgentRun) (message : Message) (h : Moved s turn turn' run run' s')
      (status : run'.status = .succeeded) (posted : Posted s message s') (answers : Answers message turn)

/-- Turns and runs sit under their identifiers and come in pairs. -/
structure Pairs (s : AgentState) : Prop where
  turnKey : ∀ k turn, s.turns.lookup k = some turn → turn.id = k
  runKey : ∀ k run, s.runs.lookup k = some run → run.id = k
  runOf : ∀ k turn, s.turns.lookup k = some turn → ∃ run, s.runs.lookup run.id = some run ∧ Paired turn run
  turnOf : ∀ k run, s.runs.lookup k = some run → ∃ turn, s.turns.lookup run.turnId = some turn ∧ Paired turn run

/-- Conversations sit under their identifiers. -/
def ConversationsKeyed (s : AgentState) : Prop :=
  ∀ k conversation, s.conversations.lookup k = some conversation → conversation.id = k

section Returns

variable {s s' : AgentState}

variable {capability : RuntimeCapability} {conversation : Conversation} {now : DateTime} {run : AgentRun}
  {runId : RunId} {scope : TenantScope} {stamp : EventStamp} {turn : Turn}

/-- An event changes no turn, run, message or conversation. -/
theorem returns_emit {eventType : String} {turnId : Option TurnId} {runId : Option RunId} {payload : EventPayload}
    {u : Unit} (h : Op.Returns (emit conversation eventType turnId runId payload stamp) s u s') :
    s'.turns = s.turns ∧ s'.runs = s.runs ∧ s'.messages = s.messages ∧ s'.nextMessageSequence = s.nextMessageSequence
      ∧ s'.conversations = s.conversations ∧ s'.toolCalls = s.toolCalls := by
  rw [emit, returns_modify] at h
  subst h
  exact ⟨rfl, rfl, rfl, rfl, rfl, rfl⟩

variable {id conversationId : ConversationId} {turn' : Turn} {run' : AgentRun} {failedAt : DateTime} {s₁ : AgentState}
  {input : AppendMessage} {content requestHash : String} {fresh : SubmissionInputs} {acceptance : SubmitAcceptance}
  {turnId : TurnId} {begun : Option AgentRun} {completion : RunCompletion}

theorem returns_storedConversation :
    Op.Returns (storedConversation id) s conversation s' ↔ s.conversations.lookup id = some conversation ∧ s = s' := by
  simp [storedConversation]

theorem returns_findRun {found : Option AgentRun} :
    Op.Returns (findRun scope runId) s found s'
      ↔ (s.runs.lookup runId).filter (fun run => scope.contains run.scope) = found ∧ s = s' := by
  simp [findRun]

theorem createConversation_effect {createdBy : Option UserId} {input : CreateConversation}
    (h : Op.Returns (createConversation scope createdBy input id now stamp) s conversation s') : RunEffect s s' := by
  simp only [createConversation, returns_iff] at h
  obtain ⟨_, _, ⟨-, rfl⟩, _, _, ⟨-, rfl⟩, _, _, rfl, _, _, hemit, -, rfl⟩ := h
  obtain ⟨hturns, hruns, hmessages, hsequences, -⟩ := returns_emit hemit
  refine .same ⟨fun k => ?_, fun k => ?_, fun k => ?_, fun k => ?_⟩
  · rw [hturns]; rfl
  · rw [hruns]; rfl
  · rw [hmessages]; rfl
  · rw [hsequences]; rfl

/-- The turn and the run that `append_message` ends with. -/
theorem failUnavailable_written (hpaired : Paired turn run)
    (hunanswered : run.status ≠ .succeeded) (hturn : s.turns.lookup turn.id = some turn)
    (hrun : s.runs.lookup run.id = some run)
    (h : Op.Returns (failUnavailable conversation capability turn run failedAt stamp) s (turn', run') s') :
    SameTurn turn turn' ∧ Paired turn' run' ∧ run'.status ≠ .succeeded ∧ run'.id = run.id ∧ Written s turn' run' s'
      ∧ s'.messages = s.messages ∧ s'.nextMessageSequence = s.nextMessageSequence := by
  unfold failUnavailable at h
  split at h
  · simp only [returns_pure, Prod.mk.injEq] at h
    obtain ⟨⟨rfl, rfl⟩, rfl⟩ := h
    refine ⟨⟨rfl, rfl, rfl⟩, hpaired, hunanswered, rfl, ⟨fun k => ?_, fun k => ?_⟩, rfl, rfl⟩
    · split
      · next heq => rw [heq, hturn]
      · rfl
    · split
      · next heq => rw [heq, hrun]
      · rfl
  · simp only [returns_iff, Prod.mk.injEq] at h
    obtain ⟨_, _, rfl, _, _, rfl, _, _, hemit, ⟨rfl, rfl⟩, rfl⟩ := h
    obtain ⟨hturns, hruns, hmessages, hsequences, -⟩ := returns_emit hemit
    refine ⟨⟨rfl, rfl, rfl⟩, ⟨hpaired.turnId, hpaired.runId, hpaired.conversationId, rfl⟩,
      by simp, rfl, ⟨fun k => ?_, fun k => ?_⟩, hmessages, hsequences⟩
    · rw [hturns]
      exact lookup_insert ..
    · rw [hruns]
      exact lookup_insert ..

/-- Writing a pair twice leaves the second. -/
theorem Written.trans (h : Written s turn run s₁) (h' : Written s₁ turn' run' s') (hturn : turn'.id = turn.id)
    (hrun : run'.id = run.id) : Written s turn' run' s' := by
  constructor
  · intro k
    rw [h'.turns, h.turns, hturn]
    split <;> rfl
  · intro k
    rw [h'.runs, h.runs, hrun]
    split <;> rfl

/-- A pair that is accepted and then possibly failed is a submission. -/
theorem Submitted.of_written {message : Message}
    {s₂ : AgentState} (hnew : s.turns.lookup turn.id = none ∧ s.runs.lookup run.id = none)
    (hwritten : Written s turn run s₁) (hposted : Posted s message s₁) (hpaired : Paired turn run)
    (hunanswered : run.status ≠ .succeeded) (hrole : message.role = .user) (hturnId : message.turnId = some turn.id)
    (hconversation : message.conversationId = turn.conversationId)
    (hended : ∀ k t, s.turns.lookup k = some t → t.conversationId = turn.conversationId → t.status.isActive = false)
    (h : Op.Returns (failUnavailable conversation capability turn run failedAt stamp) s₁ (turn', run') s₂) :
    Submitted s turn' run' message s₂ := by
  have hturn : s₁.turns.lookup turn.id = some turn := by simp [hwritten.turns]
  have hrun : s₁.runs.lookup run.id = some run := by simp [hwritten.runs]
  obtain ⟨hsame, hpaired', hunanswered', hrunId, hwritten', hmessages, hsequences⟩ :=
    failUnavailable_written hpaired hunanswered hturn hrun h
  refine
    { newTurn := ?_
      newRun := ?_
      written := hwritten.trans hwritten' hsame.id hrunId
      posted := ⟨hposted.fresh, ?_, ?_, hposted.sequence⟩
      paired := hpaired'
      conversationId := ?_
      role := hrole
      turnId := ?_
      unanswered := hunanswered'
      ended := ?_ }
  · rw [hsame.id]; exact hnew.1
  · rw [hrunId]; exact hnew.2
  · rw [hmessages]; exact hposted.messages
  · rw [hsequences]; exact hposted.sequences
  · rw [hsame.conversationId]; exact hconversation
  · rw [hsame.id]; exact hturnId
  · rw [hsame.conversationId]; exact hended

theorem submit_submitted
    {idemKey : String × ConversationId} (hended : (turnsOf s conversationId).any (·.status.isActive) = false)
    (hturn : s.turns.lookup fresh.turnId = none) (hrun : s.runs.lookup fresh.runId = none)
    (hmessage : s.messages.lookup fresh.messageId = none)
    (h : Op.Returns (submit conversationId conversation content input idemKey requestHash capability
      fresh) s acceptance s') : ∃ turn run message, Submitted s turn run message s' := by
  simp only [submit, returns_iff] at h
  obtain ⟨_, _, ⟨rfl, rfl⟩, _, _, ⟨rfl, rfl⟩, _, _, rfl, _, _, rfl, _, _, rfl, _, _, rfl, _, s₁,
    hcreated, _, s₂, haccepted, ⟨turn, run⟩, s₃, hfail, _, _, rfl, -, rfl⟩ := h
  obtain ⟨ht₁, hr₁, hm₁, hq₁, -⟩ := returns_emit hcreated
  obtain ⟨ht₂, hr₂, hm₂, hq₂, -⟩ := returns_emit haccepted
  set message := userMessage conversationId
    { conversation with revision := conversation.revision + 1, updatedAt := fresh.now } content input
    (nextSequence s.nextMessageSequence conversationId) fresh with hmessageEq
  have hsub : Submitted s turn run message s₃ := by
    refine Submitted.of_written ⟨hturn, hrun⟩ ⟨fun k => ?_, fun k => ?_⟩
      ⟨hmessage, fun k => ?_, fun k => ?_, rfl⟩ ⟨rfl, rfl, rfl, rfl⟩ (by simp [queuedRun]) rfl rfl rfl ?_ hfail
    · rw [ht₂, ht₁]
      exact lookup_insert ..
    · rw [hr₂, hr₁]
      exact lookup_insert ..
    · rw [hm₂, hm₁]
      exact lookup_insert ..
    · rw [hq₂, hq₁]
      exact lookup_insert ..
    · intro k t hk ht
      have hmem : t ∈ turnsOf s conversationId := by
        simp only [turnsOf, mem_filter, mem_values, decide_eq_true_eq]
        exact ⟨⟨k, hk⟩, ht⟩
      simpa using any_eq_false.mp hended t hmem
  exact ⟨turn, run, message, { hsub with
    written := ⟨hsub.written.turns, hsub.written.runs⟩
    posted := ⟨hsub.posted.fresh, hsub.posted.messages, hsub.posted.sequences, hsub.posted.sequence⟩ }⟩

theorem appendMessage_effect {idempotencyKeyHash : String}
    (hturn : s.turns.lookup fresh.turnId = none) (hrun : s.runs.lookup fresh.runId = none)
    (hmessage : s.messages.lookup fresh.messageId = none)
    (h : Op.Returns (appendMessage scope conversationId input idempotencyKeyHash requestHash
      capability fresh) s acceptance s') : RunEffect s s' := by
  simp only [appendMessage, visible, returns_iff] at h
  obtain ⟨_, _, ⟨-, rfl⟩, _, _, ⟨_, _, ⟨-, rfl⟩, -, rfl⟩, _, _, ⟨_, rfl⟩, h⟩ := h
  split at h
  · simp only [returns_iff] at h
    obtain ⟨_, _, ⟨-, rfl⟩, -, rfl⟩ := h
    exact .same (.refl s)
  · simp only [returns_iff] at h
    obtain ⟨_, _, ⟨-, rfl⟩, _, _, ⟨rfl, rfl⟩, _, _, ⟨hended, rfl⟩, h⟩ := h
    obtain ⟨turn, run, message, hsub⟩ := submit_submitted (by simpa using hended) hturn hrun hmessage h
    exact .submitted turn run message hsub

theorem Pairs.of_run (hs : Pairs s) (hrun : s.runs.lookup runId = some run) :
    run.id = runId ∧ ∃ turn, s.turns.lookup run.turnId = some turn ∧ turn.id = run.turnId ∧ Paired turn run := by
  obtain ⟨turn, hturn, hpaired⟩ := hs.turnOf runId run hrun
  exact ⟨hs.runKey runId run hrun, turn, hturn, hs.turnKey _ turn hturn, hpaired⟩

theorem Pairs.of_turn (hs : Pairs s) (hturn : s.turns.lookup turnId = some turn) (hrunId : turn.runId = some runId)
    (hrun : s.runs.lookup runId = some run) : turn.id = turnId ∧ run.id = runId ∧ Paired turn run := by
  obtain ⟨_, hrun', hpaired⟩ := hs.runOf turnId turn hturn
  rw [hpaired.runId] at hrunId
  obtain rfl := some.inj hrunId
  rw [hrun'] at hrun
  obtain rfl := some.inj hrun
  exact ⟨hs.turnKey _ turn hturn, rfl, hpaired⟩

theorem cancelTurn_effect (hs : Pairs s)
    (h : Op.Returns (cancelTurn scope turnId now stamp) s run s') : RunEffect s s' := by
  simp only [cancelTurn, returns_iff] at h
  obtain ⟨_, _, ⟨rfl, rfl⟩, turn, _, ⟨hturn, rfl⟩, runId, _, ⟨hrunId, rfl⟩, _, _, ⟨rfl, rfl⟩, run, _,
    ⟨hrun, rfl⟩, _, _, ⟨-, rfl⟩, h⟩ := h
  obtain ⟨rfl, rfl, hpaired⟩ := hs.of_turn hturn hrunId hrun
  split at h
  · obtain ⟨-, rfl⟩ := returns_pure.mp h
    exact .same (.refl s)
  · next hlive =>
    simp only [returns_iff, returns_storedConversation] at h
    obtain ⟨_, _, ⟨-, rfl⟩, _, _, rfl, _, _, rfl, _, _, hemit, -, rfl⟩ := h
    obtain ⟨hturns, hruns, hmessages, hsequences, -⟩ := returns_emit hemit
    refine .moved turn
      { turn with status := .cancelled, cancelVersion := turn.cancelVersion + 1, updatedAt := now }
      run
      { run with status := .cancelled, cancelVersion := turn.cancelVersion + 1, updatedAt := now }
      { storedTurn := hturn
        storedRun := hrun
        turnId := hpaired.turnId
        sameTurn := ⟨rfl, rfl, rfl⟩
        sameRun := ⟨rfl, rfl, rfl, rfl⟩
        live := by simpa using hlive
        requeued := by simp
        status := rfl
        written := ⟨fun k => ?_, fun k => ?_⟩ } (by simp) (fun k => ?_) (fun k => ?_)
    · rw [hturns]
      exact lookup_insert ..
    · rw [hruns]
      exact lookup_insert ..
    · rw [hmessages]; rfl
    · rw [hsequences]; rfl

/-- A claim either finds nothing to claim or moves a queued run and its turn to running. -/
theorem beginRun_cases (hs : Pairs s) (h : Op.Returns (beginRun scope runId now stamp) s begun s') :
    begun = none ∧ s' = s
      ∨ ∃ turn run,
          s.turns.lookup turn.id = some turn ∧ s.runs.lookup run.id = some run
          ∧ run.id = runId ∧ run.status = .queued ∧ Paired turn run
          ∧ begun = some { run with status := .running, updatedAt := now }
          ∧ Moved s turn { turn with status := .running, updatedAt := now } run
              { run with status := .running, updatedAt := now } s'
          ∧ s'.messages = s.messages ∧ s'.nextMessageSequence = s.nextMessageSequence := by
  simp only [beginRun, returns_bind, returns_findRun] at h
  obtain ⟨_, _, ⟨hfound, rfl⟩, h⟩ := h
  split at h
  · obtain ⟨rfl, rfl⟩ := returns_pure.mp h
    exact .inl ⟨rfl, rfl⟩
  · next run =>
    split at h
    · obtain ⟨rfl, rfl⟩ := returns_pure.mp h
      exact .inl ⟨rfl, rfl⟩
    · next hqueued =>
      right
      have hqueued : run.status = .queued := by simpa using hqueued
      obtain ⟨rfl, turn, hturn, hid, hpaired⟩ := hs.of_run (eq_some_of_filter_eq_some hfound)
      have hrun := eq_some_of_filter_eq_some hfound
      simp only [returns_iff, returns_storedConversation] at h
      obtain ⟨_, _, ⟨-, rfl⟩, _, _, rfl, _, _, rfl, _, _, hemit, rfl, rfl⟩ := h
      obtain ⟨hturns, hruns, hmessages, hsequences, -⟩ := returns_emit hemit
      rw [← hid] at hturn
      refine ⟨turn, run, hturn, hrun, rfl, hqueued, hpaired, rfl,
        { storedTurn := hturn
          storedRun := hrun
          turnId := hpaired.turnId
          sameTurn := ⟨rfl, rfl, rfl⟩
          sameRun := ⟨rfl, rfl, rfl, rfl⟩
          live := by simp [hqueued, RunStatus.isTerminal]
          requeued := by simp
          status := rfl
          written := ⟨fun k => ?_, fun k => ?_⟩ }, hmessages, hsequences⟩
      · have hstatus : turn.status = .queued := by rw [hpaired.status, hqueued]; rfl
        rw [hturns]
        refine (lookup_modify ..).trans ?_
        show (if k = run.turnId then _ else _) = if k = turn.id then _ else _
        rw [hid]
        split
        · next heq =>
          subst heq
          rw [hid] at hturn
          show Option.map _ (s.turns.lookup run.turnId) = _
          rw [hturn]
          simp [hstatus, hid]
        · rfl
      · rw [hruns]
        exact lookup_insert ..

theorem beginRun_effect (hs : Pairs s)
    (h : Op.Returns (beginRun scope runId now stamp) s begun s') : RunEffect s s' := by
  rcases beginRun_cases hs h with ⟨-, rfl⟩ | ⟨turn, run, -, -, -, -, -, -, hmoved, hm, hq⟩
  · exact .same (.refl _)
  · exact .moved _ _ _ _ hmoved (by simp) (fun k => by rw [hm]) fun k => by rw [hq]

theorem validateMessageContent_ok {text : String} (h : validateMessageContent text = .ok content) :
    content = Text.trim text ∧ content ≠ "" ∧ content.length ≤ maxMessageChars := by
  simp only [validateMessageContent, eq_ok_iff] at h
  obtain ⟨_, hne, _, hlen, rfl⟩ := h
  exact ⟨rfl, hne, Nat.not_lt.mp hlen⟩

/-- A completion that is stored as an answer has a text to show. -/
theorem outcome_ok {metadata : Json} (h : RunCompletion.outcome completion = .ok (content, metadata)) :
    (∃ text, content = Text.trim text) ∧ content ≠ "" ∧ content.length ≤ maxMessageChars := by
  cases completion with
  | failed error => simp [RunCompletion.outcome] at h
  | succeeded text data =>
    simp only [RunCompletion.outcome, eq_ok_iff, Prod.mk.injEq] at h
    obtain ⟨_, hcontent, rfl, -⟩ := h
    obtain ⟨htrim, hne, hlen⟩ := validateMessageContent_ok hcontent
    exact ⟨⟨text, htrim⟩, hne, hlen⟩

theorem finishRun_effect (hs : Pairs s) (hkeys : ConversationsKeyed s)
    {fresh : FinishInputs} {transition : Option RunTransition} (hmessage : s.messages.lookup fresh.messageId = none)
    (h : Op.Returns (finishRun scope runId completion fresh) s transition s') : RunEffect s s' := by
  simp only [finishRun, returns_bind, returns_findRun] at h
  obtain ⟨_, _, ⟨hfound, rfl⟩, h⟩ := h
  split at h
  · obtain ⟨-, rfl⟩ := returns_pure.mp h
    exact .same (.refl s)
  · next run =>
    split at h
    · obtain ⟨-, rfl⟩ := returns_pure.mp h
      exact .same (.refl s)
    · next hrunning =>
      have hrunning : run.status = .running := by simpa using hrunning
      have hrun := eq_some_of_filter_eq_some hfound
      obtain ⟨rfl, turn, hturn, hid, hpaired⟩ := hs.of_run hrun
      simp only [returns_iff, returns_storedConversation] at h
      obtain ⟨conversation, _, ⟨hconversation, rfl⟩, _, _, ⟨rfl, rfl⟩, _, _, ⟨hstored, rfl⟩, h⟩ := h
      rw [hturn] at hstored
      obtain rfl := some.inj hstored
      have hcid : conversation.id = turn.conversationId := (hkeys _ _ hconversation).trans hpaired.conversationId
      rw [← hid] at hturn
      have hlive : run.status.isTerminal = false := by simp [hrunning, RunStatus.isTerminal]
      split at h
      · next content metadata hok =>
        obtain ⟨htrim, hne, hlen⟩ := outcome_ok hok
        simp only [returns_iff, enterTerminal] at h
        obtain ⟨_, _, ⟨rfl, rfl⟩, _, _, ⟨_, _, rfl, _, _, rfl, rfl⟩, _, _, rfl, _, s₁, hcreated, _,
          s₂, hsucceeded, -, rfl⟩ := h
        obtain ⟨ht₁, hr₁, hm₁, hq₁, -⟩ := returns_emit hcreated
        obtain ⟨ht₂, hr₂, hm₂, hq₂, -⟩ := returns_emit hsucceeded
        refine .answered turn { turn with status := .succeeded, updatedAt := fresh.now } run
          { run with status := .succeeded, error := none, updatedAt := fresh.now }
          (assistantMessage conversation run.turnId content metadata
            (nextSequence s.nextMessageSequence conversation.id) fresh)
          { storedTurn := hturn
            storedRun := hrun
            turnId := hpaired.turnId
            sameTurn := ⟨rfl, rfl, rfl⟩
            sameRun := ⟨rfl, rfl, rfl, rfl⟩
            live := hlive
            requeued := by simp
            status := rfl
            written := ⟨fun k => ?_, fun k => ?_⟩ } rfl
          ⟨hmessage, fun k => ?_, fun k => ?_, rfl⟩
          ⟨rfl, congrArg some hpaired.turnId, hcid, htrim, hne, hlen⟩
        · rw [ht₂, ht₁]
          exact lookup_insert ..
        · rw [hr₂, hr₁]
          exact lookup_insert ..
        · rw [hm₂, hm₁]
          exact lookup_insert ..
        · rw [hq₂, hq₁]
          exact lookup_insert ..
      · next error _ =>
        simp only [returns_iff, enterTerminal] at h
        obtain ⟨_, _, ⟨_, _, rfl, _, _, rfl, rfl⟩, _, _, hfailed, -, rfl⟩ := h
        obtain ⟨ht₁, hr₁, hm₁, hq₁, -⟩ := returns_emit hfailed
        refine .moved turn { turn with status := .failed, updatedAt := fresh.now } run
          { run with status := .failed, error := some error, updatedAt := fresh.now }
          { storedTurn := hturn
            storedRun := hrun
            turnId := hpaired.turnId
            sameTurn := ⟨rfl, rfl, rfl⟩
            sameRun := ⟨rfl, rfl, rfl, rfl⟩
            live := hlive
            requeued := by simp
            status := rfl
            written := ⟨fun k => ?_, fun k => ?_⟩ } (by simp) (fun k => ?_) fun k => ?_
        · rw [ht₁]
          exact lookup_insert ..
        · rw [hr₁]
          exact lookup_insert ..
        · rw [hm₁]; rfl
        · rw [hq₁]; rfl

theorem returns_abandonRun (hs : Pairs s) {fresh : AbandonInputs} {count : Nat} (hrun : s.runs.lookup runId = some run)
    (hlive : run.status.isTerminal = false) (h : Op.Returns (abandonRun runId fresh) s count s') : RunEffect s s'
    ∧ ∀ k, k ≠ runId → s'.runs.lookup k = s.runs.lookup k := by
  simp only [abandonRun, returns_iff] at h
  obtain ⟨_, _, ⟨rfl, rfl⟩, _, _, ⟨rfl, rfl⟩, _, _, ⟨rfl, rfl⟩, h⟩ := h
  obtain ⟨rfl, turn, hturn, hid, hpaired⟩ := hs.of_run hrun
  rw [← hid] at hturn
  have hactive : turn.status.isActive = true := by
    rw [hpaired.status, RunStatus.turnStatus_isActive, hlive]; rfl
  split at h
  · next run' conversation turn' hrun' hconversation hturn' =>
    rw [hrun] at hrun'
    obtain rfl := some.inj hrun'
    rw [hrun, bind_some, ← hid, hturn] at hturn'
    obtain rfl := some.inj hturn'
    simp only [returns_iff, failTurn, hactive, if_true] at h
    obtain ⟨_, _, rfl, _, _, rfl, _, _, rfl, _, s₁, hemit, -, rfl⟩ := h
    obtain ⟨hturns, hruns, hmessages, hsequences, -⟩ := returns_emit hemit
    have hmoved : Moved s turn { turn with status := .failed, updatedAt := fresh.now } run
        (abandonedRun run fresh.now) s₁ :=
      { storedTurn := hturn
        storedRun := hrun
        turnId := hpaired.turnId
        sameTurn := ⟨rfl, rfl, rfl⟩
        sameRun := ⟨rfl, rfl, rfl, rfl⟩
        live := hlive
        requeued := by simp [abandonedRun]
        status := rfl
        written := ⟨fun k => by rw [hturns]; exact lookup_insert .., fun k => by rw [hruns]; exact lookup_insert ..⟩ }
    refine ⟨.moved _ _ _ _ hmoved (by simp [abandonedRun]) (fun k => ?_) (fun k => ?_), fun k hk => ?_⟩
    · rw [hmessages]; rfl
    · rw [hsequences]; rfl
    · exact (hmoved.written.runs k).trans (if_neg hk)
  · obtain ⟨-, rfl⟩ := returns_pure.mp h
    exact ⟨.same (.refl _), fun _ _ => rfl⟩

end Returns

/-! ### Pairs -/

theorem pairs_default : Pairs AgentState.default := by
  constructor <;> intros <;> simp_all [AgentState.default]

section Pairs

variable {s s' : AgentState}

variable {run : AgentRun}

/-- Writing a pair that is new, or that replaces the pair of the same identifiers, keeps the pairs. -/
theorem Pairs.written (hs : Pairs s) {turn : Turn} (hwritten : Written s turn run s') (hpaired : Paired turn run)
    (hold : (s.turns.lookup turn.id = none ∧ s.runs.lookup run.id = none)
      ∨ ∃ turn₀ run₀, s.turns.lookup turn.id = some turn₀ ∧ s.runs.lookup run.id = some run₀
        ∧ Paired turn₀ run₀) : Pairs s' := by
  -- Another turn has another run, and the other way round.
  have hother : ∀ k t r, s.turns.lookup k = some t → s.runs.lookup r.id = some r → Paired t r →
      (t.id = turn.id ↔ r.id = run.id) := by
    intro k t r ht hr hp
    obtain rfl := hs.turnKey k t ht
    rcases hold with ⟨hnt, hnr⟩ | ⟨turn₀, run₀, ht₀, hr₀, hp₀⟩
    · constructor <;> intro heq
      · rw [heq, hnt] at ht
        exact absurd ht (by simp)
      · rw [heq, hnr] at hr
        exact absurd hr (by simp)
    · have hid₀ := hs.turnKey _ _ ht₀
      have hrid₀ := hs.runKey _ _ hr₀
      constructor <;> intro heq
      · rw [heq, ht₀] at ht
        obtain rfl := some.inj ht
        have := hp.runId.symm.trans hp₀.runId
        rw [← hrid₀]
        exact some.inj this
      · rw [heq, hr₀] at hr
        obtain rfl := some.inj hr
        rw [← hid₀, ← hp₀.turnId]
        exact hp.turnId.symm
  constructor
  · intro k t ht
    rw [hwritten.turns] at ht
    split at ht
    · next heq =>
      obtain rfl := some.inj ht
      exact heq.symm
    · exact hs.turnKey k t ht
  · intro k r hr
    rw [hwritten.runs] at hr
    split at hr
    · next heq =>
      obtain rfl := some.inj hr
      exact heq.symm
    · exact hs.runKey k r hr
  · intro k t ht
    rw [hwritten.turns] at ht
    split at ht
    · obtain rfl := some.inj ht
      exact ⟨run, by simp [hwritten.runs], hpaired⟩
    · next hne =>
      obtain ⟨r, hr, hp⟩ := hs.runOf k t ht
      refine ⟨r, ?_, hp⟩
      have hne' : r.id ≠ run.id := by
        rw [Ne, ← hother k t r ht hr hp, hs.turnKey k t ht]
        exact hne
      rw [hwritten.runs, if_neg hne', hr]
  · intro k r hr
    rw [hwritten.runs] at hr
    split at hr
    · obtain rfl := some.inj hr
      exact ⟨turn, by simp [hwritten.turns, hpaired.turnId], hpaired⟩
    · next hne =>
      obtain ⟨t, ht, hp⟩ := hs.turnOf k r hr
      refine ⟨t, ?_, hp⟩
      have hkey := hs.runKey k r hr
      rw [← hkey] at hr
      have hne' : r.turnId ≠ turn.id := by
        rw [hp.turnId, Ne, hother _ t r ht hr hp, hkey]
        exact hne
      rw [hwritten.turns, if_neg hne', ht]

theorem Moved.paired {turn turn' : Turn} {run' : AgentRun} (hs : Pairs s)
    (h : Moved s turn turn' run run' s') : Paired turn run ∧ Paired turn' run' := by
  obtain ⟨-, _, ht, -, hp⟩ := hs.of_run h.storedRun
  rw [h.turnId, h.storedTurn] at ht
  obtain rfl := some.inj ht
  refine ⟨hp, ?_, ?_, ?_, h.status⟩
  · rw [h.sameRun.turnId, h.sameTurn.id, hp.turnId]
  · rw [h.sameTurn.runId, h.sameRun.id, hp.runId]
  · rw [h.sameRun.conversationId, h.sameTurn.conversationId, hp.conversationId]

theorem Pairs.moved {turn turn' : Turn} {run run' : AgentRun} (hs : Pairs s)
    (h : Moved s turn turn' run run' s') : Pairs s' := by
  obtain ⟨hp, hp'⟩ := h.paired hs
  refine hs.written h.written hp' (.inr ⟨turn, run, ?_, ?_, hp⟩)
  · rw [h.sameTurn.id]; exact h.storedTurn
  · rw [h.sameRun.id]; exact h.storedRun

theorem Pairs.effect (hs : Pairs s) (h : RunEffect s s') : Pairs s' := by
  cases h with
  | same h =>
    constructor
    · intro k t; rw [h.turns]; exact hs.turnKey k t
    · intro k r; rw [h.runs]; exact hs.runKey k r
    · intro k t
      rw [h.turns]
      intro ht
      obtain ⟨r, hr, hp⟩ := hs.runOf k t ht
      exact ⟨r, by rw [h.runs, hr], hp⟩
    · intro k r
      rw [h.runs]
      intro hr
      obtain ⟨t, ht, hp⟩ := hs.turnOf k r hr
      exact ⟨t, by rw [h.turns, ht], hp⟩
  | submitted _ _ _ h => exact hs.written h.written h.paired (.inl ⟨h.newTurn, h.newRun⟩)
  | moved _ _ _ _ h => exact hs.moved h
  | answered _ _ _ _ _ h => exact hs.moved h

theorem abandonRuns_effects {fresh : RunId → AbandonInputs} {ids : List RunId} {count : Nat} (hs : Pairs s)
    (hnodup : ids.Nodup) (hlive : ∀ id ∈ ids, ∃ run, s.runs.lookup id = some run ∧ run.status.isTerminal = false)
    (h : Op.Returns (abandonRuns fresh ids) s count s') : Relation.ReflTransGen RunEffect s s' := by
  induction ids generalizing s count with
  | nil =>
    obtain ⟨-, rfl⟩ := returns_pure.mp h
    exact .refl
  | cons id _ ih =>
    simp only [abandonRuns, returns_iff] at h
    obtain ⟨_, _, hone, _, _, hrest, -, rfl⟩ := h
    obtain ⟨_, hrun, hrunLive⟩ := hlive id mem_cons_self
    obtain ⟨heffect, hothers⟩ := returns_abandonRun hs hrun hrunLive hone
    obtain ⟨hnotin, hnodup'⟩ := nodup_cons.mp hnodup
    refine .head heffect (ih (hs.effect heffect) hnodup' (fun id' hid' => ?_) hrest)
    obtain ⟨run', hrun', hlive'⟩ := hlive id' (mem_cons_of_mem _ hid')
    have hne : id' ≠ id := fun heq => hnotin (heq ▸ hid')
    exact ⟨run', by rw [hothers id' hne, hrun'], hlive'⟩

theorem runningRuns_nodup (hs : Pairs s) : (runningRuns s).Nodup := by
  have hsub : (runningRuns s).Sublist ((values s.runs).map (·.id)) := filter_sublist.map _
  rw [map_values_of_keyed hs.runKey] at hsub
  exact hsub.nodup s.runs.nodupKeys

theorem mem_runningRuns (hs : Pairs s) {id : RunId} (h : id ∈ runningRuns s) :
    ∃ run, s.runs.lookup id = some run ∧ run.status.isTerminal = false := by
  simp only [runningRuns, List.mem_map, List.mem_filter, mem_values, decide_eq_true_eq] at h
  obtain ⟨run, ⟨⟨k, hk⟩, hrunning⟩, rfl⟩ := h
  refine ⟨run, ?_, by simp [hrunning, RunStatus.isTerminal]⟩
  rw [hs.runKey k run hk]
  exact hk

end Pairs

/-! ### Every step -/

@[simp]
theorem visibleRun_readOnly (scope : TenantScope) (runId : RunId) : (visibleRun scope runId).ReadOnly :=
  Op.ReadOnly.bind .read fun _ => .okOr

@[simp]
theorem visible_readOnly (scope : TenantScope) (id : ConversationId) : (visible scope id).ReadOnly :=
  Op.ReadOnly.bind .read fun _ => .okOr

@[simp]
theorem storedConversation_readOnly (id : ConversationId) : (storedConversation id).ReadOnly :=
  Op.ReadOnly.bind .read fun _ => .okOr

@[simp]
theorem findRun_readOnly (scope : TenantScope) (runId : RunId) : (findRun scope runId).ReadOnly :=
  .read

@[simp]
theorem toolCall_readOnly (runId : RunId) (toolCallId : String) : (toolCall runId toolCallId).ReadOnly :=
  .read

theorem emit_total (conversation : Conversation) (eventType : String) (turnId : Option TurnId) (runId : Option RunId)
    (payload : EventPayload) (stamp : EventStamp) : (emit conversation eventType turnId runId payload stamp).Total :=
  .modify

theorem enterTerminal_total (conversation : Conversation) (turn : Turn) (run : AgentRun) :
    (enterTerminal conversation turn run).Total :=
  .bind .modify fun _ => .bind .modify fun _ => .modify

theorem failUnavailable_total (conversation : Conversation) (capability : RuntimeCapability)
    (turn : Turn) (run : AgentRun) (failedAt : DateTime) (stamp : EventStamp) :
    (failUnavailable conversation capability turn run failedAt stamp).Total := by
  unfold failUnavailable
  split
  · exact .pure
  · exact .bind .modify fun _ => .bind .modify fun _ => .bind (emit_total ..) fun _ => .pure

theorem submit_total (conversationId : ConversationId) (conversation : Conversation)
    (content : String) (input : AppendMessage) (idemKey : String × ConversationId)
    (requestHash : String) (capability : RuntimeCapability) (fresh : SubmissionInputs) :
    (submit conversationId conversation content input idemKey requestHash capability fresh).Total := by
  unfold submit
  repeat' first
    | exact Op.Total.read
    | exact Op.Total.modify
    | exact Op.Total.pure
    | exact emit_total ..
    | exact failUnavailable_total ..
    | refine Op.Total.bind ?_ fun _ => ?_

theorem abandonRuns_total (fresh : RunId → AbandonInputs) (ids : List RunId) : (abandonRuns fresh ids).Total := by
  induction ids with
  | nil => exact .pure
  | cons _ _ ih =>
    refine .bind ?_ fun _ => .bind ih fun _ => .pure
    refine .bind .read fun _ => .bind .read fun _ => .bind .read fun _ => ?_
    split
    · exact .bind .modify fun _ => .bind .modify fun _ => .bind .modify fun _ => .bind (emit_total ..) fun _ => .pure
    · exact .pure

/-- No call writes anything before it fails. -/
theorem MemoryAgentRepository.run_atomic (call : AgentCall) : (run call).Atomic := by
  cases call
  all_goals refine Op.Atomic.bind_total ?_ fun _ => Op.Total.pure
  case reconcileRunningRuns => exact .bind .read fun _ => (abandonRuns_total ..).atomic
  -- What is left are checks in front of writes that always return.
  all_goals
    first
    | unfold createConversation
    | unfold appendMessage
    | unfold cancelTurn
    | unfold beginRun
    | unfold finishRun
    | unfold appendToolCall
    | unfold beginToolCall
    | unfold attemptToolCall
    | unfold finishToolCall
    repeat' first
      | exact (submit_total ..).atomic
      | (refine Op.Atomic.bind ?_ fun _ => ?_; · simp)
      | split
      | (apply Op.ReadOnly.atomic; simp; done)
      | apply Op.Total.atomic
      | exact emit_total ..
      | exact enterTerminal_total ..
      | refine Op.Total.bind ?_ fun _ => ?_
      | exact Op.Total.modify
      | exact Op.Total.read

/-- The calls of the tool-call ledger. -/
def AgentCall.onToolCalls : AgentCall → Bool
  | .appendToolCall .. => true
  | .beginToolCall .. => true
  | .attemptToolCall .. => true
  | .finishToolCall .. => true
  | _ => false

/-- A condition on the store that no write of the lifecycle of runs breaks. -/
structure LifecycleClosed (I : AgentState → Prop) : Prop where
  conversation : ∀ s conversation, I s → I (s.insertConversation conversation)
  turn : ∀ s turn, I s → I (s.insertTurn turn)
  started : ∀ s turnId now, I s → I (startTurn turnId now s)
  run : ∀ s run, I s → I (s.insertRun run)
  message : ∀ s message, I s → I (s.insertMessage message)
  submission : ∀ s submissions, I s → I { s with idempotentSubmissions := submissions }
  event : ∀ conversation eventType turnId runId payload stamp,
    (emit conversation eventType turnId runId payload stamp).Preserves I

namespace LifecycleClosed

variable {I : AgentState → Prop}

theorem failTurn (h : LifecycleClosed I) {turn : Turn} {now : DateTime} (s : AgentState) (hs : I s) :
    I (failTurn turn now s) := by
  unfold MemoryAgentRepository.failTurn
  split
  · exact h.turn _ _ hs
  · exact hs

theorem failUnavailable (h : LifecycleClosed I) {conversation : Conversation} {capability : RuntimeCapability}
    {turn : Turn} {run : AgentRun} {failedAt : DateTime} {stamp : EventStamp} :
    (failUnavailable conversation capability turn run failedAt stamp).Preserves I := by
  unfold MemoryAgentRepository.failUnavailable
  split
  · exact .of_readOnly .pure
  · exact .bind (.modify fun _ => h.turn _ _) fun _ => .bind (.modify fun _ => h.run _ _) fun _ =>
      .bind (h.event ..) fun _ => .of_readOnly .pure

theorem abandonRuns (h : LifecycleClosed I) {fresh : RunId → AbandonInputs} (ids : List RunId) :
    (abandonRuns fresh ids).Preserves I := by
  induction ids with
  | nil => exact .of_readOnly .pure
  | cons _ _ ih =>
    refine .bind ?_ fun _ => .bind ih fun _ => .of_readOnly .pure
    refine .bind (.of_readOnly .read) fun _ => .bind (.of_readOnly .read) fun _ =>
      .bind (.of_readOnly .read) fun _ => ?_
    split
    · exact .bind (.modify h.failTurn) fun _ => .bind (.modify fun _ => h.run _ _) fun _ =>
        .bind (.modify fun _ => h.conversation _ _) fun _ =>
        .bind (h.event ..) fun _ => .of_readOnly .pure
    · exact .of_readOnly .pure

/-- What no write breaks, no call breaks. -/
theorem preserves (h : LifecycleClosed I) {call : AgentCall} (hcall : call.onToolCalls = false) :
    (MemoryAgentRepository.run call).Preserves I := by
  cases call
  all_goals first | (simp [AgentCall.onToolCalls] at hcall; done) | skip
  all_goals refine .bind ?_ fun _ => .of_readOnly .pure
  case reconcileRunningRuns => exact .bind (.of_readOnly .read) fun _ => h.abandonRuns _
  all_goals
    first
    | unfold createConversation
    | unfold appendMessage submit
    | unfold cancelTurn
    | unfold beginRun
    | unfold finishRun enterTerminal
    repeat' first
      | with_reducible exact h.event ..
      | with_reducible exact h.failUnavailable
      | with_reducible exact Op.Preserves.modify fun _ => h.conversation _ _
      | with_reducible exact Op.Preserves.modify fun _ => h.turn _ _
      | with_reducible exact Op.Preserves.modify fun _ => h.started _ _ _
      | with_reducible exact Op.Preserves.modify fun _ => h.run _ _
      | with_reducible exact Op.Preserves.modify fun _ => h.message _ _
      | with_reducible exact Op.Preserves.modify fun _ => h.submission _ _
      | with_reducible refine Op.Preserves.bind ?_ fun _ => ?_
      | split
      | (apply Op.Preserves.of_readOnly; simp)

end LifecycleClosed

variable {call : AgentCall} {s s' : AgentState}

theorem toolCalls_preserve {I : AgentState → Prop} (hI : ∀ s calls, I s → I { s with toolCalls := calls }) (hcall : call.onToolCalls = true) : (run call).Preserves I := by
  cases call
  all_goals first | (simp [AgentCall.onToolCalls] at hcall; done) | skip
  all_goals
    refine .bind ?_ fun _ => .of_readOnly .pure
    first
    | unfold appendToolCall
    | unfold beginToolCall
    | unfold attemptToolCall
    | unfold finishToolCall
    repeat' first
      | exact Op.Preserves.modify fun _ => hI _ _
      | (apply Op.Preserves.of_readOnly; simp; done)
      | refine Op.Preserves.bind ?_ fun _ => ?_
      | split

theorem toolCalls_same {reply : AgentReply}
    (hcall : call.onToolCalls = true) (h : Op.Returns (run call) s reply s') : SameRuns s s' := by
  have hpreserved := (toolCalls_preserve (I := SameRuns s) (fun s' _ hs =>
    ⟨hs.turns, hs.runs, hs.messages, hs.sequences⟩) hcall).preserved s (.refl s)
  rwa [show (run call).run s = (.ok reply, s') from h] at hpreserved

theorem step_runEffects {e : AgentEvent} (hs : Pairs s) (hkeys : ConversationsKeyed s) (hfresh : FreshIds s e)
    (h : agentMachine.step s e s') : Relation.ReflTransGen RunEffect s s' := by
  cases e with
  | reorder =>
    obtain ⟨hturns, hruns, hrest⟩ := h
    refine .single (.same ⟨fun k => (hturns.lookup_eq k).symm, fun k => (hruns.lookup_eq k).symm,
      fun k => ?_, fun k => ?_⟩)
    · rw [hrest]
    · rw [hrest]
  | call call reply =>
    cases reply with
    | error err =>
      obtain rfl := (run_atomic call).failed _ _ _ h
      exact .refl
    | ok reply =>
      by_cases htool : call.onToolCalls = true
      · exact .single (.same (toolCalls_same htool h))
      cases call
      all_goals first | exact absurd rfl htool | skip
      all_goals obtain ⟨_, hret, rfl⟩ := returns_map.mp h
      case createConversation => exact .single (createConversation_effect hret)
      case appendMessage =>
        obtain ⟨hturn, hrun, hmessage⟩ := hfresh
        exact .single (appendMessage_effect hturn hrun hmessage hret)
      case cancelTurn => exact .single (cancelTurn_effect hs hret)
      case beginRun => exact .single (beginRun_effect hs hret)
      case finishRun => exact .single (finishRun_effect hs hkeys hfresh hret)
      case reconcileRunningRuns =>
        rw [reconcileRunningRuns, returns_bind] at hret
        obtain ⟨_, _, hread, hret⟩ := hret
        obtain ⟨rfl, rfl⟩ := returns_read.mp hread
        exact abandonRuns_effects hs (runningRuns_nodup hs) (fun _ => mem_runningRuns hs) hret

end GeoMaster
