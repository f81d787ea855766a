import Mathlib.Data.List.DropRight
import GeoMaster.Lib.Numbered
import GeoMaster.Proofs.AgentSteps

/-!
# The lifecycle of agent runs

`Conversing` says what conversations, turns, runs and messages owe each other: a conversation has one
active turn at most, a run has an answer exactly when it succeeded, and the messages of a conversation
carry the numbers from one. A step is one of the effects of `AgentSteps`, and each of them keeps it.
`Progress` says that a run which has ended stays as it is and that no run is queued twice.
-/

namespace GeoMaster

open AssocMap List Option AgentState Calls Text

open MemoryAgentRepository

/-- Message `messageId` is the assistant's, on this turn. -/
def AnswerTo (s : AgentState) (turnId : TurnId) (messageId : MessageId) : Prop :=
  ∃ message, s.messages.lookup messageId = some message ∧ message.role = .assistant ∧ message.turnId = some turnId

/-- A text that is trimmed, not empty, and short enough. -/
structure AnswerText (content : String) : Prop where
  trimmed : trim content = content
  nonempty : content ≠ ""
  length : content.length ≤ maxMessageChars

/-- Message `messageId` is in the conversation, under this number. -/
def MessageNumber (s : AgentState) (id : ConversationId) (messageId : MessageId) (sequence : Nat) : Prop :=
  ∃ message, s.messages.lookup messageId = some message ∧ message.conversationId = id ∧ message.sequence = sequence

/-- How many messages a conversation has counted. -/
def messageCount (s : AgentState) (id : ConversationId) : Nat :=
  (s.nextMessageSequence.lookup id).getD 0

/-- Conversations, turns, runs and messages agree. -/
structure Conversing (s : AgentState) : Prop where
  pairs : Pairs s
  alone : ∀ k k' turn turn', s.turns.lookup k = some turn → s.turns.lookup k' = some turn' → turn.conversationId
    = turn'.conversationId → turn.status.isActive = true → turn'.status.isActive = true → k = k'
  answered : ∀ k run, s.runs.lookup k = some run → run.status = .succeeded →
    ∃! messageId, AnswerTo s run.turnId messageId
  unanswered : ∀ k run, s.runs.lookup k = some run → run.status ≠ .succeeded →
    ∀ messageId, ¬ AnswerTo s run.turnId messageId
  texts : ∀ k message, s.messages.lookup k = some message → message.role = .assistant → AnswerText message.content
  turns : ∀ k message turnId, s.messages.lookup k = some message → message.turnId = some turnId →
    (s.turns.lookup turnId).isSome
  numbered : ∀ id, Numbered (MessageNumber s id) (messageCount s id)

/-- Runs that have ended stay, and runs that have begun are not queued again. -/
def Progress (s s' : AgentState) : Prop :=
  ∀ k run, s.runs.lookup k = some run → ∃ run', s'.runs.lookup k = some run'
    ∧ (run.status.isTerminal = true → run' = run) ∧ (run.status ≠ .queued → run'.status ≠ .queued)

/-- Trimming twice is trimming once: what trimming keeps neither starts nor ends with a blank. -/
theorem Text.trim_trim (text : String) : trim (trim text) = trim text := by
  set kept := text.toList.dropWhile isWhitespace
  have hfront : (kept.rdropWhile isWhitespace).dropWhile isWhitespace = kept.rdropWhile isWhitespace := by
    rw [dropWhile_eq_self_iff]
    intro hne
    have hpre := rdropWhile_prefix isWhitespace kept
    rw [hpre.getElem hne]
    exact dropWhile_get_zero_not isWhitespace text.toList _
  have htrim : trim text = String.ofList (kept.rdropWhile isWhitespace) := rfl
  rw [htrim]
  show String.ofList (((String.ofList (kept.rdropWhile isWhitespace)).toList.dropWhile
    isWhitespace).rdropWhile isWhitespace) = _
  rw [String.toList_ofList, hfront, rdropWhile_idempotent]

section Effects

variable {s s' : AgentState}

theorem conversing_default : Conversing AgentState.default := by
  constructor
  case pairs => exact pairs_default
  case numbered =>
    intro id
    exact Numbered.zero fun k i hk => by
      obtain ⟨_, hmessage, -⟩ := hk
      simp [AgentState.default] at hmessage
  all_goals intros; simp_all [AgentState.default]

theorem Progress.refl (s : AgentState) : Progress s s :=
  fun _ run hrun => ⟨run, hrun, fun _ => rfl, id⟩

theorem Progress.trans {s'' : AgentState} (h : Progress s s') (h' : Progress s' s'') : Progress s s'' := by
  intro k run hrun
  obtain ⟨run', hrun', hended, hbegun⟩ := h k run hrun
  obtain ⟨run'', hrun'', hended', hbegun'⟩ := h' k run' hrun'
  refine ⟨run'', hrun'', fun hterminal => ?_, fun hne => hbegun' (hbegun hne)⟩
  obtain rfl := hended hterminal
  exact hended' hterminal

variable {message : Message} {run run' : AgentRun} {turn turn' : Turn}

/-- Only live runs are written. -/
theorem Moved.progress (h : Moved s turn turn' run run' s') : Progress s s' := by
  intro k r hr
  rw [h.written.runs]
  by_cases hk : k = run'.id
  · rw [if_pos hk]
    rw [hk, h.sameRun.id, h.storedRun] at hr
    obtain rfl := some.inj hr
    refine ⟨run', rfl, fun hterminal => ?_, fun _ => h.requeued⟩
    rw [h.live] at hterminal
    simp at hterminal
  · rw [if_neg hk]
    exact ⟨r, hr, fun _ => rfl, id⟩

theorem RunEffect.progress (h : RunEffect s s') : Progress s s' := by
  cases h with
  | same h =>
    intro k run hrun
    exact ⟨run, by rw [h.runs, hrun], fun _ => rfl, id⟩
  | submitted _ run _ h =>
    intro k r hr
    have hk : k ≠ run.id := by
      rintro rfl
      rw [h.newRun] at hr
      simp at hr
    exact ⟨r, by rw [h.written.runs, if_neg hk, hr], fun _ => rfl, id⟩
  | moved _ _ _ _ h => exact h.progress
  | answered _ _ _ _ _ h => exact h.progress

/-! ### One effect -/

variable {turnId : TurnId} {messageId : MessageId}

theorem answerTo_congr (h : ∀ k, s'.messages.lookup k = s.messages.lookup k) : AnswerTo s' turnId messageId ↔ AnswerTo s turnId messageId := by
  simp only [AnswerTo, h]

theorem Posted.answerTo (h : Posted s message s') :
    AnswerTo s' turnId messageId
      ↔ (messageId = message.id ∧ message.role = .assistant ∧ message.turnId = some turnId)
        ∨ AnswerTo s turnId messageId := by
  unfold AnswerTo
  rw [h.messages]
  by_cases hk : messageId = message.id
  · subst hk
    simp [h.fresh]
  · simp [hk]

theorem numbered_congr (h : ∀ id, Numbered (MessageNumber s id) (messageCount s id))
    (hmessages : ∀ k, s'.messages.lookup k = s.messages.lookup k)
    (hsequences : ∀ k, s'.nextMessageSequence.lookup k = s.nextMessageSequence.lookup k)
    (id : ConversationId) : Numbered (MessageNumber s' id) (messageCount s' id) := by
  have hcount : messageCount s' id = messageCount s id := by
    rw [messageCount, messageCount, hsequences]
  rw [hcount]
  exact (h id).congr fun k i => by simp only [MessageNumber, hmessages]

theorem Posted.numbered (h : Posted s message s') (hs : ∀ id, Numbered (MessageNumber s id) (messageCount s id))
    (id : ConversationId) : Numbered (MessageNumber s' id) (messageCount s' id) := by
  have hstored : ∀ k i, MessageNumber s' id k i
      ↔ (k = message.id ∧ message.conversationId = id ∧ message.sequence = i) ∨ MessageNumber s id k i := by
    intro k i
    unfold MessageNumber
    rw [h.messages]
    by_cases hk : k = message.id
    · subst hk
      simp [h.fresh]
    · simp [hk]
  have hcount : messageCount s' id
      = if id = message.conversationId then messageCount s id + 1 else messageCount s id := by
    simp only [messageCount, h.sequences]
    split
    · next heq =>
      rw [h.sequence, nextSequence, heq]
      cases s.nextMessageSequence.lookup message.conversationId <;> simp
    · rfl
  rw [hcount]
  split
  · next heq =>
    refine @Numbered.add _ _ _ _ (hs id) message.id fun k i => ?_
    rw [hstored]
    have hsequence : message.sequence = messageCount s id + 1 := by
      rw [h.sequence, nextSequence, messageCount, heq]
      cases s.nextMessageSequence.lookup message.conversationId <;> simp
    rw [hsequence]
    constructor
    · rintro (⟨rfl, -, rfl⟩ | hold)
      · exact .inl ⟨rfl, rfl⟩
      · exact .inr hold
    · rintro (⟨rfl, rfl⟩ | hold)
      · exact .inl ⟨rfl, heq.symm, rfl⟩
      · exact .inr hold
  · next hne =>
    refine (hs id).congr fun k i => ?_
    rw [hstored]
    constructor
    · rintro (⟨-, heq, -⟩ | hold)
      · exact absurd heq.symm hne
      · exact hold
    · exact .inr

theorem Pairs.run_unique (hs : Pairs s) {k k' : RunId} (hrun : s.runs.lookup k = some run)
    (hrun' : s.runs.lookup k' = some run') (hturn : run.turnId = run'.turnId) : k = k' := by
  obtain ⟨rfl, _, ht, -, hp⟩ := hs.of_run hrun
  obtain ⟨rfl, _, ht', -, hp'⟩ := hs.of_run hrun'
  rw [hturn, ht'] at ht
  obtain rfl := some.inj ht
  exact some.inj (hp.runId.symm.trans hp'.runId)

theorem Moved.active (hs : Pairs s) (h : Moved s turn turn' run run' s') : turn.status.isActive = true := by
  rw [(h.paired hs).1.status, RunStatus.turnStatus_isActive, h.live]
  rfl

/-- Moving a pair activates no turn. -/
theorem Moved.alone (hs : Conversing s) (h : Moved s turn turn' run run' s') (k k' : TurnId) (t t' : Turn)
    (hk : s'.turns.lookup k = some t) (hk' : s'.turns.lookup k' = some t')
    (hconversation : t.conversationId = t'.conversationId) (ht : t.status.isActive = true)
    (ht' : t'.status.isActive = true) : k = k' := by
  have hactive := h.active hs.pairs
  rw [h.written.turns, h.sameTurn.id] at hk hk'
  split at hk <;> split at hk'
  · next heq heq' => rw [heq, heq']
  · next heq hne =>
    obtain rfl := some.inj hk
    rw [heq]
    exact hs.alone _ _ _ _ h.storedTurn hk' (h.sameTurn.conversationId.symm.trans hconversation) hactive ht'
  · next hne heq =>
    obtain rfl := some.inj hk'
    rw [heq]
    exact hs.alone _ _ _ _ hk h.storedTurn (hconversation.trans h.sameTurn.conversationId) ht hactive
  · exact hs.alone k k' t t' hk hk' hconversation ht ht'

theorem Written.turns_isSome (h : Written s turn run s') (hturn : (s.turns.lookup turnId).isSome) :
    (s'.turns.lookup turnId).isSome := by
  rw [h.turns]
  split
  · rfl
  · exact hturn

theorem Conversing.same (hs : Conversing s) (h : SameRuns s s') : Conversing s' where
  pairs := hs.pairs.effect (.same h)
  alone k k' t t' hk hk' := by
    rw [h.turns] at hk hk'
    exact hs.alone k k' t t' hk hk'
  answered k run hrun hstatus := by
    rw [h.runs] at hrun
    simpa only [answerTo_congr h.messages] using hs.answered k run hrun hstatus
  unanswered k run hrun hstatus messageId := by
    rw [h.runs] at hrun
    rw [answerTo_congr h.messages]
    exact hs.unanswered k run hrun hstatus messageId
  texts k message hm := by
    rw [h.messages] at hm
    exact hs.texts k message hm
  turns k message turnId hm hturnId := by
    rw [h.messages] at hm
    rw [h.turns]
    exact hs.turns k message turnId hm hturnId
  numbered := numbered_congr hs.numbered h.messages h.sequences

theorem Conversing.submitted (hs : Conversing s) (h : Submitted s turn run message s') : Conversing s' := by
  have hanswer : ∀ turnId messageId, AnswerTo s' turnId messageId ↔ AnswerTo s turnId messageId := by
    intro turnId messageId
    rw [h.posted.answerTo]
    simp [h.role]
  constructor
  case pairs => exact hs.pairs.effect (.submitted turn run message h)
  case alone =>
    intro k k' t t' hk hk' hconversation ht ht'
    rw [h.written.turns] at hk hk'
    split at hk <;> split at hk'
    · next heq heq' => rw [heq, heq']
    · obtain rfl := some.inj hk
      rw [h.ended k' t' hk' hconversation.symm] at ht'
      simp at ht'
    · obtain rfl := some.inj hk'
      rw [h.ended k t hk hconversation] at ht
      simp at ht
    · exact hs.alone k k' t t' hk hk' hconversation ht ht'
  case answered =>
    intro k r hr hstatus
    rw [h.written.runs] at hr
    split at hr
    · obtain rfl := some.inj hr
      exact absurd hstatus h.unanswered
    · simpa only [hanswer] using hs.answered k r hr hstatus
  case unanswered =>
    intro k r hr hstatus messageId
    rw [hanswer]
    rw [h.written.runs] at hr
    split at hr
    · obtain rfl := some.inj hr
      -- No message names the turn before it exists.
      rintro ⟨_, hm, -, hturnId⟩
      have := hs.turns _ _ _ hm hturnId
      rw [h.paired.turnId, h.newTurn] at this
      simp at this
    · exact hs.unanswered k r hr hstatus messageId
  case texts =>
    intro k m hm hrole
    rw [h.posted.messages] at hm
    split at hm
    · obtain rfl := some.inj hm
      rw [h.role] at hrole
      simp at hrole
    · exact hs.texts k m hm hrole
  case turns =>
    intro k m turnId hm hturnId
    rw [h.posted.messages] at hm
    split at hm
    · obtain rfl := some.inj hm
      rw [h.turnId] at hturnId
      obtain rfl := some.inj hturnId
      simp [h.written.turns]
    · exact h.written.turns_isSome (hs.turns k m turnId hm hturnId)
  case numbered => exact h.posted.numbered hs.numbered

theorem Conversing.moved (hs : Conversing s) {turn turn' : Turn} {run run' : AgentRun}
    (h : Moved s turn turn' run run' s') (hunanswered : run'.status ≠ .succeeded)
    (hmessages : ∀ k, s'.messages.lookup k = s.messages.lookup k)
    (hsequences : ∀ k, s'.nextMessageSequence.lookup k = s.nextMessageSequence.lookup k) : Conversing s' := by
  have hlive : run.status ≠ .succeeded := by
    intro hstatus
    have := h.live
    simp [hstatus, RunStatus.isTerminal] at this
  constructor
  case pairs => exact hs.pairs.moved h
  case alone => exact h.alone hs
  case answered =>
    intro k r hr hstatus
    rw [h.written.runs] at hr
    split at hr
    · obtain rfl := some.inj hr
      exact absurd hstatus hunanswered
    · simpa only [answerTo_congr hmessages] using hs.answered k r hr hstatus
  case unanswered =>
    intro k r hr hstatus messageId
    rw [answerTo_congr hmessages]
    rw [h.written.runs] at hr
    split at hr
    · obtain rfl := some.inj hr
      rw [h.sameRun.turnId]
      exact hs.unanswered _ run h.storedRun hlive messageId
    · exact hs.unanswered k r hr hstatus messageId
  case texts =>
    intro k m hm
    rw [hmessages] at hm
    exact hs.texts k m hm
  case turns =>
    intro k m turnId hm hturnId
    rw [hmessages] at hm
    exact h.written.turns_isSome (hs.turns k m turnId hm hturnId)
  case numbered => exact numbered_congr hs.numbered hmessages hsequences

theorem Conversing.answer (hs : Conversing s) (h : Moved s turn turn' run run' s') (hstatus : run'.status = .succeeded)
    (hposted : Posted s message s') (hanswers : Answers message turn) : Conversing s' := by
  have hlive : run.status ≠ .succeeded := by
    intro hstatus
    have := h.live
    simp [hstatus, RunStatus.isTerminal] at this
  have hnone := hs.unanswered _ run h.storedRun hlive
  have hturnId : run'.turnId = turn.id := h.sameRun.turnId.trans h.turnId
  -- The answer belongs to the turn that moves, and to no other.
  have hother : ∀ k r, k ≠ run'.id → s.runs.lookup k = some r → ∀ messageId,
      AnswerTo s' r.turnId messageId ↔ AnswerTo s r.turnId messageId := by
    intro k r hne hr messageId
    rw [hposted.answerTo]
    apply or_iff_right
    rintro ⟨_, _, hturn⟩
    apply hne
    rw [hanswers.turnId] at hturn
    rw [h.sameRun.id]
    exact hs.pairs.run_unique hr h.storedRun ((some.inj hturn).symm.trans h.turnId.symm)
  constructor
  case pairs => exact hs.pairs.moved h
  case alone => exact h.alone hs
  case answered =>
    intro k r hr hsucceeded
    rw [h.written.runs] at hr
    split at hr
    · obtain rfl := some.inj hr
      refine ⟨message.id, ?_, fun messageId hmessage => ?_⟩
      · show AnswerTo s' run'.turnId message.id
        rw [hposted.answerTo, hturnId]
        exact .inl ⟨rfl, hanswers.role, hanswers.turnId⟩
      · rcases hposted.answerTo.mp hmessage with ⟨hid, -⟩ | hold
        · exact hid
        · rw [h.sameRun.turnId] at hold
          exact absurd hold (hnone messageId)
    · next hne => simpa only [hother k r hne hr] using hs.answered k r hr hsucceeded
  case unanswered =>
    intro k r hr hne messageId
    rw [h.written.runs] at hr
    split at hr
    · obtain rfl := some.inj hr
      exact absurd hstatus hne
    · next hk =>
      rw [hother k r hk hr]
      exact hs.unanswered k r hr hne messageId
  case texts =>
    intro k m hm hrole
    rw [hposted.messages] at hm
    split at hm
    · obtain rfl := some.inj hm
      obtain ⟨_, htext⟩ := hanswers.content
      exact ⟨by rw [htext, trim_trim], hanswers.nonempty, hanswers.length⟩
    · exact hs.texts k m hm hrole
  case turns =>
    intro k m turnId hm hm'
    rw [hposted.messages] at hm
    split at hm
    · obtain rfl := some.inj hm
      rw [hanswers.turnId] at hm'
      obtain rfl := some.inj hm'
      refine h.written.turns_isSome ?_
      rw [h.storedTurn]
      rfl
    · exact h.written.turns_isSome (hs.turns k m turnId hm hm')
  case numbered => exact hposted.numbered hs.numbered

theorem Conversing.effect (hs : Conversing s) (h : RunEffect s s') : Conversing s' := by
  cases h with
  | same h => exact hs.same h
  | submitted _ _ _ h => exact hs.submitted h
  | moved _ _ _ _ h hunanswered hm hq => exact hs.moved h hunanswered hm hq
  | answered _ _ _ _ _ h hstatus hposted hanswers => exact hs.answer h hstatus hposted hanswers

theorem Conversing.effects (hs : Conversing s) (h : Relation.ReflTransGen RunEffect s s') :
    Conversing s' ∧ Progress s s' := by
  induction h with
  | refl => exact ⟨hs, .refl s⟩
  | tail _ heffect ih => exact ⟨ih.1.effect heffect, ih.2.trans heffect.progress⟩

end Effects

/-! ### Events -/

/-- The events a conversation has seen. -/
def eventsOf (s : AgentState) (id : ConversationId) : List ConversationEvent :=
  (s.events.lookup id).getD []

/-- Conversations sit under their identifiers, and the events of each carry their positions. -/
structure Logged (s : AgentState) : Prop where
  keyed : ConversationsKeyed s
  numbered : ∀ id, NumberedList (·.sequence) (eventsOf s id)
  counted : ∀ id, (s.nextEventSequence.lookup id).getD 0 = (eventsOf s id).length

section Events

theorem logged_default : Logged AgentState.default := by
  constructor
  · intro k conversation h
    simp [AgentState.default] at h
  · intro id
    exact .nil
  · intro id
    rfl

variable {s : AgentState}

/-- An event takes the next number of its conversation. -/
theorem emit_logged (conversation : Conversation) (eventType : String) (turnId : Option TurnId)
    (runId : Option RunId) (payload : EventPayload) (stamp : EventStamp) :
    (emit conversation eventType turnId runId payload stamp).Preserves Logged := by
  refine .modify fun s hs => ?_
  have hnext : nextSequence s.nextEventSequence conversation.id = (eventsOf s conversation.id).length + 1 := by
    rw [← hs.counted, nextSequence]
    cases s.nextEventSequence.lookup conversation.id <;> simp
  refine ⟨hs.keyed, fun id => ?_, fun id => ?_⟩
  · simp only [eventsOf, lookup_insert]
    split
    · exact (hs.numbered conversation.id).concat hnext
    · exact hs.numbered id
  · simp only [eventsOf, lookup_insert]
    split
    · simp only [getD_some, hnext, length_append, length_singleton]
      rfl
    · exact hs.counted id

theorem insertConversation_logged (conversation : Conversation) (hs : Logged s) :
    Logged (s.insertConversation conversation) := by
  refine ⟨fun k c hc => ?_, hs.numbered, hs.counted⟩
  simp only [insertConversation, lookup_insert] at hc
  split at hc
  · next heq =>
    obtain rfl := some.inj hc
    exact heq.symm
  · exact hs.keyed k c hc

theorem logged_closed : LifecycleClosed Logged where
  conversation _ _ hs := insertConversation_logged _ hs
  turn _ _ hs := ⟨hs.keyed, hs.numbered, hs.counted⟩
  started _ _ _ hs := ⟨hs.keyed, hs.numbered, hs.counted⟩
  run _ _ hs := ⟨hs.keyed, hs.numbered, hs.counted⟩
  message _ _ hs := ⟨hs.keyed, hs.numbered, hs.counted⟩
  submission _ _ hs := ⟨hs.keyed, hs.numbered, hs.counted⟩
  event := emit_logged

/-- Every call keeps the numbers of the events. -/
theorem run_logged (call : AgentCall) : (run call).Preserves Logged := by
  cases hcall : call.onToolCalls with
  | false => exact logged_closed.preserves hcall
  | true => exact toolCalls_preserve (fun _ _ hs => ⟨hs.keyed, hs.numbered, hs.counted⟩) hcall

theorem step_logged {s' : AgentState} {e : AgentEvent} (hs : Logged s) (h : agentMachine.step s e s') : Logged s' := by
  refine callMachine.step_preserves run_logged (fun s s' hs h => ?_) hs h
  obtain ⟨-, -, hrest⟩ := h
  rw [hrest]
  exact ⟨hs.keyed, hs.numbered, hs.counted⟩

end Events

/-! ### Runs of the repository -/

/-- The run that an event has handed to an executor. -/
def AgentEvent.begun : AgentEvent → Option RunId
  | .call (.beginRun _ runId _ _) (.ok (.begun (some _))) => some runId
  | _ => none

/-- The runs handed to executors, in order. -/
def begunRuns (h : List AgentEvent) : List RunId :=
  h.filterMap AgentEvent.begun

variable {s : AgentState}

variable {s' : AgentState} {e : AgentEvent} {h : List AgentEvent}

/-- A run that is handed out was queued and is queued no more. -/
theorem step_begun {runId : RunId} (hs : Pairs s) (h : agentMachine.step s e s') (hbegun : e.begun = some runId) :
    (∃ run, s.runs.lookup runId = some run ∧ run.status = .queued)
      ∧ ∃ run, s'.runs.lookup runId = some run ∧ run.status ≠ .queued := by
  unfold AgentEvent.begun at hbegun
  split at hbegun
  · obtain rfl := some.inj hbegun
    obtain ⟨_, hret, hreply⟩ := Op.returns_map.mp h
    rcases beginRun_cases hs hret with ⟨rfl, -⟩ | ⟨turn, run, -, hrun, rfl, hqueued, -, -, hmoved, -⟩
    · simp at hreply
    · refine ⟨⟨run, hrun, hqueued⟩, _, ?_, hmoved.requeued⟩
      rw [hmoved.written.runs]
      exact if_pos hmoved.sameRun.id.symm
  · simp at hbegun

/-- What holds of the store after some steps, and of the runs they have handed out. -/
structure AgentHistory (h : List AgentEvent) (s : AgentState) : Prop where
  logged : Logged s
  conversing : Conversing s
  nodup : (begunRuns h).Nodup
  begun : ∀ runId ∈ begunRuns h, ∃ run, s.runs.lookup runId = some run ∧ run.status ≠ .queued

theorem AgentHistory.step (hs : AgentHistory h s)
    (hstep : (agentMachine.restrict FreshIds).step s e s') : AgentHistory (h ++ [e]) s' := by
  obtain ⟨hfresh, hstep⟩ := hstep
  obtain ⟨hconversing, hprogress⟩ := hs.conversing.effects
    (step_runEffects hs.conversing.pairs hs.logged.keyed hfresh hstep)
  have hkept : ∀ runId ∈ begunRuns h, ∃ run, s'.runs.lookup runId = some run ∧ run.status ≠ .queued := by
    intro runId hrunId
    obtain ⟨run, hrun, hne⟩ := hs.begun runId hrunId
    obtain ⟨run', hrun', -, hbegun⟩ := hprogress runId run hrun
    exact ⟨run', hrun', hbegun hne⟩
  refine ⟨step_logged hs.logged hstep, hconversing, ?_, ?_⟩
  all_goals
    rw [begunRuns, filterMap_append, filterMap_cons, filterMap_nil]
    cases hbegun : e.begun with
    | none => rw [append_nil]; first | exact hs.nodup | exact hkept
    | some runId =>
      obtain ⟨⟨_, hrun, hqueued⟩, hafter⟩ := step_begun hs.conversing.pairs hstep hbegun
      first
      | refine List.Nodup.append hs.nodup (nodup_singleton _) ?_
        rw [disjoint_singleton]
        intro hmem
        obtain ⟨_, hrun', hne⟩ := hs.begun runId hmem
        rw [hrun] at hrun'
        exact hne (some.inj hrun' ▸ hqueued)
      | intro runId' hmem
        rcases mem_append.mp hmem with hold | hnew
        · exact hkept runId' hold
        · rw [mem_singleton.mp hnew]
          exact hafter

theorem run_history (hr : (agentMachine.restrict FreshIds).Run AgentState.default h s) : AgentHistory h s :=
  hr.history (fun _ _ _ _ hs hstep => hs.step hstep)
    ⟨logged_default, conversing_default, nodup_nil, by simp [begunRuns]⟩

theorem run_progress {h' : List AgentEvent} (hr : (agentMachine.restrict FreshIds).Run AgentState.default h s)
    (hr' : (agentMachine.restrict FreshIds).Run s h' s') : Progress s s' := by
  refine hr'.relates (I := fun s => Logged s ∧ Conversing s) (fun _ _ _ hs hstep => ?_) .refl (fun _ _ _ => .trans)
    (fun _ _ _ hs hstep => ?_) ⟨(run_history hr).logged, (run_history hr).conversing⟩
  · exact ⟨step_logged hs.1 hstep.2, (hs.2.effects (step_runEffects hs.2.pairs hs.1.keyed hstep.1 hstep.2)).1⟩
  · exact (hs.2.effects (step_runEffects hs.2.pairs hs.1.keyed hstep.1 hstep.2)).2

/-- Every run of the repository, as long as new identifiers are new: a turn has one run, of the same
status; a conversation has one active turn at most; a run that has ended stays; a run has exactly one
answer when it succeeded and none otherwise; messages and events are numbered from one; and no run is
handed out twice. -/
theorem agentRuns_lifecycle {h : List AgentEvent} {s : AgentState}
    (hr : (agentMachine.restrict FreshIds).Run AgentState.default h s) :
    (∀ turnId turn, s.turns.lookup turnId = some turn →
      ∃ run, s.runs.lookup run.id = some run ∧ run.turnId = turnId ∧ turn.status = run.status.turnStatus
        ∧ ∀ runId run', s.runs.lookup runId = some run' → run'.turnId = turnId → runId = run.id)
    ∧ (∀ turnId turnId' turn turn', s.turns.lookup turnId = some turn →
      s.turns.lookup turnId' = some turn' → turn.conversationId = turn'.conversationId →
      turn.status = .queued ∨ turn.status = .running →
      turn'.status = .queued ∨ turn'.status = .running → turnId = turnId')
    ∧ (∀ h' s', (agentMachine.restrict FreshIds).Run s h' s' → ∀ runId run, s.runs.lookup runId = some run →
      run.status = .succeeded ∨ run.status = .failed ∨ run.status = .cancelled →
      s'.runs.lookup runId = some run)
    ∧ (∀ runId run, s.runs.lookup runId = some run →
      (run.status = .succeeded ↔ ∃ messageId message,
        s.messages.lookup messageId = some message ∧ AnswerTo s run.turnId messageId ∧ AnswerText message.content
          ∧ ∀ messageId', AnswerTo s run.turnId messageId' → messageId' = messageId)
      ∧ (run.status ≠ .succeeded → ∀ messageId, ¬ AnswerTo s run.turnId messageId))
    ∧ (∀ id, ∃ n, Numbered (MessageNumber s id) n)
    ∧ (∀ id, NumberedList (·.sequence) (eventsOf s id))
    ∧ (begunRuns h).Nodup := by
  obtain ⟨hlogged, hs, hnodup, -⟩ := run_history hr
  refine ⟨fun turnId turn hturn => ?_, fun turnId turnId' turn turn' hturn hturn' heq hq hq' => ?_,
    fun h' s' hr' runId run hrun hended => ?_, fun runId run hrun => ⟨⟨fun hstatus => ?_, ?_⟩,
    hs.unanswered runId run hrun⟩, fun id => ⟨_, hs.numbered id⟩, hlogged.numbered, hnodup⟩
  · obtain ⟨run, hrun, hpaired⟩ := hs.pairs.runOf turnId turn hturn
    have hid : run.turnId = turnId := hpaired.turnId.trans (hs.pairs.turnKey turnId turn hturn)
    exact ⟨run, hrun, hid, hpaired.status, fun runId run' hrun' hid' =>
      hs.pairs.run_unique hrun' hrun (hid'.trans hid.symm)⟩
  · exact hs.alone turnId turnId' turn turn' hturn hturn' heq (by simpa [TurnStatus.isActive] using hq)
      (by simpa [TurnStatus.isActive] using hq')
  · obtain ⟨_, hrun', hsame, -⟩ := run_progress hr hr' runId run hrun
    rw [hrun', hsame (by simpa [RunStatus.isTerminal] using hended)]
  · obtain ⟨messageId, hanswer, hunique⟩ := hs.answered runId run hrun hstatus
    obtain ⟨message, hmessage, hrole, hturn⟩ := hanswer
    exact ⟨messageId, message, hmessage, ⟨message, hmessage, hrole, hturn⟩,
      hs.texts messageId message hmessage hrole, hunique⟩
  · rintro ⟨messageId, _, -, hanswer, -, -⟩
    by_contra hstatus
    exact hs.unanswered runId run hrun hstatus messageId hanswer

namespace Sample

/-- The events of a run are stamped alike. -/
def stamp : EventStamp :=
  { id := ⟨uuid 90⟩, occurredAt := 5 }

/-- A conversation with one turn that has been answered. -/
def answeredTurn : List AgentCall :=
  [.createConversation scope none { title := none } ⟨uuid 10⟩ 1 stamp,
    .appendMessage scope ⟨uuid 10⟩ { content := " hello ", attachments := [], metadata := .null }
      "key" "hash" { status := .available, runtime := "r", version := none, reason := none }
      { turnId := ⟨uuid 11⟩, runId := ⟨uuid 12⟩, messageId := ⟨uuid 13⟩, now := 2, failedAt := 2
        created := stamp, accepted := stamp, failed := stamp },
    .beginRun scope ⟨uuid 12⟩ 3 stamp,
    .finishRun scope ⟨uuid 12⟩ (.succeeded "answer" .null)
      { messageId := ⟨uuid 14⟩, now := 4, created := stamp, finished := stamp }]

theorem answeredTurn_fresh : Calls.Allowed MemoryAgentRepository.run FreshIds AgentState.default answeredTurn := by
  have hanswer : (after MemoryAgentRepository.run AgentState.default
      (answeredTurn.take 3)).messages.lookup ⟨uuid 14⟩ = none := by
    decide +kernel
  refine ⟨trivial, ⟨?_, ?_, ?_⟩, trivial, hanswer, trivial⟩ <;> decide +kernel

end Sample

open Sample

theorem agentRuns_lifecycle_answered :
    ∃ run, (Calls.after MemoryAgentRepository.run AgentState.default answeredTurn).runs.lookup
        ⟨uuid 12⟩ = some run
      ∧ run.status = .succeeded
      ∧ ∃ messageId, AnswerTo (Calls.after MemoryAgentRepository.run AgentState.default
        answeredTurn) run.turnId messageId := by
  have hrun : (agentMachine.restrict FreshIds).Run AgentState.default _ _ :=
    run_trace answeredTurn AgentState.default answeredTurn_fresh
  obtain ⟨run, hlookup, hstatus⟩ : ∃ run, (after MemoryAgentRepository.run AgentState.default
      answeredTurn).runs.lookup ⟨uuid 12⟩ = some run ∧ run.status = .succeeded := by
    refine map_eq_some_iff.mp ?_
    decide +kernel
  obtain ⟨messageId, -, -, hanswer, -⟩ := ((agentRuns_lifecycle hrun).2.2.2.1 _ run hlookup).1.mp hstatus
  exact ⟨run, hlookup, hstatus, messageId, hanswer⟩

end GeoMaster
