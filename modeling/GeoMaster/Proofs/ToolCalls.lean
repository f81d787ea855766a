import GeoMaster.Proofs.AgentSteps

/-!
# A tool call is attempted at most once

The ledger files one entry for each tool call of a run, and the caller to whom the entry's move to
`attempted` is reported may send the call out. `CallStep` says every move an entry can make; the ledger
never forgets an entry, so a move that is made is made for good. The lifecycle of runs goes on beside
it: all the ledger reads of a run is its identity, its scope and whether it is running.
-/

namespace GeoMaster

open MemoryAgentRepository Option AssocMap

/-- What no call changes of an entry. -/
structure SameCall (entry entry' : ToolCallLedgerEntry) : Prop where
  id : entry'.id = entry.id
  runId : entry'.runId = entry.runId
  turnId : entry'.turnId = entry.turnId
  conversationId : entry'.conversationId = entry.conversationId
  operatorId : entry'.operatorId = entry.operatorId
  tenantId : entry'.tenantId = entry.tenantId
  projectId : entry'.projectId = entry.projectId
  toolCallId : entry'.toolCallId = entry.toolCallId
  toolName : entry'.toolName = entry.toolName
  argumentsHash : entry'.argumentsHash = entry.argumentsHash
  idempotencyKeyHash : entry'.idempotencyKeyHash = entry.idempotencyKeyHash
  permission : entry'.permission = entry.permission
  budget : entry'.budget = entry.budget
  intent : entry'.intent = entry.intent
  createdAt : entry'.createdAt = entry.createdAt

/-- Whether an outcome closes an entry. -/
def ToolCallOutcome.isTerminal (outcome : ToolCallOutcome) : Bool :=
  outcome = .succeeded ∨ outcome = .failed ∨ outcome = .unknown

/-- An entry before and after one step of the repository. -/
inductive CallStep (entry entry' : ToolCallLedgerEntry) : Prop where
  | same (h : entry' = entry)
  | attempted (intent : entry.outcome = .intent) (before : entry.attemptCount = 0)
      (outcome : entry'.outcome = .attempted) (after : entry'.attemptCount = 1)
      (permission : entry.permission = .allowed) (budget : entry.budget = .allowed) (call : SameCall entry entry')
  | finished (attempted : entry.outcome = .attempted) (before : entry.attemptCount = 1)
      (outcome : entry'.outcome.isTerminal = true) (after : entry'.attemptCount = 1) (call : SameCall entry entry')

theorem SameCall.refl (entry : ToolCallLedgerEntry) : SameCall entry entry := by
  constructor <;> rfl

variable {a b c entry' : ToolCallLedgerEntry}

theorem SameCall.trans (h : SameCall a b) (h' : SameCall b c) : SameCall a c where
  id := h'.id.trans h.id
  runId := h'.runId.trans h.runId
  turnId := h'.turnId.trans h.turnId
  conversationId := h'.conversationId.trans h.conversationId
  operatorId := h'.operatorId.trans h.operatorId
  tenantId := h'.tenantId.trans h.tenantId
  projectId := h'.projectId.trans h.projectId
  toolCallId := h'.toolCallId.trans h.toolCallId
  toolName := h'.toolName.trans h.toolName
  argumentsHash := h'.argumentsHash.trans h.argumentsHash
  idempotencyKeyHash := h'.idempotencyKeyHash.trans h.idempotencyKeyHash
  permission := h'.permission.trans h.permission
  budget := h'.budget.trans h.budget
  intent := h'.intent.trans h.intent
  createdAt := h'.createdAt.trans h.createdAt

variable {entry : ToolCallLedgerEntry} {h : List AgentEvent} {s s' : AgentState}

theorem CallStep.sameCall (h : CallStep entry entry') : SameCall entry entry' := by
  cases h with
  | same h => exact h ▸ .refl entry
  | attempted _ _ _ _ _ _ call => exact call
  | finished _ _ _ _ call => exact call

/-- A closed entry stays as it is. -/
theorem CallStep.terminal (h : CallStep entry entry')
    (hterminal : entry.outcome.isTerminal = true) : entry' = entry := by
  cases h with
  | same h => exact h
  | attempted hintent => simp [hintent, ToolCallOutcome.isTerminal] at hterminal
  | finished hattempted => simp [hattempted, ToolCallOutcome.isTerminal] at hterminal

/-- Where an entry is that was opened as an intent. -/
def Staged (entry : ToolCallLedgerEntry) : Prop :=
  (entry.outcome = .intent ∧ entry.attemptCount = 0) ∨ (entry.outcome = .attempted ∧ entry.attemptCount = 1)
    ∨ (entry.outcome.isTerminal = true ∧ entry.attemptCount = 1)

theorem CallStep.staged (h : CallStep entry entry') (hs : Staged entry) : Staged entry' := by
  cases h with
  | same h => exact h ▸ hs
  | attempted _ _ houtcome hafter => exact .inr (.inl ⟨houtcome, hafter⟩)
  | finished _ _ houtcome hafter => exact .inr (.inr ⟨houtcome, hafter⟩)

/-- Runs and entries sit under their keys. -/
structure LedgerKeyed (s : AgentState) : Prop where
  runs : ∀ k run, s.runs.lookup k = some run → run.id = k
  calls : ∀ k entry, s.toolCalls.lookup k = some entry → (entry.runId, entry.toolCallId) = k

/-- Every entry makes one step at most, and none goes missing. -/
def CallsStep (s s' : AgentState) : Prop :=
  ∀ k entry, s.toolCalls.lookup k = some entry → ∃ entry', s'.toolCalls.lookup k = some entry' ∧ CallStep entry entry'

section Returns

variable {s s' : AgentState}

variable {entry : ToolCallLedgerEntry} {identity : ToolCallIdentity} {now : DateTime} {scope : TenantScope}

variable {run : AgentRun} {input : RecordToolCall} {id : ToolCallLedgerId}

theorem returns_visibleRun {runId : RunId} :
    Op.Returns (visibleRun scope runId) s run s'
      ↔ (s.runs.lookup runId = some run ∧ scope.contains run.scope = true) ∧ s = s' := by
  simp [visibleRun, returns_findRun, filter_eq_some_iff]

theorem returns_toolCall {runId : RunId} {toolCallId : String} {found : Option ToolCallLedgerEntry} :
    Op.Returns (toolCall runId toolCallId) s found s' ↔ s.toolCalls.lookup (runId, toolCallId) = found ∧ s = s' := by
  simp [toolCall]

/-- The key a caller names. -/
def ToolCallIdentity.key (identity : ToolCallIdentity) : RunId × String :=
  (identity.runId, identity.toolCallId)

/-- A call that is let through: its entry was an allowed intent, and its run is running. -/
structure Granted (s : AgentState) (key : RunId × String) (s' : AgentState) : Prop where
  entry : ∃ entry entry', s.toolCalls.lookup key = some entry ∧ entry.outcome = .intent ∧ entry.attemptCount = 0
    ∧ entry.permission = .allowed ∧ entry.budget = .allowed ∧ entry'.outcome = .attempted ∧ entry'.attemptCount = 1
    ∧ SameCall entry entry' ∧ ∀ k, s'.toolCalls.lookup k = if k = key then some entry' else s.toolCalls.lookup k
  running : ∃ run, s.runs.lookup key.1 = some run ∧ run.status = .running

theorem attemptToolCall_cases (hs : LedgerKeyed s) {granted : Bool}
    (h : Op.Returns (attemptToolCall scope identity now) s granted s') :
    (granted = false ∧ s' = s) ∨ (granted = true ∧ Granted s identity.key s') := by
  simp only [attemptToolCall, Op.returns_iff, returns_visibleRun, returns_toolCall] at h
  obtain ⟨_, _, ⟨-, rfl⟩, run, _, ⟨⟨hrun, -⟩, rfl⟩, _, _, ⟨rfl, rfl⟩, entry, _, ⟨hentry, rfl⟩, _, _, ⟨-, rfl⟩, h⟩ := h
  have hid := hs.runs _ _ hrun
  split at h
  · obtain ⟨rfl, rfl⟩ := Op.returns_pure.mp h
    exact .inl ⟨rfl, rfl⟩
  · next hintent =>
    simp only [Op.returns_iff, validateToolCallAuthorized, Except.failIf_eq_ok] at h
    obtain ⟨_, _, ⟨hcount, rfl⟩, _, _, ⟨hallowed, rfl⟩, _, _, ⟨hrunning, rfl⟩, _, _, rfl, rfl, rfl⟩ := h
    push Not at hintent hcount hallowed hrunning
    rw [hid] at hentry ⊢
    refine .inr ⟨rfl, ⟨entry, _, hentry, hintent, hcount, hallowed.1, hallowed.2, ?_, ?_, ?_,
      fun k => lookup_insert ..⟩, run, hrun, hrunning⟩
    · rfl
    · rfl
    · constructor <;> rfl

/-- A completion repeats what is recorded, or closes an attempted entry. -/
theorem finishToolCall_cases (hs : LedgerKeyed s) {outcome : ToolCallOutcome} {entry' : ToolCallLedgerEntry}
    (h : Op.Returns (finishToolCall scope identity outcome now) s entry' s') :
    (validateToolCallIdentity identity = .ok () ∧ validateToolCallFinish outcome = .ok ()
      ∧ outcome.isTerminal = true ∧ identity.matches entry' = true)
    ∧ ∃ entry, s.toolCalls.lookup identity.key = some entry
      ∧ ((entry.outcome = outcome ∧ entry.attemptCount = 1 ∧ entry' = entry ∧ s' = s)
        ∨ (entry.outcome = .attempted ∧ entry.attemptCount = 1 ∧ entry' = { entry with outcome, updatedAt := now }
          ∧ ∀ k, s'.toolCalls.lookup k = if k = identity.key then some entry' else s.toolCalls.lookup k)) := by
  simp only [finishToolCall, Op.returns_iff, returns_visibleRun, returns_toolCall] at h
  obtain ⟨_, _, ⟨hidentity, rfl⟩, _, _, ⟨hfinish, rfl⟩, run, _, ⟨⟨hrun, -⟩, rfl⟩, _, _, ⟨rfl, rfl⟩,
    entry, _, ⟨hentry, rfl⟩, _, _, ⟨hmatches, rfl⟩, h⟩ := h
  have hid := hs.runs _ _ hrun
  have hmatches : identity.matches entry = true := by simpa using hmatches
  have hterminal : outcome.isTerminal = true := by
    rw [validateToolCallFinish, Except.failIf_eq_ok, not_not] at hfinish
    simpa [ToolCallOutcome.isTerminal] using hfinish
  rw [hid] at hentry
  split at h
  · next hrecorded =>
    obtain ⟨rfl, rfl⟩ := Op.returns_pure.mp h
    exact ⟨⟨hidentity, hfinish, hterminal, hmatches⟩, entry, hentry, .inl ⟨hrecorded.1, hrecorded.2, rfl, rfl⟩⟩
  · simp only [Op.returns_iff, not_or, not_not] at h
    obtain ⟨_, _, ⟨⟨hattempted, hcount⟩, rfl⟩, _, _, rfl, rfl, rfl⟩ := h
    refine ⟨⟨hidentity, hfinish, hterminal, hmatches⟩, entry, hentry, .inr ⟨hattempted, hcount, rfl, fun k => ?_⟩⟩
    rw [hid]
    exact lookup_insert ..

/-- What is recorded may be reported again by whoever sees the run. -/
theorem finishToolCall_again (hs : LedgerKeyed s) (hidentity : validateToolCallIdentity identity = .ok ())
    (hfinish : validateToolCallFinish entry.outcome = .ok ()) (hmatches : identity.matches entry = true)
    (hcount : entry.attemptCount = 1) (hentry : s.toolCalls.lookup identity.key = some entry)
    (hrun : s.runs.lookup identity.runId = some run) (hscope : scope.contains run.scope = true) : Op.Returns
    (finishToolCall scope identity entry.outcome now) s entry s := by
  have hid := hs.runs _ _ hrun
  simp only [finishToolCall, Op.returns_iff, returns_visibleRun, returns_toolCall]
  refine ⟨(), s, ⟨hidentity, rfl⟩, (), s, ⟨hfinish, rfl⟩, run, s, ⟨⟨hrun, hscope⟩, rfl⟩, some entry,
    s, ⟨?_, rfl⟩, entry, s, ⟨rfl, rfl⟩, (), s, ⟨by simp [hmatches], rfl⟩, ?_⟩
  · rw [hid]
    exact hentry
  · rw [if_pos ⟨rfl, hcount⟩]
    simp

/-- An entry that is new under its key. -/
structure Recorded (s : AgentState) (entry : ToolCallLedgerEntry) (s' : AgentState) : Prop where
  absent : s.toolCalls.lookup (entry.runId, entry.toolCallId) = none
  calls : ∀ k, s'.toolCalls.lookup k = if k = (entry.runId, entry.toolCallId) then some entry else s.toolCalls.lookup k

theorem appendToolCall_cases
    (h : Op.Returns (appendToolCall scope input id now) s entry s') : s' = s ∨ Recorded s entry s' := by
  simp only [appendToolCall, Op.returns_iff, returns_visibleRun, returns_toolCall] at h
  obtain ⟨_, _, ⟨-, rfl⟩, _, _, ⟨-, rfl⟩, _, _, ⟨hexisting, rfl⟩, h⟩ := h
  split at h
  · simp only [Op.returns_iff] at h
    obtain ⟨_, _, ⟨-, rfl⟩, -, rfl⟩ := h
    exact .inl rfl
  · simp only [Op.returns_iff] at h
    obtain ⟨_, _, rfl, rfl, rfl⟩ := h
    exact .inr ⟨hexisting, fun k => lookup_insert ..⟩

/-- An intent is new, or was recorded before. -/
theorem beginToolCall_cases (hs : LedgerKeyed s) (h : Op.Returns (beginToolCall scope input id now) s entry s') :
    (s' = s ∧ s.toolCalls.lookup (entry.runId, entry.toolCallId) = some entry)
      ∨ Recorded s entry s' ∧ entry.outcome = .intent ∧ entry.attemptCount = 0 := by
  simp only [beginToolCall, Op.returns_iff, returns_visibleRun, returns_toolCall] at h
  obtain ⟨_, _, ⟨-, rfl⟩, _, _, ⟨-, rfl⟩, _, _, ⟨hexisting, rfl⟩, h⟩ := h
  split at h
  · next entry' =>
    simp only [Op.returns_iff] at h
    obtain ⟨_, _, ⟨-, rfl⟩, rfl, rfl⟩ := h
    refine .inl ⟨rfl, ?_⟩
    rw [hs.calls _ _ hexisting]
    exact hexisting
  · simp only [Op.returns_iff] at h
    obtain ⟨_, _, ⟨-, rfl⟩, _, _, rfl, rfl, rfl⟩ := h
    exact .inr ⟨⟨hexisting, fun k => lookup_insert ..⟩, rfl, rfl⟩

end Returns

/-! ### Every step -/

theorem toolCalls_kept {call : AgentCall} (h : call.onToolCalls = false) :
    (run call).Keeps (·.toolCalls) := by
  refine .of_preserves fun calls => LifecycleClosed.preserves ?_ h
  exact
    { conversation := fun _ _ hs => hs
      turn := fun _ _ hs => hs
      started := fun _ _ _ hs => hs
      run := fun _ _ hs => hs
      message := fun _ _ hs => hs
      submission := fun _ _ hs => hs
      event := fun _ _ _ _ _ _ => .modify fun _ hs => hs }

/-- What a step does to the ledger. -/
inductive CallsEffect (s s' : AgentState) : Prop where
  | same (h : ∀ k, s'.toolCalls.lookup k = s.toolCalls.lookup k)
  | recorded (entry : ToolCallLedgerEntry) (h : Recorded s entry s')
  | stepped (key : RunId × String) (entry entry' : ToolCallLedgerEntry)
      (stored : s.toolCalls.lookup key = some entry) (h : CallStep entry entry')
      (calls : ∀ k, s'.toolCalls.lookup k = if k = key then some entry' else s.toolCalls.lookup k)

section Steps

variable {s s' : AgentState} {e : AgentEvent}

theorem Granted.effect {key : RunId × String} (h : Granted s key s') : CallsEffect s s' := by
  obtain ⟨⟨entry, entry', hentry, hintent, hcount, hpermission, hbudget, houtcome, hafter, hsame, hcalls⟩, -⟩ := h
  exact .stepped key entry entry' hentry (.attempted hintent hcount houtcome hafter hpermission hbudget hsame) hcalls

theorem step_callsEffect (hs : LedgerKeyed s) (h : agentMachine.step s e s') : CallsEffect s s' := by
  cases e with
  | reorder =>
    obtain ⟨-, -, hrest⟩ := h
    exact .same fun k => by rw [hrest]
  | call call reply =>
    cases reply with
    | error err =>
      obtain rfl := callMachine.step_failed (run_atomic call) h
      exact .same fun _ => rfl
    | ok reply =>
      by_cases htool : call.onToolCalls = false
      · exact .same fun k => by rw [(toolCalls_kept htool).returns h]
      cases call
      all_goals first | exact absurd rfl htool | skip
      all_goals obtain ⟨_, hret, rfl⟩ := Op.returns_map.mp h
      case appendToolCall =>
        rcases appendToolCall_cases hret with rfl | hrecorded
        · exact .same fun _ => rfl
        · exact .recorded _ hrecorded
      case beginToolCall =>
        rcases beginToolCall_cases hs hret with ⟨rfl, -⟩ | ⟨hrecorded, -⟩
        · exact .same fun _ => rfl
        · exact .recorded _ hrecorded
      case attemptToolCall =>
        rcases attemptToolCall_cases hs hret with ⟨-, rfl⟩ | ⟨-, hgranted⟩
        · exact .same fun _ => rfl
        · exact hgranted.effect
      case finishToolCall =>
        obtain ⟨⟨-, -, hterminal, -⟩, entry, hentry, hcase⟩ := finishToolCall_cases hs hret
        rcases hcase with ⟨-, -, -, rfl⟩ | ⟨hattempted, hcount, heq, hcalls⟩
        · exact .same fun _ => rfl
        · refine .stepped _ entry _ hentry ?_ hcalls
          rw [heq]
          exact .finished hattempted hcount hterminal hcount (by constructor <;> rfl)

theorem CallsEffect.step (h : CallsEffect s s') : CallsStep s s' := by
  intro k entry hentry
  cases h with
  | same h => exact ⟨entry, by rw [h, hentry], .same rfl⟩
  | recorded entry' h =>
    refine ⟨entry, ?_, .same rfl⟩
    rw [h.calls, if_neg, hentry]
    rintro rfl
    rw [h.absent] at hentry
    simp at hentry
  | stepped key _ entry' stored h calls =>
    rw [calls]
    by_cases hk : k = key
    · subst hk
      rw [stored] at hentry
      obtain rfl := some.inj hentry
      exact ⟨entry', by simp, h⟩
    · exact ⟨entry, by simp [hk, hentry], .same rfl⟩

/-- Runs sit under their identifiers. -/
def RunsKeyed (s : AgentState) : Prop :=
  ∀ k run, s.runs.lookup k = some run → run.id = k

theorem insertRun_keyed (run : AgentRun) (hs : RunsKeyed s) : RunsKeyed (s.insertRun run) := by
  intro k r hr
  simp only [AgentState.insertRun, lookup_insert] at hr
  split at hr
  · next heq =>
    obtain rfl := some.inj hr
    exact heq.symm
  · exact hs k r hr

theorem runsKeyed_closed : LifecycleClosed RunsKeyed where
  conversation _ _ hs := hs
  turn _ _ hs := hs
  started _ _ _ hs := hs
  run _ _ hs := insertRun_keyed _ hs
  message _ _ hs := hs
  submission _ _ hs := hs
  event _ _ _ _ _ _ := .modify fun _ hs => hs

theorem run_runsKeyed (call : AgentCall) : (run call).Preserves RunsKeyed := by
  cases hcall : call.onToolCalls with
  | false => exact runsKeyed_closed.preserves hcall
  | true => exact toolCalls_preserve (fun _ _ hs => hs) hcall

theorem step_ledgerKeyed (hs : LedgerKeyed s) (h : agentMachine.step s e s') : LedgerKeyed s' := by
  constructor
  · refine callMachine.step_preserves (I := RunsKeyed) run_runsKeyed (fun s s' hs h => ?_) hs.runs h
    intro k run hrun
    rw [← h.runs.lookup_eq] at hrun
    exact hs k run hrun
  · intro k entry hentry
    cases step_callsEffect hs h with
    | same h =>
      rw [h] at hentry
      exact hs.calls k entry hentry
    | recorded entry' h =>
      rw [h.calls] at hentry
      split at hentry
      · next heq =>
        obtain rfl := some.inj hentry
        exact heq.symm
      · exact hs.calls k entry hentry
    | stepped _ _ _ stored h calls =>
      rw [calls] at hentry
      split at hentry
      · next heq =>
        obtain rfl := some.inj hentry
        rw [heq, ← hs.calls _ _ stored, h.sameCall.runId, h.sameCall.toolCallId]
      · exact hs.calls k entry hentry

end Steps

/-! ### Runs of the repository -/

/-- The entry at the end of a run comes from the entry at its start. -/
structure CallRun (entry entry' : ToolCallLedgerEntry) : Prop where
  call : SameCall entry entry'
  terminal : entry.outcome.isTerminal = true → entry' = entry
  staged : Staged entry → Staged entry'

theorem CallRun.step (h : CallRun a b) (h' : CallStep b c) : CallRun a c where
  call := h.call.trans h'.sameCall
  terminal hterminal := by
    obtain rfl := h.terminal hterminal
    exact h'.terminal hterminal
  staged hs := h'.staged (h.staged hs)

theorem run_ledgerKeyed (hs : LedgerKeyed s) (hr : agentMachine.Run s h s') : LedgerKeyed s' :=
  hr.invariant (fun _ _ _ hs hstep => step_ledgerKeyed hs hstep) hs

theorem ledgerKeyed_default : LedgerKeyed AgentState.default := by
  constructor <;> intro k v hv <;> simp [AgentState.default] at hv

theorem run_calls (hs : LedgerKeyed s) (hr : agentMachine.Run s h s') {k : RunId × String}
    (hentry : s.toolCalls.lookup k = some entry) :
    ∃ entry', s'.toolCalls.lookup k = some entry' ∧ CallRun entry entry' := by
  induction hr with
  | refl => exact ⟨entry, hentry, .refl entry, fun _ => rfl, id⟩
  | tail hr' hstep ih =>
    obtain ⟨entry', hentry', hrun⟩ := ih
    obtain ⟨entry'', hentry'', hcall⟩ := (step_callsEffect (run_ledgerKeyed hs hr') hstep).step k entry' hentry'
    exact ⟨entry'', hentry'', hrun.step hcall⟩

/-- The call that an event has let through. -/
def AgentEvent.granted : AgentEvent → Option (RunId × String)
  | .call (.attemptToolCall _ identity _) (.ok (.attempted true)) => some identity.key
  | _ => none

/-- The calls let through, in order. -/
def grantedCalls (h : List AgentEvent) : List (RunId × String) :=
  h.filterMap AgentEvent.granted

theorem step_granted {s s' : AgentState} {e : AgentEvent} {key : RunId × String} (hs : LedgerKeyed s)
    (h : agentMachine.step s e s') (hgranted : e.granted = some key) : Granted s key s' := by
  unfold AgentEvent.granted at hgranted
  split at hgranted
  · obtain rfl := some.inj hgranted
    obtain ⟨_, hret, hreply⟩ := Op.returns_map.mp h
    rcases attemptToolCall_cases hs hret with ⟨rfl, -⟩ | ⟨-, hgranted⟩
    · simp at hreply
    · exact hgranted
  · simp at hgranted

/-- What holds of the ledger after some steps, and of the calls they have let through. -/
structure CallHistory (h : List AgentEvent) (s : AgentState) : Prop where
  keyed : LedgerKeyed s
  nodup : (grantedCalls h).Nodup
  spent : ∀ key ∈ grantedCalls h, ∃ entry, s.toolCalls.lookup key = some entry ∧ entry.outcome ≠ .intent

theorem CallHistory.step {e : AgentEvent} (hs : CallHistory h s) (hstep : agentMachine.step s e s') :
    CallHistory (h ++ [e]) s' := by
  have hkept : ∀ key ∈ grantedCalls h, ∃ entry, s'.toolCalls.lookup key = some entry ∧ entry.outcome ≠ .intent := by
    intro key hkey
    obtain ⟨entry, hentry, hne⟩ := hs.spent key hkey
    obtain ⟨entry', hentry', hcall⟩ := (step_callsEffect hs.keyed hstep).step key entry hentry
    refine ⟨entry', hentry', ?_⟩
    cases hcall with
    | same h => exact h ▸ hne
    | attempted hintent => exact absurd hintent hne
    | finished _ _ houtcome =>
      intro heq
      simp [heq, ToolCallOutcome.isTerminal] at houtcome
  have happend : grantedCalls (h ++ [e]) = grantedCalls h ++ e.granted.toList := by
    rw [grantedCalls, List.filterMap_append]
    cases hgranted : e.granted <;> simp [grantedCalls, hgranted]
  refine ⟨step_ledgerKeyed hs.keyed hstep, ?_, ?_⟩ <;> rw [happend]
  · refine List.Nodup.append hs.nodup (by cases e.granted <;> simp) fun key hold hnew => ?_
    obtain ⟨⟨_, _, hentry, hintent, -⟩, -⟩ := step_granted hs.keyed hstep (mem_toList.mp hnew)
    obtain ⟨_, hentry', hne⟩ := hs.spent key hold
    rw [hentry] at hentry'
    exact hne (some.inj hentry' ▸ hintent)
  · intro key hkey
    rcases List.mem_append.mp hkey with hold | hnew
    · exact hkept key hold
    · obtain ⟨⟨_, entry', -, -, -, -, -, houtcome, -, -, hcalls⟩, -⟩ := step_granted hs.keyed hstep (mem_toList.mp hnew)
      exact ⟨entry', by simp [hcalls], by simp [houtcome]⟩

theorem run_callHistory (hr : agentMachine.Run AgentState.default h s) : CallHistory h s :=
  hr.history (fun _ _ _ _ hs hstep => hs.step hstep) ⟨ledgerKeyed_default, List.nodup_nil, by simp [grantedCalls]⟩

/-- Reporting an outcome again changes nothing, and no other outcome is accepted. -/
theorem finished_again {s₁ s₂ : AgentState} {scope scope' : TenantScope} {identity : ToolCallIdentity}
    {outcome : ToolCallOutcome} {now now' : DateTime} (hs : LedgerKeyed s)
    (hstep : agentMachine.step s (.call (.finishToolCall scope identity outcome now) (.ok (.entry entry))) s₁)
    (hr : agentMachine.Run s₁ h s₂) :
    ((run (.finishToolCall scope' identity outcome now')).run s₂).2 = s₂
    ∧ ((∃ run, s₂.runs.lookup identity.runId = some run ∧ scope'.contains run.scope = true) →
      ((run (.finishToolCall scope' identity outcome now')).run s₂).1 = .ok (.entry entry))
    ∧ ∀ outcome', outcome' ≠ outcome → ∃ err,
      (run (.finishToolCall scope' identity outcome' now')).run s₂ = (.error err, s₂) := by
  have hkeyed := step_ledgerKeyed hs hstep
  have hkeyed₂ := run_ledgerKeyed hkeyed hr
  obtain ⟨recorded, hret, hreply⟩ := Op.returns_map.mp hstep
  obtain rfl := AgentReply.entry.inj hreply
  obtain ⟨⟨hidentity, hfinish, hterminal, hmatches⟩, _, hbefore, hcase⟩ := finishToolCall_cases hs hret
  -- After the first report the entry is closed, and stays so.
  obtain ⟨hstored, houtcome, hcount⟩ : s₁.toolCalls.lookup identity.key = some recorded
      ∧ recorded.outcome = outcome ∧ recorded.attemptCount = 1 := by
    rcases hcase with ⟨hrecorded, hcount, rfl, rfl⟩ | ⟨-, hcount, heq, hcalls⟩
    · exact ⟨hbefore, hrecorded, hcount⟩
    · refine ⟨by rw [hcalls, if_pos rfl], ?_, ?_⟩
      · rw [heq]
      · rw [heq]
        exact hcount
  obtain ⟨later, hlater, hrun⟩ := run_calls hkeyed hr hstored
  obtain rfl := hrun.terminal (houtcome ▸ hterminal)
  subst houtcome
  have hret' : ∀ outcome' entry' s₃, Op.Returns (finishToolCall scope' identity outcome' now') s₂
      entry' s₃ → outcome' = later.outcome ∧ s₃ = s₂ := by
    intro outcome' entry' s₃ hagain
    obtain ⟨-, _, hstored', hcase'⟩ := finishToolCall_cases hkeyed₂ hagain
    rw [hlater] at hstored'
    obtain rfl := some.inj hstored'
    rcases hcase' with ⟨heq, -, -, rfl⟩ | ⟨hattempted, -⟩
    · exact ⟨heq.symm, rfl⟩
    · simp [hattempted, ToolCallOutcome.isTerminal] at hterminal
  have hatomic outcome' := run_atomic (.finishToolCall scope' identity outcome' now')
  refine ⟨?_, fun ⟨agentRun, hlookup, hscope⟩ => ?_, fun outcome' hne => ?_⟩
  · rcases Op.returns_or_fails (run (.finishToolCall scope' identity later.outcome now')) s₂ with
      ⟨reply, s₃, hok⟩ | ⟨err, s₃, hfail⟩
    · obtain ⟨_, hagain, -⟩ := Op.returns_map.mp hok
      rw [show (run _).run s₂ = _ from hok]
      exact (hret' _ _ _ hagain).2
    · rw [show (run _).run s₂ = _ from hfail]
      exact (hatomic _).failed _ _ _ hfail
  · have hagain : Op.Returns (finishToolCall scope' identity later.outcome now') s₂ later s₂ :=
      finishToolCall_again hkeyed₂ hidentity hfinish hmatches hcount hlater hlookup hscope
    have hok : Op.Returns (run (.finishToolCall scope' identity later.outcome now')) s₂
        (.entry later) s₂ := Op.returns_map.mpr ⟨later, hagain, rfl⟩
    rw [show (run _).run s₂ = _ from hok]
  · rcases Op.returns_or_fails (run (.finishToolCall scope' identity outcome' now')) s₂ with
      ⟨reply, s₃, hok⟩ | ⟨err, s₃, hfail⟩
    · obtain ⟨_, hagain, -⟩ := Op.returns_map.mp hok
      exact absurd (hret' _ _ _ hagain).1 hne
    · obtain rfl := (hatomic _).failed _ _ _ hfail
      exact ⟨err, hfail⟩

/-- Every run of the repository: a tool call is let through once at most, and only as an allowed call
of a running run; what identifies an entry, its decisions and its intent stay; an entry that begins as
an intent is attempted and then closed, once each; and what has been reported of a call stays. -/
theorem toolCalls_atMostOnce {h : List AgentEvent} {s : AgentState} (hr : agentMachine.Run AgentState.default h s) :
    (grantedCalls h).Nodup
    ∧ (∀ scope identity now s', agentMachine.step s
        (.call (.attemptToolCall scope identity now) (.ok (.attempted true))) s' →
      (∃ entry, s.toolCalls.lookup identity.key = some entry ∧ entry.permission = .allowed ∧ entry.budget = .allowed)
      ∧ ∃ run, s.runs.lookup identity.runId = some run ∧ run.status = .running)
    ∧ (∀ h' s' k entry, agentMachine.Run s h' s' → s.toolCalls.lookup k = some entry →
      ∃ entry', s'.toolCalls.lookup k = some entry' ∧ SameCall entry entry'
        ∧ (entry.outcome.isTerminal = true → entry' = entry))
    ∧ (∀ scope input id now entry s₁ h' s₂, agentMachine.step s
        (.call (.beginToolCall scope input id now) (.ok (.entry entry))) s₁ →
      s.toolCalls.lookup (entry.runId, entry.toolCallId) = none → agentMachine.Run s₁ h' s₂ →
      ∃ entry₂, s₂.toolCalls.lookup (entry.runId, entry.toolCallId) = some entry₂ ∧ Staged entry₂
        ∧ ∀ e s₃, agentMachine.step s₂ e s₃ →
          ∃ entry₃, s₃.toolCalls.lookup (entry.runId, entry.toolCallId) = some entry₃ ∧ CallStep entry₂ entry₃)
    ∧ (∀ scope identity outcome now entry s₁ h' s₂, agentMachine.step s
        (.call (.finishToolCall scope identity outcome now) (.ok (.entry entry))) s₁ →
      agentMachine.Run s₁ h' s₂ → ∀ scope' now',
      ((run (.finishToolCall scope' identity outcome now')).run s₂).2 = s₂
      ∧ ((∃ run, s₂.runs.lookup identity.runId = some run ∧ scope'.contains run.scope = true) →
        ((run (.finishToolCall scope' identity outcome now')).run s₂).1 = .ok (.entry entry))
      ∧ ∀ outcome', outcome' ≠ outcome → ∃ err,
        (run (.finishToolCall scope' identity outcome' now')).run s₂ = (.error err, s₂)) := by
  obtain ⟨hs, hnodup, -⟩ := run_callHistory hr
  refine ⟨hnodup, fun scope identity now s' hstep => ?_, fun h' s' k entry hr' hentry => ?_,
    fun scope input id now entry s₁ h' s₂ hstep hnew hr' => ?_,
    fun scope identity outcome now entry s₁ h' s₂ hstep hr' scope' now' =>
      finished_again hs hstep hr'⟩
  · obtain ⟨⟨entry, _, hentry, -, -, hpermission, hbudget, -⟩, hrunning⟩ :=
      @step_granted _ _ _ identity.key hs hstep rfl
    exact ⟨⟨entry, hentry, hpermission, hbudget⟩, hrunning⟩
  · obtain ⟨entry', hentry', hcall⟩ := run_calls hs hr' hentry
    exact ⟨entry', hentry', hcall.call, hcall.terminal⟩
  · have hkeyed := step_ledgerKeyed hs hstep
    obtain ⟨_, hret, hreply⟩ := Op.returns_map.mp hstep
    obtain rfl := AgentReply.entry.inj hreply
    rcases beginToolCall_cases hs hret with ⟨-, hold⟩ | ⟨hrecorded, hintent, hcount⟩
    · rw [hnew] at hold
      simp at hold
    · obtain ⟨entry₂, hentry₂, hcall⟩ := run_calls hkeyed hr' (by rw [hrecorded.calls, if_pos rfl])
      refine ⟨entry₂, hentry₂, hcall.staged (.inl ⟨hintent, hcount⟩), fun e s₃ hstep₃ => ?_⟩
      exact (step_callsEffect (run_ledgerKeyed hkeyed hr') hstep₃).step _ _ hentry₂

namespace Sample

/-- A tool call of the run. -/
def lookupCall : RecordToolCall :=
  { runId := ⟨uuid 12⟩, toolCallId := "call", toolName := "search", argumentsHash := "a"
    idempotencyKeyHash := "k", permission := .allowed, budget := .allowed, intent := .null
    attemptCount := 0, resultRef := none, outcome := .intent, costMinor := none, currency := none }

/-- A running run begins a tool call and attempts it twice. -/
def attemptedTwice : List AgentCall :=
  [.createConversation scope none { title := none } ⟨uuid 10⟩ 1 { id := ⟨uuid 90⟩, occurredAt := 1 },
    .appendMessage scope ⟨uuid 10⟩ { content := "hello", attachments := [], metadata := .null }
      "key" "hash" { status := .available, runtime := "r", version := none, reason := none }
      { turnId := ⟨uuid 11⟩, runId := ⟨uuid 12⟩, messageId := ⟨uuid 13⟩, now := 2, failedAt := 2
        created := { id := ⟨uuid 91⟩, occurredAt := 2 }
        accepted := { id := ⟨uuid 92⟩, occurredAt := 2 }
        failed := { id := ⟨uuid 93⟩, occurredAt := 2 } },
    .beginRun scope ⟨uuid 12⟩ 3 { id := ⟨uuid 94⟩, occurredAt := 3 },
    .beginToolCall scope lookupCall ⟨uuid 15⟩ 4,
    .attemptToolCall scope (.fromRecord lookupCall) 5,
    .attemptToolCall scope (.fromRecord lookupCall) 6]

end Sample

theorem toolCalls_atMostOnce_attempted :
    grantedCalls (Calls.trace MemoryAgentRepository.run AgentState.default Sample.attemptedTwice)
        = [(⟨Sample.uuid 12⟩, "call")]
      ∧ (grantedCalls (Calls.trace MemoryAgentRepository.run AgentState.default Sample.attemptedTwice)).Nodup := by
  have hrun := Calls.run_trace_all MemoryAgentRepository.run AgentState.Reordered
    Sample.attemptedTwice AgentState.default
  exact ⟨by decide +kernel, (toolCalls_atMostOnce hrun).1⟩

end GeoMaster
