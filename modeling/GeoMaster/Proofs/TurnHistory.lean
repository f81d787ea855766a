import GeoMaster.Domain.RuntimeHistory
import GeoMaster.Domain.TurnHistory
import GeoMaster.Proofs.AgentLifecycle
import GeoMaster.Proofs.Identifiers

/-!
# Selected history in the runtime

What `turn_input` selects is `Selected`: whole pairs in the order of their numbers, each message the only
one with its identifier and older than the message being answered. On such a history `normalizeHistory`
can object to one thing only, an answer that is blank by the white space of JavaScript. The repository
trims by the white space of Unicode, which lacks the byte order mark, so it accepts such an answer; in
runs where every accepted answer says something to both, every history is taken as it is.
-/

namespace GeoMaster

open Op Except AssocMap List Option Uuid Calls TurnHistoryMessage Js

open MemoryAgentRepository ConversationDetail

/-! ### What is selected -/

theorem onlyOne_eq_some {α : Type} {p : α → Bool} {items : List α} {item : α} :
    onlyOne p items = some item ↔ items.filter p = [item] := by
  unfold onlyOne
  split
  · next one heq => rw [heq]; simp
  · next hne =>
    constructor
    · simp
    · exact fun heq => absurd heq (hne item)

theorem mem_of_onlyOne {α : Type} {p : α → Bool} {items : List α} {item : α}
    (h : onlyOne p items = some item) : item ∈ items ∧ p item = true := by
  have hmem : item ∈ items.filter p := by
    rw [onlyOne_eq_some.mp h]
    exact mem_singleton_self item
  exact mem_filter.mp hmem

/-- Two messages of a conversation are one when the identifier of one of them is unique. -/
theorem eq_of_countP_id {messages : List Message} {item other : Message}
    (hcount : messages.countP (fun m => m.id = item.id) = 1) (hitem : item ∈ messages)
    (hother : other ∈ messages) (hid : other.id = item.id) : other = item := by
  rw [countP_eq_length_filter, length_eq_one_iff] at hcount
  obtain ⟨one, hone⟩ := hcount
  have hmem (m : Message) (hm : m ∈ messages) (heq : m.id = item.id) : m = one := by
    have : m ∈ messages.filter fun m => m.id = item.id := mem_filter.mpr ⟨hm, by simpa using heq⟩
    rw [hone] at this
    exact mem_singleton.mp this
  rw [hmem other hother hid, hmem item hitem rfl]

/-- The question and the answer of a turn completed before a number. -/
structure Completed (detail : ConversationDetail) (before : Nat) (pair : Pair) : Prop where
  root : pair.1 ∈ detail.messages
  answer : pair.2 ∈ detail.messages
  rootRole : pair.1.role = .user
  answerRole : pair.2.role = .assistant
  ordered : pair.1.sequence < pair.2.sequence
  earlier : pair.2.sequence < before
  uniqueRoot : detail.messages.countP (fun m => m.id = pair.1.id) = 1
  uniqueAnswer : detail.messages.countP (fun m => m.id = pair.2.id) = 1

variable {next : Nat} {pair : Pair} {pairs : List Pair}

variable {detail : ConversationDetail} {currentTurnId : TurnId}

theorem completedPair_completed {before : Nat} {turn : Turn}
    (h : detail.completedPair currentTurnId before turn = some pair) : Completed detail before pair := by
  simp only [completedPair, owns, bind_eq_bind, bind_eq_some_iff, guard_eq_some',
    Option.pure_def, Option.some.injEq, decide_eq_true_eq] at h
  obtain ⟨-, -, _, -, -, -, root, hroot, answer, hanswer, -, hchecks, rfl⟩ := h
  obtain ⟨hrole, -, -, hordered, hearlier, -, ⟨-, -, huniqueRoot⟩, -, -, huniqueAnswer⟩ := hchecks
  exact
    { root := (mem_of_onlyOne hroot).1
      answer := (mem_of_onlyOne hanswer).1
      rootRole := hrole
      answerRole := by simpa using (of_decide_eq_true (mem_of_onlyOne hanswer).2).2
      ordered := hordered
      earlier := hearlier
      uniqueRoot := huniqueRoot
      uniqueAnswer := huniqueAnswer }

/-- From the newest pair back, each ends before the next one begins. -/
def PairsChained (next : Nat) : List Pair → Prop
  | [] => True
  | pair :: older => pair.2.sequence < next ∧ PairsChained pair.1.sequence older

theorem PairsChained.mono {next' : Nat} (hle : next ≤ next') (h : PairsChained next pairs) :
    PairsChained next' pairs := by
  cases pairs with
  | nil => trivial
  | cons pair older => exact ⟨h.1.trans_le hle, h.2⟩

theorem PairsChained.take (h : PairsChained next pairs) (n : Nat) : PairsChained next (pairs.take n) := by
  induction pairs generalizing next n with
  | nil => simpa using h
  | cons _ _ ih =>
    cases n with
    | zero => trivial
    | succ n => exact ⟨h.1, ih h.2 n⟩

/-- What is kept of pairs that are listed by their questions, the newest first. -/
theorem keepOrdered_chained (hsorted : pairs.Pairwise fun newer older => older.1.sequence ≤ newer.1.sequence)
    (hbelow : ∀ pair ∈ pairs, pair.1.sequence ≤ next) : PairsChained next (keepOrdered next pairs) := by
  induction pairs generalizing next with
  | nil => trivial
  | cons pair _ ih =>
    obtain ⟨hfirst, hrest⟩ := pairwise_cons.mp hsorted
    have hkept := ih hrest hfirst
    rw [keepOrdered]
    split
    · next hlt => exact ⟨hlt, hkept⟩
    · exact hkept.mono (hbelow pair mem_cons_self)

theorem mem_of_mem_keepOrdered (h : pair ∈ keepOrdered next pairs) : pair ∈ pairs := by
  induction pairs generalizing next with
  | nil => exact h
  | cons _ _ ih =>
    rw [keepOrdered] at h
    split at h
    · rcases mem_cons.mp h with rfl | hmem
      · exact mem_cons_self
      · exact mem_cons_of_mem _ (ih hmem)
    · exact mem_cons_of_mem _ (ih h)

theorem pairLe_total (pair other : Pair) : pairLe pair other ∨ pairLe other pair := by
  rcases lt_trichotomy pair.1.sequence other.1.sequence with hlt | heq | hgt
  · exact .inl (.inl hlt)
  · rcases BitVec.le_total pair.1.id.asUuid.bits other.1.id.asUuid.bits with hle | hle
    · exact .inl (.inr ⟨heq, hle⟩)
    · exact .inr (.inr ⟨heq.symm, hle⟩)
  · exact .inr (.inl hgt)

theorem pairLe_trans {other third : Pair} (h : pairLe pair other) (h' : pairLe other third) : pairLe pair third := by
  rcases h with hlt | ⟨heq, hle⟩ <;> rcases h' with hlt' | ⟨heq', hle'⟩
  · exact .inl (hlt.trans hlt')
  · exact .inl (heq' ▸ hlt)
  · exact .inl (heq ▸ hlt')
  · exact .inr ⟨heq.trans heq', BitVec.le_trans hle hle'⟩

theorem pairLe_sequence {other : Pair} (h : pairLe pair other) : pair.1.sequence ≤ other.1.sequence := by
  rcases h with hlt | ⟨heq, -⟩
  · exact hlt.le
  · exact heq.le

theorem completedPairs_completed {before : Nat}
    (h : pair ∈ detail.completedPairs currentTurnId before) : Completed detail before pair := by
  have hmem := mem_of_mem_keepOrdered h
  rw [mem_reverse, (perm_insertionSort _ _).mem_iff, mem_filterMap] at hmem
  obtain ⟨_, -, hturn⟩ := hmem
  exact completedPair_completed hturn

theorem completedPairs_chained (detail : ConversationDetail) (currentTurnId : TurnId)
    (before : Nat) : PairsChained before (detail.completedPairs currentTurnId before) := by
  set pairs := detail.turns.filterMap (detail.completedPair currentTurnId before)
  have : Std.Total pairLe := ⟨pairLe_total⟩
  have : IsTrans Pair pairLe := ⟨fun _ _ _ => pairLe_trans⟩
  have hsorted : (pairs.insertionSort pairLe).reverse.Pairwise fun newer older => older.1.sequence ≤ newer.1.sequence :=
    pairwise_reverse.mpr ((pairwise_insertionSort pairLe pairs).imp pairLe_sequence)
  refine keepOrdered_chained hsorted fun pair hpair => ?_
  rw [mem_reverse, (perm_insertionSort _ _).mem_iff, mem_filterMap] at hpair
  obtain ⟨_, -, hturn⟩ := hpair
  have hcompleted := completedPair_completed hturn
  exact (hcompleted.ordered.trans hcompleted.earlier).le

/-- Questions with their answers, one pair after the other. -/
inductive Alternating : List TurnHistoryMessage → Prop where
  | nil : Alternating []
  | pair {question answer : TurnHistoryMessage} {rest : List TurnHistoryMessage}
      (questionRole : question.role = .user) (answerRole : answer.role = .assistant)
      (questionRoot : question.rootMessageId = question.messageId)
      (answerRoot : answer.rootMessageId = question.messageId) (rest_alternating : Alternating rest) :
      Alternating (question :: answer :: rest)

section Selected

variable [UuidText]

/-- A message of a history shows a stored message that is the only one with its identifier. -/
structure Shows (detail : ConversationDetail) (before : Nat) (shown : TurnHistoryMessage) : Prop where
  message : ∃ item ∈ detail.messages, item.id = shown.messageId ∧ item.role = shown.role ∧ item.sequence
    = shown.sequence ∧ historyContent item = shown.content ∧ detail.messages.countP (fun m => m.id = item.id) = 1
  earlier : shown.sequence < before

/-- A history as `turn_input` selects it. -/
structure Selected (detail : ConversationDetail) (before : Nat) (history : List TurnHistoryMessage) : Prop where
  alternating : Alternating history
  ordered : history.Pairwise fun earlier later => earlier.sequence < later.sequence
  shows : ∀ shown ∈ history, Shows detail before shown
  bytes : (historyJson history).toVecLen ≤ maxHistoryBytes

theorem Selected.nil (detail : ConversationDetail) (before : Nat) : Selected detail before [] where
  alternating := .nil
  ordered := .nil
  shows := by simp
  bytes := by decide

variable {detail : ConversationDetail}

variable {before : Nat} {history : List TurnHistoryMessage}

theorem Completed.shows (h : Completed detail before pair) :
    ∀ shown ∈ pairMessages pair, Shows detail before shown := by
  intro shown hshown
  simp only [pairMessages, mem_cons, not_mem_nil, or_false] at hshown
  rcases hshown with rfl | rfl
  · exact ⟨⟨pair.1, h.root, rfl, rfl, rfl, rfl, h.uniqueRoot⟩, h.ordered.trans h.earlier⟩
  · exact ⟨⟨pair.2, h.answer, rfl, rfl, rfl, rfl, h.uniqueAnswer⟩, h.earlier⟩

/-- A pair that ends before the history begins, and still fits, goes in front of it. -/
theorem Selected.cons {detail : ConversationDetail} {before : Nat} {pair : Pair} {history : List TurnHistoryMessage}
    (h : Selected detail before history) (hpair : Completed detail before pair)
    (hbelow : ∀ shown ∈ history, pair.2.sequence < shown.sequence)
    (hbytes : (historyJson (pairMessages pair ++ history)).toVecLen ≤ maxHistoryBytes) :
    Selected detail before (pairMessages pair ++ history) where
  alternating := .pair hpair.rootRole hpair.answerRole rfl rfl h.alternating
  ordered := by
    refine pairwise_cons.mpr ⟨fun shown hshown => ?_, pairwise_cons.mpr ⟨hbelow, h.ordered⟩⟩
    rcases mem_cons.mp hshown with rfl | hmem
    · exact hpair.ordered
    · exact hpair.ordered.trans (hbelow shown hmem)
  shows := by
    intro shown hshown
    rcases mem_append.mp hshown with hnew | hold
    · exact hpair.shows shown hnew
    · exact h.shows shown hold
  bytes := hbytes

theorem fillHistory_selected
    (hpairs : ∀ pair ∈ pairs, Completed detail before pair) (hchained : PairsChained next pairs)
    (h : Selected detail before history) (hnext : ∀ shown ∈ history, next ≤ shown.sequence) :
    Selected detail before (fillHistory history pairs)
      ∧ (fillHistory history pairs).length ≤ history.length + 2 * pairs.length := by
  induction pairs generalizing history next with
  | nil => exact ⟨h, by simp [fillHistory]⟩
  | cons pair _ ih =>
    rw [fillHistory]
    split
    · exact ⟨h, by omega⟩
    · next hfits =>
      have hcompleted := hpairs pair mem_cons_self
      have hlonger := h.cons hcompleted (fun shown hshown => hchained.1.trans_le (hnext shown hshown)) (by omega)
      have hfilled := ih (fun p hp => hpairs p (mem_cons_of_mem _ hp)) hchained.2 hlonger ?_
      · refine ⟨hfilled.1, hfilled.2.trans ?_⟩
        simp only [pairMessages, length_append, length_cons, length_nil]
        omega
      · intro shown hshown
        rcases mem_append.mp hshown with hnew | hold
        · simp only [pairMessages, mem_cons, not_mem_nil, or_false] at hnew
          rcases hnew with rfl | rfl
          · exact le_rfl
          · exact hcompleted.ordered.le
        · have hbelow := hnext shown hold
          have := hcompleted.ordered.trans hchained.1
          omega

theorem completedHistory_selected (detail : ConversationDetail) (currentTurnId : TurnId) (before : Nat) :
    Selected detail before (detail.completedHistory currentTurnId before).1
      ∧ (detail.completedHistory currentTurnId before).1.length ≤ 2 * maxHistoryTurns := by
  set pairs := (detail.completedPairs currentTurnId before).take maxHistoryTurns with hpairs
  have hfilled := fillHistory_selected (fun pair hpair => completedPairs_completed (mem_of_mem_take hpair))
    ((completedPairs_chained detail currentTurnId before).take maxHistoryTurns)
    (Selected.nil detail before) (by simp)
  have hlength : pairs.length ≤ maxHistoryTurns := length_take_le ..
  refine ⟨hfilled.1, hfilled.2.trans ?_⟩
  rw [length_nil, ← hpairs]
  omega

theorem turnInput_selected {runId : RunId} {input : TurnInput} (h : detail.turnInput runId = .ok input) :
    ∃ before, Selected detail before input.history ∧ input.history.length ≤ 2 * maxHistoryTurns
      ∧ ∀ shown ∈ input.history, shown.messageId ≠ input.messageId := by
  simp only [turnInput, eq_ok_iff] at h
  obtain ⟨_, -, turn, -, message, hmessage, rfl⟩ := h
  obtain ⟨hselected, hlength⟩ := completedHistory_selected detail turn.id message.sequence
  refine ⟨message.sequence, hselected, hlength, fun shown hshown hid => ?_⟩
  obtain ⟨⟨item, hitem, hitemId, -, hsequence, -, hunique⟩, hearlier⟩ := hselected.shows shown hshown
  have hsame : message = item :=
    eq_of_countP_id hunique hitem (mem_of_find?_eq_some hmessage) (hid.symm.trans hitemId.symm)
  rw [hsame, hsequence] at hearlier
  exact lt_irrefl _ hearlier

/-- No two messages of a history share their identifier. -/
theorem Selected.nodup (h : Selected detail before history) : (history.map (·.messageId)).Nodup := by
  refine pairwise_map.mpr (h.ordered.imp_of_mem fun {earlier later} hearlier hlater hlt heq => ?_)
  obtain ⟨⟨item, hitem, hid, -, hsequence, -, hunique⟩, -⟩ := h.shows earlier hearlier
  obtain ⟨⟨item', hitem', hid', -, hsequence', -, -⟩, -⟩ := h.shows later hlater
  have hsame : item' = item := eq_of_countP_id hunique hitem hitem' (hid'.trans (heq.symm.trans hid.symm))
  rw [← hsequence, ← hsequence', hsame] at hlt
  exact lt_irrefl _ hlt

end Selected

/-! ### The runtime on a selected history -/

theorem Uuid.mem_toString {u : Uuid} {c : Char} (hc : c ∈ u.toString.toList) : c = '-' ∨ ∃ n < 16, c = hexDigit n := by
  by_cases hhyphen : c = '-'
  · exact .inl hhyphen
  · have hmem : c ∈ u.toString.toList.filter (· ≠ '-') := mem_filter.mpr ⟨hc, by simpa using hhyphen⟩
    rw [filter_toString] at hmem
    obtain ⟨_, -, rfl⟩ := mem_map.mp hmem
    exact .inr ⟨_, Nat.mod_lt _ (by omega), rfl⟩

theorem hexDigit_graphic : ∀ n < 16, isWhitespace (hexDigit n) = false
    ∧ 32 ≤ (hexDigit n).toNat ∧ (hexDigit n).toNat < 127 := by
  decide

theorem Uuid.graphic {u : Uuid} {c : Char} (hc : c ∈ u.toString.toList) :
    isWhitespace c = false ∧ 32 ≤ c.toNat ∧ c.toNat < 127 := by
  rcases mem_toString hc with rfl | ⟨n, hn, rfl⟩
  · decide
  · exact hexDigit_graphic n hn

theorem Uuid.isBlank_toString (u : Uuid) : Js.isBlank u.toString = false := by
  obtain ⟨c, hc⟩ := exists_mem_of_length_pos (by rw [u.length_toString]; omega)
  exact isBlank_eq_false.mpr ⟨c, hc, (graphic hc).1⟩

theorem MessageId.text_injective {id id' : MessageId} (h : id.asUuid.toString = id'.asUuid.toString) : id = id' := by
  cases id
  cases id'
  exact congrArg MessageId.mk (toString_injective h)

theorem Alternating.even {history : List TurnHistoryMessage} (h : Alternating history) : history.length % 2 = 0 := by
  induction h with
  | nil => rfl
  | pair =>
    rw [length_cons, length_cons]
    omega

namespace AgentRuntime

theorem isMalformedId_uuid (u : Uuid) : isMalformedId u.toString = false := by
  have hlength := Text.len_le u.toString
  rw [u.length_toString] at hlength
  have hcontrol : ∀ c ∈ u.toString.toList, ¬ c.toNat < 32 ∧ ¬ c.toNat = 127 := by
    intro c hc
    obtain ⟨-, _, _⟩ := graphic hc
    omega
  simp only [isMalformedId, decide_eq_false_iff_not, not_or, List.any_eq_true, decide_eq_true_eq, not_exists, not_and]
  exact ⟨by omega, hcontrol⟩

theorem requiredString_uuid (u : Uuid) (field : String) :
    requiredString (some (.string u.toString)) field = .ok u.toString := by
  simp [requiredString, u.isBlank_toString]

theorem safeInteger_ofNat {n : Nat} (h : n ≤ maxSafeInteger) : JsValue.safeInteger (some (.ofNat n)) = some n := by
  have hn : (UInt64.ofNat n).toNat = n := UInt64.toNat_ofNat'.trans (Nat.mod_eq_of_lt (lt_of_le_of_lt h (by decide)))
  have hexact : roundDouble n = n := if_pos (lt_of_le_of_lt h (by decide))
  have hdouble : JsonNumber.double (.posInt (UInt64.ofNat n)) = .inl (n : Int) := by
    show Sum.inl ((roundDouble (UInt64.ofNat n).toNat : Nat) : Int) = .inl (n : Int)
    rw [hn, hexact]
  unfold Json.ofNat JsValue.safeInteger
  simp only [hdouble]
  exact if_pos h

end AgentRuntime

/-- What the runtime goes on with of a message. -/
def TurnHistoryMessage.normalized (message : TurnHistoryMessage) : AgentRuntime.NormalizedMessage :=
  { messageId := message.messageId.asUuid.toString
    turnId := message.rootMessageId.asUuid.toString
    role := message.role.text
    content := message.content }

section Members

variable (message : TurnHistoryMessage)

@[simp] theorem TurnHistoryMessage.get_messageId :
    message.toJson.get "message_id" = some (.string message.messageId.asUuid.toString) := by
  simp [toJson, Json.get]

@[simp] theorem TurnHistoryMessage.get_role : message.toJson.get "role" = some (.string message.role.text) := by
  simp [toJson, Json.get]

@[simp] theorem TurnHistoryMessage.get_content : message.toJson.get "content" = some (.string message.content) := by
  simp [toJson, Json.get]

@[simp] theorem TurnHistoryMessage.get_rootMessageId :
    message.toJson.get "root_message_id" = some (.string message.rootMessageId.asUuid.toString) := by
  simp [toJson, Json.get]

@[simp] theorem TurnHistoryMessage.get_sequence : message.toJson.get "sequence" = some (.ofNat message.sequence) := by
  simp [toJson, Json.get]

@[simp] theorem TurnHistoryMessage.hasOnlyFields_toJson :
    AgentRuntime.hasOnlyFields AgentRuntime.canonicalFields message.toJson = true := by
  simp [toJson, AgentRuntime.hasOnlyFields, AgentRuntime.canonicalFields]

end Members

namespace AgentRuntime

/-- A check that passes leaves the rest. -/
theorem ok_bind {ε α β : Type} (a : α) (f : α → Except ε β) : (Except.ok a >>= f) = f a :=
  rfl

/-- What is remembered after a message. -/
def HistoryCursor.after (cursor : HistoryCursor) (message : TurnHistoryMessage) : HistoryCursor :=
  { index := cursor.index + 1
    ids := message.messageId.asUuid.toString :: cursor.ids
    previousSequence := some message.sequence
    previousId := message.messageId.asUuid.toString }

/-- A message that may come next. -/
structure Expected (cursor : HistoryCursor) (message : TurnHistoryMessage) : Prop where
  safe : message.sequence ≤ maxSafeInteger
  new : message.messageId.asUuid.toString ∉ cursor.ids
  later : ∀ previous ∈ cursor.previousSequence, previous < message.sequence
  role : message.role.text = roleAt cursor.index
  root : message.rootMessageId.asUuid.toString
    = if message.role.text = "user" then message.messageId.asUuid.toString else cursor.previousId

variable {cursor : HistoryCursor} {history : List TurnHistoryMessage}

/-- Of a message that may come next, only a blank answer is refused. -/
theorem normalizeMessage_expected {message : TurnHistoryMessage} (h : Expected cursor message) :
    normalizeMessage cursor message.toJson
      = if message.role.text = "assistant" ∧ Js.isBlank message.content = true then .error pairsError
        else .ok (message.normalized, cursor.after message) := by
  have hlater : ¬ ∃ previous ∈ cursor.previousSequence, message.sequence ≤ previous := by
    rintro ⟨previous, hprevious, _⟩
    exact absurd (h.later previous hprevious) (by omega)
  have hfirst : ¬ (message.messageId.asUuid.toString ∈ cursor.ids
      ∨ isMalformedId message.messageId.asUuid.toString = true
      ∨ isMalformedId message.rootMessageId.asUuid.toString = true
      ∨ (∃ previous ∈ cursor.previousSequence, message.sequence ≤ previous)
      ∨ some (Json.string message.role.text) ≠ some (.string message.role.text)) := by
    rintro (hseen | hid | hroot | hprevious | hrole)
    · exact h.new hseen
    · simp [isMalformedId_uuid] at hid
    · simp [isMalformedId_uuid] at hroot
    · exact hlater hprevious
    · exact hrole rfl
  have hroot : ¬ message.rootMessageId.asUuid.toString
      ≠ if message.role.text = "user" then message.messageId.asUuid.toString else cursor.previousId :=
    not_not_intro h.root
  simp only [normalizeMessage, ← h.role, hasOnlyFields_toJson,
    get_messageId, get_role, get_content,
    get_rootMessageId, get_sequence, requiredString_uuid,
    requiredPositiveSafeInteger, safeInteger_ofNat h.safe, Except.failIf, if_neg hfirst,
    bind_some, Json.asStr, Except.okOr, ok_bind, hroot, or_false, Bool.true_eq_false, if_false]
  by_cases hblank : message.role.text = "assistant" ∧ Js.isBlank message.content = true
  · rw [if_pos hblank, if_pos hblank]
    rfl
  · rw [if_neg hblank, if_neg hblank]
    rfl

/-- The runtime on a selected history: it takes all of it, or stops at a blank answer. -/
theorem normalizeMessages_alternating (halternating : Alternating history)
    (hordered : history.Pairwise fun earlier later => earlier.sequence < later.sequence)
    (hnodup : (history.map (·.messageId)).Nodup) (hsafe : ∀ shown ∈ history, shown.sequence ≤ maxSafeInteger)
    (hindex : cursor.index % 2 = 0) (hnew : ∀ shown ∈ history, shown.messageId.asUuid.toString ∉ cursor.ids)
    (hlater : ∀ shown ∈ history, ∀ previous ∈ cursor.previousSequence, previous < shown.sequence) :
    normalizeMessages cursor (history.map (·.toJson))
      = if ∃ shown ∈ history, shown.role = .assistant ∧ Js.isBlank shown.content = true then
          .error pairsError
        else .ok (history.map (·.normalized)) := by
  induction halternating generalizing cursor with
  | nil => rfl
  | @pair question answer rest hq ha hqroot haroot _ ih =>
    obtain ⟨hfirstBelow, hordered'⟩ := pairwise_cons.mp hordered
    obtain ⟨hsecondBelow, hrestOrdered⟩ := pairwise_cons.mp hordered'
    simp only [map_cons, nodup_cons, mem_cons, not_or] at hnodup
    obtain ⟨⟨hne, hfirstNew⟩, hsecondNew, hrestNodup⟩ := hnodup
    have hother {shown : TurnHistoryMessage} (hshown : shown ∈ rest) :
        shown.messageId.asUuid.toString ≠ answer.messageId.asUuid.toString
          ∧ shown.messageId.asUuid.toString ≠ question.messageId.asUuid.toString := by
      constructor
      · intro heq
        exact hsecondNew (mem_map.mpr ⟨shown, hshown, MessageId.text_injective heq⟩)
      · intro heq
        exact hfirstNew (mem_map.mpr ⟨shown, hshown, MessageId.text_injective heq⟩)
    have hrest {shown : TurnHistoryMessage} (hshown : shown ∈ rest) :
        shown ∈ question :: answer :: rest :=
      mem_cons_of_mem _ (mem_cons_of_mem _ hshown)
    have hanswer : answer ∈ question :: answer :: rest := mem_cons_of_mem _ mem_cons_self
    have hfirst : Expected cursor question := by
      refine ⟨hsafe question mem_cons_self, hnew question mem_cons_self,
        hlater question mem_cons_self, ?_, ?_⟩
      · rw [hq, roleAt, if_pos hindex]
        rfl
      · rw [hq, hqroot]
        rfl
    have hsecond : Expected (cursor.after question) answer := by
      refine ⟨hsafe answer hanswer, ?_, ?_, ?_, ?_⟩
      · simp only [HistoryCursor.after, mem_cons, not_or]
        exact ⟨fun heq => hne (MessageId.text_injective heq).symm, hnew answer hanswer⟩
      · simpa [HistoryCursor.after] using hfirstBelow answer mem_cons_self
      · have hodd : ¬ (cursor.index + 1) % 2 = 0 := by omega
        rw [ha, roleAt, HistoryCursor.after, if_neg hodd]
        rfl
      · rw [ha, haroot]
        rfl
    have hquestion : ¬ (question.role.text = "assistant" ∧ Js.isBlank question.content = true) := by
      rw [hq]
      exact fun h => absurd h.1 (by decide)
    have hroles : answer.role.text = "assistant" ∧ Js.isBlank answer.content = true
        ↔ Js.isBlank answer.content = true := by
      rw [ha]
      exact and_iff_right rfl
    have hblank : (∃ shown ∈ question :: answer :: rest, shown.role = .assistant ∧ Js.isBlank shown.content = true)
        ↔ Js.isBlank answer.content = true
          ∨ ∃ shown ∈ rest, shown.role = .assistant ∧ Js.isBlank shown.content = true := by
      simp [hq, ha]
    simp only [map_cons, normalizeMessages, normalizeMessage_expected hfirst,
      normalizeMessage_expected hsecond, if_neg hquestion, hroles, ok_bind, hblank]
    by_cases hb : Js.isBlank answer.content = true
    · simp only [hb, if_true, true_or]
      rfl
    · -- After the pair the cursor is at an even position again.
      have hih := @ih ((cursor.after question).after answer) hrestOrdered hrestNodup
        (fun shown hshown => hsafe shown (hrest hshown))
        (by simp only [HistoryCursor.after]; omega)
        (fun shown hshown => by
          simp only [HistoryCursor.after, mem_cons, not_or]
          exact ⟨(hother hshown).1, (hother hshown).2, hnew shown (hrest hshown)⟩)
        (fun shown hshown => by simpa [HistoryCursor.after] using hsecondBelow shown hshown)
      simp only [eq_false hb, if_false, false_or, ok_bind, hih]
      split <;> rfl

/-- The runtime takes a selected history as it is exactly when no answer in it is blank to it. -/
theorem normalizeHistory_selected [UuidText] {detail : ConversationDetail} {before : Nat} (h : Selected detail before history)
    (hlength : history.length ≤ 2 * maxHistoryTurns) (hsafe : ∀ shown ∈ history, shown.sequence ≤ maxSafeInteger)
    {messageId : MessageId} (hcurrent : ∀ shown ∈ history, shown.messageId ≠ messageId) :
    normalizeHistory (historyJson history) messageId.asUuid.toString
      = if ∃ shown ∈ history, shown.role = .assistant ∧ Js.isBlank shown.content = true then
          .error pairsError
        else .ok (history.map (·.normalized)) := by
  have hbounds : ¬ ((history.map (·.toJson)).length > maxHistoryMessages ∨ (history.map (·.toJson)).length % 2 ≠ 0
      ∨ (historyJson history).toVecLen > AgentRuntime.maxHistoryBytes) := by
    have hcount : maxHistoryMessages = 2 * maxHistoryTurns := rfl
    have hbytes : AgentRuntime.maxHistoryBytes = GeoMaster.maxHistoryBytes := rfl
    rw [length_map, hcount, hbytes]
    have heven := h.alternating.even
    have hsize := h.bytes
    omega
  have hitems : (historyJson history).asArray = some (history.map (·.toJson)) := rfl
  rw [normalizeHistory, hitems, Except.okOr, ok_bind, Except.failIf, if_neg hbounds, ok_bind]
  refine normalizeMessages_alternating h.alternating h.ordered h.nodup hsafe rfl ?_ ?_
  · intro shown hshown hmem
    exact hcurrent shown hshown (MessageId.text_injective (mem_singleton.mp hmem))
  · simp

end AgentRuntime

/-! ### Answers that say something -/

section Spoken

variable [UuidText]

/-- An answer shows something to the runtime: a character that is not white space to it, or a plan. -/
def Spoken (content : String) (metadata : Json) : Prop :=
  Js.isBlank content = false ∨ measurementPlans metadata ≠ []

/-- A completion that is about to be stored as an answer says something. -/
def SpeaksUp (s : AgentState) : AgentEvent → Prop
  | .call (.finishRun scope runId completion _) _ =>
    ∀ run content metadata, (s.runs.lookup runId).filter (fun run => scope.contains run.scope) = some run → run.status
      = .running → RunCompletion.outcome completion = .ok (content, metadata) → Spoken content metadata
  | _ => True

omit [UuidText] in
theorem planLines_isBlank {plans : List Uuid} (h : plans ≠ []) : Js.isBlank (planLines plans) = false := by
  have hfold (text : String) (hblank : Js.isBlank text = false) : Js.isBlank
      (plans.foldl (fun text plan => text ++ s!"\nmeasurement_plan: {plan.toString}") text) = false := by
    clear h
    induction plans generalizing text with
    | nil => exact hblank
    | cons _ _ ih => exact ih _ (isBlank_append_left hblank)
  rw [planLines, if_neg h]
  exact hfold _ (by decide)

/-- An answer that says something is not blank when it is shown again. -/
theorem Spoken.isBlank {item : Message} (h : Spoken item.content item.metadata)
    (hrole : item.role = .assistant) : Js.isBlank (historyContent item) = false := by
  rw [historyContent, if_pos hrole]
  rcases h with hcontent | hplans
  · exact isBlank_append_left hcontent
  · exact isBlank_append_right (planLines_isBlank hplans)

/-- Every stored answer says something. -/
def AnswersSpeak (s : AgentState) : Prop :=
  ∀ k message, s.messages.lookup k = some message → message.role = .assistant → Spoken message.content message.metadata

variable {s : AgentState}

variable {message : Message} {conversation : Conversation} {s' : AgentState} {scope : TenantScope}
  {h : List AgentEvent} {detail : ConversationDetail} {id : ConversationId}

/-- One message more, which says something if it is an answer. -/
theorem AnswersSpeak.insert (hs : AnswersSpeak s)
    (h : message.role = .assistant → Spoken message.content message.metadata) :
    AnswersSpeak (s.insertMessage message) := by
  intro k m hm hrole
  simp only [AgentState.insertMessage, lookup_insert] at hm
  split at hm
  · obtain rfl := some.inj hm
    exact h hrole
  · exact hs k m hm hrole

theorem emit_answersSpeak {eventType : String}
    {turnId : Option TurnId} {runId : Option RunId} {payload : EventPayload} {stamp : EventStamp} :
    (emit conversation eventType turnId runId payload stamp).Preserves AnswersSpeak :=
  .modify fun _ hs => hs

theorem abandonRuns_answersSpeak {fresh : RunId → AbandonInputs} (ids : List RunId) :
    (abandonRuns fresh ids).Preserves AnswersSpeak := by
  induction ids with
  | nil => exact .of_readOnly .pure
  | cons _ _ ih =>
    refine .bind ?_ fun _ => .bind ih fun _ => .of_readOnly .pure
    refine .bind (.of_readOnly .read) fun _ => .bind (.of_readOnly .read) fun _ =>
      .bind (.of_readOnly .read) fun _ => ?_
    split
    · refine .bind (.modify fun s hs => ?_) fun _ => .bind (.modify fun _ hs => hs) fun _ =>
        .bind (.modify fun _ hs => hs) fun _ =>
        .bind emit_answersSpeak fun _ => .of_readOnly .pure
      unfold failTurn
      split <;> exact hs
    · exact .of_readOnly .pure

theorem run_answersSpeak {call : AgentCall}
    (hcall : ∀ scope runId completion fresh, call ≠ .finishRun scope runId completion fresh) :
    (run call).Preserves AnswersSpeak := by
  cases htool : call.onToolCalls with
  | true => exact toolCalls_preserve (fun _ _ hs => hs) htool
  | false =>
    cases call
    all_goals first | (simp [AgentCall.onToolCalls] at htool; done) | skip
    all_goals refine .bind ?_ fun _ => .of_readOnly .pure
    case finishRun scope runId completion fresh => exact absurd rfl (hcall scope runId completion fresh)
    case reconcileRunningRuns => exact .bind (.of_readOnly .read) fun _ => abandonRuns_answersSpeak _
    all_goals
      first
      | unfold createConversation
      | unfold appendMessage submit failUnavailable
      | unfold cancelTurn
      | unfold beginRun
      repeat' first
        | with_reducible exact emit_answersSpeak
        | with_reducible exact Op.Preserves.modify fun _ hs =>
            AnswersSpeak.insert hs fun hrole => absurd hrole (by simp [userMessage])
        | with_reducible refine Op.Preserves.bind ?_ fun _ => ?_
        | exact Op.Preserves.modify fun _ hs => hs
        | split
        | (apply Op.Preserves.of_readOnly; simp)

theorem enterTerminal_answersSpeak {turn : Turn} {run : AgentRun} :
    (enterTerminal conversation turn run).Preserves AnswersSpeak :=
  .bind (.modify fun _ hs => hs) fun _ => .bind (.modify fun _ hs => hs) fun _ => .modify fun _ hs => hs

theorem finishRun_answersSpeak {runId : RunId} {completion : RunCompletion}
    {fresh : FinishInputs} {result : Option RunTransition} (hs : AnswersSpeak s)
    (hspeaks : ∀ run content metadata, (s.runs.lookup runId).filter (fun run => scope.contains run.scope) = some run →
      run.status = .running → RunCompletion.outcome completion = .ok (content, metadata) →
      Spoken content metadata) (h : Op.Returns (finishRun scope runId completion fresh) s result s') :
    AnswersSpeak s' := by
  simp only [finishRun, returns_bind, returns_findRun] at h
  obtain ⟨_, _, ⟨rfl, rfl⟩, h⟩ := h
  split at h
  · next hnone =>
    obtain ⟨-, rfl⟩ := returns_pure.mp h
    exact hs
  · next run hrun =>
    split at h
    · obtain ⟨-, rfl⟩ := returns_pure.mp h
      exact hs
    · next hrunning =>
      simp only [returns_iff, returns_storedConversation] at h
      obtain ⟨_, _, ⟨-, rfl⟩, _, _, ⟨-, rfl⟩, _, _, ⟨-, rfl⟩, h⟩ := h
      split at h
      · next content metadata houtcome =>
        have hspoken := hspeaks run content metadata hrun (not_not.mp hrunning) houtcome
        refine Op.Preserves.returns (.bind (.of_readOnly .read) fun sequence => ?_) hs h
        exact .bind enterTerminal_answersSpeak fun _ =>
          .bind (.modify fun _ hs => hs.insert fun _ => hspoken) fun _ =>
          .bind emit_answersSpeak fun _ => .bind emit_answersSpeak fun _ => .of_readOnly .pure
      · exact Op.Preserves.returns (.bind enterTerminal_answersSpeak fun _ =>
          .bind emit_answersSpeak fun _ => .of_readOnly .pure) hs h

theorem step_answersSpeak {e : AgentEvent} (hs : AnswersSpeak s) (hspeaks : SpeaksUp s e)
    (h : agentMachine.step s e s') : AnswersSpeak s' := by
  cases e with
  | reorder =>
    obtain ⟨-, -, hrest⟩ := h
    rw [hrest]
    exact hs
  | call call reply =>
    by_cases hcall : ∃ scope runId completion fresh, call = .finishRun scope runId completion fresh
    · obtain ⟨scope, runId, completion, fresh, rfl⟩ := hcall
      cases reply with
      | error err => rwa [callMachine.step_failed (run_atomic _) h]
      | ok reply =>
        obtain ⟨_, hret, -⟩ := returns_map.mp h
        exact finishRun_answersSpeak hs hspeaks hret
    · have hkept := (run_answersSpeak fun scope runId completion fresh heq =>
        hcall ⟨scope, runId, completion, fresh, heq⟩).preserved s hs
      rwa [show (run call).run s = (reply, s') from h] at hkept

theorem reachable_answersSpeak
    (hr : (agentMachine.restrict fun s e => FreshIds s e ∧ SpeaksUp s e).Run AgentState.default h s) :
    AnswersSpeak s := by
  refine hr.invariant (I := AnswersSpeak) (fun _ _ _ hs hstep => ?_) ?_
  · exact step_answersSpeak hs hstep.1.2 hstep.2
  intro k message hmessage
  simp [AgentState.default] at hmessage

/-! ### Every run -/

omit [UuidText] in
/-- The messages of a conversation that is read are stored messages. -/
theorem mem_getConversation (h : getConversation s scope id = some detail) (hmem : message ∈ detail.messages) :
    (∃ k, s.messages.lookup k = some message) ∧ message.conversationId = id := by
  obtain ⟨_, -, rfl⟩ := map_eq_some_iff.mp h
  rw [(perm_insertionSort _ _).mem_iff, mem_filter, mem_values] at hmem
  exact ⟨hmem.1, of_decide_eq_true hmem.2⟩

/-- In a run that numbers no message beyond the safe integers, the runtime takes the history of a turn as
it is exactly when no answer in it is blank to it. -/
theorem turnInput_normalized (hr : (agentMachine.restrict FreshIds).Run AgentState.default h s) (hcount : messageCount s id ≤ maxSafeInteger) (hdetail : getConversation s scope id = some detail) {runId : RunId}
    {input : TurnInput} (hinput : detail.turnInput runId = .ok input) :
    AgentRuntime.normalizeHistory (historyJson input.history) input.messageId.asUuid.toString
      = if ∃ shown ∈ input.history, shown.role = .assistant ∧ Js.isBlank shown.content = true then
          .error AgentRuntime.pairsError
        else .ok (input.history.map (·.normalized)) := by
  obtain ⟨_, hselected, hlength, hcurrent⟩ := turnInput_selected hinput
  refine AgentRuntime.normalizeHistory_selected hselected hlength (fun shown hshown => ?_) hcurrent
  obtain ⟨item, hitem, -, -, hsequence, -, -⟩ := (hselected.shows shown hshown).message
  obtain ⟨⟨k, hk⟩, hconversation⟩ := mem_getConversation hdetail hitem
  have hnumber : MessageNumber s id k shown.sequence := ⟨item, hk, hconversation, hsequence⟩
  exact (((run_history hr).conversing.numbered id).bounds k _ hnumber).2.trans hcount

/-- Every run whose accepted answers say something to the runtime, up to the last safe integer: the
history of every turn is taken with the same messages, roles and order. -/
theorem turnHistory_accepted {h : List AgentEvent} {s : AgentState}
    (hr : (agentMachine.restrict fun s e => FreshIds s e ∧ SpeaksUp s e).Run AgentState.default h s)
    {scope : TenantScope} {id : ConversationId} (hcount : messageCount s id ≤ Js.maxSafeInteger)
    {detail : ConversationDetail} (hdetail : getConversation s scope id = some detail) {runId : RunId}
    {input : TurnInput} (hinput : detail.turnInput runId = .ok input) :
    AgentRuntime.normalizeHistory (historyJson input.history) input.messageId.asUuid.toString
      = .ok (input.history.map (·.normalized)) := by
  rw [turnInput_normalized (hr.restrict_imp fun _ _ hok => hok.1) hcount hdetail hinput, if_neg]
  rintro ⟨shown, hshown, hrole, hblank⟩
  obtain ⟨_, hselected, -, -⟩ := turnInput_selected hinput
  obtain ⟨item, hitem, -, hitemRole, -, hcontent, -⟩ := (hselected.shows shown hshown).message
  obtain ⟨⟨k, hk⟩, -⟩ := mem_getConversation hdetail hitem
  have hassistant : item.role = .assistant := hitemRole.trans hrole
  have hspoken := reachable_answersSpeak hr k item hk hassistant
  rw [← hcontent, hspoken.isBlank hassistant] at hblank
  exact absurd hblank (by simp)

end Spoken

namespace Sample

/-- A question that is being answered. -/
def firstTurn : List AgentCall :=
  [.createConversation scope none { title := none } ⟨uuid 10⟩ 1 stamp,
    .appendMessage scope ⟨uuid 10⟩ { content := "hello", attachments := [], metadata := .null }
      "key" "hash" { status := .available, runtime := "r", version := none, reason := none }
      { turnId := ⟨uuid 11⟩, runId := ⟨uuid 12⟩, messageId := ⟨uuid 13⟩, now := 2, failedAt := 2
        created := stamp, accepted := stamp, failed := stamp },
    .beginRun scope ⟨uuid 12⟩ 3 stamp]

/-- Its answer. -/
def firstAnswer (answer : String) : AgentCall :=
  .finishRun scope ⟨uuid 12⟩ (.succeeded answer .null)
    { messageId := ⟨uuid 14⟩, now := 4, created := stamp, finished := stamp }

/-- A second question. -/
def secondQuestion : AgentCall :=
  .appendMessage scope ⟨uuid 10⟩ { content := "again", attachments := [], metadata := .null }
    "key2" "hash2" { status := .available, runtime := "r", version := none, reason := none }
    { turnId := ⟨uuid 15⟩, runId := ⟨uuid 16⟩, messageId := ⟨uuid 17⟩, now := 5, failedAt := 5
      created := stamp, accepted := stamp, failed := stamp }

/-- The store when the first question has been answered. -/
def firstState (answer : String) : AgentState :=
  after MemoryAgentRepository.run AgentState.default (firstTurn ++ [firstAnswer answer])

/-- A question that is answered, and a second question. -/
def secondTurn (answer : String) : List AgentCall :=
  firstTurn ++ [firstAnswer answer] ++ [secondQuestion]

/-- The store after the second question. -/
def secondState (answer : String) : AgentState :=
  after MemoryAgentRepository.run AgentState.default (secondTurn answer)

/-- No identifier is read. -/
@[reducible] def noUuidText : UuidText :=
  ⟨fun _ => none⟩

attribute [local instance] noUuidText

/-- The history that is selected for the second question. -/
def secondHistory (answer : String) : Option (List (MessageRole × String)) :=
  (getConversation (secondState answer) scope ⟨uuid 10⟩).bind fun detail =>
    (detail.turnInput ⟨uuid 16⟩).toOption.map fun input => input.history.map fun shown => (shown.role, shown.content)

variable {answer : String}

theorem of_secondHistory {contents : List (MessageRole × String)} (h : secondHistory answer = some contents) :
    ∃ detail input, getConversation (secondState answer) scope ⟨uuid 10⟩ = some detail ∧ detail.turnInput ⟨uuid 16⟩
      = .ok input ∧ input.history.map (fun shown => (shown.role, shown.content)) = contents := by
  obtain ⟨detail, hdetail, hinput⟩ := bind_eq_some_iff.mp h
  obtain ⟨input, hok, hcontents⟩ := map_eq_some_iff.mp hinput
  refine ⟨detail, input, hdetail, ?_, hcontents⟩
  cases hresult : detail.turnInput ⟨uuid 16⟩ with
  | error err => simp [hresult, Except.toOption] at hok
  | ok input' =>
    rw [hresult] at hok
    exact congrArg Except.ok (some.inj hok)

/-- The second question draws new identifiers. -/
def AgainFresh (answer : String) : Prop :=
  (firstState answer).turns.lookup ⟨uuid 15⟩ = none ∧ (firstState answer).runs.lookup ⟨uuid 16⟩ = none
    ∧ (firstState answer).messages.lookup ⟨uuid 17⟩ = none

instance (answer : String) : Decidable (AgainFresh answer) :=
  inferInstanceAs (Decidable (_ ∧ _ ∧ _))

theorem firstTurn_fresh :
    (after MemoryAgentRepository.run AgentState.default firstTurn).messages.lookup ⟨uuid 14⟩ = none
      ∧ Calls.Allowed MemoryAgentRepository.run FreshIds AgentState.default firstTurn := by
  refine ⟨?_, trivial, ⟨?_, ?_, ?_⟩, trivial, trivial⟩ <;> decide +kernel

theorem secondTurn_fresh (h : AgainFresh answer) :
    Calls.Allowed MemoryAgentRepository.run FreshIds AgentState.default (secondTurn answer) := by
  refine .append (.append firstTurn_fresh.2 ?_) ?_
  · exact ⟨firstTurn_fresh.1, trivial⟩
  · exact ⟨h, trivial⟩

theorem secondTurn_speaks :
    Calls.Allowed MemoryAgentRepository.run (fun s e => FreshIds s e ∧ SpeaksUp s e)
      AgentState.default (secondTurn "answer") := by
  have hspeaks (s : AgentState) (reply : Except AppError AgentReply) :
      SpeaksUp s (.call (firstAnswer "answer") reply) := by
    intro run content metadata _ _ houtcome
    have hstored : RunCompletion.outcome (.succeeded "answer" .null) = .ok ("answer", .null) := by rfl
    rw [hstored] at houtcome
    obtain ⟨rfl, rfl⟩ := Prod.mk.inj (Except.ok.inj houtcome)
    exact .inl (by decide +kernel)
  have hagain : AgainFresh "answer" := by decide +kernel
  obtain ⟨hanswer, -, hfresh, -⟩ := firstTurn_fresh
  have hfirst : Calls.Allowed MemoryAgentRepository.run (fun s e => FreshIds s e ∧ SpeaksUp s e)
      AgentState.default firstTurn :=
    ⟨⟨trivial, trivial⟩, ⟨hfresh, trivial⟩, ⟨trivial, trivial⟩, trivial⟩
  refine .append (.append hfirst ?_) ?_
  · exact ⟨⟨hanswer, hspeaks _ _⟩, trivial⟩
  · exact ⟨⟨hagain, trivial⟩, trivial⟩

theorem turnHistory_accepted_answer :
    ∃ detail input, getConversation (secondState "answer") scope ⟨uuid 10⟩ = some detail
      ∧ detail.turnInput ⟨uuid 16⟩ = .ok input
      ∧ input.history.map (fun shown => (shown.role, shown.content)) = [(.user, "hello"), (.assistant, "answer")]
      ∧ AgentRuntime.normalizeHistory (historyJson input.history) input.messageId.asUuid.toString
        = .ok (input.history.map (·.normalized)) := by
  have hsecond :
      secondHistory "answer" = some [(.user, "hello"), (.assistant, "answer")]
        ∧ messageCount (secondState "answer") ⟨uuid 10⟩ ≤ maxSafeInteger := by
    decide +kernel
  obtain ⟨hhistory, hcount⟩ := hsecond
  obtain ⟨detail, input, hdetail, hinput, hcontents⟩ := of_secondHistory hhistory
  exact ⟨detail, input, hdetail, hinput, hcontents,
    turnHistory_accepted (run_trace _ _ secondTurn_speaks) hcount hdetail hinput⟩

/-- The byte order mark is an answer to the repository and blank to the runtime, so the second turn of
this conversation cannot be run. -/
theorem turnHistory_refused :
    ∃ h s detail input, (agentMachine.restrict FreshIds).Run AgentState.default h s
      ∧ messageCount s ⟨uuid 10⟩ ≤ Js.maxSafeInteger
      ∧ getConversation s scope ⟨uuid 10⟩ = some detail ∧ detail.turnInput ⟨uuid 16⟩ = .ok input
      ∧ AgentRuntime.normalizeHistory (historyJson input.history) input.messageId.asUuid.toString
        = .error AgentRuntime.pairsError := by
  have hsecond :
      AgainFresh "\uFEFF" ∧ secondHistory "\uFEFF" = some [(.user, "hello"), (.assistant, "\uFEFF")]
        ∧ messageCount (secondState "\uFEFF") ⟨uuid 10⟩ ≤ maxSafeInteger := by
    decide +kernel
  obtain ⟨hagain, hhistory, hcount⟩ := hsecond
  have hrun : (agentMachine.restrict FreshIds).Run AgentState.default _ _ :=
    run_trace _ _ (secondTurn_fresh hagain)
  obtain ⟨detail, input, hdetail, hinput, hcontents⟩ := of_secondHistory hhistory
  refine ⟨_, _, detail, input, hrun, hcount, hdetail, hinput, ?_⟩
  rw [turnInput_normalized hrun hcount hdetail hinput, if_pos]
  have hmem : (MessageRole.assistant, "\uFEFF") ∈ input.history.map fun shown => (shown.role, shown.content) := by
    rw [hcontents]
    exact mem_cons_of_mem _ (mem_singleton_self _)
  obtain ⟨shown, hshown, heq⟩ := mem_map.mp hmem
  obtain ⟨hrole, hcontent⟩ := Prod.mk.inj heq
  exact ⟨shown, hshown, hrole, by rw [hcontent]; decide +kernel⟩

end Sample

end GeoMaster
