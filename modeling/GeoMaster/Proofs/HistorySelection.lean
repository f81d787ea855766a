import GeoMaster.Proofs.TurnHistory

/-!
# Which turns a history shows

A pair is eligible when it is the question and the answer of one completed turn, and the answer comes before the
question of every later completed turn. The eligible pairs stand one after the other in time, and the history of a turn
shows the longest run of the newest of them that fits: `completedHistory_exact`. None of this depends on the order in
which the messages, the turns and the runs of the conversation are listed.
-/

namespace GeoMaster

open ConversationDetail List Option

/-! ### The only item of its kind -/

theorem onlyOne_eq_some_iff_countP {α : Type} {p : α → Bool} {items : List α} {item : α} :
    onlyOne p items = some item ↔ item ∈ items ∧ p item = true ∧ items.countP p = 1 := by
  rw [onlyOne_eq_some, countP_eq_length_filter, length_eq_one_iff]
  constructor
  · intro heq
    have hmem : item ∈ items.filter p := heq ▸ mem_singleton_self item
    exact ⟨(mem_filter.mp hmem).1, (mem_filter.mp hmem).2, item, heq⟩
  · rintro ⟨hitem, hp, _, heq⟩
    have hmem : item ∈ items.filter p := mem_filter.mpr ⟨hitem, hp⟩
    rw [heq] at hmem ⊢
    rw [mem_singleton.mp hmem]

theorem onlyOne_perm {α : Type} {p : α → Bool} {items items' : List α} (h : items.Perm items') :
    onlyOne p items = onlyOne p items' := by
  ext item
  rw [onlyOne_eq_some_iff_countP, onlyOne_eq_some_iff_countP, h.mem_iff, h.countP_eq]

namespace ConversationDetail

variable {detail detail' : ConversationDetail} {currentTurnId : TurnId} {before : Nat} {turn : Turn} {pair other : Pair}

/-! ### Eligible pairs -/

/-- A message of the conversation that no other message shares its identifier with. -/
structure Own (detail : ConversationDetail) (item : Message) : Prop where
  mem : item ∈ detail.messages
  conversation : item.conversationId = detail.conversation.id
  scope : item.scope = detail.conversation.scope
  unique : detail.messages.countP (fun other => other.id = item.id) = 1

/-- A turn that has succeeded before a message, with its run, its question and its answer. -/
structure CompletedTurn (detail : ConversationDetail) (currentTurnId : TurnId) (before : Nat) (turn : Turn)
    (run : AgentRun) (pair : Pair) : Prop where
  turn_mem : turn ∈ detail.turns
  turn_ne : turn.id ≠ currentTurnId
  turn_conversation : turn.conversationId = detail.conversation.id
  turn_succeeded : turn.status = .succeeded
  turn_unique : detail.turns.countP (fun other => other.id = turn.id) = 1
  run_mem : run ∈ detail.runs
  run_id : turn.runId = some run.id
  run_unique : detail.runs.countP (fun other => some other.id = turn.runId) = 1
  run_turn : run.turnId = turn.id
  run_conversation : run.conversationId = detail.conversation.id
  run_scope : run.scope = detail.conversation.scope
  run_succeeded : run.status = .succeeded
  root_own : detail.Own pair.1
  root_id : pair.1.id = turn.rootMessageId
  root_role : pair.1.role = .user
  root_turn : pair.1.turnId = some turn.id
  answer_own : detail.Own pair.2
  answer_role : pair.2.role = .assistant
  answer_turn : pair.2.turnId = some turn.id
  answer_only : detail.messages.countP (fun item => item.turnId = some turn.id ∧ item.role = .assistant) = 1
  answer_ne : pair.2.id ≠ pair.1.id
  answer_spoken : Text.isBlank pair.2.content = false
  ordered : pair.1.sequence < pair.2.sequence
  earlier : pair.2.sequence < before

/-- The pairs a history may show: those of completed turns that end before every later one begins. -/
structure Eligible (detail : ConversationDetail) (currentTurnId : TurnId) (before : Nat) (pair : Pair) : Prop where
  completed : ∃ turn run, CompletedTurn detail currentTurnId before turn run pair
  apart : ∀ turn run later, CompletedTurn detail currentTurnId before turn run later → later ≠ pair →
    pairLe pair later → pair.2.sequence < later.1.sequence

theorem completedPair_eq_some :
    (turn ∈ detail.turns ∧ detail.completedPair currentTurnId before turn = some pair)
      ↔ ∃ run, CompletedTurn detail currentTurnId before turn run pair := by
  simp only [completedPair, owns, bind_eq_bind, bind_eq_some_iff, guard_eq_some',
    Option.pure_def, Option.some.injEq, decide_eq_true_eq, onlyOne_eq_some_iff_countP]
  constructor
  · rintro ⟨hturn, -, ⟨hne, hconversation, hstatus, hunique⟩, run, ⟨hrun, hrunId, hrunOnly⟩, -,
      ⟨hrunTurn, hrunConversation, hrunScope, hrunStatus⟩, root, ⟨hroot, hrootId, -⟩, answer,
      ⟨hanswer, ⟨hanswerTurn, hanswerRole⟩, hanswerOnly⟩, -,
      ⟨hrootRole, hrootTurn, hanswerNe, hordered, hearlier, hspoken, ⟨hrootHere, hrootScope, hrootUnique⟩,
        hanswerHere, hanswerScope, hanswerUnique⟩, rfl⟩
    exact
      ⟨run,
        { turn_mem := hturn
          turn_ne := hne
          turn_conversation := hconversation
          turn_succeeded := hstatus
          turn_unique := hunique
          run_mem := hrun
          run_id := hrunId.symm
          run_unique := hrunOnly
          run_turn := hrunTurn
          run_conversation := hrunConversation
          run_scope := hrunScope
          run_succeeded := hrunStatus
          root_own := ⟨hroot, hrootHere, hrootScope, hrootUnique⟩
          root_id := hrootId
          root_role := hrootRole
          root_turn := hrootTurn
          answer_own := ⟨hanswer, hanswerHere, hanswerScope, hanswerUnique⟩
          answer_role := hanswerRole
          answer_turn := hanswerTurn
          answer_only := hanswerOnly
          answer_ne := hanswerNe
          answer_spoken := hspoken
          ordered := hordered
          earlier := hearlier }⟩
  · rintro ⟨run, h⟩
    have hrootOnly : detail.messages.countP (fun item => item.id = turn.rootMessageId) = 1 := by
      simpa only [h.root_id] using h.root_own.unique
    exact
      ⟨h.turn_mem, (), ⟨h.turn_ne, h.turn_conversation, h.turn_succeeded, h.turn_unique⟩, run,
        ⟨h.run_mem, h.run_id.symm, h.run_unique⟩, (), ⟨h.run_turn, h.run_conversation, h.run_scope, h.run_succeeded⟩,
        pair.1, ⟨h.root_own.mem, h.root_id, hrootOnly⟩, pair.2,
        ⟨h.answer_own.mem, ⟨h.answer_turn, h.answer_role⟩, h.answer_only⟩, (),
        ⟨h.root_role, h.root_turn, h.answer_ne, h.ordered, h.earlier, h.answer_spoken,
          ⟨h.root_own.conversation, h.root_own.scope, h.root_own.unique⟩, h.answer_own.conversation,
          h.answer_own.scope, h.answer_own.unique⟩, rfl⟩

theorem CompletedTurn.eq_of_root {turn' : Turn} {run run' : AgentRun}
    (h : CompletedTurn detail currentTurnId before turn run pair)
    (h' : CompletedTurn detail currentTurnId before turn' run' other) (hid : pair.1.id = other.1.id) :
    turn.id = turn'.id ∧ pair = other := by
  have hroot : other.1 = pair.1 := eq_of_countP_id h.root_own.unique h.root_own.mem h'.root_own.mem hid.symm
  have hturn : turn.id = turn'.id := by
    have := h.root_turn
    rw [← hroot, h'.root_turn] at this
    exact (some.inj this).symm
  have hanswer : onlyOne (fun item => item.turnId = some turn.id ∧ item.role = .assistant) detail.messages
      = some pair.2 :=
    onlyOne_eq_some_iff_countP.mpr ⟨h.answer_own.mem, by simp [h.answer_turn, h.answer_role], h.answer_only⟩
  have hanswer' : onlyOne (fun item => item.turnId = some turn.id ∧ item.role = .assistant) detail.messages
      = some other.2 :=
    onlyOne_eq_some_iff_countP.mpr ⟨h'.answer_own.mem, by simp [hturn, h'.answer_turn, h'.answer_role], h.answer_only⟩
  exact ⟨hturn, Prod.ext hroot.symm (some.inj (hanswer.symm.trans hanswer'))⟩

/-! ### The order of the pairs -/

theorem pairLe_antisymm (h : pairLe pair other) (h' : pairLe other pair) : pair.1.id = other.1.id := by
  rcases h with hlt | ⟨heq, hle⟩
  · have := pairLe_sequence h'
    omega
  · rcases h' with hlt' | ⟨-, hle'⟩
    · omega
    · exact congrArg (fun bits => MessageId.mk (Uuid.mk bits)) (BitVec.le_antisymm hle hle')

/-- What is kept of pairs that are listed in their order, the newest first. -/
theorem mem_keepOrdered {next : Nat} {pairs : List Pair}
    (hsorted : pairs.Pairwise fun newer older => pairLe older newer ∧ ¬ pairLe newer older)
    (hbelow : ∀ pair ∈ pairs, pair.1.sequence ≤ next) :
    pair ∈ keepOrdered next pairs
      ↔ pair ∈ pairs ∧ pair.2.sequence < next
        ∧ ∀ later ∈ pairs, later ≠ pair → pairLe pair later → pair.2.sequence < later.1.sequence := by
  induction pairs generalizing next with
  | nil => simp [keepOrdered]
  | cons first older ih =>
    obtain ⟨hfirst, hrest⟩ := pairwise_cons.mp hsorted
    have hnext : first.1.sequence ≤ next := hbelow first mem_cons_self
    have hkept := ih hrest fun p hp => pairLe_sequence (hfirst p hp).1
    have holder : pair ∈ older ∧ pair.2.sequence < first.1.sequence
          ∧ (∀ later ∈ older, later ≠ pair → pairLe pair later → pair.2.sequence < later.1.sequence)
        ↔ pair ∈ older ∧ pair.2.sequence < next
          ∧ ∀ later ∈ first :: older, later ≠ pair → pairLe pair later → pair.2.sequence < later.1.sequence := by
      constructor
      · rintro ⟨hmem, hbefore, happart⟩
        refine ⟨hmem, hbefore.trans_le hnext, fun later hlater hne hle => ?_⟩
        rcases mem_cons.mp hlater with rfl | hlater
        · exact hbefore
        · exact happart later hlater hne hle
      · rintro ⟨hmem, -, happart⟩
        have hne : first ≠ pair := fun heq => (hfirst pair hmem).2 (heq ▸ (hfirst pair hmem).1)
        exact ⟨hmem, happart first mem_cons_self hne (hfirst pair hmem).1,
          fun later hlater => happart later (mem_cons_of_mem _ hlater)⟩
    -- nothing listed stands after the first pair
    have hself : ∀ later ∈ first :: older, later ≠ first → pairLe first later →
        first.2.sequence < later.1.sequence := by
      intro later hlater hne hle
      rcases mem_cons.mp hlater with rfl | hlater
      · exact absurd rfl hne
      · exact absurd hle (hfirst later hlater).2
    rw [keepOrdered]
    split
    · next hlt =>
      rw [mem_cons, hkept, holder, mem_cons]
      constructor
      · rintro (rfl | ⟨hmem, hrest⟩)
        · exact ⟨.inl rfl, hlt, hself⟩
        · exact ⟨.inr hmem, hrest⟩
      · rintro ⟨rfl | hmem, hrest⟩
        · exact .inl rfl
        · exact .inr ⟨hmem, hrest⟩
    · next hge =>
      rw [hkept, holder, mem_cons]
      constructor
      · rintro ⟨hmem, hrest⟩
        exact ⟨.inr hmem, hrest⟩
      · rintro ⟨rfl | hmem, hrest⟩
        · exact absurd hrest.1 hge
        · exact ⟨hmem, hrest⟩

theorem mem_completedTurns :
    pair ∈ detail.turns.filterMap (detail.completedPair currentTurnId before)
      ↔ ∃ turn run, CompletedTurn detail currentTurnId before turn run pair := by
  rw [mem_filterMap]
  exact exists_congr fun turn => completedPair_eq_some

theorem completedTurns_pairwise :
    (detail.turns.filterMap (detail.completedPair currentTurnId before)).Pairwise fun pair other =>
      pair.1.id ≠ other.1.id := by
  rw [pairwise_filterMap, pairwise_iff_forall_sublist]
  intro turn turn' hsub pair hpair other hother hid
  have hturn : turn ∈ detail.turns := hsub.subset (by simp)
  have hturn' : turn' ∈ detail.turns := hsub.subset (by simp)
  obtain ⟨_, hcompleted⟩ := completedPair_eq_some.mp ⟨hturn, hpair⟩
  obtain ⟨_, hcompleted'⟩ := completedPair_eq_some.mp ⟨hturn', hother⟩
  have hsame := (hcompleted.eq_of_root hcompleted' hid).1
  have hcount := hsub.countP_le (p := fun one => one.id = turn.id)
  rw [hcompleted.turn_unique] at hcount
  simp [hsame] at hcount

theorem completedPairs_sorted :
    ((detail.turns.filterMap (detail.completedPair currentTurnId before)).insertionSort pairLe).Pairwise
      fun older newer => pairLe older newer ∧ ¬ pairLe newer older := by
  set pairs := detail.turns.filterMap (detail.completedPair currentTurnId before)
  have : Std.Total pairLe := ⟨pairLe_total⟩
  have : IsTrans Pair pairLe := ⟨fun _ _ _ => pairLe_trans⟩
  have hdistinct : (pairs.insertionSort pairLe).Pairwise fun pair other => pair.1.id ≠ other.1.id :=
    completedTurns_pairwise.perm (perm_insertionSort _ _).symm fun h => h.symm
  exact ((pairwise_insertionSort pairLe pairs).and hdistinct).imp fun ⟨hle, hne⟩ =>
    ⟨hle, fun hge => hne (pairLe_antisymm hle hge)⟩

theorem mem_completedPairs :
    pair ∈ detail.completedPairs currentTurnId before ↔ Eligible detail currentTurnId before pair := by
  have hmem (one : Pair) :
      one ∈ ((detail.turns.filterMap (detail.completedPair currentTurnId before)).insertionSort pairLe).reverse
        ↔ ∃ turn run, CompletedTurn detail currentTurnId before turn run one := by
    rw [mem_reverse, (perm_insertionSort _ _).mem_iff, mem_completedTurns]
  rw [completedPairs, mem_keepOrdered (pairwise_reverse.mpr completedPairs_sorted) ?_]
  · simp only [hmem]
    constructor
    · rintro ⟨hcompleted, -, happart⟩
      exact ⟨hcompleted, fun turn run later hlater => happart later ⟨turn, run, hlater⟩⟩
    · rintro ⟨⟨turn, run, hcompleted⟩, happart⟩
      exact ⟨⟨turn, run, hcompleted⟩, hcompleted.earlier,
        fun later ⟨turn', run', hlater⟩ => happart turn' run' later hlater⟩
  · intro one hone
    obtain ⟨_, _, hcompleted⟩ := (hmem one).mp hone
    exact (hcompleted.ordered.trans hcompleted.earlier).le

theorem apart_of_chained {next : Nat} {pairs : List Pair} (h : PairsChained next pairs)
    (hordered : ∀ pair ∈ pairs, pair.1.sequence < pair.2.sequence) :
    (∀ pair ∈ pairs, pair.2.sequence < next)
      ∧ pairs.Pairwise fun newer older => older.2.sequence < newer.1.sequence := by
  induction pairs generalizing next with
  | nil => exact ⟨fun _ h => absurd h not_mem_nil, .nil⟩
  | cons _ _ ih =>
    obtain ⟨hpair, holder⟩ := forall_mem_cons.mp hordered
    obtain ⟨hbelow, hapart⟩ := ih h.2 holder
    exact ⟨forall_mem_cons.mpr ⟨h.1, fun p hp => (hbelow p hp).trans (hpair.trans h.1)⟩,
      pairwise_cons.mpr ⟨hbelow, hapart⟩⟩

/-! ### Another order of the records -/

/-- The same conversation with the same records, in whatever order they are listed. -/
structure SameRecords (detail detail' : ConversationDetail) : Prop where
  conversation : detail'.conversation = detail.conversation
  messages : detail'.messages.Perm detail.messages
  turns : detail'.turns.Perm detail.turns
  runs : detail'.runs.Perm detail.runs

theorem SameRecords.completedPair (h : SameRecords detail detail') :
    detail'.completedPair currentTurnId before = detail.completedPair currentTurnId before := by
  funext turn
  have howns : detail'.owns = detail.owns := by
    funext item
    simp only [owns, h.conversation, h.messages.countP_eq]
  simp only [ConversationDetail.completedPair, howns, h.conversation, h.turns.countP_eq, onlyOne_perm h.runs,
    onlyOne_perm h.messages]

theorem SameRecords.completedPairs (h : SameRecords detail detail') :
    detail'.completedPairs currentTurnId before = detail.completedPairs currentTurnId before := by
  have hpairs : (detail'.turns.filterMap (detail'.completedPair currentTurnId before)).Perm
      (detail.turns.filterMap (detail.completedPair currentTurnId before)) := by
    rw [h.completedPair]
    exact h.turns.filterMap _
  have hsame : (detail'.turns.filterMap (detail'.completedPair currentTurnId before)).insertionSort pairLe
      = (detail.turns.filterMap (detail.completedPair currentTurnId before)).insertionSort pairLe := by
    have hperm := ((perm_insertionSort pairLe _).trans hpairs).trans (perm_insertionSort pairLe _).symm
    exact hperm.eq_of_pairwise (fun _ _ _ _ hle hge => absurd hge.1 hle.2) completedPairs_sorted completedPairs_sorted
  rw [ConversationDetail.completedPairs, ConversationDetail.completedPairs, hsame]

/-! ### The history -/

variable [UuidText]

/-- The messages of some pairs, one pair after the other. -/
def shownPairs (pairs : List Pair) : List TurnHistoryMessage :=
  pairs.flatMap pairMessages

/-- Pairs that a history may show together. -/
def Fits (pairs : List Pair) : Prop :=
  pairs.length ≤ maxHistoryTurns ∧ (historyJson (shownPairs pairs)).toVecLen ≤ maxHistoryBytes

theorem length_shownPairs (pairs : List Pair) : (shownPairs pairs).length = 2 * pairs.length := by
  induction pairs with
  | nil => rfl
  | cons _ _ ih =>
    rw [shownPairs, flatMap_cons, length_append, ← shownPairs, ih, pairMessages, length_cons]
    simp only [length_cons, length_nil]
    omega

/-- Some of the newest pairs are put in front, up to the first that does not fit. -/
theorem fillHistory_takes (chosen pairs : List Pair) :
    ∃ taken left, pairs = taken ++ left ∧ fillHistory (shownPairs chosen) pairs = shownPairs (taken.reverse ++ chosen)
      ∧ ∀ pair ∈ left.head?, maxHistoryBytes < (historyJson (shownPairs (pair :: (taken.reverse ++ chosen)))).toVecLen := by
  induction pairs generalizing chosen with
  | nil => exact ⟨[], [], rfl, rfl, by simp⟩
  | cons pair older ih =>
    rw [fillHistory]
    split
    · next hlarge => exact ⟨[], pair :: older, rfl, rfl, by simpa [shownPairs] using hlarge⟩
    · obtain ⟨taken, left, hpairs, hfilled, hleft⟩ := ih (pair :: chosen)
      refine ⟨pair :: taken, left, by rw [hpairs, cons_append], ?_, ?_⟩
      · rw [reverse_cons, append_assoc, singleton_append, ← hfilled]
        rfl
      · simpa using hleft

/-- What the history of a turn shows of the eligible pairs, and how many of them it leaves out. -/
structure ShowsNewest (eligible chosen : List Pair) (history : List TurnHistoryMessage) (omitted : Nat) : Prop where
  newest : chosen <:+ eligible
  shown : history = shownPairs chosen
  fits : Fits chosen
  longest : ∀ pair, (pair :: chosen) <:+ eligible → ¬ Fits (pair :: chosen)
  counted : omitted + history.length / 2 = eligible.length

theorem completedHistory_newest (detail : ConversationDetail) (currentTurnId : TurnId) (before : Nat) :
    ∃ chosen, ShowsNewest (detail.completedPairs currentTurnId before).reverse chosen
      (detail.completedHistory currentTurnId before).1 (detail.completedHistory currentTurnId before).2 := by
  set pairs := detail.completedPairs currentTurnId before with hpairs
  obtain ⟨taken, left, hsplit, hfilled, hleft⟩ := fillHistory_takes [] (pairs.take maxHistoryTurns)
  have hall : pairs = taken ++ (left ++ pairs.drop maxHistoryTurns) := by
    rw [← append_assoc, ← hsplit, take_append_drop]
  have hhistory : (detail.completedHistory currentTurnId before).1 = shownPairs taken.reverse := by
    rw [← append_nil taken.reverse]
    exact hfilled
  have hshort : taken.length ≤ maxHistoryTurns := by
    have hlength := congrArg List.length hsplit
    rw [length_take, length_append] at hlength
    omega
  refine ⟨taken.reverse, ?_, hhistory, ⟨by rwa [length_reverse], ?_⟩, ?_, ?_⟩
  · rw [hall, reverse_append]
    exact suffix_append _ _
  · rw [← hhistory]
    exact (completedHistory_selected detail currentTurnId before).1.bytes
  · rintro pair hnext ⟨hcount, hbytes⟩
    have hprefix : taken ++ [pair] <+: taken ++ (left ++ pairs.drop maxHistoryTurns) := by
      rw [← reverse_suffix, ← hall]
      simpa using hnext
    obtain ⟨_, hrest⟩ := (prefix_append_right_inj taken).mp hprefix
    cases left with
    | cons next left =>
      have hpair : pair = next := head_eq_of_cons_eq hrest
      have hlarge := hleft next rfl
      rw [← hpair, append_nil] at hlarge
      omega
    | nil =>
      have htaken := congrArg List.length hsplit
      have hdrop := congrArg List.length hrest
      simp only [length_take, length_append, length_drop, length_cons, length_nil,
        length_reverse] at htaken hdrop hcount
      omega
  · have hlength := congrArg List.length hall
    rw [length_append] at hlength
    show pairs.length - (detail.completedHistory currentTurnId before).1.length / 2 + _ = _
    rw [hhistory, length_shownPairs, length_reverse, length_reverse]
    omega

end ConversationDetail

/-- What `completed_history` answers, whatever the records are: an even number of messages, forty at most, questions and
answers in turn, with increasing numbers below the one of the prompt. They are the longest run of the newest eligible
pairs that fits, the number left out is exact, and the order of the records does not matter. -/
theorem completedHistory_exact [UuidText] (detail : ConversationDetail) (currentTurnId : TurnId) (before : Nat) :
    let (history, omitted) := detail.completedHistory currentTurnId before
    history.length % 2 = 0 ∧ history.length ≤ 40 ∧ Alternating history
      ∧ (history.Pairwise fun earlier later => earlier.sequence < later.sequence)
      ∧ (∀ shown ∈ history, shown.sequence < before)
      ∧ (historyJson history).toVecLen ≤ maxHistoryBytes
      ∧ (∃ eligible chosen, (∀ pair, pair ∈ eligible ↔ detail.Eligible currentTurnId before pair)
        ∧ (eligible.Pairwise fun earlier later => earlier.2.sequence < later.1.sequence)
        ∧ ShowsNewest eligible chosen history omitted)
      ∧ ∀ detail', detail.SameRecords detail' → detail'.completedHistory currentTurnId before = (history, omitted) := by
  obtain ⟨hselected, hlength⟩ := completedHistory_selected detail currentTurnId before
  obtain ⟨chosen, hchosen⟩ := completedHistory_newest detail currentTurnId before
  refine ⟨hselected.alternating.even, hlength, hselected.alternating, hselected.ordered,
    fun shown hshown => (hselected.shows shown hshown).earlier, hselected.bytes,
    ⟨_, chosen, fun pair => by rw [mem_reverse, mem_completedPairs], pairwise_reverse.mpr ?_, hchosen⟩,
    fun detail' hsame => by rw [ConversationDetail.completedHistory, hsame.completedPairs]⟩
  exact (apart_of_chained (completedPairs_chained detail currentTurnId before) fun pair hpair =>
    (completedPairs_completed hpair).ordered).2

end GeoMaster
