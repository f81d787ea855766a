import GeoMaster.Domain.ContentEvidence

/-!
# Reading evidence ends

Reading the evidence of an item pages through its sources with cursors that are safe integers and grow,
so with fuel beyond the largest safe integer it always comes to an end; and it asks for nothing but
pages, selections, and whether it was cancelled.
-/

namespace GeoMaster

open Except Option Js

namespace ContentWorkflow

open Script

/-! ### The helpers of the script -/

section Helpers

variable {t : List (Exchange WorkflowCall WorkflowCall.Reply)} {α : Type}
  {P : List (Exchange WorkflowCall WorkflowCall.Reply) → Outcome WorkflowError α → Prop}
  {B : List (Exchange WorkflowCall WorkflowCall.Reply) → Outcome WorkflowError Bool → Prop}

@[simp]
theorem sat_ask {call : WorkflowCall}
    {P : List (Exchange WorkflowCall WorkflowCall.Reply) → Outcome WorkflowError call.Reply → Prop} :
    Sat P (ask call) t ↔ ∀ reply, P (t ++ [⟨call, reply⟩]) (.returned reply) :=
  Script.sat_ask

variable {reply : Except HostError α} {role : ModelRole}

@[simp]
theorem sat_settled :
    Sat P (settled reply) t
      ↔ (∀ a, reply = .ok a → P t (.returned a)) ∧ ∀ e, reply = .error e → P t (.raised (.host e)) := by
  cases reply <;> simp [settled]

/-- Every reply of a call that may throw is a value or an error. -/
theorem forall_reply {P : Except HostError α → Prop} : (∀ reply, P reply) ↔ (∀ v, P (.ok v)) ∧ ∀ e, P (.error e) := by
  constructor
  · exact fun h => ⟨fun v => h (.ok v), fun e => h (.error e)⟩
  · rintro ⟨hok, herror⟩ (e | v)
    · exact herror e
    · exact hok v

theorem sat_bind_settled {call : Workflow (Except HostError α)}
    {asked : Except HostError α → Exchange WorkflowCall WorkflowCall.Reply}
    (hask : Sat (Then (fun reply => Sat P (settled reply)) P) call t
      ↔ ∀ reply, Sat P (settled reply) (t ++ [asked reply])) :
    Sat P (call >>= settled) t
      ↔ (∀ v, P (t ++ [asked (.ok v)]) (.returned v)) ∧ ∀ e, P (t ++ [asked (.error e)]) (.raised (.host e)) := by
  rw [sat_bind, hask, forall_reply]
  simp

@[simp]
theorem sat_callHost {op : HostOp} {input : Json}
    {P : List (Exchange WorkflowCall WorkflowCall.Reply) → Outcome WorkflowError Json → Prop} :
    Sat P (callHost op input) t
      ↔ (∀ v, P (t ++ [⟨.host op input, .ok v⟩]) (.returned v))
        ∧ ∀ e, P (t ++ [⟨.host op input, .error e⟩]) (.raised (.host e)) :=
  sat_bind_settled (@Script.sat_ask _ WorkflowCall.Reply _ t (.host op input) _)

@[simp]
theorem sat_modelComplete {prompt : Json} {limit : Nat}
    {P : List (Exchange WorkflowCall WorkflowCall.Reply) → Outcome WorkflowError Json → Prop} :
    Sat P (modelComplete role prompt limit) t
      ↔ (∀ v, P (t ++ [⟨.modelComplete role prompt limit, .ok v⟩]) (.returned v))
        ∧ ∀ e, P (t ++ [⟨.modelComplete role prompt limit, .error e⟩]) (.raised (.host e)) :=
  sat_bind_settled (@Script.sat_ask _ WorkflowCall.Reply _ t (.modelComplete role prompt limit) _)

@[simp]
theorem sat_isCancelled :
    Sat B (ask .isCancelled) t ↔ ∀ reply : Bool, B (t ++ [⟨.isCancelled, reply⟩]) (.returned reply) :=
  @Script.sat_ask _ _ _ t .isCancelled B

@[simp]
theorem sat_takeDiagnostic :
    Sat B (ask .takeDiagnostic) t ↔ ∀ reply : Bool, B (t ++ [⟨.takeDiagnostic, reply⟩]) (.returned reply) :=
  @Script.sat_ask _ _ _ t .takeDiagnostic B

section Unanswered

variable {P : List (Exchange WorkflowCall WorkflowCall.Reply) → Outcome WorkflowError Unit → Prop}

@[simp]
theorem sat_emit {topic : String} {value : Json} :
    Sat P (emit topic value) t
      ↔ P (t ++ [⟨.emit topic value, .ok ()⟩]) (.returned ())
        ∧ ∀ e, P (t ++ [⟨.emit topic value, .error e⟩]) (.raised (.host e)) :=
  (sat_bind_settled (@Script.sat_ask _ WorkflowCall.Reply _ t (.emit topic value) _)).trans (and_congr_left' Unique.forall_iff)

@[simp]
theorem sat_thinking {data : Json} :
    Sat P (thinking data) t
      ↔ P (t ++ [⟨.thinking data, .ok ()⟩]) (.returned ())
        ∧ ∀ e, P (t ++ [⟨.thinking data, .error e⟩]) (.raised (.host e)) :=
  (sat_bind_settled (@Script.sat_ask _ WorkflowCall.Reply _ t (.thinking data) _)).trans (and_congr_left' Unique.forall_iff)

@[simp]
theorem sat_stopIfCancelled {error : WorkflowError} :
    Sat P (stopIfCancelled error) t
      ↔ P (t ++ [⟨.isCancelled, true⟩]) (.raised error) ∧ P (t ++ [⟨.isCancelled, false⟩]) (.returned ()) := by
  have hreply : Sat P (stopIfCancelled error) t
      ↔ ∀ cancelled : Bool, Sat P (failIf (cancelled = true) error) (t ++ [⟨.isCancelled, cancelled⟩]) := by
    rw [stopIfCancelled, sat_bind]
    exact @sat_ask t .isCancelled _
  rw [hreply, Bool.forall_bool]
  simp [and_comm]

end Unanswered

variable {p : WorkflowCall → Prop} {cut : Prop}

theorem within_settled : Within p cut (settled reply : Workflow α) := by
  cases reply with
  | error e => exact within_throw
  | ok a => exact within_pure

theorem within_callHost {op : HostOp} {input : Json} (h : p (.host op input)) : Within p cut (callHost op input) :=
  .bind (within_ask h) fun _ => within_settled

theorem within_modelComplete {prompt : Json} {limit : Nat}
    (h : p (.modelComplete role prompt limit)) : Within p cut (modelComplete role prompt limit) :=
  .bind (within_ask h) fun _ => within_settled

theorem within_stopIfCancelled {error : WorkflowError} (h : p .isCancelled) : Within p cut (stopIfCancelled error) :=
  .bind (within_ask h) fun _ => within_failIf

end Helpers

/-! ### Cursors grow -/

theorem safeInteger_le {value : JsValue} {n : Nat} (h : value.safeInteger = some n) : n ≤ maxSafeInteger := by
  unfold JsValue.safeInteger at h
  split at h
  · split at h
    · split at h
      · next hle =>
        obtain rfl := some.inj h
        exact hle
      · simp at h
    · simp at h
  · simp at h

variable {ordinal : Option Nat}

theorem checkChunk_ordinal {chunk : Json} {checked : SourceChunk} (h : checkChunk ordinal chunk = .ok checked) :
    checked.ordinal ≤ maxSafeInteger ∧ ∀ last ∈ ordinal, last < checked.ordinal := by
  simp only [checkChunk, eq_ok_iff] at h
  obtain ⟨_, -, _, hposition, _, hlater, _, -, _, -, _, -, _, -, rfl⟩ := h
  exact ⟨safeInteger_le hposition, fun last hlast => Nat.lt_of_not_le fun hle => hlater ⟨last, hlast, hle⟩⟩

theorem checkChunks_ordinals {chunks : List Json} {checked : List SourceChunk}
    (h : checkChunks ordinal chunks = .ok checked) :
    ∀ chunk ∈ checked, chunk.ordinal ≤ maxSafeInteger ∧ ∀ last ∈ ordinal, last < chunk.ordinal := by
  induction chunks generalizing ordinal checked with
  | nil =>
    obtain rfl : [] = checked := ok.inj h
    simp
  | cons _ _ ih =>
    simp only [checkChunks, eq_ok_iff] at h
    obtain ⟨first, hfirst, _, hothers, rfl⟩ := h
    have hrest := ih hothers
    obtain ⟨hsafe, hlater⟩ := checkChunk_ordinal hfirst
    intro c hc
    rcases List.mem_cons.mp hc with rfl | hmem
    · exact ⟨hsafe, hlater⟩
    · obtain ⟨hcsafe, hafter⟩ := hrest c hmem
      exact ⟨hcsafe, fun last hlast => (hlater last hlast).trans (hafter first.ordinal rfl)⟩

/-- Where a page goes on is after the ordinal it began after. -/
theorem nextOrdinal_advances {item source page : Json} {executionId : String}
    {afterOrdinal : Option Nat} {chunks : List SourceChunk} {next : Nat}
    (hchunks : pageChunks item source page executionId afterOrdinal = .ok chunks)
    (hnext : nextOrdinal page chunks = .ok (some next)) :
    next ≤ maxSafeInteger ∧ ∀ last ∈ afterOrdinal, last < next := by
  simp only [pageChunks, bind_eq_ok] at hchunks
  obtain ⟨_, -, _, -, _, -, _, -, _, -, _, -, _, -, _, -, _, -, _, -, _, -, hchecked⟩ := hchunks
  unfold nextOrdinal at hnext
  dsimp only at hnext
  split at hnext
  · simp at hnext
  · split at hnext
    · next last hlast =>
      split at hnext
      · obtain rfl := some.inj (ok.inj hnext)
        exact checkChunks_ordinals hchecked last (List.mem_of_getLast? hlast)
      · simp at hnext
    · simp at hnext

/-! ### Reading ends -/

/-- The calls that reading evidence makes. -/
def Reads : WorkflowCall → Prop
  | .host .sourceRead _ => True
  | .modelComplete .evidenceSelector _ _ => True
  | .isCancelled => True
  | _ => False

/-- How far a cursor may still go. -/
def ordinalsLeft (state : Option Nat × Levels) : Nat :=
  state.1.elim (maxSafeInteger + 1) fun ordinal => maxSafeInteger - ordinal

section Reading

variable [JsonText] {item context : Json} {executionId : String} {cut : Prop}

theorem selectEvidence_within {available : List Offered} {fromCandidates : Bool} :
    Within Reads cut (selectEvidence item context available fromCandidates) := by
  refine .bind (within_stopIfCancelled trivial) fun _ => .bind (.recover ?_ fun _ => within_throw)
    fun _ => .bind (within_stopIfCancelled trivial) fun _ => within_lift
  exact .bind within_lift fun _ => within_modelComplete trivial

theorem combineEvidence_within {left right : List EvidenceQuote} :
    Within Reads cut (combineEvidence item context left right) := by
  unfold combineEvidence
  dsimp only
  split
  · exact selectEvidence_within
  · exact within_pure

theorem carryEvidence_within (levels : Levels) (candidates : List EvidenceQuote) :
    Within Reads cut (carryEvidence item context levels candidates) := by
  induction levels generalizing candidates with
  | nil => exact within_pure
  | cons level _ ih =>
    cases level with
    | none => exact within_pure
    | some level => exact .bind combineEvidence_within fun combined => .bind (ih combined) fun _ => within_pure

theorem mergeLevels_within (levels : Levels) (evidence : List EvidenceQuote) :
    Within Reads cut (mergeLevels item context levels evidence) := by
  induction levels generalizing evidence with
  | nil => exact within_pure
  | cons level _ ih =>
    cases level with
    | none => exact ih evidence
    | some candidates => exact .bind combineEvidence_within fun combined => ih combined

theorem readPage_within {source : Json} (state : Option Nat × Levels) :
    Within Reads cut (readPage item context source executionId state) := by
  refine .bind (within_stopIfCancelled trivial) fun _ => .bind (.recover ?_ fun _ => within_throw)
    fun _ => .bind within_lift fun chunks => .bind within_lift fun next => .bind ?_ fun _ => ?_
  · exact .bind within_lift fun _ => within_callHost trivial
  · unfold addPage
    split
    · exact within_pure
    · exact .bind within_lift fun _ => .bind selectEvidence_within fun _ => carryEvidence_within _ _
  · split <;> exact within_pure

/-- A page that goes on does so after the ordinal it began after. -/
theorem readPage_advances {source : Json} {state : Option Nat × Levels}
    {t : List (Exchange WorkflowCall WorkflowCall.Reply)} :
    Sat (fun _ outcome => ∀ next, outcome = .returned (.inl next) →
        ∃ ordinal, next.1 = some ordinal ∧ ordinal ≤ maxSafeInteger ∧ ∀ last ∈ state.1, last < ordinal)
      (readPage item context source executionId state) t := by
  refine sat_bind_of_all (fun _ t => ?_) (by simp) (by simp)
  refine sat_bind_of_all (fun page t => ?_) (by simp) (by simp)
  rw [sat_bind, sat_lift]
  refine ⟨fun chunks hchunks => ?_, by simp⟩
  rw [then_returned, sat_bind, sat_lift]
  refine ⟨fun next hnext => ?_, by simp⟩
  rw [then_returned]
  refine sat_bind_of_all (fun levels t => ?_) (by simp) (by simp)
  cases next with
  | none => simp
  | some ordinal =>
    refine sat_pure.mpr fun next hnext' => ?_
    obtain rfl := Sum.inl.inj (Outcome.returned.inj hnext')
    exact ⟨ordinal, rfl, nextOrdinal_advances hchunks hnext⟩

theorem readSources_within {fuel : Nat} (sources : List Json) (levels : Levels) :
    Within Reads (fuel ≤ maxSafeInteger + 1) (readSources fuel item context executionId sources levels) := by
  induction sources generalizing levels with
  | nil => exact within_pure
  | cons _ _ ih =>
    refine .bind ?_ fun levels => ih levels
    refine Within.loop (I := fun state => ∀ ordinal ∈ state.1, ordinal ≤ maxSafeInteger)
      (fun state _ => readPage_within state) (fun state t next hstate hrun => ?_) (by simp)
      (fun hle : fuel ≤ ordinalsLeft (none, levels) => hle)
    obtain ⟨_, hordinal, hsafe, hlater⟩ := readPage_advances (t := []) t _ hrun next rfl
    refine ⟨by simpa [hordinal] using hsafe, ?_⟩
    cases hlast : state.1 with
    | none =>
      simp only [ordinalsLeft, hordinal, hlast, elim_some, elim_none]
      omega
    | some last =>
      have hlt := hlater last hlast
      have hle := hstate last hlast
      simp only [ordinalsLeft, hordinal, hlast, elim_some]
      omega

theorem readEvidence_within {fuel : Nat} :
    Within Reads (fuel ≤ maxSafeInteger + 1) (readEvidence fuel item context executionId) := by
  unfold readEvidence
  refine .bind within_lift fun reusable => ?_
  split
  any_goals
    exact .bind within_lift fun _ => .bind within_lift fun _ => .bind (readSources_within _ _)
      fun _ => .bind (mergeLevels_within _ _) fun _ => within_pure
  exact within_pure

end Reading

end ContentWorkflow

end GeoMaster
