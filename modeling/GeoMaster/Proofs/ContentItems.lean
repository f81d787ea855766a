import GeoMaster.Domain.ContentWorkflow
import GeoMaster.Proofs.ContentReading

/-!
# The steps of one item

What a run of one item has done is kept as a `Standing`: which claims were begun, which one is open, and
what the backend last said of the item. A claimed step ends with its claim settled, unless the model
answered null: such an answer is read outside the block that settles the claim, and the claim stays open.
-/

namespace GeoMaster

open Except List Option Nat JsValue Js

namespace ContentWorkflow

open Script

abbrev WorkflowExchange : Type :=
  Exchange WorkflowCall WorkflowCall.Reply

/-- The claim that a begin has made, with its token: its reply is not about a current item. -/
def claimOf (e : WorkflowExchange) : Option (StepKind × JsValue) :=
  match e with
  | ⟨.host (.stepBegin kind) _, .ok claim⟩ =>
    match member (some claim) "state" with
    | none => none
    | some state =>
      if state.isText "current" then none
      else some (kind, optionalMember (some claim) "token")
  | _ => none

/-- The claim that a finish settles. -/
def finishOf (e : WorkflowExchange) : Option (StepKind × JsValue) :=
  match e.call with
  | .host (.stepFinish kind) input => some (kind, input.get "token")
  | _ => none

/-- The step that a begin is for. -/
def beginOf (e : WorkflowExchange) : Option StepKind :=
  match e.call with
  | .host (.stepBegin kind) _ => some kind
  | _ => none

/-- The item as the backend last told it. -/
def itemOf (e : WorkflowExchange) (item : JsValue) : JsValue :=
  match e with
  | ⟨.host .prepare _, .ok prepared⟩ => some prepared
  | ⟨.host (.stepBegin _) _, .ok claim⟩ =>
    if (optionalMember (some claim) "state").isText "current" then
      optionalMember (some claim) "item"
    else item
  | ⟨.host (.stepFinish _) _, .ok finished⟩ => some finished
  | _ => item

/-- The last item that a run was told. -/
def lastItem (item : Json) (t : List WorkflowExchange) : JsValue :=
  t.foldl (fun current e => itemOf e current) (some item)

/-- How many times a step was begun. -/
def beginCount (kind : StepKind) (t : List WorkflowExchange) : Nat :=
  t.countP fun e => beginOf e = some kind

/-- A model that was asked for a claimed step has answered null. -/
def isNullAnswer (e : WorkflowExchange) : Bool :=
  match e with
  | ⟨.modelComplete (.step _) _ _, .ok .null⟩ => true
  | _ => false

/-- The run was not found cancelled. -/
def goesOn (e : WorkflowExchange) : Bool :=
  match e with
  | ⟨.isCancelled, false⟩ => true
  | _ => false

/-- A model has answered null for a claimed step, and the run was not found cancelled right after. -/
def NullAnswer (t : List WorkflowExchange) : Prop :=
  ∃ pre answer after post, t = pre ++ answer :: after :: post ∧ isNullAnswer answer = true ∧ goesOn after = true

/-- Every claim with a token is settled once, with that token, before the next begin and the end. -/
def EachSettled (t : List WorkflowExchange) : Prop :=
  ∀ pre e seg post kind token, t = pre ++ e :: seg ++ post → claimOf e = some (kind, some token) →
    (∀ x ∈ seg, beginOf x = none) → (∀ x ∈ post.head?, (beginOf x).isSome) →
    seg.filterMap finishOf = [(kind, some token)]

/-! ### The open claim -/

/-- The open claim after an exchange, if claims are begun one at a time and only the open one is
finished. -/
def afterExchange (opened : Option (StepKind × JsValue)) (e : WorkflowExchange) :
    Option (Option (StepKind × JsValue)) :=
  if (beginOf e).isSome then
    if opened = none then some (claimOf e) else none
  else
    match finishOf e with
    | some finished => if opened = some finished then some none else none
    | none => some opened

/-- The open claim after a run that began with none. -/
def openClaim (opened : Option (StepKind × JsValue)) : List WorkflowExchange → Option (Option (StepKind × JsValue))
  | [] => some opened
  | e :: rest => (afterExchange opened e).bind fun opened => openClaim opened rest

variable {current : JsValue} {e : WorkflowExchange} {fuel : Nat} {kind : StepKind} {request : ItemRequest}
  {state : BranchState} {t' : List WorkflowExchange}

variable {opened : Option (StepKind × JsValue)} {token value : JsValue} {reply : Except HostError Json}
  {o : Outcome WorkflowError JsValue} {error : WorkflowError}

theorem openClaim_append {t : List WorkflowExchange} :
    openClaim opened (t ++ t') = (openClaim opened t).bind fun opened => openClaim opened t' := by
  induction t generalizing opened with
  | nil => rfl
  | cons _ _ ih =>
    simp only [cons_append, openClaim, ih, bind_assoc]

theorem openClaim_seg {closed : Option (StepKind × JsValue)} {seg : List WorkflowExchange}
    (h : openClaim opened seg = some closed) (hseg : ∀ x ∈ seg, beginOf x = none) :
    opened.toList = seg.filterMap finishOf ++ closed.toList := by
  induction seg generalizing opened with
  | nil =>
    obtain rfl := some.inj h
    rfl
  | cons e _ ih =>
    obtain ⟨next, hnext, hrest⟩ := bind_eq_some_iff.mp h
    have htail := ih hrest fun x hx => hseg x (mem_cons_of_mem _ hx)
    have hbegin : ¬ (beginOf e).isSome = true := by
      rw [hseg e mem_cons_self]
      simp
    rw [afterExchange, if_neg hbegin] at hnext
    cases hfinish : finishOf e with
    | none =>
      rw [hfinish] at hnext
      obtain rfl := some.inj hnext
      rw [filterMap_cons_none hfinish, htail]
    | some finished =>
      rw [hfinish] at hnext
      dsimp only at hnext
      split at hnext
      · next hopened =>
        obtain rfl := some.inj hnext
        rw [filterMap_cons_some hfinish, hopened, cons_append, ← htail]
        rfl
      · simp at hnext

theorem beginOf_of_claimOf (h : claimOf e = some (kind, token)) : beginOf e = some kind := by
  unfold claimOf at h
  split at h
  · next kind' input claim =>
    split at h
    · simp at h
    · split at h
      · simp at h
      · obtain ⟨rfl, -⟩ := Prod.mk.inj (some.inj h)
        rfl
  · simp at h

theorem eachSettled_of_openClaim {t : List WorkflowExchange} (h : openClaim none t = some none) : EachSettled t := by
  intro pre e seg post kind token ht hclaim hseg hpost
  rw [ht, append_assoc, cons_append, openClaim_append] at h
  obtain ⟨_, -, hfrom⟩ := bind_eq_some_iff.mp h
  obtain ⟨_, hopened, hafter⟩ := bind_eq_some_iff.mp hfrom
  rw [openClaim_append] at hafter
  obtain ⟨closed, hclosed, hrest⟩ := bind_eq_some_iff.mp hafter
  have hbegin : (beginOf e).isSome = true := by
    rw [beginOf_of_claimOf hclaim]
    rfl
  rw [afterExchange, if_pos hbegin] at hopened
  split at hopened
  · obtain rfl := some.inj hopened
    have hnone : closed = none := by
      cases post with
      | nil => exact some.inj hrest
      | cons b rest =>
        obtain ⟨_, hnext, -⟩ := bind_eq_some_iff.mp hrest
        have hb : (beginOf b).isSome = true := hpost b rfl
        rw [afterExchange, if_pos hb] at hnext
        split at hnext
        · assumption
        · simp at hnext
    have hfinished := openClaim_seg hclosed hseg
    rw [hclaim, hnone] at hfinished
    simpa using hfinished.symm
  · simp at hopened

/-! ### A claimed step -/

/-- A member of an object that is written without its undefined members. -/
theorem get_object {fields : List (String × JsValue)} (hnodup : (fields.map Prod.fst).Nodup)
    {key : String} (hmem : (key, value) ∈ fields) :
    (object fields).get key = value := by
  have hunique : ∀ v, (key, v) ∈ fields → v = value := fun v hv =>
    (Prod.mk.inj (inj_on_of_nodup_map hnodup hv hmem rfl)).2
  set written := fields.filterMap fun field => field.2.map fun value => (field.1, value)
  have hwritten : ∀ w, (key, w) ∈ written.insertionSort (fun a b => a.1 ≤ b.1) ↔ (key, some w) ∈ fields := by
    intro w
    rw [(perm_insertionSort _ _).mem_iff]
    simp [written]
  show ((written.insertionSort fun a b => a.1 ≤ b.1).find? fun f => f.1 = key).map Prod.snd = value
  cases hfind : (written.insertionSort fun a b => a.1 ≤ b.1).find? fun f => f.1 = key with
  | some found =>
    obtain ⟨k, w⟩ := found
    obtain rfl : k = key := by simpa using List.find?_some hfind
    exact hunique (some w) ((hwritten w).mp (mem_of_find?_eq_some hfind))
  | none =>
    cases value with
    | none => rfl
    | some w =>
      have hne := List.find?_eq_none.mp hfind _ ((hwritten w).mpr hmem)
      simp at hne

/-- A request about an item has no token of its own. -/
def Plain (request : ItemRequest) : Prop :=
  request.map Prod.fst = ["execution_id", "item_id"]

theorem finishInput_token (h : Plain request) (token : JsValue) (outcome : Json) :
    (finishInput request token outcome).get "token" = token := by
  refine get_object ?_ (by simp)
  rw [map_append, h]
  simp

variable {t : List WorkflowExchange} {item : Json}

theorem nullAnswer_append (h : NullAnswer t) : NullAnswer (t ++ t') := by
  obtain ⟨pre, answer, after, post, rfl, hnull, hon⟩ := h
  exact ⟨pre, answer, after, post ++ t', by simp, hnull, hon⟩

/-- A claim is open only after a null answer. -/
def InOrder (t : List WorkflowExchange) : Prop :=
  NullAnswer t ∨ openClaim none t = some none

theorem InOrder.append (h : InOrder t) (ht' : openClaim none t' = some none) : InOrder (t ++ t') := by
  rcases h with hnull | hopen
  · exact .inl (nullAnswer_append hnull)
  · refine .inr ?_
    rw [openClaim_append, hopen]
    exact ht'

/-- What a claimed step leaves behind. -/
structure StepEnd (kind : StepKind) (item : Json) (t t' : List WorkflowExchange)
    (outcome : Outcome WorkflowError JsValue) : Prop where
  begins : ∀ k, beginCount k t' = beginCount k t + if k = kind then 1 else 0
  inOrder : InOrder t'
  last : ∀ v, outcome = .returned v → lastItem item t' = v
  ends : outcome ≠ .cutOff

/-- A claim of this step has been begun after `t` and is still open. -/
structure Holding (kind : StepKind) (token : JsValue) (t t' : List WorkflowExchange) : Prop where
  begins : ∀ k, beginCount k t' = beginCount k t + if k = kind then 1 else 0
  opened : NullAnswer t' ∨ openClaim none t' = some (some (kind, token))

theorem beginCount_concat {k : StepKind} :
    beginCount k (t ++ [e]) = beginCount k t + if beginOf e = some k then 1 else 0 := by
  rw [beginCount, countP_append, countP_singleton]
  simp [beginCount]

theorem holding_begin {kind : StepKind} {input claim : Json} {state token : JsValue} (h : InOrder t)
    (hstate : readMember (some claim) "state" = .ok state) (hcurrent : ¬ state.isText "current" = true)
    (htoken : readMember (some claim) "token" = .ok token) :
    Holding kind token t (t ++ [⟨.host (.stepBegin kind) input, .ok claim⟩]) := by
  rw [readMember, okOr_eq_ok] at hstate htoken
  have hclaim : claimOf ⟨.host (.stepBegin kind) input, .ok claim⟩ = some (kind, token) := by
    simp [claimOf, hstate, hcurrent, optionalMember, htoken]
  constructor
  · intro k
    rw [beginCount_concat]
    simp [beginOf, eq_comm]
  · refine h.imp nullAnswer_append fun hopen => ?_
    rw [openClaim_append, hopen]
    simp [openClaim, afterExchange, beginOf, hclaim]

/-- What neither begins nor finishes leaves a claim open. -/
theorem Holding.ask (h : Holding kind token t t') (hbegin : beginOf e = none)
    (hfinish : finishOf e = none) : Holding kind token t (t' ++ [e]) where
  begins k := by simp [beginCount_concat, h.begins, hbegin]
  opened := by
    refine h.opened.imp nullAnswer_append fun hopen => ?_
    rw [openClaim_append, hopen]
    simp [openClaim, afterExchange, hbegin, hfinish]

/-- A finish ends the step, with the item it replies if it replies one. -/
theorem Holding.finish {outcome : Json} (h : Holding kind token t t') (hrequest : Plain request)
    (hlast : ∀ v, o = .returned v → ∃ w, reply = .ok w ∧ v = some w) (hends : o ≠ .cutOff) :
    StepEnd kind item t (t' ++ [⟨.host (.stepFinish kind) (finishInput request token outcome), reply⟩]) o where
  begins k := by simp [beginCount_concat, h.begins, beginOf]
  inOrder := by
    refine h.opened.imp nullAnswer_append fun hopen => ?_
    have hfinish : finishOf ⟨.host (.stepFinish kind) (finishInput request token outcome), reply⟩
        = some (kind, token) := by
      simp [finishOf, finishInput_token hrequest]
    rw [openClaim_append, hopen]
    simp [openClaim, afterExchange, beginOf, hfinish]
  last v hv := by
    obtain ⟨_, rfl, rfl⟩ := hlast v hv
    rw [lastItem, foldl_append]
    rfl
  ends := hends

theorem StepEnd.of_begin {input : Json} (h : InOrder t) (hclaim : claimOf ⟨.host (.stepBegin kind) input, reply⟩ = none)
    (hlast : ∀ v, o = .returned v → ∀ before, itemOf ⟨.host (.stepBegin kind) input, reply⟩ before = v)
    (hends : o ≠ .cutOff) : StepEnd kind item t (t ++ [⟨.host (.stepBegin kind) input, reply⟩]) o where
  begins k := by
    rw [beginCount_concat]
    simp [beginOf, eq_comm]
  inOrder := by
    refine h.append ?_
    simp [openClaim, afterExchange, beginOf, hclaim]
  last v hv := by
    rw [lastItem, foldl_append]
    exact hlast v hv _
  ends := hends

/-- Whether a member can be read does not depend on which one it is. -/
theorem member_eq_none {key : String} : value.member key = none ↔ value.isNullish = true := by
  unfold member isNullish
  split <;> simp_all

theorem completionOutcome_error {completion : Json} {e : WorkflowError}
    (h : completionOutcome completion = .error e) : completion = .null := by
  cases completion with
  | null => rfl
  | _ =>
    simp only [completionOutcome, readMember, member, okOr, bind, Except.bind] at h
    split at h <;> simp [pure, Except.pure] at h

theorem claimedStep_sat {prompt : Json → Except WorkflowError Json} {cancelled : String} (hrequest : Plain request)
    (h : InOrder t) : Sat (StepEnd kind item t) (claimedStep kind prompt cancelled request) t := by
  simp only [claimedStep, sat_bind, sat_callHost, then_returned, then_raised, sat_lift]
  refine ⟨fun claim => ⟨fun state hstate => ?_, fun e he => ?_⟩, fun e => ?_⟩
  · split
    · next hcurrent =>
      have hmember := okOr_eq_ok.mp hstate
      have hclaim : claimOf ⟨.host (.stepBegin kind) (object request), .ok claim⟩ = none := by
        simp [claimOf, hmember, hcurrent]
      refine sat_lift.mpr ⟨fun v hv => .of_begin h hclaim (fun w hw before => ?_) (by simp),
        fun e _ => .of_begin h hclaim (by simp) (by simp)⟩
      obtain rfl := Outcome.returned.inj hw
      simp [itemOf, optionalMember, hmember, hcurrent, okOr_eq_ok.mp hv]
    · next hcurrent =>
      simp only [sat_bind, sat_lift, sat_recover, sat_stopIfCancelled, sat_modelComplete, sat_callHost,
        then_returned, then_raised, orElse_returned, orElse_raised, sat_throw, sat_pure]
      refine ⟨fun token htoken => ?_, fun e he => ?_⟩
      · have hclaimed := @holding_begin t kind (object request) claim state token h hstate hcurrent htoken
        refine ⟨⟨fun _ => ?_, fun _ => ?_⟩, fun text _ => ⟨fun completion => ⟨⟨fun _ => ?_, fun _ => ?_⟩,
          fun outcome _ => ⟨fun item => ?_, fun _ => ?_⟩, fun error herror => ?_⟩, fun _ =>
          ⟨fun _ => ?_, fun _ => ?_⟩⟩, fun error _ => ⟨fun _ => ?_, fun _ => ?_⟩⟩
        -- Cancelled before the model is asked.
        · exact (hclaimed.ask rfl rfl).finish hrequest (by simp) (by simp)
        · exact (hclaimed.ask rfl rfl).finish hrequest (by simp) (by simp)
        -- Cancelled while the model answers.
        · exact (((hclaimed.ask rfl rfl).ask rfl rfl).ask rfl rfl).finish hrequest (by simp) (by simp)
        · exact (((hclaimed.ask rfl rfl).ask rfl rfl).ask rfl rfl).finish hrequest (by simp) (by simp)
        -- The model has answered.
        · exact (((hclaimed.ask rfl rfl).ask rfl rfl).ask rfl rfl).finish hrequest
            (fun v hv => ⟨item, rfl, (Outcome.returned.inj hv).symm⟩) (by simp)
        · exact (((hclaimed.ask rfl rfl).ask rfl rfl).ask rfl rfl).finish hrequest (by simp) (by simp)
        · obtain rfl := completionOutcome_error herror
          exact
            { begins := (((hclaimed.ask rfl rfl).ask rfl rfl).ask rfl rfl).begins
              inOrder := .inl ⟨t ++ [⟨.host (.stepBegin kind) (object request), .ok claim⟩]
                ++ [⟨.isCancelled, false⟩], ⟨.modelComplete (.step kind) text 4096, .ok .null⟩,
                ⟨.isCancelled, false⟩, [], by simp, rfl, rfl⟩
              last := by simp
              ends := by simp }
        -- The model has thrown.
        · exact ((hclaimed.ask rfl rfl).ask rfl rfl).finish hrequest (by simp) (by simp)
        · exact ((hclaimed.ask rfl rfl).ask rfl rfl).finish hrequest (by simp) (by simp)
        -- The prompt cannot be built.
        · exact (hclaimed.ask rfl rfl).finish hrequest (by simp) (by simp)
        · exact (hclaimed.ask rfl rfl).finish hrequest (by simp) (by simp)
      · have hnone : member (some claim) "token" = none := by
          cases hmember : member (some claim) "token" with
          | none => rfl
          | some token => simp [readMember, hmember, okOr] at he
        have hread := okOr_eq_ok.mp hstate
        rw [member_eq_none.mpr (member_eq_none.mp hnone)] at hread
        simp at hread
  · have hnone : member (some claim) "state" = none := by
      cases hmember : member (some claim) "state" with
      | none => rfl
      | some state => simp [readMember, hmember, okOr] at he
    exact .of_begin h (by simp [claimOf, hnone]) (by simp) (by simp)
  · exact .of_begin h rfl (by simp) (by simp)

/-! ### Checks and repairs -/

/-- What holds of the exchanges of one item at any time. -/
structure ItemBounds (t : List WorkflowExchange) : Prop where
  generations : beginCount .generate t ≤ 1
  checks : beginCount .check t ≤ 3
  repairs : beginCount .repair t ≤ 2
  inOrder : InOrder t

/-- Where the checks and repairs stand is what has been begun, and the item is as it was last told. -/
structure Standing (item : Json) (t : List WorkflowExchange) (state : BranchState) : Prop where
  generations : beginCount .generate t ≤ 1
  checks : beginCount .check t = state.checks
  repairs : beginCount .repair t = state.repairs
  checksLe : state.checks ≤ 3
  repairsLe : state.repairs ≤ 2
  inOrder : InOrder t
  current : lastItem item t = state.current

theorem Standing.bounds (h : Standing item t state) : ItemBounds t where
  generations := h.generations
  checks := h.checks.trans_le h.checksLe
  repairs := h.repairs.trans_le h.repairsLe
  inOrder := h.inOrder

/-- What one pass may come to. -/
structure PassEnd (item : Json) (state : BranchState) (t : List WorkflowExchange)
    (outcome : Outcome WorkflowError BranchState) : Prop where
  bounds : ItemBounds t
  ends : outcome ≠ .cutOff
  next : ∀ s, outcome = .returned s → Standing item t s ∧ s.checks + s.repairs = state.checks + state.repairs + 1

theorem PassEnd.raised (h : ItemBounds t) {e : WorkflowError} : PassEnd item state t (.raised e) :=
  ⟨h, by simp, by simp⟩

theorem checkDraft_sat {count : Nat} (hrequest : Plain request) (h : Standing item t state) :
    Sat (PassEnd item state) (checkDraft request state count) t := by
  simp only [checkDraft, sat_bind, sat_failIf, then_raised, then_returned]
  refine ⟨fun _ => .raised h.bounds, fun hbudget => ?_⟩
  have hlt : state.checks < 3 := by omega
  have hcheck : Sat (StepEnd .check item t) (checkContent request) t := claimedStep_sat hrequest h.inOrder
  refine Sat.mono hcheck fun t' outcome hstep => ?_
  have hbounds : ItemBounds t' :=
    { generations := by simpa [hstep.begins] using h.generations
      checks := by
        rw [hstep.begins, if_pos rfl, h.checks]
        omega
      repairs := by
        rw [hstep.begins, if_neg (by simp), h.repairs]
        exact h.repairsLe
      inOrder := hstep.inOrder }
  cases outcome with
  | raised e => exact .raised hbounds
  | cutOff => exact absurd rfl hstep.ends
  | returned current =>
    simp only [then_returned, sat_lift, sat_pure, then_raised]
    refine ⟨fun status _ => ⟨fun _ => .raised hbounds, fun _ => ⟨hbounds, by simp, fun s hs => ?_⟩⟩,
      fun e _ => .raised hbounds⟩
    obtain rfl := Outcome.returned.inj hs
    refine ⟨⟨hbounds.generations, ?_, ?_, hlt, h.repairsLe, hstep.inOrder, hstep.last current rfl⟩, ?_⟩
    · rw [hstep.begins, if_pos rfl, h.checks]
    · show _ = state.repairs
      rw [hstep.begins, if_neg (by simp), h.repairs, Nat.add_zero]
    · show state.checks + 1 + state.repairs = _
      omega

theorem repairDraft_sat {count : Nat} (hrequest : Plain request) (h : Standing item t state) :
    Sat (PassEnd item state) (repairDraft request state count) t := by
  simp only [repairDraft, sat_bind, sat_failIf, then_raised, then_returned]
  refine ⟨fun _ => .raised h.bounds, fun hbudget => ?_⟩
  have hlt : state.repairs < 2 := by omega
  have hrepair : Sat (StepEnd .repair item t) (repairContent request) t := claimedStep_sat hrequest h.inOrder
  refine Sat.mono hrepair fun t' outcome hstep => ?_
  have hbounds : ItemBounds t' :=
    { generations := by simpa [hstep.begins] using h.generations
      checks := by
        rw [hstep.begins, if_neg (by simp), h.checks]
        exact h.checksLe
      repairs := by
        rw [hstep.begins, if_pos rfl, h.repairs]
        omega
      inOrder := hstep.inOrder }
  cases outcome with
  | raised e => exact .raised hbounds
  | cutOff => exact absurd rfl hstep.ends
  | returned current =>
    simp only [then_returned, sat_lift, sat_pure, then_raised]
    refine ⟨fun status _ => ⟨fun _ => .raised hbounds, fun _ => ⟨hbounds, by simp, fun s hs => ?_⟩⟩,
      fun e _ => .raised hbounds⟩
    obtain rfl := Outcome.returned.inj hs
    refine ⟨⟨hbounds.generations, ?_, ?_, h.checksLe, hlt, hstep.inOrder, hstep.last current rfl⟩, ?_⟩
    · show _ = state.checks
      rw [hstep.begins, if_neg (by simp), h.checks, Nat.add_zero]
    · rw [hstep.begins, if_pos rfl, h.repairs]
    · show state.checks + (state.repairs + 1) = _
      omega

/-- What the checks and repairs of an item come to. -/
structure LoopEnd (item : Json) (fuel : Nat) (t : List WorkflowExchange)
    (outcome : Outcome WorkflowError JsValue) : Prop where
  bounds : ItemBounds t
  ends : outcome = .cutOff → fuel ≤ 5
  last : ∀ v, outcome = .returned v → lastItem item t = v

theorem branchLoop_sat (hrequest : Plain request) (h : Standing item t { current, checks := 0, repairs := 0 }) :
    Sat (LoopEnd item fuel) (Script.loop (branchPass request) fuel { current, checks := 0, repairs := 0 }) t := by
  refine sat_loop (J := fun n t state => Standing item t state ∧ fuel ≤ n + state.checks + state.repairs)
    (fun n t state hstate => ?_) (fun t state hstate => ?_) ⟨h, by omega⟩
  · obtain ⟨hstanding, hfuel⟩ := hstate
    have hraised (e : WorkflowError) : LoopEnd item fuel t (.raised e) := ⟨hstanding.bounds, by simp, by simp⟩
    simp only [branchPass, sat_bind, sat_lift, then_returned, then_raised]
    refine ⟨fun status _ => ?_, fun e _ => hraised e⟩
    split
    · refine sat_pure.mpr ⟨hstanding.bounds, by simp, fun v hv => ?_⟩
      obtain rfl := Outcome.returned.inj hv
      exact hstanding.current
    · simp only [sat_bind, sat_lift, then_returned, then_raised]
      refine ⟨fun count _ => ?_, fun e _ => hraised e⟩
      have hpass : Sat (PassEnd item state)
          (if status.isText "drafted" = true then checkDraft request state count
            else repairDraft request state count) t := by
        split
        · exact checkDraft_sat hrequest hstanding
        · exact repairDraft_sat hrequest hstanding
      refine Sat.mono hpass fun t' outcome hend => ?_
      cases outcome with
      | raised e => exact ⟨hend.bounds, by simp, by simp⟩
      | cutOff => exact absurd rfl hend.ends
      | returned next =>
        obtain ⟨hnext, _⟩ := hend.next next rfl
        exact sat_pure.mpr ⟨hnext, by omega⟩
  · obtain ⟨hstanding, _⟩ := hstate
    have hchecks := hstanding.checksLe
    have hrepairs := hstanding.repairsLe
    exact ⟨hstanding.bounds, fun _ => by omega, by simp⟩

/-! ### One item -/

/-- Nothing has been begun yet. -/
structure Unbegun (item : Json) (t : List WorkflowExchange) (current : JsValue) : Prop where
  begins : ∀ k, beginCount k t = 0
  inOrder : InOrder t
  last : lastItem item t = current

theorem unbegun_nil : Unbegun item [] (some item) :=
  ⟨fun _ => rfl, .inr rfl, rfl⟩

/-- What neither begins nor finishes may tell the item anew. -/
theorem Unbegun.ask (h : Unbegun item t current) (hbegin : beginOf e = none) (hfinish : finishOf e = none) :
    Unbegun item (t ++ [e]) (itemOf e current) where
  begins k := by simp [beginCount_concat, h.begins, hbegin]
  inOrder := h.inOrder.append (by simp [openClaim, afterExchange, hbegin, hfinish])
  last := by
    rw [lastItem, foldl_append, ← lastItem, h.last]
    rfl

theorem Unbegun.bounds (h : Unbegun item t current) : ItemBounds t where
  generations := by simp [h.begins]
  checks := by simp [h.begins]
  repairs := by simp [h.begins]
  inOrder := h.inOrder

theorem ItemBounds.ask (h : ItemBounds t) (hbegin : beginOf e = none) (hfinish : finishOf e = none) :
    ItemBounds (t ++ [e]) where
  generations := by simpa [beginCount_concat, hbegin] using h.generations
  checks := by simpa [beginCount_concat, hbegin] using h.checks
  repairs := by simpa [beginCount_concat, hbegin] using h.repairs
  inOrder := h.inOrder.append (by simp [openClaim, afterExchange, hbegin, hfinish])

/-- Reading neither begins nor finishes, and says nothing of the item. -/
theorem reads_quiet (h : Reads e.call) :
    beginOf e = none ∧ finishOf e = none ∧ ∀ current, itemOf e current = current := by
  obtain ⟨call, _⟩ := e
  cases call with
  | host op input => cases op <;> first | exact h.elim | exact ⟨rfl, rfl, fun _ => rfl⟩
  | modelComplete => exact ⟨rfl, rfl, fun _ => rfl⟩
  | isCancelled => exact ⟨rfl, rfl, fun _ => rfl⟩
  | _ => exact h.elim

theorem Unbegun.reads {u : List WorkflowExchange} (h : Unbegun item t current) (hu : ∀ e ∈ u, Reads e.call) :
    Unbegun item (t ++ u) current := by
  induction u generalizing t with
  | nil => simpa using h
  | cons e _ ih =>
    obtain ⟨hbegin, hfinish, hitem⟩ := reads_quiet (hu e mem_cons_self)
    have hask := h.ask hbegin hfinish
    rw [hitem] at hask
    have hrest := ih hask fun x hx => hu x (mem_cons_of_mem _ hx)
    simpa using hrest

/-- What preparation and generation may come to. -/
structure PrepareEnd (item : Json) (fuel : Nat) (t : List WorkflowExchange)
    (outcome : Outcome WorkflowError JsValue) : Prop where
  bounds : ItemBounds t
  ends : outcome = .cutOff → fuel ≤ maxSafeInteger + 1
  next : ∀ v, outcome = .returned v → Unbegun item t v

theorem generated_sat {status : JsValue} (hrequest : Plain request) (h : Unbegun item t current) :
    Sat (fun t outcome => ItemBounds t ∧ outcome ≠ .cutOff
        ∧ ∀ v, outcome = .returned v → Standing item t { current := v, checks := 0, repairs := 0 })
      (if status.isText "prepared" = true then generateContent request else pure current) t := by
  split
  · have hgenerate : Sat (StepEnd .generate item t) (generateContent request) t := claimedStep_sat hrequest h.inOrder
    refine Sat.mono hgenerate fun t' outcome hstep => ?_
    have hone : beginCount .generate t' ≤ 1 := by simp [hstep.begins, h.begins]
    have hchecks : beginCount .check t' = 0 := by simp [hstep.begins, h.begins]
    have hrepairs : beginCount .repair t' = 0 := by simp [hstep.begins, h.begins]
    refine ⟨⟨hone, by omega, by omega, hstep.inOrder⟩, hstep.ends, fun v hv => ?_⟩
    exact ⟨hone, hchecks, hrepairs, zero_le _, zero_le _, hstep.inOrder, hstep.last v hv⟩
  · refine sat_pure.mpr ⟨h.bounds, by simp, fun v hv => ?_⟩
    obtain rfl := Outcome.returned.inj hv
    exact ⟨by simp [h.begins], h.begins _, h.begins _, zero_le _, zero_le _, h.inOrder, h.last⟩

/-- The result of a branch is the terminal status that the item was last told in. -/
structure BranchEnd (item : Json) (fuel : Nat) (t : List WorkflowExchange)
    (outcome : Outcome WorkflowError String) : Prop where
  bounds : ItemBounds t
  ends : outcome = .cutOff → fuel ≤ maxSafeInteger + 1
  result : ∀ s, outcome = .returned s →
    s ∈ terminalStatuses ∧ (lastItem item t).optionalMember "status" = some (.string s)

theorem BranchEnd.raised (h : ItemBounds t) (e : WorkflowError) : BranchEnd item fuel t (.raised e) :=
  ⟨h, by simp, by simp⟩

theorem asString_eq_some {text : String} : value.asString = some text ↔ value = some (.string text) := by
  unfold JsValue.asString
  split <;> simp_all

/-- After the checks and repairs of an item its status is the result. -/
theorem result_sat (h : ItemBounds t) (hlast : lastItem item t = current) :
    Sat (BranchEnd item fuel) (do
      let status ← lift (readMember current "status")
      let result ← lift (okOr (status.asString.filter (· ∈ terminalStatuses))
        (.error "The content branch returned an unsupported state."))
      thinking (branchData "content-branch-completed" item (some (.string result)))
      pure result) t := by
  simp only [sat_bind, sat_lift, then_returned, then_raised, sat_thinking, sat_pure]
  refine ⟨fun status hstatus => ⟨fun result hresult => ⟨⟨h.ask rfl rfl, by simp, fun s hs => ?_⟩,
    fun e => .raised (h.ask rfl rfl) _⟩, fun e _ => .raised h _⟩, fun e _ => .raised h _⟩
  obtain rfl := Outcome.returned.inj hs
  obtain ⟨hstring, hterminal⟩ := filter_eq_some_iff.mp (okOr_eq_ok.mp hresult)
  refine ⟨by simpa using hterminal, ?_⟩
  have htold : lastItem item (t ++ [⟨.thinking
      (branchData "content-branch-completed" item (some (.string result))), .ok ()⟩]) = current := by
    rw [lastItem, foldl_append, ← lastItem, hlast]
    rfl
  rw [htold, optionalMember, okOr_eq_ok.mp hstatus, getD_some]
  exact asString_eq_some.mp hstring

/-- What a run of one item may come to: its result is `failed` or the terminal status the item was
last told in. -/
structure ItemEnd (item : Json) (fuel : Nat) (t : List WorkflowExchange)
    (outcome : Outcome WorkflowError String) : Prop where
  bounds : ItemBounds t
  ends : outcome = .cutOff → fuel ≤ maxSafeInteger + 1
  result : ∀ s, outcome = .returned s → s = "failed"
    ∨ s ∈ terminalStatuses ∧ (lastItem item t).optionalMember "status" = some (.string s)

/-- A report keeps what holds of the exchanges of an item, and comes to an end. -/
theorem report_sat (h : ItemBounds t) :
    Sat (fun t outcome => ItemBounds t ∧ outcome ≠ .cutOff)
      (match error with
        | .preparation stage reason => reportPreparation stage reason
        | _ => pure ()) t := by
  split
  · simp only [reportPreparation, sat_bind, sat_takeDiagnostic, then_returned]
    intro first
    have hfirst : ItemBounds (t ++ [⟨.takeDiagnostic, first⟩]) := h.ask rfl rfl
    split
    · exact sat_emit.mpr ⟨⟨hfirst.ask rfl rfl, by simp⟩, fun e => ⟨hfirst.ask rfl rfl, by simp⟩⟩
    · exact sat_pure.mpr ⟨hfirst, by simp⟩
  · exact sat_pure.mpr ⟨h, by simp⟩

theorem failBranch_sat (h : ItemBounds t) : Sat (ItemEnd item fuel) (failBranch item error) t := by
  unfold failBranch
  rw [sat_bind]
  refine Sat.mono (report_sat h) fun t outcome hreport => ?_
  obtain ⟨hbounds, hends⟩ := hreport
  cases outcome with
  | raised e => exact ⟨hbounds, by simp, by simp⟩
  | cutOff => exact absurd rfl hends
  | returned _ =>
    simp only [then_returned, sat_bind, sat_thinking, then_raised, sat_pure]
    refine ⟨⟨hbounds.ask rfl rfl, by simp, fun s hs => .inl ?_⟩, fun e => ⟨hbounds.ask rfl rfl, by simp, by simp⟩⟩
    exact (Outcome.returned.inj hs).symm

section Item

variable [JsonText] {context : Json} {executionId : String} {request : ItemRequest} {fuel : Nat}

theorem prepareItem_sat (h : Unbegun item t current) :
    Sat (PrepareEnd item fuel) (prepareItem fuel item context executionId request) t := by
  have hraised {t : List WorkflowExchange} {current : JsValue} (h : Unbegun item t current)
      (e : WorkflowError) : PrepareEnd item fuel t (.raised e) := ⟨h.bounds, by simp, by simp⟩
  simp only [prepareItem, sat_bind, sat_recover]
  refine Sat.mono readEvidence_within.extends fun t' outcome hread => ?_
  obtain ⟨_, rfl, hreads, hcut⟩ := hread
  have hunbegun := h.reads hreads
  cases outcome with
  | cutOff => exact ⟨hunbegun.bounds, fun _ => hcut rfl, by simp⟩
  | raised e =>
    simp only [then_raised, orElse_raised]
    unfold evidenceError
    split
    · exact sat_throw.mpr (hraised hunbegun _)
    · simp only [sat_bind, sat_isCancelled, then_returned, sat_throw]
      exact fun cancelled => hraised (hunbegun.ask rfl rfl) _
  | returned evidence =>
    simp only [then_returned, sat_stopIfCancelled, then_raised, orElse_raised, sat_pure,
      orElse_returned, sat_callHost, sat_throw, evidenceError]
    have hstopped (cancelled : Bool) := hunbegun.ask (e := ⟨.isCancelled, cancelled⟩) rfl rfl
    refine ⟨hraised (hstopped true) _, fun prepared => ⟨?_, by simp, fun v hv => ?_⟩, fun error => ?_⟩
    · exact ((hstopped false).ask rfl rfl).bounds
    · obtain rfl := Outcome.returned.inj hv
      exact (hstopped false).ask rfl rfl
    · exact hraised ((hstopped false).ask rfl rfl) _

theorem runBranch_sat (hrequest : Plain request) (h : Unbegun item t (some item)) :
    Sat (BranchEnd item fuel) (runBranch fuel item context executionId request) t := by
  unfold runBranch
  rw [sat_bind, sat_lift]
  refine ⟨fun status _ => ?_, fun e _ => .raised h.bounds e⟩
  rw [then_returned, sat_bind]
  have hprepare : Sat (PrepareEnd item fuel)
      (if status.isText "pending" = true then prepareItem fuel item context executionId request
        else pure (some item)) t := by
    split
    · exact prepareItem_sat h
    · refine sat_pure.mpr ⟨h.bounds, by simp, fun v hv => ?_⟩
      obtain rfl := Outcome.returned.inj hv
      exact h
  refine Sat.mono hprepare fun t outcome hprepared => ?_
  cases outcome with
  | raised e => exact .raised hprepared.bounds e
  | cutOff => exact ⟨hprepared.bounds, fun _ => hprepared.ends rfl, by simp⟩
  | returned prepared =>
    have hunbegun := hprepared.next prepared rfl
    rw [then_returned, sat_bind, sat_lift]
    refine ⟨fun status _ => ?_, fun e _ => .raised hunbegun.bounds e⟩
    rw [then_returned, sat_bind]
    refine Sat.mono (generated_sat hrequest hunbegun) fun t outcome hgenerated => ?_
    obtain ⟨hbounds, hends, hnext⟩ := hgenerated
    cases outcome with
    | raised e => exact .raised hbounds e
    | cutOff => exact absurd rfl hends
    | returned generated =>
      rw [then_returned, sat_bind]
      refine Sat.mono (branchLoop_sat hrequest (hnext generated rfl)) fun t outcome hloop => ?_
      cases outcome with
      | raised e => exact .raised hloop.bounds e
      | cutOff =>
        have hfuel := hloop.ends rfl
        exact ⟨hloop.bounds, fun _ => hfuel.trans (by decide), by simp⟩
      | returned current => exact result_sat hloop.bounds (hloop.last current rfl)

theorem processItem_sat : Sat (ItemEnd item fuel) (processItem fuel item context executionId) [] := by
  have hunbegun : Unbegun item [] (some item) := unbegun_nil
  unfold processItem
  rw [sat_bind, sat_lift]
  refine ⟨fun itemId _ => ?_, fun e _ => ⟨hunbegun.bounds, by simp, by simp⟩⟩
  rw [then_returned, sat_recover]
  refine Sat.mono (runBranch_sat rfl hunbegun) fun t outcome hbranch => ?_
  cases outcome with
  | returned s => exact ⟨hbranch.bounds, by simp, fun s hs => .inr (hbranch.result s hs)⟩
  | raised e => exact failBranch_sat hbranch.bounds
  | cutOff => exact ⟨hbranch.bounds, fun _ => hbranch.ends rfl, by simp⟩

/-- One item, whatever the host and the model reply, and whatever is cancelled: it comes to an end, with at
most one generation, three checks and two repairs; each claim is settled in time unless a model answered
null; and the result is `failed` or the terminal status last told. -/
theorem processItem_settles {outcome : Outcome WorkflowError String}
    (h : Runs (processItem fuel item context executionId) t outcome) :
    (Js.maxSafeInteger + 1 < fuel → outcome ≠ .cutOff)
      ∧ beginCount .generate t ≤ 1 ∧ beginCount .check t ≤ 3 ∧ beginCount .repair t ≤ 2
      ∧ (¬ NullAnswer t → EachSettled t)
      ∧ ∀ s, outcome = .returned s → s = "failed"
        ∨ s ∈ terminalStatuses ∧ (lastItem item t).optionalMember "status" = some (.string s) := by
  have hend : ItemEnd item fuel t outcome := processItem_sat t outcome h
  refine ⟨fun hfuel hcut => ?_, hend.bounds.generations, hend.bounds.checks, hend.bounds.repairs,
    fun hnull => ?_, hend.result⟩
  · exact absurd (hend.ends hcut) (by omega)
  · exact eachSettled_of_openClaim (hend.bounds.inOrder.resolve_left hnull)

end Item

namespace Sample

/-- Nothing is read from a text. -/
@[reducible] def noText : JsonText where
  parse _ := none

/-- A prepared item. -/
def prepared : Json :=
  .object [("item_id", .string "i"), ("status", .string "prepared")]

/-- A claim with a token, for an item without evidence. -/
def claim : Json :=
  .object [("state", .string "claimed"), ("token", .string "t"), ("descriptor", .object [("evidence", .array [])])]

/-- A host that hands out the claim and finishes the item, and a model that gives one answer. -/
def answers (completion : Json) (_ : Nat) : (call : WorkflowCall) → call.Reply
  | .host (.stepBegin _) _ => .ok claim
  | .host _ _ => .ok (.object [("status", .string "ready")])
  | .modelComplete _ _ _ => .ok completion
  | .emit _ _ => .ok ()
  | .thinking _ => .ok ()
  | .isCancelled => false
  | .takeDiagnostic => false
  | .branches _ _ => .ok fun _ => "ready"
  | .finish _ => .ok ()

/-- The run of the prepared item with one answer of the model. -/
def run (completion : Json) : List WorkflowExchange × Outcome WorkflowError String :=
  play (answers completion) 0 (@processItem noText (maxSafeInteger + 2) prepared .null "e")

/-- With an answer the claim of the prepared item is settled. -/
theorem processItem_settles_answer :
    (run (.object [("text", .string "x")])).2 ≠ .cutOff ∧ EachSettled (run (.object [("text", .string "x")])).1 := by
  obtain ⟨hends, -, -, -, hsettled, -⟩ := @processItem_settles _ prepared noText .null "e"
    (maxSafeInteger + 2) _ (runs_play (answers (.object [("text", .string "x")])) 0 _)
  refine ⟨hends (by omega), hsettled ?_⟩
  rintro ⟨_, answer, _, _, heq, hnull, -⟩
  have hanswers : ∀ e ∈ (run (.object [("text", .string "x")])).1, isNullAnswer e = false := by decide
  have hmem : answer ∈ (run (.object [("text", .string "x")])).1 := by
    rw [run, heq]
    simp
  simp [hanswers answer hmem] at hnull

/-- A null answer leaves the claim of the prepared item open. -/
theorem processItem_leaves_open : ¬ EachSettled (run .null).1 := by
  intro h
  have hseg := h [] ⟨.host (.stepBegin .generate) _, .ok claim⟩ (run .null).1.tail [] .generate
    (.string "t") (by rfl) rfl (by decide) (by simp)
  exact absurd hseg (by decide)

end Sample

end ContentWorkflow

end GeoMaster
