import GeoMaster.Domain.LoginQueue

/-!
# The order of a login queue

A queue works from the front: the items that are done stand first, then at most one current item, and
every item behind it is pending. `Ordered` writes a queue's items down in that form. Each operation
changes the one item at the border, so with the form at hand an operation is a rewrite of that item.
-/

namespace GeoMaster

open Except List Option

/-! ### Changing the first item that passes a test -/

section UpdateFirst

variable {α : Type} {p : α → Bool} {f : α → α}

variable {xs : List α}

theorem updateFirst_append_of_not {ys : List α} (h : ∀ x ∈ xs, p x = false) :
    updateFirst p f (xs ++ ys) = xs ++ updateFirst p f ys := by
  induction xs with
  | nil => rfl
  | cons _ _ ih =>
    rw [forall_mem_cons] at h
    rw [cons_append, updateFirst, h.1, ih h.2]
    rfl

theorem updateFirst_append_cons {ys : List α} {x : α} (h : ∀ y ∈ xs, p y = false) (hx : p x = true) :
    updateFirst p f (xs ++ x :: ys) = xs ++ f x :: ys := by
  rw [updateFirst_append_of_not h, updateFirst, if_pos hx]

/-- Items related one by one, when the change relates the one it touches. -/
theorem forall₂_updateFirst {R : α → α → Prop} (hrefl : ∀ x, R x x) (hf : ∀ x ∈ xs, p x = true → R x (f x)) :
    List.Forall₂ R xs (updateFirst p f xs) := by
  induction xs with
  | nil => exact .nil
  | cons x _ ih =>
    rw [forall_mem_cons] at hf
    unfold updateFirst
    split
    · next hx => exact .cons (hf.1 hx) (forall₂_same.mpr fun y _ => hrefl y)
    · exact .cons (hrefl x) (ih hf.2)

end UpdateFirst

/-! ### The form of a queue -/

/-- The item needs no more work. -/
def OperatorLoginQueueItem.Done (item : OperatorLoginQueueItem) : Prop :=
  item.status = .succeeded ∨ item.status = .skipped

/-- The item names a browser operation and its owner session. -/
def OperatorLoginQueueItem.Bound (item : OperatorLoginQueueItem) : Prop :=
  item.operationId.isSome = true ∧ item.ownerSessionId.isSome = true

/-- The item names neither. -/
def OperatorLoginQueueItem.Unbound (item : OperatorLoginQueueItem) : Prop :=
  item.operationId = none ∧ item.ownerSessionId = none

/-- Items that are done, at most one current item, and pending items. -/
structure Ordered (done : List OperatorLoginQueueItem) (current : Option OperatorLoginQueueItem)
    (rest items : List OperatorLoginQueueItem) : Prop where
  form : items = done ++ (current.toList ++ rest)
  done : ∀ item ∈ done, item.Done ∧ item.Unbound
  current : ∀ item ∈ current, item.status = .current ∧ item.Bound
  rest : ∀ item ∈ rest, item.status = .pending ∧ item.Unbound

/-- Some way to write the items down in that form. -/
def InOrder (items : List OperatorLoginQueueItem) : Prop :=
  ∃ done current rest, Ordered done current rest items

/-- The invariant of a queue. -/
structure QueueShape (queue : OperatorLoginQueue) : Prop where
  ordered : InOrder queue.items
  completed : queue.status = .completed ↔ ∀ item ∈ queue.items, item.Done

section Ordered

open OperatorLoginQueue

variable {done rest items : List OperatorLoginQueueItem} {current : Option OperatorLoginQueueItem}

variable {item : OperatorLoginQueueItem}

theorem OperatorLoginQueueItem.Done.not_current (h : item.Done) : isCurrent item = false := by
  rcases h with h | h <;> simp [isCurrent, h]

theorem OperatorLoginQueueItem.Done.not_pending (h : item.Done) : isPending item = false := by
  rcases h with h | h <;> simp [isPending, h]

theorem Ordered.find_current (h : Ordered done current rest items) : items.find? isCurrent = current := by
  have hdone : ∀ item ∈ done, ¬ isCurrent item = true := fun item hitem => by simp [(h.done item hitem).1.not_current]
  rw [h.form, List.find?_append, List.find?_eq_none.mpr hdone, none_or]
  cases current with
  | none =>
    rw [toList_none, nil_append, List.find?_eq_none]
    intro item hitem
    simp [isCurrent, (h.rest item hitem).1]
  | some item =>
    rw [toList_some, singleton_append, List.find?_cons_of_pos]
    simp [isCurrent, (h.current item rfl).1]

/-- Without a current item the first item of the rest is the first pending one. -/
theorem Ordered.find_pending (h : Ordered done none rest items) : items.find? isPending = rest.head? := by
  have hdone : ∀ item ∈ done, ¬ isPending item = true := fun item hitem => by simp [(h.done item hitem).1.not_pending]
  rw [h.form, List.find?_append, List.find?_eq_none.mpr hdone, none_or, toList_none, nil_append]
  cases rest with
  | nil => rfl
  | cons item rest =>
    rw [List.find?_cons_of_pos, List.head?_cons]
    simp [isPending, (h.rest item mem_cons_self).1]

theorem Ordered.update_current (h : Ordered done (some item) rest items)
    (f : OperatorLoginQueueItem → OperatorLoginQueueItem) : updateFirst isCurrent f items = done ++ f item :: rest := by
  rw [h.form]
  refine updateFirst_append_cons (fun x hx => (h.done x hx).1.not_current) ?_
  simp [isCurrent, (h.current item rfl).1]

theorem Ordered.update_pending (h : Ordered done none (item :: rest) items)
    (f : OperatorLoginQueueItem → OperatorLoginQueueItem) : updateFirst isPending f items = done ++ f item :: rest := by
  rw [h.form]
  refine updateFirst_append_cons (fun x hx => (h.done x hx).1.not_pending) ?_
  simp [isPending, (h.rest item mem_cons_self).1]

theorem Ordered.border_current (hdone : ∀ x ∈ done, x.Done ∧ x.Unbound)
    (hrest : ∀ x ∈ rest, x.status = .pending ∧ x.Unbound) (hstatus : item.status = .current) (hbound : item.Bound) :
    Ordered done (some item) rest (done ++ item :: rest) where
  form := rfl
  done := hdone
  current := by
    rintro _ ⟨⟩
    exact ⟨hstatus, hbound⟩
  rest := hrest

theorem Ordered.border_pending (hdone : ∀ x ∈ done, x.Done ∧ x.Unbound)
    (hrest : ∀ x ∈ rest, x.status = .pending ∧ x.Unbound) (hstatus : item.status = .pending) (hunbound : item.Unbound) :
    Ordered done none (item :: rest) (done ++ item :: rest) where
  form := rfl
  done := hdone
  current := by simp
  rest := by
    rw [forall_mem_cons]
    exact ⟨⟨hstatus, hunbound⟩, hrest⟩

theorem Ordered.border_done (hdone : ∀ x ∈ done, x.Done ∧ x.Unbound)
    (hrest : ∀ x ∈ rest, x.status = .pending ∧ x.Unbound) (hstatus : item.Done) (hunbound : item.Unbound) :
    Ordered (done ++ [item]) none rest (done ++ item :: rest) where
  form := by simp
  done x hx := by
    rcases mem_append.mp hx with hx | hx
    · exact hdone x hx
    · obtain rfl := mem_singleton.mp hx
      exact ⟨hstatus, hunbound⟩
  current := by simp
  rest := hrest

/-- Every item is done exactly when nothing is current or pending. -/
theorem Ordered.all_done (h : Ordered done current rest items) :
    (∀ item ∈ items, item.Done) ↔ current = none ∧ rest = [] := by
  rw [h.form]
  constructor
  · intro hall
    constructor
    · cases hcurrent : current with
      | none => rfl
      | some item =>
        subst hcurrent
        have hdone := hall item (by simp)
        have hstatus := (h.current item rfl).1
        rcases hdone with hdone | hdone <;> rw [hstatus] at hdone <;> simp at hdone
    · cases hrest : rest with
      | nil => rfl
      | cons item others =>
        subst hrest
        have hdone := hall item (by simp)
        have hstatus := (h.rest item mem_cons_self).1
        rcases hdone with hdone | hdone <;> rw [hstatus] at hdone <;> simp at hdone
  · rintro ⟨rfl, rfl⟩ item hitem
    exact (h.done item (by simpa using hitem)).1

end Ordered

variable {items items' : List OperatorLoginQueueItem} {queue : OperatorLoginQueue}

theorem Ordered.inOrder {done rest : List OperatorLoginQueueItem}
    {current : Option OperatorLoginQueueItem} (h : Ordered done current rest items)
    (heq : items' = items) : InOrder items' :=
  ⟨done, current, rest, heq ▸ h⟩

/-- A queue in form has its invariant when it is completed just in case nothing is left. -/
theorem QueueShape.of_items {queue : OperatorLoginQueue} {done rest items : List OperatorLoginQueueItem}
    {current : Option OperatorLoginQueueItem} (hitems : queue.items = items) (h : Ordered done current rest items)
    (hcompleted : queue.status = .completed ↔ current = none ∧ rest = []) : QueueShape queue := by
  subst hitems
  exact ⟨h.inOrder rfl, hcompleted.trans h.all_done.symm⟩

/-! ### What one call does -/

/-- The operation of an item was disposed after its login was verified. -/
def VerifiedBy (call : LoginQueueCall) (item : OperatorLoginQueueItem) : Prop :=
  ∃ expected action op at_, call = .apply expected action (some op) at_ ∧ item.operationId = some op.operationId
    ∧ op.state = .disposed ∧ op.loginVerifiedAt.isSome = true

/-- What a call may do to an item. -/
structure ItemStep (call : LoginQueueCall) (item item' : OperatorLoginQueueItem) : Prop where
  position : item'.position = item.position
  rowKey : item'.rowKey = item.rowKey
  accountId : item'.accountId = item.accountId
  succeeded : item'.status = .succeeded → item.status = .succeeded ∨ VerifiedBy call item

theorem ItemStep.refl (call : LoginQueueCall) (item : OperatorLoginQueueItem) : ItemStep call item item :=
  ⟨rfl, rfl, rfl, .inl⟩

/-- What a call that succeeds does to a queue. -/
structure QueueStep (queue : OperatorLoginQueue) (call : LoginQueueCall) (queue' : OperatorLoginQueue) : Prop where
  shape : QueueShape queue'
  items : List.Forall₂ (ItemStep call) queue.items queue'.items
  version : queue' = queue ∨ queue'.version = queue.version + 1
  completed : queue.status = .completed → queue' = queue

namespace OperatorLoginQueue

variable {queue queue' : OperatorLoginQueue}

variable {done rest : List OperatorLoginQueueItem} {expected : Int} {action : OperatorLoginQueueAction}

theorem current_eq {current : Option OperatorLoginQueueItem} (h : Ordered done current rest queue.items) :
    queue.current = current :=
  h.find_current

variable {at_ : DateTime} {call : LoginQueueCall}

theorem claim_step {owner : Uuid} {input : BeginBrowserOperation} (hs : QueueShape queue)
    (h : queue.claim expected owner input at_ = .ok queue') :
    QueueStep queue (.claim expected owner input at_) queue' := by
  simp only [claim, eq_ok_iff, not_or, not_not, not_isSome_iff_eq_none] at h
  obtain ⟨_, -, _, ⟨hrunning, hcurrent, -⟩, item, hitem, _, -, _, -, rfl⟩ := h
  obtain ⟨done, current, rest, hform⟩ := hs.ordered
  obtain rfl : current = none := (current_eq hform).symm.trans hcurrent
  rw [hform.find_pending] at hitem
  obtain ⟨others, rfl⟩ : ∃ others, rest = item :: others := List.head?_eq_some_iff.mp hitem
  have hothers := (forall_mem_cons.mp hform.rest).2
  refine ⟨?_, ?_, .inr rfl, fun hcompleted => ?_⟩
  · refine .of_items (hform.update_pending _) (.border_current hform.done hothers rfl ⟨rfl, rfl⟩) ?_
    simp [changed, hrunning]
  · exact forall₂_updateFirst (ItemStep.refl _) fun x _ _ => ⟨rfl, rfl, rfl, fun h => by simp at h⟩
  · rw [hrunning] at hcompleted
    simp at hcompleted

theorem pauseError_step {operationId : Option Uuid} {code : String} (hs : QueueShape queue)
    (h : queue.pauseError expected operationId code at_ = .ok queue') :
    QueueStep queue (.pauseError expected operationId code at_) queue' := by
  simp only [pauseError, eq_ok_iff, not_or] at h
  obtain ⟨_, -, _, -, _, ⟨hopen, -⟩, rfl⟩ := h
  obtain ⟨done, current, rest, hform⟩ := hs.ordered
  have hnot : ¬ (current = none ∧ rest = []) := by
    rw [← hform.all_done, ← hs.completed]
    exact hopen
  refine ⟨?_, ?_, .inr rfl, fun hcompleted => absurd hcompleted hopen⟩
  · cases hcurrent : current with
    | some item =>
      subst hcurrent
      have hfound : queue.current.isSome = true := by rw [current_eq hform]; rfl
      obtain ⟨hstatus, hbound⟩ := hform.current item rfl
      rw [if_pos hfound]
      refine .of_items (hform.update_current _) (.border_current hform.done hform.rest hstatus hbound) ?_
      simp [changed]
    | none =>
      subst hcurrent
      have hfound : ¬ queue.current.isSome = true := by rw [current_eq hform]; simp
      cases hrest : rest with
      | nil => exact absurd ⟨rfl, hrest⟩ hnot
      | cons item others =>
        subst hrest
        obtain ⟨⟨hstatus, hunbound⟩, hothers⟩ := forall_mem_cons.mp hform.rest
        rw [if_neg hfound]
        refine .of_items (hform.update_pending _) (.border_pending hform.done hothers hstatus hunbound) ?_
        simp [changed]
  · show List.Forall₂ _ queue.items (updateFirst _ _ queue.items)
    exact forall₂_updateFirst (ItemStep.refl _) fun x _ _ => ⟨rfl, rfl, rfl, fun h => .inl h⟩

/-- What an action does before completion is derived and the version counted. -/
structure BodyStep (queue : OperatorLoginQueue) (call : LoginQueueCall) (next : OperatorLoginQueue) : Prop where
  ordered : InOrder next.items
  items : List.Forall₂ (ItemStep call) queue.items next.items
  version : next.version = queue.version
  status : next.status = .completed → ∀ item ∈ next.items, item.Done
  completed : queue.status = .completed → next = queue

theorem not_completed {item : OperatorLoginQueueItem} (hs : QueueShape queue)
    (hform : Ordered done (some item) rest queue.items) : queue.status ≠ .completed := by
  rw [Ne, hs.completed, hform.all_done]
  simp

variable {next : OperatorLoginQueue} {operation : Option BrowserOperation}

theorem leaveCurrent_body {retry : Bool} (hs : QueueShape queue) (h : queue.leaveCurrent retry operation = .ok next) :
    BodyStep queue call next := by
  simp only [leaveCurrent, eq_ok_iff] at h
  obtain ⟨_, -, item, hitem, h⟩ := h
  obtain ⟨done, current, rest, hform⟩ := hs.ordered
  obtain rfl : current = some item := (current_eq hform).symm.trans hitem
  have hopen := not_completed hs hform
  split at h
  · simp only [eq_ok_iff] at h
    obtain ⟨_, -, rfl⟩ := h
    refine ⟨?_, ?_, rfl, fun hstatus => by simp at hstatus, fun h => absurd h hopen⟩
    · exact (Ordered.border_pending hform.done hform.rest rfl ⟨rfl, rfl⟩).inOrder (hform.update_current _)
    · exact forall₂_updateFirst (ItemStep.refl _) fun x _ _ => ⟨rfl, rfl, rfl, fun h => by simp at h⟩
  · obtain rfl := pure_eq_ok.mp h
    refine ⟨?_, ?_, rfl, fun hstatus => absurd hstatus hopen, fun h => absurd h hopen⟩
    · exact (Ordered.border_done hform.done hform.rest (.inr rfl) ⟨rfl, rfl⟩).inOrder (hform.update_current _)
    · exact forall₂_updateFirst (ItemStep.refl _) fun x _ _ => ⟨rfl, rfl, rfl, fun h => by simp at h⟩

theorem settleCurrent_body {expected : Int} {action : OperatorLoginQueueAction} {at_ : DateTime}
    (hs : QueueShape queue) (hvalid : queue.validateCurrentOperation operation = .ok ()) :
    BodyStep queue (.apply expected action operation at_) (queue.settleCurrent operation) := by
  obtain ⟨done, current, rest, hform⟩ := hs.ordered
  unfold settleCurrent
  split
  · exact ⟨hs.ordered, forall₂_same.mpr fun x _ => .refl _ x, rfl, hs.completed.mp, fun _ => rfl⟩
  · next op hop =>
    obtain ⟨rfl, hdisposed⟩ := filter_eq_some_iff.mp hop
    rw [decide_eq_true_eq] at hdisposed
    unfold validateCurrentOperation at hvalid
    rw [current_eq hform] at hvalid
    cases hcurrent : current with
    | none => simp [hcurrent] at hvalid
    | some item =>
      subst hcurrent
      simp only [failIf_eq_ok, not_not] at hvalid
      obtain ⟨hoperation, -⟩ := hvalid
      obtain ⟨hstatus, hbound⟩ := hform.current item rfl
      have hopen := not_completed hs hform
      split
      · next hverified =>
        refine ⟨?_, ?_, rfl, fun hstatus => absurd hstatus hopen, fun h => absurd h hopen⟩
        · exact (Ordered.border_done hform.done hform.rest (.inl rfl) ⟨rfl, rfl⟩).inOrder (hform.update_current _)
        · refine forall₂_updateFirst (ItemStep.refl _) fun x hx hcurrent => ?_
          -- The only current item is the one the operation was validated against.
          have hx' : x = item := by
            rw [hform.form] at hx
            rcases mem_append.mp hx with hx | hx
            · rw [(hform.done x hx).1.not_current] at hcurrent
              simp at hcurrent
            · rcases mem_cons.mp hx with hx | hx
              · exact hx
              · simp [isCurrent, (hform.rest x hx).1] at hcurrent
          subst hx'
          exact ⟨rfl, rfl, rfl, fun _ => .inr ⟨expected, action, op, at_, rfl, hoperation, hdisposed, hverified⟩⟩
      · refine ⟨?_, ?_, rfl, fun hstatus => by simp at hstatus, fun h => absurd h hopen⟩
        · refine (Ordered.border_current hform.done hform.rest ?_ ?_).inOrder (hform.update_current _)
          · exact hstatus
          · exact hbound
        · exact forall₂_updateFirst (ItemStep.refl _) fun x _ _ => ⟨rfl, rfl, rfl, .inl⟩

/-- A switch changes the status of a queue that is not completed, and nothing else. -/
theorem switch_ok (h : queue.switch action = .ok next) :
    next = queue ∨ (queue.status ≠ .completed ∧ ∃ status, status ≠ .completed ∧ next = { queue with status }) := by
  unfold switch at h
  cases action with
  | pause =>
    dsimp only at h
    split at h
    · next hopen => exact .inr ⟨hopen, .paused, by simp, (pure_eq_ok.mp h).symm⟩
    · exact .inl (pure_eq_ok.mp h).symm
  | resume =>
    dsimp only at h
    split at h
    · next hopen =>
      simp only [eq_ok_iff] at h
      obtain ⟨_, -, rfl⟩ := h
      exact .inr ⟨hopen, .running, by simp, rfl⟩
    · exact .inl (pure_eq_ok.mp h).symm
  | reconcileCurrent | retryCurrent | skipCurrent => exact .inl (pure_eq_ok.mp h).symm

theorem BodyStep.switch {next' : OperatorLoginQueue}
    (hb : BodyStep queue call next) (h : next.switch action = .ok next') : BodyStep queue call next' := by
  rcases switch_ok h with rfl | ⟨hopen, status, hstatus, rfl⟩
  · exact hb
  · refine ⟨hb.ordered, hb.items, hb.version, fun h => absurd h hstatus, fun h => ?_⟩
    rw [hb.completed h] at hopen
    exact absurd h hopen

/-- Completion and version, derived from a body, restore the invariant. -/
theorem BodyStep.finish (hb : BodyStep queue call next) :
    QueueStep queue call
      (if next.finishIfEmpty ≠ queue then next.finishIfEmpty.changed at_ else next.finishIfEmpty) := by
  have hitems : next.finishIfEmpty.items = next.items := by
    unfold finishIfEmpty
    split <;> rfl
  have hstatus : next.finishIfEmpty.status = .completed ↔ ∀ item ∈ next.items, item.Done := by
    unfold finishIfEmpty
    split
    · next hall => exact ⟨fun _ => hall, fun _ => rfl⟩
    · next hall => exact ⟨hb.status, fun h => absurd h hall⟩
  have hshape : QueueShape next.finishIfEmpty := by
    refine ⟨?_, ?_⟩
    · rw [hitems]
      exact hb.ordered
    · rw [hitems]
      exact hstatus
  have hversion : next.finishIfEmpty.version = queue.version := by
    rw [← hb.version]
    unfold finishIfEmpty
    split <;> rfl
  have hcompleted (h : queue.status = .completed) : next.finishIfEmpty = queue := by
    obtain rfl := hb.completed h
    unfold finishIfEmpty
    split
    · rw [← h]
    · rfl
  split
  · next hchanged =>
    refine ⟨⟨hshape.ordered, hshape.completed⟩, ?_, .inr ?_, fun h => absurd (hcompleted h) hchanged⟩
    · show List.Forall₂ _ queue.items next.finishIfEmpty.items
      rw [hitems]
      exact hb.items
    · show next.finishIfEmpty.version + 1 = queue.version + 1
      rw [hversion]
  · next hsame =>
    rw [not_not] at hsame
    refine ⟨hshape, ?_, .inl hsame, fun _ => hsame⟩
    rw [hitems]
    exact hb.items

/-- An action settles or leaves the current item, and completes an empty queue. -/
theorem apply_step (hs : QueueShape queue) (h : queue.apply expected action operation at_ = .ok queue') :
    QueueStep queue (.apply expected action operation at_) queue' := by
  simp only [apply, bind_eq_ok] at h
  obtain ⟨_, -, _, hvalid, h⟩ := h
  have hsettled := @settleCurrent_body _ _ expected action at_ hs hvalid
  cases action <;> simp only [eq_ok_iff] at h <;> obtain ⟨next, hnext, rfl⟩ := h
  case retryCurrent => exact (leaveCurrent_body hs hnext).finish
  case skipCurrent => exact (leaveCurrent_body hs hnext).finish
  all_goals exact (hsettled.switch hnext).finish

/-- What a call that succeeds does. -/
theorem run_step (hs : QueueShape queue) (h : call.run queue = .ok queue') : QueueStep queue call queue' := by
  cases call with
  | claim => exact claim_step hs h
  | apply => exact apply_step hs h
  | pauseError => exact pauseError_step hs h

end OperatorLoginQueue

/-! ### Every run of a queue -/

open OperatorLoginQueue

theorem new_shape {scope : OperatorLoginQueueScope} {queueId : Uuid} {importKey : String}
    {selections : List OperatorLoginQueueSelection} {at_ : DateTime}
    (h : OperatorLoginQueue.new scope queueId importKey selections at_ = .ok queue) :
    QueueShape queue := by
  simp only [OperatorLoginQueue.new, eq_ok_iff, not_or] at h
  obtain ⟨_, ⟨-, -, -, -, -, -, hsome, -⟩, _, -, rfl⟩ := h
  generalize hitems : selections.mapIdx _ = items
  refine @QueueShape.of_items _ [] items _ none rfl ⟨rfl, by simp, by simp, ?_⟩ ?_
  · intro item hitem
    rw [← hitems] at hitem
    obtain ⟨_, _, rfl⟩ := mem_mapIdx.mp hitem
    exact ⟨rfl, rfl, rfl⟩
  · rw [← hitems, mapIdx_eq_nil_iff]
    simpa using hsome

/-- The identity of an item. -/
def OperatorLoginQueueItem.identity (item : OperatorLoginQueueItem) : Nat × String × Uuid :=
  (item.position, item.rowKey, item.accountId)

/-- A call keeps the identities of the items. -/
theorem map_identity_eq {call : LoginQueueCall} (h : List.Forall₂ (ItemStep call) items items') :
    items'.map (·.identity) = items.map (·.identity) := by
  induction h with
  | nil => rfl
  | cons hitem _ ih =>
    rw [map_cons, map_cons, ih]
    simp [OperatorLoginQueueItem.identity, hitem.position, hitem.rowKey, hitem.accountId]

theorem run_shape_items {queue' : OperatorLoginQueue} {h : List LoginQueueCall}
    (hr : loginQueueMachine.Run queue h queue') (hs : QueueShape queue) :
    QueueShape queue' ∧ queue'.items.map (·.identity) = queue.items.map (·.identity) := by
  induction hr with
  | refl => exact ⟨hs, rfl⟩
  | tail _ hstep ih =>
    obtain ⟨hs', hitems⟩ := ih
    have hnext := run_step hs' hstep
    exact ⟨hnext.shape, (map_identity_eq hnext.items).trans hitems⟩

/-- A queue made by `new` keeps its order in every run: the items keep their identities, those that are
done stand first and those that are pending last with at most one current item between them, exactly
the current item has an operation and an owner session, and the queue is completed just when every
item is done. A call changes nothing of a completed queue, counts every change of a queue as one
version, and lets an item succeed only when its own disposed operation has its login verified. -/
theorem loginQueue_order {scope : OperatorLoginQueueScope} {queueId : Uuid} {importKey : String}
    {selections : List OperatorLoginQueueSelection} {at_ : DateTime} {queue queue' : OperatorLoginQueue}
    {h : List LoginQueueCall} (hnew : OperatorLoginQueue.new scope queueId importKey selections at_ = .ok queue)
    (hr : loginQueueMachine.Run queue h queue') :
    queue'.items.map (fun item => (item.position, item.rowKey, item.accountId))
      = queue.items.map (fun item => (item.position, item.rowKey, item.accountId))
    ∧ (∃ (done rest : List OperatorLoginQueueItem) (current : Option OperatorLoginQueueItem),
      queue'.items = done ++ (current.toList ++ rest)
      ∧ (∀ item ∈ done, item.status = .succeeded ∨ item.status = .skipped)
      ∧ (∀ item ∈ current, item.status = .current) ∧ ∀ item ∈ rest, item.status = .pending)
    ∧ (∀ item ∈ queue'.items, (item.status = .current ↔ item.operationId.isSome = true)
      ∧ (item.status = .current ↔ item.ownerSessionId.isSome = true))
    ∧ (queue'.status = .completed ↔ ∀ item ∈ queue'.items, item.status = .succeeded ∨ item.status = .skipped)
    ∧ ∀ call next, loginQueueMachine.step queue' call next → (queue'.status = .completed → next = queue')
      ∧ (next ≠ queue' → next.version = queue'.version + 1)
      ∧ List.Forall₂ (fun item item' => item'.status = .succeeded →
        item.status = .succeeded ∨ VerifiedBy call item) queue'.items next.items := by
  obtain ⟨hshape, hidentity⟩ := run_shape_items hr (new_shape hnew)
  obtain ⟨done, current, rest, hform⟩ := hshape.ordered
  refine ⟨hidentity, ⟨done, rest, current, hform.form, fun item hitem => (hform.done item hitem).1,
    fun item hitem => (hform.current item hitem).1, fun item hitem => (hform.rest item hitem).1⟩,
    fun item hitem => ?_, hshape.completed, fun call next hstep => ?_⟩
  · rw [hform.form, mem_append, mem_append, mem_toList] at hitem
    rcases hitem with hitem | hitem | hitem
    · obtain ⟨hdone, hoperation, howner⟩ := hform.done item hitem
      rcases hdone with hdone | hdone <;> simp [hdone, hoperation, howner]
    · obtain ⟨hstatus, hoperation, howner⟩ := hform.current item hitem
      simp [hstatus, hoperation, howner]
    · obtain ⟨hstatus, hoperation, howner⟩ := hform.rest item hitem
      simp [hstatus, hoperation, howner]
  · have hnext := run_step hshape hstep
    exact ⟨hnext.completed, fun hchanged => hnext.version.resolve_left hchanged,
      hnext.items.imp fun _ _ h => h.succeeded⟩

namespace Sample

/-- A queue of two accounts. -/
def twoLogins : OperatorLoginQueue :=
  { queueId := uuid 3
    scope := { operatorId := ⟨uuid 1⟩, creatorUserId := uuid 2 }
    importKey := "import"
    status := .running
    version := 1
    items :=
      [{ position := 0, rowKey := "a", accountId := uuid 40, status := .pending, attempt := 0
         operationId := none, ownerSessionId := none, errorCode := none },
        { position := 1, rowKey := "b", accountId := uuid 41, status := .pending, attempt := 0
          operationId := none, ownerSessionId := none, errorCode := none }]
    createdAt := 0
    updatedAt := 0 }

/-- The claim of its first account. -/
def claimFirst : LoginQueueCall :=
  .claim 1 (uuid 4)
    { networkSelection :=
        some
          { scope :=
              { operatorId := ⟨uuid 1⟩, accountId := uuid 40, tenantId := none, projectId := none }
            historicalBindingId := none }
      operationId := uuid 60, sessionId := uuid 61, accountId := uuid 40, purpose := .login
      runnerGeneration := uuid 5, effectiveNetwork := ⟨[1]⟩, reservationId := none
      expiresAt := 100 }
    1

/-- The queue with its first account being logged in. -/
def firstClaimed : OperatorLoginQueue :=
  { twoLogins with
    version := 2
    items :=
      [{ position := 0, rowKey := "a", accountId := uuid 40, status := .current, attempt := 0
         operationId := some (uuid 60), ownerSessionId := some (uuid 4), errorCode := none },
        { position := 1, rowKey := "b", accountId := uuid 41, status := .pending, attempt := 0
          operationId := none, ownerSessionId := none, errorCode := none }]
    updatedAt := 1 }

end Sample

open Sample

theorem loginQueue_order_claimed :
    firstClaimed.status = .completed
      ↔ ∀ item ∈ firstClaimed.items, item.status = .succeeded ∨ item.status = .skipped :=
  have hstep : loginQueueMachine.step twoLogins claimFirst firstClaimed := by
    rfl
  (@loginQueue_order twoLogins.scope (uuid 3) "import"
    [{ rowKey := "a", accountId := uuid 40 }, { rowKey := "b", accountId := uuid 41 }]
    0 twoLogins _ _ rfl (.single hstep)).2.2.2.1

end GeoMaster
