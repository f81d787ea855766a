import GeoMaster.Domain.ContentInvocation
import GeoMaster.Proofs.ContentItems

/-!
# What one invocation covers

The items of an invocation are those on the pages it read. It closes the execution only after each of
them was handed to a branch or found done, when they are as many as the total says; they are distinct if
and only if no page lists an item of an earlier page, since the identifiers of a page are forgotten with
it. The loop over the pages goes on only past a page that lists an item, so a host that lists new items of
a finite manifest brings it to an end; one that repeats its cursors in turn does not. The distribution is
reported once all targets were read in order after the expansion was complete.
-/

namespace GeoMaster

open List Option JsValue Js Except

namespace ContentWorkflow

open Script

/-! ### What a run has read -/

/-- The page of items that a call replied. -/
def pageOf (e : WorkflowExchange) : List Json :=
  match e with
  | ⟨.host .itemsRead _, .ok page⟩ => [page]
  | _ => []

/-- The items that a call handed to their branches. -/
def handedBy (e : WorkflowExchange) : List Json :=
  match e.call with
  | .branches items _ => items
  | _ => []

/-- The distribution manifest that a call replied. -/
def manifestOf (e : WorkflowExchange) : List Json :=
  match e with
  | ⟨.host .distributionStart _, .ok manifest⟩ => [manifest]
  | ⟨.host .distributionResume _, .ok manifest⟩ => [manifest]
  | _ => []

/-- The page of targets that a call replied. -/
def targetPageOf (e : WorkflowExchange) : List Json :=
  match e with
  | ⟨.host .distributionTargetsRead _, .ok page⟩ => [page]
  | _ => []

def itemsOn (page : Json) : List Json :=
  (optionalMember (some page) "items").asArray.getD []

def itemId (item : Json) : JsValue :=
  optionalMember (some item) "item_id"

def idsOn (page : Json) : List JsValue :=
  (itemsOn page).map itemId

def pagesOf (t : List WorkflowExchange) : List Json :=
  t.flatMap pageOf

/-- The items of all pages. -/
def listed (t : List WorkflowExchange) : List Json :=
  (pagesOf t).flatMap itemsOn

def listedIds (t : List WorkflowExchange) : List JsValue :=
  (pagesOf t).flatMap idsOn

def handed (t : List WorkflowExchange) : List Json :=
  t.flatMap handedBy

def manifestsOf (t : List WorkflowExchange) : List Json :=
  t.flatMap manifestOf

/-- The targets of all pages. -/
def targetsOf (t : List WorkflowExchange) : List Json :=
  (t.flatMap targetPageOf).flatMap itemsOn

/-- No page lists an item of an earlier page. -/
def FreshPages (t : List WorkflowExchange) : Prop :=
  (pagesOf t).Pairwise fun page later => List.Disjoint (idsOn page) (idsOn later)

/-- The total that a page reports. -/
def totalOn (page : Json) : JsValue :=
  optionalMember (some page) "total"

/-- The items of all pages were taken care of, and are as many as every reported total says. -/
structure ItemsCovered (t : List WorkflowExchange) : Prop where
  handed : handed t = (listed t).filter hasBranch
  reported : ∃ page ∈ pagesOf t, (totalOn page).isNumber (listed t).length = true
  totals : ∀ page ∈ pagesOf t, totalOn page = none ∨ (totalOn page).isNumber (listed t).length = true
  distinct : (listedIds t).Nodup ↔ FreshPages t

/-- The ordinal of a target. -/
def ordinalOf (target : Json) : Option Nat :=
  (optionalMember (some target) "ordinal").safeInteger

/-- A manifest has an identifier and a count of targets. -/
def IsManifest (id : String) (count : Nat) (manifest : Json) : Prop :=
  optionalMember (some manifest) "manifest_id" = some (.string id)
    ∧ (optionalMember (some manifest) "expected_count").safeInteger = some count

/-- The manifest kept its identifier and its count, and its expansion was complete before any target was
read. -/
structure Expanded (t : List WorkflowExchange) (id : String) (count : Nat) : Prop where
  same : ∀ manifest ∈ manifestsOf t, IsManifest id count manifest
  complete : ∃ early late manifest, t = early ++ late ∧ targetsOf early = [] ∧ (manifestsOf early).getLast? = some
    manifest ∧ (optionalMember (some manifest) "complete").truthy = true
    ∧ (optionalMember (some manifest) "expansion_cursor").safeInteger = some count

/-- The targets read are those of the first ordinals in order, none of them pending. -/
structure ReadInOrder (t : List WorkflowExchange) (count : Nat) : Prop where
  ordinals : (targetsOf t).map ordinalOf = (List.range count).map some
  settled : ∀ target ∈ targetsOf t, (optionalMember (some target) "status").isText "pending" = false

/-- What a call stands for. -/
def Justified (t : List WorkflowExchange) : WorkflowCall → Prop
  | .host .close _ => ItemsCovered t
  | .emit topic value => topic = "distribution.prepared" → ∃ id count,
    Expanded t id count ∧ ReadInOrder t count ∧ value.get "manifest_id" = some (.string id)
      ∧ value.get "targets" = some (.ofNat count)
  | _ => True

variable {t : List WorkflowExchange}

/-! ### The groups of a page -/

/-- The identifiers of a page, as they stand on it. -/
def texts (ids : List String) : List JsValue :=
  ids.map fun id => some (.string id)

variable {ids : List String} {group : List Json} {context manifest : Json} {u : List WorkflowExchange}
  {previous : Option Manifest} {ordinal : Option Nat}

theorem texts_nodup : (texts ids).Nodup ↔ ids.Nodup :=
  nodup_map_iff fun a b h => by simpa using h

theorem checkGroup_ids {pageIds : List String} (h : checkGroup pageIds group = .ok ids) :
    texts ids = texts pageIds ++ group.map itemId ∧ (pageIds.Nodup → ids.Nodup) := by
  induction group generalizing pageIds with
  | nil =>
    obtain rfl := ok.inj h
    exact ⟨by simp, id⟩
  | cons item _ ih =>
    simp only [checkGroup, eq_ok_iff] at h
    obtain ⟨_, hvalue, text, htext, -, -, -, hfresh, hrest⟩ := h
    obtain ⟨hids, hnodup⟩ := ih hrest
    have hid : itemId item = some (.string text) := by
      rw [itemId, optionalMember, okOr_eq_ok.mp hvalue]
      exact asString_eq_some.mp htext
    refine ⟨?_, fun hpage => hnodup ?_⟩
    · rw [hids]
      simp [texts, hid]
    · exact nodup_append'.mpr ⟨hpage, nodup_singleton _, by simpa using hfresh⟩

/-- Only branches are called. -/
def IsBranches : WorkflowCall → Prop
  | .branches _ _ => True
  | _ => False

/-- What the groups of a page come to. -/
structure GroupsEnd (items : List Json) (state : PageState) (t t' : List WorkflowExchange)
    (outcome : Outcome WorkflowError PageState) : Prop where
  added : ∃ u, t' = t ++ u ∧ ∀ e ∈ u, IsBranches e.call
  ends : outcome ≠ .cutOff
  next : ∀ s, outcome = .returned s →
    handed t' = handed t ++ items.filter hasBranch ∧ s.observed = state.observed + items.length ∧ texts s.pageIds
      = texts state.pageIds ++ items.map itemId ∧ (state.pageIds.Nodup → s.pageIds.Nodup)

variable {e : WorkflowExchange} {execution handoff : Json} {executionId : String} {fuel : Nat} {items : List Json}
  {read : Manifest} {state : ItemsState}

theorem GroupsEnd.raised {state : PageState} {t' : List WorkflowExchange}
    (h : ∃ u, t' = t ++ u ∧ ∀ e ∈ u, IsBranches e.call) (e : WorkflowError) : GroupsEnd items state t t' (.raised e) :=
  ⟨h, by simp, by simp⟩

theorem processGroup_sat {state : PageState} : Sat (GroupsEnd group state t) (processGroup context group state) t := by
  simp only [processGroup, sat_bind, sat_lift, then_returned, then_raised]
  refine ⟨fun ids hids => ?_, fun e _ => .raised ⟨[], by simp⟩ e⟩
  obtain ⟨htexts, hnodup⟩ := checkGroup_ids hids
  split
  · next hbranches =>
    simp only [sat_pure, then_returned]
    refine ⟨⟨[], by simp⟩, by simp, fun s hs => ?_⟩
    obtain rfl := Outcome.returned.inj hs
    exact ⟨by simp [hbranches], rfl, htexts, hnodup⟩
  · simp only [runBranches, sat_bind]
    refine (@Script.sat_ask _ _ _ t (.branches (group.filter hasBranch) context) _).mpr fun reply => ?_
    have hadded : ∃ u, t ++ [⟨.branches (group.filter hasBranch) context, reply⟩] = t ++ u
        ∧ ∀ e ∈ u, IsBranches e.call := ⟨_, rfl, by simp [IsBranches]⟩
    simp only [then_returned, sat_lift, sat_pure, then_raised]
    refine ⟨fun results _ => ⟨hadded, by simp, fun s hs => ?_⟩, fun e _ => .raised hadded e⟩
    obtain rfl := Outcome.returned.inj hs
    exact ⟨by simp [handed, handedBy], rfl, htexts, hnodup⟩

theorem processGroups_sat {groups : List (List Json)} {state : PageState} :
    Sat (GroupsEnd groups.flatten state t) (processGroups context groups state) t := by
  induction groups generalizing t state with
  | nil =>
    refine sat_pure.mpr ⟨⟨[], by simp⟩, by simp, fun s hs => ?_⟩
    obtain rfl := Outcome.returned.inj hs
    simp
  | cons _ _ ih =>
    rw [processGroups, sat_bind]
    refine Sat.mono processGroup_sat fun t' outcome hgroup => ?_
    obtain ⟨u, rfl, hu⟩ := hgroup.added
    cases outcome with
    | raised e => exact .raised ⟨u, rfl, hu⟩ e
    | cutOff => exact absurd rfl hgroup.ends
    | returned next =>
      obtain ⟨hhanded, hobserved, htexts, hnodup⟩ := hgroup.next next rfl
      refine Sat.mono ih fun t' outcome hrest => ?_
      obtain ⟨v, rfl, hv⟩ := hrest.added
      refine ⟨⟨u ++ v, by simp, fun e he => ?_⟩, hrest.ends, fun s hs => ?_⟩
      · exact (mem_append.mp he).elim (hu e) (hv e)
      · obtain ⟨hhanded', hobserved', htexts', hnodup'⟩ := hrest.next s hs
        refine ⟨?_, by simp [hobserved', hobserved, Nat.add_assoc], by simp [htexts', htexts],
          fun hpage => hnodup' (hnodup hpage)⟩
        rw [hhanded', hhanded, flatten_cons, filter_append, append_assoc]

theorem pageGroups_flatten (items : List Json) : (pageGroups items).flatten = items := by
  fun_induction pageGroups items <;> simp_all

/-! ### The pages of items -/

theorem branches_quiet (h : ∀ e ∈ u, IsBranches e.call) :
    pagesOf u = [] ∧ manifestsOf u = [] ∧ u.flatMap targetPageOf = [] ∧ ∀ e ∈ u, ∀ t, Justified t e.call := by
  have hquiet : ∀ e ∈ u, pageOf e = [] ∧ manifestOf e = [] ∧ targetPageOf e = [] ∧ ∀ t, Justified t e.call := by
    intro e he
    obtain ⟨call, _⟩ := e
    cases call with
    | branches items context => exact ⟨rfl, rfl, rfl, fun _ => trivial⟩
    | _ => exact (h _ he).elim
  refine ⟨?_, ?_, ?_, fun e he => (hquiet e he).2.2.2⟩
  · exact flatMap_eq_nil_iff.mpr fun e he => (hquiet e he).1
  · exact flatMap_eq_nil_iff.mpr fun e he => (hquiet e he).2.1
  · exact flatMap_eq_nil_iff.mpr fun e he => (hquiet e he).2.2.1

theorem guarded_append (h : Guarded Justified t)
    (hu : ∀ e ∈ u, ∀ t, Justified t e.call) : Guarded Justified (t ++ u) := by
  induction u generalizing t with
  | nil => simpa using h
  | cons e _ ih =>
    have hrest := ih (h.concat (hu e mem_cons_self t)) fun x hx => hu x (mem_cons_of_mem _ hx)
    simpa using hrest

theorem strictEq_none {a : JsValue} (h : a.strictEq none = true) : a = none := by
  cases a with
  | none => rfl
  | some value => cases value <;> cases h

theorem strictEq_text {text : String} {value : JsValue} :
    strictEq (some (.string text)) value = true ↔ value = some (.string text) := by
  unfold strictEq
  split <;> simp_all [eq_comm]

/-- Where the pages of items stand is what they have listed. -/
structure Paged (t : List WorkflowExchange) (state : ItemsState) : Prop where
  guarded : Guarded Justified t
  manifests : manifestsOf t = []
  targets : t.flatMap targetPageOf = []
  handed : handed t = (listed t).filter hasBranch
  observed : state.observed = (listed t).length
  distinct : ∀ page ∈ pagesOf t, (idsOn page).Nodup
  totals : ∀ page ∈ pagesOf t, totalOn page = none
    ∨ ∀ n, state.total.isNumber n = true → (totalOn page).isNumber n = true
  unset : state.total = none → ∀ page ∈ pagesOf t, totalOn page = none

/-- What the pages may come to: a cut leaves at least as many items listed as there was fuel. -/
structure PagesEnd (fuel : Nat) (t : List WorkflowExchange) (outcome : Outcome WorkflowError ItemsState) : Prop where
  guarded : Guarded Justified t
  ends : outcome = .cutOff → fuel ≤ (listed t).length ∧ ∀ page ∈ pagesOf t, (idsOn page).Nodup
  next : ∀ s, outcome = .returned s → Paged t s ∧ ∃ page ∈ pagesOf t, totalOn page = s.total

/-- What one page may come to. -/
structure PageEnd (state : ItemsState) (t : List WorkflowExchange)
    (outcome : Outcome WorkflowError (ItemsState ⊕ ItemsState)) : Prop where
  guarded : Guarded Justified t
  ends : outcome ≠ .cutOff
  again : ∀ s, outcome = .returned (.inl s) → Paged t s ∧ state.observed < s.observed
  last : ∀ s, outcome = .returned (.inr s) → Paged t s ∧ ∃ page ∈ pagesOf t, totalOn page = s.total

theorem PageEnd.raised (h : Guarded Justified t) (e : WorkflowError) : PageEnd state t (.raised e) :=
  ⟨h, by simp, by simp, by simp⟩

theorem Paged.page {state : ItemsState} {input page : Json} {u : List WorkflowExchange} {items : List Json}
    {seen : PageState} {cursor : JsValue} (h : Paged t state)
    (hitems : (optionalMember (some page) "items").asArray = some items)
    (htotal : ¬ (state.total ≠ none ∧ state.total.strictEq (totalOn page) = false)) (hu : ∀ e ∈ u, IsBranches e.call)
    (hhanded : ContentWorkflow.handed u = items.filter hasBranch)
    (hobserved : seen.observed = state.observed + items.length) (htexts : texts seen.pageIds = items.map itemId)
    (hnodup : seen.pageIds.Nodup) :
    Paged (t ++ [⟨.isCancelled, false⟩] ++ [⟨.host .itemsRead input, .ok page⟩] ++ u)
      { cursor, total := totalOn page, observed := seen.observed, failed := seen.failed } := by
  obtain ⟨hpages, hmanifests, htargets, hjustified⟩ := branches_quiet hu
  have hon : itemsOn page = items := by simp [itemsOn, hitems]
  set t' := t ++ [⟨.isCancelled, false⟩] ++ [⟨.host .itemsRead input, .ok page⟩] ++ u with ht'
  have hpagesOf : pagesOf t' = pagesOf t ++ [page] := by
    rw [ht', pagesOf, flatMap_append, ← pagesOf, ← pagesOf, hpages]
    simp [pagesOf, pageOf]
  have hlisted : listed t' = listed t ++ items := by simp [listed, hpagesOf, hon]
  refine ⟨?_, ?_, ?_, ?_, ?_, ?_, ?_, ?_⟩
  · have hcancelled : Guarded Justified (t ++ [⟨.isCancelled, false⟩]) := h.guarded.concat trivial
    exact guarded_append (hcancelled.concat trivial) hjustified
  · rw [ht', manifestsOf, flatMap_append, ← manifestsOf, ← manifestsOf, hmanifests]
    have hbefore := h.manifests
    simp_all [manifestsOf, manifestOf]
  · rw [ht', flatMap_append, htargets]
    have hbefore := h.targets
    simp_all [targetPageOf]
  · have hbefore := h.handed
    rw [hlisted, filter_append, ← hbefore, ← hhanded]
    simp [ht', ContentWorkflow.handed, handedBy]
  · show seen.observed = _
    rw [hlisted, length_append, hobserved, h.observed]
  · intro p hp
    rw [hpagesOf] at hp
    rcases mem_append.mp hp with hold | hnew
    · exact h.distinct p hold
    · obtain rfl := mem_singleton.mp hnew
      rw [idsOn, hon, ← htexts]
      exact texts_nodup.mpr hnodup
  · intro p hp
    rw [hpagesOf] at hp
    rcases mem_append.mp hp with hold | hnew
    · by_cases hunset : state.total = none
      · exact .inl (h.unset hunset p hold)
      · have heq : state.total.strictEq (totalOn page) = true := by simpa [hunset] using htotal
        exact (h.totals p hold).imp_right fun hall n hn => hall n (isNumber_of_strictEq heq hn)
    · obtain rfl := mem_singleton.mp hnew
      exact .inr fun n hn => hn
  · intro hnone p hp
    change totalOn page = none at hnone
    rw [hpagesOf] at hp
    rcases mem_append.mp hp with hold | hnew
    · refine h.unset ?_ p hold
      by_contra hset
      have heq : state.total.strictEq (totalOn page) = true := by simpa [hset] using htotal
      rw [hnone] at heq
      exact hset (strictEq_none heq)
    · obtain rfl := mem_singleton.mp hnew
      exact hnone

theorem checkPage_ok {page : Json} (h : checkPage executionId state page = .ok items) :
    (optionalMember (some page) "items").asArray = some items
      ∧ ¬ (state.total ≠ none ∧ state.total.strictEq (totalOn page) = false) := by
  simp only [checkPage, eq_ok_iff] at h
  obtain ⟨_, -, _, -, _, hfound, _, htotal, rfl⟩ := h
  exact ⟨(filter_eq_some_iff.mp hfound).1, htotal⟩

theorem nextCursor_truthy {page : Json} (h : (nextCursor page).truthy = true) :
    (optionalMember (some page) "next_cursor").truthy = true := by
  unfold nextCursor at h
  dsimp only at h
  split at h
  · simp [JsValue.truthy] at h
  · exact h

theorem afterPage_ok {page : Json} {seen : PageState} {next : ItemsState ⊕ ItemsState}
    (h : afterPage state page items seen = .ok next) :
    ∃ after, (next = .inl after ∧ items ≠ [] ∨ next = .inr after)
      ∧ after = { cursor := nextCursor page, total := totalOn page, observed := seen.observed,
                  failed := seen.failed } := by
  simp only [afterPage, eq_ok_iff] at h
  obtain ⟨_, hprogress, rfl⟩ := h
  refine ⟨_, ?_, rfl⟩
  split
  · next htruthy => exact .inl ⟨rfl, fun hempty => hprogress (.inr ⟨nextCursor_truthy htruthy, hempty⟩)⟩
  · exact .inr rfl

theorem itemsPass_sat (h : Paged t state) : Sat (PageEnd state) (itemsPass execution executionId state) t := by
  have hstopped (cancelled : Bool) : Guarded Justified (t ++ [⟨.isCancelled, cancelled⟩]) := h.guarded.concat trivial
  have hread (reply : Except HostError Json) : Guarded Justified (t ++ [⟨.isCancelled, false⟩]
      ++ [⟨.host .itemsRead (itemsRequest executionId state.cursor), reply⟩]) :=
    (hstopped false).concat trivial
  simp only [itemsPass, sat_bind, sat_stopIfCancelled, sat_callHost, then_returned, then_raised, sat_lift]
  refine ⟨.raised (hstopped true) _, fun page => ⟨fun items hitems => ?_,
    fun e _ => .raised (hread _) e⟩, fun e => .raised (hread _) _⟩
  obtain ⟨harray, htotal⟩ := checkPage_ok hitems
  refine Sat.mono processGroups_sat fun t' outcome hgroups => ?_
  obtain ⟨u, rfl, hu⟩ := hgroups.added
  have hguarded := guarded_append (hread (.ok page)) (branches_quiet hu).2.2.2
  cases outcome with
  | raised e => exact .raised hguarded e
  | cutOff => exact absurd rfl hgroups.ends
  | returned seen =>
    obtain ⟨hhanded, hobserved, htexts, hnodup⟩ := hgroups.next seen rfl
    rw [pageGroups_flatten] at hhanded hobserved htexts
    change seen.observed = state.observed + items.length at hobserved
    rw [then_returned]
    refine ⟨fun next hnext => ?_, fun e _ => .raised hguarded e⟩
    have hpaged := @Paged.page t state (itemsRequest executionId state.cursor) page u items seen (nextCursor page) h
      harray htotal hu (by simpa [handed] using hhanded) hobserved (by simpa [texts] using htexts) (hnodup nodup_nil)
    obtain ⟨_, hafter, rfl⟩ := afterPage_ok hnext
    rcases hafter with ⟨rfl, hitems⟩ | rfl
    · refine ⟨hguarded, by simp, fun s hs => ?_, by simp⟩
      obtain rfl := Sum.inl.inj (Outcome.returned.inj hs)
      have hpos := length_pos_iff.mpr hitems
      refine ⟨hpaged, ?_⟩
      show state.observed < seen.observed
      omega
    · refine ⟨hguarded, by simp, by simp, fun s hs => ?_⟩
      obtain rfl := Sum.inr.inj (Outcome.returned.inj hs)
      refine ⟨hpaged, page, ?_, rfl⟩
      simp [pagesOf, pageOf]

theorem pages_sat (h : Paged t state) (hstate : state.observed = 0) :
    Sat (PagesEnd fuel) (Script.loop (itemsPass execution executionId) fuel state) t := by
  refine sat_loop (J := fun n t state => Paged t state ∧ fuel ≤ n + state.observed)
    (fun n t state hstate => ?_) (fun t state hstate => ?_) ⟨h, by omega⟩
  · obtain ⟨hpaged, hfuel⟩ := hstate
    refine Sat.mono (itemsPass_sat hpaged) fun t' outcome hpass => ?_
    cases outcome with
    | raised e => exact ⟨hpass.guarded, by simp, by simp⟩
    | cutOff => exact absurd rfl hpass.ends
    | returned next =>
      cases next with
      | inl s =>
        obtain ⟨hnext, _⟩ := hpass.again s rfl
        exact ⟨hnext, by omega⟩
      | inr s =>
        refine ⟨hpass.guarded, by simp, fun last hs => ?_⟩
        obtain rfl := Outcome.returned.inj hs
        exact hpass.last s rfl
  · obtain ⟨hpaged, _⟩ := hstate
    have hobserved := hpaged.observed
    exact ⟨hpaged.guarded, fun _ => ⟨by omega, hpaged.distinct⟩, by simp⟩

/-! ### The distribution -/

/-- A manifest that is accepted. -/
structure Accepted (manifest : Json) (previous : Option Manifest) (read : Manifest) : Prop where
  same : IsManifest read.manifestId read.expectedCount manifest
  cursor : (optionalMember (some manifest) "expansion_cursor").safeInteger = some read.expansionCursor
  complete : optionalMember (some manifest) "complete" = read.complete
  kept : ∀ last ∈ previous, read.manifestId = last.manifestId ∧ read.expectedCount = last.expectedCount

theorem validateDistribution_ok
    (h : validateDistribution manifest execution handoff previous = .ok read) : Accepted manifest previous read := by
  simp only [validateDistribution, eq_ok_iff] at h
  obtain ⟨id, hid, _, -, _, -, _, -, count, hcount, cursor, hcursor, _, -, _, hkept, rfl⟩ := h
  refine ⟨⟨asString_eq_some.mp hid, hcount⟩, hcursor, rfl, fun last hlast => ?_⟩
  have hsame : ¬ (id ≠ last.manifestId ∨ count ≠ last.expectedCount
      ∨ cursor < last.expansionCursor) := fun hchanged => hkept ⟨last, hlast, hchanged⟩
  simp only [not_or, not_not] at hsame
  exact ⟨hsame.1, hsame.2.1⟩

/-- Where the expansion stands is what the last manifest says. -/
structure Expanding (t : List WorkflowExchange) (read : Manifest) : Prop where
  guarded : Guarded Justified t
  targets : t.flatMap targetPageOf = []
  same : ∀ manifest ∈ manifestsOf t, IsManifest read.manifestId read.expectedCount manifest
  last : ∃ manifest, (manifestsOf t).getLast? = some manifest ∧ (optionalMember (some manifest) "complete")
    = read.complete ∧ (optionalMember (some manifest) "expansion_cursor").safeInteger = some read.expansionCursor

theorem Accepted.expanding (h : Accepted manifest previous read)
    (hguarded : Guarded Justified t) (htargets : t.flatMap targetPageOf = [])
    (hsame : ∀ m ∈ manifestsOf t, IsManifest read.manifestId read.expectedCount m) (he : Justified t e.call)
    (hmanifest : manifestOf e = [manifest]) (htarget : targetPageOf e = []) : Expanding (t ++ [e]) read := by
  have hmanifests : manifestsOf (t ++ [e]) = manifestsOf t ++ [manifest] := by simp [manifestsOf, hmanifest]
  refine ⟨hguarded.concat he, by simp [htargets, htarget], fun m hm => ?_, manifest, ?_, h.complete, h.cursor⟩
  · rw [hmanifests] at hm
    rcases mem_append.mp hm with hold | hnew
    · exact hsame m hold
    · obtain rfl := mem_singleton.mp hnew
      exact h.same
  · simp [hmanifests]

/-- What the expansion may come to. -/
structure ExpandEnd (fuel : Nat) (t : List WorkflowExchange) (outcome : Outcome WorkflowError Manifest) : Prop where
  guarded : Guarded Justified t
  ends : outcome = .cutOff → fuel ≤ maxSafeInteger + 1
  next : ∀ read, outcome = .returned read → Expanding t read ∧ read.complete.truthy = true

theorem Expanding.cursor_le (h : Expanding t read) : read.expansionCursor ≤ maxSafeInteger := by
  obtain ⟨_, -, -, hcursor⟩ := h.last
  exact safeInteger_le hcursor

theorem expand_sat (h : Expanding t read) :
    Sat (ExpandEnd fuel) (Script.loop (expandPass execution handoff) fuel read) t := by
  refine sat_loop (J := fun n t read => Expanding t read ∧ fuel ≤ n + read.expansionCursor)
    (fun n t read hread => ?_) (fun t read hread => ?_) ⟨h, by omega⟩
  · obtain ⟨hexpanding, hfuel⟩ := hread
    have hstopped (cancelled : Bool) : Guarded Justified (t ++ [⟨.isCancelled, cancelled⟩]) :=
      hexpanding.guarded.concat trivial
    have hraised {t : List WorkflowExchange} (h : Guarded Justified t) (e : WorkflowError) :
        ExpandEnd fuel t (.raised e) := ⟨h, by simp, by simp⟩
    unfold expandPass
    split
    · next hcomplete =>
      refine sat_pure.mpr ⟨hexpanding.guarded, by simp, fun last hlast => ?_⟩
      obtain rfl := Outcome.returned.inj hlast
      exact ⟨hexpanding, hcomplete⟩
    · simp only [sat_bind, sat_stopIfCancelled, sat_callHost, then_returned, then_raised, sat_lift,
        sat_failIf, sat_pure]
      have hresumed (reply : Except HostError Json) : Guarded Justified (t ++ [⟨.isCancelled, false⟩]
          ++ [⟨.host .distributionResume (object (manifestRequest read none)), reply⟩]) :=
        (hstopped false).concat trivial
      refine ⟨hraised (hstopped true) _, fun manifest => ⟨fun next hnext =>
        ⟨fun _ => hraised (hresumed _) _, fun hprogress => ⟨?_, by omega⟩⟩,
        fun e _ => hraised (hresumed _) e⟩, fun e => hraised (hresumed _) _⟩
      have haccepted := validateDistribution_ok hnext
      obtain ⟨hid, hcount⟩ := haccepted.kept read rfl
      have hbefore := hexpanding.same
      have htargets := hexpanding.targets
      exact haccepted.expanding (hstopped false) (by simp [htargets, targetPageOf])
        (by simpa [manifestsOf, manifestOf, hid, hcount] using hbefore) trivial rfl rfl
  · obtain ⟨hexpanding, _⟩ := hread
    have hcursor := hexpanding.cursor_le
    exact ⟨hexpanding.guarded, fun _ => by omega, by simp⟩

/-! ### The targets -/

/-- How many ordinals there are up to the last one. -/
def ordinalsRead (ordinal : Option Nat) : Nat :=
  ordinal.elim 0 (· + 1)

theorem checkTarget_ok {item : Json} {position : Nat} (h : checkTarget ordinal item = .ok position) :
    position = ordinalsRead ordinal ∧ position ≤ maxSafeInteger ∧ ordinalOf item = some position
      ∧ (optionalMember (some item) "status").isText "pending" = false := by
  simp only [checkTarget, eq_ok_iff] at h
  obtain ⟨_, -, _, -, _, hfound, _, hsettled, rfl⟩ := h
  obtain ⟨hinteger, hnext⟩ := filter_eq_some_iff.mp hfound
  exact ⟨by simpa [ordinalsRead] using hnext, safeInteger_le hinteger, hinteger, by simpa using hsettled⟩

theorem checkTargets_ok {last : Option Nat} (h : checkTargets ordinal items = .ok last) :
    ordinalsRead last = ordinalsRead ordinal + items.length
      ∧ items.map ordinalOf = (List.range' (ordinalsRead ordinal) items.length).map some
      ∧ (∀ item ∈ items, (optionalMember (some item) "status").isText "pending" = false)
      ∧ (ordinalsRead ordinal ≤ maxSafeInteger + 1 → ordinalsRead last ≤ maxSafeInteger + 1) := by
  induction items generalizing ordinal with
  | nil =>
    obtain rfl := ok.inj h
    simp
  | cons _ _ ih =>
    simp only [checkTargets, bind_eq_ok] at h
    obtain ⟨position, hitem, hrest⟩ := h
    obtain ⟨hposition, _, hordinal, hsettled⟩ := checkTarget_ok hitem
    obtain ⟨hnext, hordinals, hothers, hbound⟩ := ih hrest
    have hstart : ordinalsRead (some position) = ordinalsRead ordinal + 1 := by rw [← hposition]; rfl
    refine ⟨?_, ?_, ?_, fun _ => hbound ?_⟩
    · rw [hnext, hstart, length_cons]
      omega
    · rw [map_cons, hordinal, hordinals, hstart, length_cons, range'_succ, map_cons, hposition]
    · simpa using ⟨hsettled, hothers⟩
    · show position + 1 ≤ _
      omega

/-- Where the targets stand is what has been read of them. -/
structure Rechecking (t : List WorkflowExchange) (read : Manifest) (targets : TargetState) : Prop where
  guarded : Guarded Justified t
  expanded : Expanded t read.manifestId read.expectedCount
  inOrder : ReadInOrder t targets.observed
  next : ordinalsRead targets.afterOrdinal = targets.observed
  bound : targets.observed ≤ maxSafeInteger + 1

/-- What is no manifest, or one like the others, keeps the expansion. -/
theorem Expanded.concat {id : String} {count : Nat} (h : Expanded t id count)
    (he : ∀ manifest ∈ manifestOf e, IsManifest id count manifest) : Expanded (t ++ [e]) id count := by
  obtain ⟨early, late, manifest, rfl, hcomplete⟩ := h.complete
  refine ⟨fun m hm => ?_, early, late ++ [e], manifest, by simp, hcomplete⟩
  rw [manifestsOf, flatMap_append] at hm
  rcases mem_append.mp hm with hold | hnew
  · exact h.same m hold
  · exact he m (by simpa using hnew)

theorem ReadInOrder.concat {count : Nat} (h : ReadInOrder t count) (he : targetPageOf e = []) :
    ReadInOrder (t ++ [e]) count := by
  have htargets : targetsOf (t ++ [e]) = targetsOf t := by simp [targetsOf, he]
  exact ⟨by rw [htargets]; exact h.ordinals, by rw [htargets]; exact h.settled⟩

theorem ReadInOrder.page {count : Nat} {ordinal last : Option Nat} {items : List Json} {e : WorkflowExchange}
    {page : Json} (h : ReadInOrder t count) (he : targetPageOf e = [page]) (hitems : itemsOn page = items)
    (hnext : ordinalsRead ordinal = count) (hchecked : checkTargets ordinal items = .ok last) :
    ReadInOrder (t ++ [e]) (count + items.length) := by
  obtain ⟨-, hordinals, hsettled, -⟩ := checkTargets_ok hchecked
  have htargets : targetsOf (t ++ [e]) = targetsOf t ++ items := by simp [targetsOf, he, hitems]
  constructor
  · rw [htargets, map_append, h.ordinals, hordinals, hnext, ← map_append]
    congr 1
    rw [range_eq_range', range_eq_range', ← range'_append_1, Nat.zero_add]
  · intro target htarget
    rw [htargets] at htarget
    rcases mem_append.mp htarget with hold | hnew
    · exact h.settled target hold
    · exact hsettled target hnew

/-- What some pages of targets may come to, and whether they were the last ones. -/
structure TargetsEnd (read : Manifest) (observed : Nat) (t : List WorkflowExchange)
    (outcome : Outcome WorkflowError (TargetState × Bool)) : Prop where
  guarded : Guarded Justified t
  ends : outcome ≠ .cutOff
  again : ∀ s, outcome = .returned (s, false) → Rechecking t read s ∧ observed ≤ s.observed
  last : ∀ s, outcome = .returned (s, true) → Expanded t read.manifestId read.expectedCount
    ∧ ReadInOrder t read.expectedCount ∧ s.observed = read.expectedCount

theorem readTargets_sat {state : TargetState} (h : Rechecking t read state) :
    Sat (TargetsEnd read (state.observed + 1)) (readTargets read state) t := by
  have hraised {t : List WorkflowExchange} (h : Guarded Justified t) (e : WorkflowError) :
      TargetsEnd read (state.observed + 1) t (.raised e) := ⟨h, by simp, by simp, by simp⟩
  have hread (reply : Except HostError Json) : Guarded Justified (t ++
      [⟨.host .distributionTargetsRead (targetsRequest read state.afterOrdinal), reply⟩]) :=
    h.guarded.concat trivial
  simp only [readTargets, sat_bind, sat_callHost, then_returned, then_raised, sat_lift, sat_failIf]
  refine ⟨fun page => ⟨fun id _ => ⟨fun _ => hraised (hread _) _, fun _ => ⟨fun items hitems =>
    ⟨fun last hchecked => ?_, fun e _ => hraised (hread _) e⟩, fun e _ => hraised (hread _) e⟩⟩,
    fun e _ => hraised (hread _) e⟩, fun e => hraised (hread _) _⟩
  have harray := (filter_eq_some_iff.mp (okOr_eq_ok.mp hitems)).1
  have hon : itemsOn page = items := by simp [itemsOn, harray]
  obtain ⟨_, -, -, _⟩ := checkTargets_ok hchecked
  have hexpanded := h.expanded.concat (e := ⟨.host .distributionTargetsRead
    (targetsRequest read state.afterOrdinal), .ok page⟩) (by simp [manifestOf])
  have hinOrder := h.inOrder.page (e := ⟨.host .distributionTargetsRead
    (targetsRequest read state.afterOrdinal), .ok page⟩) rfl hon h.next hchecked
  split
  · simp only [sat_bind, sat_failIf, then_returned, then_raised, sat_pure]
    refine ⟨fun _ => hraised (hread _) _, fun hcount => ⟨hread _, by simp, by simp, fun s hs => ?_⟩⟩
    obtain ⟨rfl, -⟩ := Prod.mk.inj (Outcome.returned.inj hs)
    rw [not_not] at hcount
    rw [hcount] at hinOrder
    exact ⟨hexpanded, hinOrder, hcount⟩
  · simp only [sat_bind, sat_failIf, then_returned, then_raised, sat_pure]
    refine ⟨fun _ => hraised (hread _) _, fun hprogress => ⟨hread _, by simp, fun s hs => ?_, by simp⟩⟩
    obtain ⟨rfl, -⟩ := Prod.mk.inj (Outcome.returned.inj hs)
    have hitems : items ≠ [] := fun hempty => hprogress (.inl hempty)
    have hpos := length_pos_iff.mpr hitems
    have hnext := h.next
    have hle := h.bound
    refine ⟨⟨hread _, hexpanded, hinOrder, ?_, ?_⟩, ?_⟩
    · show ordinalsRead last = state.observed + items.length
      omega
    · show state.observed + items.length ≤ _
      omega
    · show state.observed + 1 ≤ state.observed + items.length
      omega

theorem readTargetPages_sat {pages : Nat} {state : TargetState} (h : Rechecking t read state) :
    Sat (TargetsEnd read (state.observed + pages)) (readTargetPages read pages state) t := by
  induction pages generalizing t state with
  | zero =>
    refine sat_pure.mpr ⟨h.guarded, by simp, fun s hs => ?_, by simp⟩
    obtain ⟨rfl, -⟩ := Prod.mk.inj (Outcome.returned.inj hs)
    exact ⟨h, le_refl _⟩
  | succ pages ih =>
    rw [readTargetPages, sat_bind]
    refine Sat.mono (readTargets_sat h) fun t' outcome hpage => ?_
    cases outcome with
    | raised e => exact ⟨hpage.guarded, by simp, by simp, by simp⟩
    | cutOff => exact absurd rfl hpage.ends
    | returned next =>
      obtain ⟨s, finished⟩ := next
      rw [then_returned]
      cases finished with
      | true =>
        refine sat_pure.mpr ⟨hpage.guarded, by simp, by simp, fun last hlast => ?_⟩
        obtain ⟨rfl, -⟩ := Prod.mk.inj (Outcome.returned.inj hlast)
        exact hpage.last s rfl
      | false =>
        obtain ⟨hnext, _⟩ := hpage.again s rfl
        refine Sat.mono (ih hnext) fun t' outcome hrest => ?_
        refine ⟨hrest.guarded, hrest.ends, fun last hlast => ?_, hrest.last⟩
        obtain ⟨hrechecking, hobserved⟩ := hrest.again last hlast
        change s.observed + pages ≤ last.observed at hobserved
        exact ⟨hrechecking, by omega⟩

/-- What the recheck of the targets may come to. -/
structure RecheckEnd (fuel : Nat) (t : List WorkflowExchange)
    (outcome : Outcome WorkflowError (Manifest × TargetState)) : Prop where
  guarded : Guarded Justified t
  ends : outcome = .cutOff → fuel ≤ maxSafeInteger + 1
  next : ∀ s, outcome = .returned s → Expanded t s.1.manifestId s.1.expectedCount
    ∧ ReadInOrder t s.1.expectedCount ∧ s.2.observed = s.1.expectedCount

theorem recheck_sat {state : Manifest × TargetState} (h : Rechecking t state.1 state.2) :
    Sat (RecheckEnd fuel) (Script.loop (recheckPass execution handoff) fuel state) t := by
  refine sat_loop (J := fun n t state => Rechecking t state.1 state.2 ∧ fuel ≤ n + state.2.observed)
    (fun n t state hstate => ?_) (fun t state hstate => ?_) ⟨h, by omega⟩
  · obtain ⟨hrechecking, hfuel⟩ := hstate
    have hraised {t : List WorkflowExchange} (h : Guarded Justified t) (e : WorkflowError) :
        RecheckEnd fuel t (.raised e) := ⟨h, by simp, by simp⟩
    have hstopped (cancelled : Bool) : Guarded Justified (t ++ [⟨.isCancelled, cancelled⟩]) :=
      hrechecking.guarded.concat trivial
    have hresumed (reply : Except HostError Json) : Guarded Justified (t ++ [⟨.isCancelled, false⟩]
        ++ [⟨.host .distributionResume (object (manifestRequest state.1 state.2.afterOrdinal)), reply⟩]) :=
      (hstopped false).concat trivial
    simp only [recheckPass, sat_bind, sat_stopIfCancelled, sat_callHost, then_returned, then_raised, sat_lift]
    refine ⟨hraised (hstopped true) _, fun manifest => ⟨fun next hnext => ?_,
      fun e _ => hraised (hresumed _) e⟩, fun e => hraised (hresumed _) _⟩
    have haccepted := validateDistribution_ok hnext
    obtain ⟨hid, hcount⟩ := haccepted.kept state.1 rfl
    have hsame := haccepted.same
    have hagain : Rechecking (t ++ [⟨.isCancelled, false⟩] ++ [⟨.host .distributionResume
        (object (manifestRequest state.1 state.2.afterOrdinal)), .ok manifest⟩]) next state.2 := by
      rw [hid, hcount] at hsame
      refine ⟨hresumed _, ?_, ?_, hrechecking.next, hrechecking.bound⟩
      · rw [hid, hcount]
        refine (hrechecking.expanded.concat ?_).concat ?_
        · simp [manifestOf]
        · simpa [manifestOf] using hsame
      · exact (hrechecking.inOrder.concat rfl).concat rfl
    refine Sat.mono (readTargetPages_sat hagain) fun t' outcome hpages => ?_
    cases outcome with
    | raised e => exact hraised hpages.guarded e
    | cutOff => exact absurd rfl hpages.ends
    | returned targets =>
      obtain ⟨s, finished⟩ := targets
      rw [then_returned, sat_pure]
      cases finished with
      | true =>
        refine ⟨hpages.guarded, by simp, fun last hlast => ?_⟩
        obtain rfl := Outcome.returned.inj hlast
        exact hpages.last s rfl
      | false =>
        obtain ⟨hnext, _⟩ := hpages.again s rfl
        exact ⟨hnext, by show fuel ≤ n + s.observed; omega⟩
  · obtain ⟨hrechecking, _⟩ := hstate
    have hbound := hrechecking.bound
    exact ⟨hrechecking.guarded, fun _ => by omega, by simp⟩

/-! ### One invocation -/

/-- What a run may come to: it is cut off in a loop of the distribution, or after as many items as there
was fuel. -/
structure InvocationEnd (fuel : Nat) (t : List WorkflowExchange) (outcome : Outcome WorkflowError Unit) : Prop where
  guarded : Guarded Justified t
  ends : outcome = .cutOff → fuel ≤ maxSafeInteger + 1
    ∨ fuel ≤ (listed t).length ∧ ∀ page ∈ pagesOf t, (idsOn page).Nodup

theorem InvocationEnd.raised (h : Guarded Justified t) (e : WorkflowError) : InvocationEnd fuel t (.raised e) :=
  ⟨h, by simp⟩

/-- An expansion that is complete and covers its count, before the targets are read. -/
theorem Expanding.rechecking (h : Expanding t read) (hcomplete : read.complete.truthy = true)
    (hcovers : read.expansionCursor = read.expectedCount) :
    Rechecking t read { afterOrdinal := none, observed := 0 } := by
  obtain ⟨manifest, hlast, hread, hcursor⟩ := h.last
  have htargets : targetsOf t = [] := by simp [targetsOf, h.targets]
  refine ⟨h.guarded, ⟨h.same, t, [], manifest, by simp, htargets, hlast, ?_, ?_⟩,
    ⟨by simp [htargets], by simp [htargets]⟩, rfl, Nat.zero_le _⟩
  · rw [hread]
    exact hcomplete
  · rw [hcursor, hcovers]

theorem prepareDistribution_sat (hguarded : Guarded Justified t) (hmanifests : manifestsOf t = [])
    (htargets : t.flatMap targetPageOf = []) :
    Sat (InvocationEnd fuel) (prepareDistribution fuel execution handoff) t := by
  have hstarted (input : Json) (reply : Except HostError Json) :
      Guarded Justified (t ++ [⟨.host .distributionStart input, reply⟩]) := hguarded.concat trivial
  unfold prepareDistribution
  simp only [sat_bind, sat_callHost, then_returned, then_raised, sat_lift]
  refine ⟨fun manifest => ⟨fun read hread => ?_, fun e _ => .raised (hstarted _ _) e⟩,
    fun e => .raised (hstarted _ _) _⟩
  have haccepted := validateDistribution_ok hread
  have hexpanding : Expanding (t ++ [⟨.host .distributionStart (object
      [("cycle_id", (optionalMember (some execution) "origin").optionalMember "cycle_id")]),
      .ok manifest⟩]) read :=
    haccepted.expanding hguarded htargets (by simp [hmanifests]) trivial rfl rfl
  refine Sat.mono (expand_sat hexpanding) fun t' outcome hexpand => ?_
  cases outcome with
  | raised e => exact .raised hexpand.guarded e
  | cutOff => exact ⟨hexpand.guarded, fun _ => .inl (hexpand.ends rfl)⟩
  | returned read =>
    obtain ⟨hexpanded, hcomplete⟩ := hexpand.next read rfl
    simp only [then_returned, sat_failIf, then_raised]
    refine ⟨fun _ => .raised hexpand.guarded _, fun hcovers => ?_⟩
    have hrechecking := hexpanded.rechecking hcomplete (not_not.mp hcovers)
    refine Sat.mono (recheck_sat hrechecking) fun t' outcome hrecheck => ?_
    cases outcome with
    | raised e => exact .raised hrecheck.guarded e
    | cutOff => exact ⟨hrecheck.guarded, fun _ => .inl (hrecheck.ends rfl)⟩
    | returned rechecked =>
      obtain ⟨hdone, hinOrder, hobserved⟩ := hrecheck.next rechecked rfl
      rw [then_returned, sat_emit]
      have hjustified : Justified t' (.emit "distribution.prepared"
          (preparedData execution handoff rechecked.1 rechecked.2.observed)) := fun _ =>
        ⟨_, _, hdone, hinOrder, get_object (by simp) (by simp), get_object (by simp) (by simp [hobserved])⟩
      exact ⟨⟨hrecheck.guarded.concat hjustified, by simp⟩, fun e => .raised (hrecheck.guarded.concat hjustified) _⟩

/-- The items are distinct if and only if no page lists an item of an earlier page. -/
theorem nodup_iff_freshPages (h : ∀ page ∈ pagesOf t, (idsOn page).Nodup) : (listedIds t).Nodup ↔ FreshPages t := by
  rw [listedIds, List.nodup_flatMap]
  exact and_iff_right h

/-- The pages that were all read cover their items when their total is reached. -/
theorem Paged.covered (h : Paged t state) (hlast : ∃ page ∈ pagesOf t, totalOn page = state.total)
    (htotal : state.total.isNumber state.observed = true) : ItemsCovered t := by
  rw [h.observed] at htotal
  obtain ⟨page, hmem, hpage⟩ := hlast
  refine ⟨h.handed, ⟨page, hmem, by rwa [hpage]⟩, fun p hp => ?_, nodup_iff_freshPages h.distinct⟩
  exact (h.totals p hp).imp_right fun hall => hall _ htotal

/-- What closing may come to. -/
structure CloseEnd (t : List WorkflowExchange) (outcome : Outcome WorkflowError Json) : Prop where
  guarded : Guarded Justified t
  ends : outcome ≠ .cutOff
  manifests : manifestsOf t = []
  targets : t.flatMap targetPageOf = []

theorem closeExecution_sat (h : Paged t state) (hlast : ∃ page ∈ pagesOf t, totalOn page = state.total) :
    Sat CloseEnd (closeExecution executionId state) t := by
  have hmanifests := h.manifests
  have htargets := h.targets
  simp only [closeExecution, sat_bind, sat_callHost, then_returned, then_raised, sat_lift, sat_failIf,
    sat_emit, sat_pure]
  refine ⟨fun _ => ⟨h.guarded, by simp, hmanifests, htargets⟩, fun hreached => ?_⟩
  have hcovered := h.covered hlast (by simpa using hreached)
  have hclosed (reply : Except HostError Json) : Guarded Justified (t ++ [⟨.host .close
      (object [("execution_id", some (.string executionId))]), reply⟩]) :=
    h.guarded.concat hcovered
  have hend {t' : List WorkflowExchange} {outcome : Outcome WorkflowError Json}
      (hguarded : Guarded Justified (t ++ t')) (hends : outcome ≠ .cutOff)
      (hquiet : ∀ e ∈ t', manifestOf e = [] ∧ targetPageOf e = []) : CloseEnd (t ++ t') outcome := by
    refine ⟨hguarded, hends, ?_, ?_⟩
    · rw [manifestsOf, flatMap_append, ← manifestsOf, hmanifests]
      exact flatMap_eq_nil_iff.mpr fun e he => (hquiet e he).1
    · rw [flatMap_append, htargets]
      exact flatMap_eq_nil_iff.mpr fun e he => (hquiet e he).2
  refine ⟨fun handoff => ⟨fun id _ => ⟨fun _ => hend (hclosed _) (by simp) ?_, fun _ => ⟨?_, fun e => ?_⟩⟩,
    fun e _ => hend (hclosed _) (by simp) ?_⟩, fun e => hend (hclosed _) (by simp) ?_⟩
  · simp [manifestOf, targetPageOf]
  · rw [append_assoc]
    refine hend ?_ (by simp) (by simp [manifestOf, targetPageOf])
    rw [← append_assoc]
    exact (hclosed _).concat (by simp [Justified])
  · rw [append_assoc]
    refine hend ?_ (by simp) (by simp [manifestOf, targetPageOf])
    rw [← append_assoc]
    exact (hclosed _).concat (by simp [Justified])
  · simp [manifestOf, targetPageOf]
  · simp [manifestOf, targetPageOf]

theorem finish_sat {text : String} (h : Guarded Justified t) : Sat (InvocationEnd fuel) (finish text) t := by
  have hfinished (reply : Except HostError Unit) : Guarded Justified (t ++ [⟨.finish text, reply⟩]) := h.concat trivial
  rw [finish, sat_bind]
  refine (@Script.sat_ask _ _ _ t (.finish text) _).mpr fun reply => ?_
  rw [then_returned, sat_settled]
  exact ⟨fun _ _ => ⟨hfinished _, by simp⟩, fun e _ => .raised (hfinished _) _⟩

theorem paged_start (hpage : pageOf e = []) (hmanifest : manifestOf e = []) (htarget : targetPageOf e = [])
    (hhanded : handedBy e = []) (hjust : Justified [] e.call) :
    Paged [e] { cursor := none, total := none, observed := 0, failed := 0 } := by
  have hpages : pagesOf [e] = [] := by simp [pagesOf, hpage]
  have hguarded : Guarded Justified ([] ++ [e]) := guarded_nil.concat hjust
  refine ⟨hguarded, by simp [manifestsOf, hmanifest], by simp [htarget], ?_, ?_, ?_, ?_, ?_⟩
  · simp [handed, hhanded, listed, hpages]
  · simp [listed, hpages]
  · simp [hpages]
  · simp [hpages]
  · simp [hpages]

/-- Every run of one invocation. -/
theorem contentWorkflow_sat {message : JsValue} : Sat (InvocationEnd fuel) (contentWorkflow fuel message) [] := by
  have hnothing : Guarded Justified [] := guarded_nil
  unfold contentWorkflow
  simp only [sat_bind, sat_lift, then_returned, then_raised, sat_callHost, nil_append, sat_failIf]
  refine ⟨fun executionId _ => ⟨fun execution => ?_, fun e => ?_⟩, fun e _ => .raised hnothing e⟩
  · have hpaged := paged_start (e := ⟨.host .executionRead (object
      [("execution_id", some (.string executionId))]), .ok execution⟩) rfl rfl rfl rfl trivial
    refine ⟨fun id _ => ⟨fun _ => .raised hpaged.guarded _, fun _ => ?_⟩, fun e _ => .raised hpaged.guarded e⟩
    refine Sat.mono (pages_sat hpaged rfl) fun t outcome hpages => ?_
    cases outcome with
    | raised e => exact .raised hpages.guarded e
    | cutOff => exact ⟨hpages.guarded, fun _ => .inr (hpages.ends rfl)⟩
    | returned state =>
      obtain ⟨hread, hlast⟩ := hpages.next state rfl
      rw [then_returned]
      refine Sat.mono (closeExecution_sat hread hlast) fun t outcome hclose => ?_
      cases outcome with
      | raised e => exact .raised hclose.guarded e
      | cutOff => exact absurd rfl hclose.ends
      | returned handoff =>
        rw [then_returned]
        split
        · rw [sat_bind]
          refine Sat.mono (prepareDistribution_sat hclose.guarded hclose.manifests hclose.targets)
            fun t outcome hprepare => ?_
          cases outcome with
          | raised e => exact .raised hprepare.guarded e
          | cutOff => exact ⟨hprepare.guarded, hprepare.ends⟩
          | returned _ => exact finish_sat hprepare.guarded
        · exact finish_sat hclose.guarded
  · have hread : Guarded Justified ([] ++ [⟨.host .executionRead (object
        [("execution_id", some (.string executionId))]), .error e⟩]) := hnothing.concat trivial
    exact .raised hread _

namespace Sample

/-- A reference to an execution. -/
def reference : String :=
  "00000000-0000-0000-0000-000000000000"

/-- An execution on demand. -/
def onDemand : Json :=
  .object [("execution_id", .string reference), ("origin", .object [("kind", .string "on_demand")])]

/-- An item that is done. -/
def doneItem : Json :=
  .object [("item_id", .string "i"), ("branch_key", .string "b"), ("status", .string "ready")]

/-- A page of the item that is done. -/
def itemPage (total : Nat) (next : Json) : Json :=
  .object [("execution_id", .string reference), ("items", .array [doneItem]),
    ("total", .ofNat total), ("next_cursor", next)]

/-- What the host replies when it is closed over two items. -/
def closed : Json :=
  .object [("execution_id", .string reference), ("total", .ofNat 2)]

/-- A host whose `n`th reply is a page, if a page is asked for. -/
def pageHost (pages : Nat → Json) (n : Nat) : (call : WorkflowCall) → call.Reply
  | .host .executionRead _ => .ok onDemand
  | .host .itemsRead _ => .ok (pages n)
  | .host .close _ => .ok closed
  | .host _ _ => .ok .null
  | .modelComplete _ _ _ => .ok .null
  | .emit _ _ => .ok ()
  | .thinking _ => .ok ()
  | .isCancelled => false
  | .takeDiagnostic => false
  | .branches _ _ => .ok fun _ => "ready"
  | .finish _ => .ok ()

/-- A run of one invocation against a host of pages. -/
def invocation (fuel : Nat) (pages : Nat → Json) : List WorkflowExchange × Outcome WorkflowError Unit :=
  play (pageHost pages) 0 (contentWorkflow fuel (some (.string reference)))

/-- What comes after one more page of the item that is done. -/
def again (state : ItemsState) (next : String) : ItemsState :=
  { cursor := some (.string next), total := some (.ofNat 2), observed := state.observed + 1, failed := state.failed }

/-- A page of the item that is done goes on to the next one, whatever was seen before it. -/
theorem itemsPass_again {next : String}
    (htotal : state.total = none ∨ state.total = some (.ofNat 2)) (hnext : next ≠ "")
    (hcursor : state.cursor ≠ some (.string next)) :
    Runs (itemsPass onDemand reference state)
      [⟨.isCancelled, false⟩, ⟨.host .itemsRead (itemsRequest reference state.cursor), .ok (itemPage 2 (.string next))⟩]
      (.returned (.inl (again state next))) := by
  have hchecked : checkPage reference state (itemPage 2 (.string next)) = .ok [doneItem] := by
    rcases htotal with hunset | hset
    · simp only [checkPage, hunset]
      rfl
    · simp only [checkPage, hset]
      rfl
  have hdiffers : strictEq (some (.string next)) state.cursor = false :=
    Bool.eq_false_iff.mpr fun heq => hcursor (strictEq_text.mp heq)
  have hafter : afterPage state (itemPage 2 (.string next)) [doneItem]
      { pageIds := ["i"], observed := state.observed + 1, failed := state.failed }
      = .ok (.inl (again state next)) := by
    have hmember : optionalMember (some (itemPage 2 (.string next))) "next_cursor" = some (.string next) := rfl
    simp only [afterPage, nextCursor, hmember, hdiffers]
    simp [JsValue.isNullish, JsValue.truthy, hnext, Except.failIf]
    rfl
  have hpage : Runs (do
      let items ← lift (checkPage reference state (itemPage 2 (.string next)))
      let seen ← processGroups (branchContext onDemand (itemPage 2 (.string next))) (pageGroups items)
        { pageIds := [], observed := state.observed, failed := state.failed }
      lift (afterPage state (itemPage 2 (.string next)) items seen)) []
      (.returned (.inl (again state next))) := by
    rw [hchecked]
    show Runs (lift (afterPage state (itemPage 2 (.string next)) [doneItem]
      { pageIds := ["i"], observed := state.observed + 1, failed := state.failed })) [] _
    rw [hafter]
    exact .done
  exact .await (.await hpage)

/-- A host may repeat its cursors in turn for ever. -/
theorem items_cutOff {fuel : Nat} {state : ItemsState} (htotal : state.total = none ∨ state.total = some (.ofNat 2)) :
    ∃ t, Runs (Script.loop (itemsPass onDemand reference) fuel state) t .cutOff := by
  induction fuel generalizing state with
  | zero => exact ⟨[], .done⟩
  | succ fuel ih =>
    have hnext : ∃ next : String, next ≠ "" ∧ state.cursor ≠ some (.string next) := by
      by_cases hcursor : state.cursor = some (.string "a")
      · exact ⟨"b", by decide, by simp [hcursor]⟩
      · exact ⟨"a", by decide, hcursor⟩
    obtain ⟨next, hne, hcursor⟩ := hnext
    obtain ⟨_, hrest⟩ := @ih (again state next) (.inr rfl)
    exact ⟨_, (itemsPass_again htotal hne hcursor).bind hrest⟩

end Sample

end ContentWorkflow

end GeoMaster
