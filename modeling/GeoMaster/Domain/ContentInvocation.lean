import GeoMaster.Domain.ContentWorkflow

/-!
# One invocation of the content workflow

`contentWorkflow` goes through the pages of the items of an execution, hands the items that are not done to
their branches in groups of four, closes the execution once as many items were seen as its total says, and
prepares the distribution of a cycle: it expands the manifest, and then reads every target once more.
-/

namespace GeoMaster

open Except JsValue

namespace ContentWorkflow

open Script (failIf lift)

def targetPageSize : Nat :=
  64

/-! ### Distribution -/

structure Manifest where
  manifestId : String
  (expectedCount expansionCursor : Nat)
  complete : JsValue

def validateDistribution (manifest execution handoff : Json) (previous : Option Manifest) :
    Except WorkflowError Manifest := do
  let changed := WorkflowError.error "Distribution manifest changed or is outside the content handoff."
  let member := optionalMember (some manifest)
  let origin := optionalMember (some execution) "origin"
  let manifestId ← okOr (member "manifest_id").asString changed
  Except.failIf ((member "cycle_id").strictEq (origin.optionalMember "cycle_id") = false) changed
  Except.failIf ((member "content_execution_id").strictEq
    (optionalMember (some execution) "execution_id") = false) changed
  Except.failIf ((member "content_handoff_id").strictEq (optionalMember (some handoff) "handoff_id") = false) changed
  let expectedCount ← okOr (member "expected_count").safeInteger changed
  let expansionCursor ← okOr (member "expansion_cursor").safeInteger changed
  Except.failIf (expectedCount < expansionCursor) changed
  Except.failIf (∃ last ∈ previous, manifestId ≠ last.manifestId ∨ expectedCount ≠ last.expectedCount
    ∨ expansionCursor < last.expansionCursor) changed
  pure { manifestId, expectedCount, expansionCursor, complete := member "complete" }

/-- The members of a request about a manifest. -/
def manifestRequest (manifest : Manifest) (afterOrdinal : Option Nat) : List (String × JsValue) :=
  [("manifest_id", some (.string manifest.manifestId)), ("after_ordinal", afterOrdinal.map .ofNat)]

/-- One step of the expansion, until the manifest is complete. -/
def expandPass (execution handoff : Json) (manifest : Manifest) : Workflow (Manifest ⊕ Manifest) := do
  if manifest.complete.truthy then pure (.inr manifest)
  else do
    stopIfCancelled (.error "Distribution preparation cancelled.")
    let reply ← callHost .distributionResume (object (manifestRequest manifest none))
    let advanced ← lift (validateDistribution reply execution handoff (some manifest))
    failIf (advanced.expansionCursor ≤ manifest.expansionCursor)
      (.error "Distribution expansion cursor made no progress.")
    pure (.inl advanced)

/-- A target with the ordinal after the one before it. -/
def checkTarget (ordinal : Option Nat) (item : Json) : Except WorkflowError Nat := do
  let missing := WorkflowError.error "Distribution target is missing or not materialized."
  let targetId ← readMember (some item) "target_id"
  let _ ← okOr targetId.asString missing
  let member := optionalMember (some item)
  let position ← okOr ((member "ordinal").safeInteger.filter (· = ordinal.elim 0 (· + 1))) missing
  Except.failIf ((member "status").isText "pending" = true) missing
  pure position

/-- The ordinal of the last target. -/
def checkTargets (ordinal : Option Nat) : List Json → Except WorkflowError (Option Nat)
  | [] => .ok ordinal
  | item :: rest => do
    let position ← checkTarget ordinal item
    checkTargets (some position) rest

/-- How far the targets have been read. -/
structure TargetState where
  afterOrdinal : Option Nat
  observed : Nat

def targetsRequest (manifest : Manifest) (afterOrdinal : Option Nat) : Json :=
  object (manifestRequest manifest afterOrdinal ++ [("limit", some (.ofNat targetPageSize))])

/-- One page of targets, and whether it was the last one. -/
def readTargets (manifest : Manifest) (state : TargetState) : Workflow (TargetState × Bool) := do
  let page ← callHost .distributionTargetsRead (targetsRequest manifest state.afterOrdinal)
  let changed := WorkflowError.error "Distribution target page changed during preparation."
  let manifestId ← lift (readMember (some page) "manifest_id")
  let member := optionalMember (some page)
  failIf (manifestId.isText manifest.manifestId = false
    ∨ (member "expected_count").isNumber manifest.expectedCount = false) changed
  let items ← lift (okOr ((member "items").asArray.filter fun items => items.length ≤ targetPageSize) changed)
  let ordinal ← lift (checkTargets state.afterOrdinal items)
  let observed := state.observed + items.length
  let next := member "next_ordinal"
  if next.isNullish then do
    failIf (observed ≠ manifest.expectedCount) (.error "Distribution target denominator is incomplete.")
    pure ({ state with observed }, true)
  else do
    failIf (items = [] ∨ ¬ ∃ last ∈ ordinal, next.isNumber last = true ∧ ∀ after ∈ state.afterOrdinal, after < last)
      (.error "Distribution target cursor made no progress.")
    pure ({ afterOrdinal := ordinal, observed }, false)

/-- So many pages of targets, up to the last one. -/
def readTargetPages (manifest : Manifest) : Nat → TargetState → Workflow (TargetState × Bool)
  | 0, state => pure (state, false)
  | pages + 1, state => do
    let next ← readTargets manifest state
    if next.2 then pure next else readTargetPages manifest pages next.1

/-- One resume rechecks four pages of targets; all of them are read before the next one. -/
def recheckPass (execution handoff : Json) (state : Manifest × TargetState) :
    Workflow ((Manifest × TargetState) ⊕ (Manifest × TargetState)) := do
  stopIfCancelled (.error "Distribution preparation cancelled.")
  let reply ← callHost .distributionResume (object (manifestRequest state.1 state.2.afterOrdinal))
  let manifest ← lift (validateDistribution reply execution handoff (some state.1))
  let targets ← readTargetPages manifest 4 state.2
  pure (if targets.2 then .inr (manifest, targets.1) else .inl (manifest, targets.1))

/-- What is told of a distribution that is prepared. -/
def preparedData (execution handoff : Json) (manifest : Manifest) (observed : Nat) : Json :=
  let origin := optionalMember (some execution) "origin"
  object
    [("execution_id", optionalMember (some execution) "execution_id"), ("cycle_id", origin.optionalMember "cycle_id"),
      ("handoff_id", optionalMember (some handoff) "handoff_id"),
      ("manifest_id", some (.string manifest.manifestId)), ("targets", some (.ofNat observed))]

def prepareDistribution (fuel : Nat) (execution handoff : Json) : Workflow Unit := do
  let cycleId := (optionalMember (some execution) "origin").optionalMember "cycle_id"
  let reply ← callHost .distributionStart (object [("cycle_id", cycleId)])
  let manifest ← lift (validateDistribution reply execution handoff none)
  let manifest ← Script.loop (expandPass execution handoff) fuel manifest
  failIf (manifest.expansionCursor ≠ manifest.expectedCount)
    (.error "Distribution expansion did not cover its frozen denominator.")
  let rechecked ← Script.loop (recheckPass execution handoff) fuel (manifest, { afterOrdinal := none, observed := 0 })
  emit "distribution.prepared" (preparedData execution handoff rechecked.1 rechecked.2.observed)

/-! ### Items -/

/-- `/^[0-9a-f]{8}-[0-9a-f-]{27,}$/iu`. -/
def isExecutionReference (text : String) : Bool :=
  let chars := text.toList
  let rest := chars.drop 9
  (chars.take 8).all Text.isAsciiHexdigit && chars[8]? = some '-' && 27 ≤ rest.length
    && rest.all fun c => Text.isAsciiHexdigit c || c = '-'

/-- Whether an execution has an origin: a request, or a cycle with its identifier. -/
def hasOrigin (execution : Json) : Bool :=
  let origin := optionalMember (some execution) "origin"
  let kind := origin.optionalMember "kind"
  kind.isText "on_demand"
    || (kind.isText "cycle" && (origin.optionalMember "cycle_id").asString.isSome)

/-- The context of a page, with the request of an execution on demand. What is no object has no members
that a branch reads. -/
def branchContext (execution page : Json) : Json :=
  let origin := optionalMember (some execution) "origin"
  let fields :=
    match optionalMember (some page) "context" with
    | some (.object fields) => fields.map fun field => (field.1, some field.2)
    | _ => []
  if (origin.optionalMember "kind").isText "on_demand" then
    object ((fields.filter fun field => field.1 ≠ "on_demand_request")
      ++ [("on_demand_request", origin.optionalMember "request")])
  else object fields

/-- Where a page stands: the identifiers seen on it, and the counts of the invocation. -/
structure PageState where
  pageIds : List String
  (observed failed : Nat)

/-- A group adds its identifiers to those of the page. -/
def checkGroup (pageIds : List String) : List Json → Except WorkflowError (List String)
  | [] => .ok pageIds
  | item :: rest => do
    let invalid := WorkflowError.error "The content manifest returned an invalid or repeated item."
    let itemId ← readMember (some item) "item_id"
    let itemId ← okOr itemId.asString invalid
    let _ ← okOr (optionalMember (some item) "branch_key").asString invalid
    Except.failIf (itemId ∈ pageIds) invalid
    checkGroup (pageIds ++ [itemId]) rest

/-- Whether an item has a branch: an item that is done is taken as it is. -/
def hasBranch (item : Json) : Bool :=
  !isTerminal (optionalMember (some item) "status")

/-- The branches of a group run together; how many of them failed. -/
def runBranches (context : Json) (items : List Json) : Workflow Nat := do
  let reply : Except WorkflowError (Fin items.length → String) ← ask (.branches items context)
  let results ← lift reply
  pure ((List.ofFn results).count "failed")

def processGroup (context : Json) (group : List Json) (state : PageState) : Workflow PageState := do
  let pageIds ← lift (checkGroup state.pageIds group)
  let branches := group.filter hasBranch
  let failures ← (if branches = [] then pure 0 else runBranches context branches)
  pure { pageIds, observed := state.observed + group.length, failed := state.failed + failures }

def processGroups (context : Json) : List (List Json) → PageState → Workflow PageState
  | [], state => pure state
  | group :: rest, state => do
    let next ← processGroup context group state
    processGroups context rest next

/-- The items of a page in groups of four. -/
def pageGroups : List Json → List (List Json)
  | [] => []
  | a :: b :: c :: d :: rest => [a, b, c, d] :: pageGroups rest
  | rest => [rest]

/-- Where the pages of items stand. -/
structure ItemsState where
  (cursor total : JsValue)
  (observed failed : Nat)

def itemsRequest (executionId : String) (cursor : JsValue) : Json :=
  object
    [("execution_id", some (.string executionId)), ("cursor", if cursor.truthy then cursor else none),
      ("limit", some (.ofNat pageSize))]

/-- The items of a page that belongs to the execution and keeps the total. -/
def checkPage (executionId : String) (state : ItemsState) (page : Json) : Except WorkflowError (List Json) := do
  let changed := WorkflowError.error "The content manifest page changed during execution."
  let pageExecution ← readMember (some page) "execution_id"
  Except.failIf (pageExecution.isText executionId = false) changed
  let member := optionalMember (some page)
  let items ← okOr ((member "items").asArray.filter fun items => items.length ≤ pageSize) changed
  Except.failIf (state.total ≠ none ∧ state.total.strictEq (member "total") = false) changed
  pure items

/-- `page.next_cursor ?? undefined`. -/
def nextCursor (page : Json) : JsValue :=
  let next := optionalMember (some page) "next_cursor"
  if next.isNullish then none else next

/-- What comes after a page: another one, or the end. -/
def afterPage (state : ItemsState) (page : Json) (items : List Json) (seen : PageState) :
    Except WorkflowError (ItemsState ⊕ ItemsState) := do
  let member := optionalMember (some page)
  let next := member "next_cursor"
  Except.failIf (next.strictEq state.cursor = true ∨ (next.truthy = true ∧ items = []))
    (.error "The content manifest cursor made no progress.")
  let after : ItemsState :=
    { cursor := nextCursor page, total := member "total", observed := seen.observed, failed := seen.failed }
  pure (if after.cursor.truthy then .inl after else .inr after)

/-- One page of items; the identifiers seen on a page are forgotten with it. -/
def itemsPass (execution : Json) (executionId : String) (state : ItemsState) : Workflow (ItemsState ⊕ ItemsState) := do
  stopIfCancelled (.error "Content workflow cancelled.")
  let page ← callHost .itemsRead (itemsRequest executionId state.cursor)
  let items ← lift (checkPage executionId state page)
  let seen ← processGroups (branchContext execution page) (pageGroups items)
    { pageIds := [], observed := state.observed, failed := state.failed }
  lift (afterPage state page items seen)

/-- An execution is closed once as many items were seen as its total says. -/
def closeExecution (executionId : String) (state : ItemsState) : Workflow Json := do
  failIf (state.total.isNumber state.observed = false)
    (.error "The content manifest denominator changed during execution.")
  let handoff ← callHost .close (object [("execution_id", some (.string executionId))])
  let handoffExecution ← lift (readMember (some handoff) "execution_id")
  let member := optionalMember (some handoff)
  failIf (handoffExecution.isText executionId = false ∨ (member "total").strictEq state.total = false)
    (.error "Content handoff did not match its frozen denominator.")
  emit "content.completed" (object
    [("execution_id", some (.string executionId)), ("handoff_id", member "handoff_id"),
      ("total", state.total), ("failed_steps", some (.ofNat state.failed))])
  pure handoff

/-- `ctx.finish(text)`. -/
def finish (text : String) : Workflow Unit := do
  let reply ← ask (.finish text)
  settled reply

def contentWorkflow (fuel : Nat) (message : JsValue) : Workflow Unit := do
  let executionId ← lift (okOr (message.asString.filter fun text => isExecutionReference text)
    (.error "Content workflow requires an execution reference."))
  let execution ← callHost .executionRead (object [("execution_id", some (.string executionId))])
  let id ← lift (readMember (some execution) "execution_id")
  failIf (id.isText executionId = false ∨ hasOrigin execution = false)
    (.error "Content execution has no immutable origin binding.")
  let state ← Script.loop (itemsPass execution executionId) fuel
    { cursor := none, total := none, observed := 0, failed := 0 }
  let handoff ← closeExecution executionId state
  let kind := (optionalMember (some execution) "origin").optionalMember "kind"
  if kind.isText "cycle" then do
    prepareDistribution fuel execution handoff
    finish ("Content execution " ++ executionId ++ " and distribution preparation completed.")
  else finish ("Content execution " ++ executionId ++ " completed.")

end ContentWorkflow

end GeoMaster
