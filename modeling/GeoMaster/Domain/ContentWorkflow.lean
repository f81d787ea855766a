import GeoMaster.Domain.ContentEvidence

/-!
# The content workflow

One item goes through preparation, generation, and checks with repairs, every step of it claimed from the
backend before a model is asked and settled afterwards. One invocation goes through the pages of all
items, closes the execution, and prepares its distribution. A loop runs as long as it is given fuel.
-/

namespace GeoMaster

open JsValue

namespace ContentWorkflow

open Script (failIf lift recover)

/-- The statuses in which an item is done. -/
def terminalStatuses : List String :=
  ["ready", "blocked", "deferred", "not_applicable", "cancelled"]

/-- `TERMINAL.has(status)`. -/
def isTerminal (status : JsValue) : Bool :=
  terminalStatuses.any status.isText

/-! ### Claimed steps -/

def generationPrompt (claim : Json) : Except WorkflowError Json := do
  let descriptor ← readMember (some claim) "descriptor"
  let member := readMember descriptor
  let briefTitle ← member "brief_title"
  let briefObjective ← member "brief_objective"
  let documentKey ← member "document_key"
  let contentType ← member "content_type"
  let productId ← member "product_id"
  let market ← member "market"
  let language ← member "language"
  let brandName ← member "brand_name"
  let productName ← member "product_name"
  let targetAudience ← member "target_audience"
  let objective ← member "objective"
  let questionClusters ← member "question_clusters"
  let entries ← member "evidence"
  let evidence ← quotedEvidence entries
  pure (object
    [("brief", some (object [("title", briefTitle), ("objective", briefObjective)])),
      ("document", some (object
        [("key", documentKey), ("content_type", contentType), ("product_id", productId), ("market", market),
          ("language", language), ("brand_name", brandName), ("product_name", productName),
          ("target_audience", targetAudience), ("objective", objective), ("question_clusters", questionClusters)])),
      ("evidence", some (.array evidence))])

/-- The document of the revision a claim is about. -/
def claimedDocument (claim : Json) : Except WorkflowError JsValue := do
  let revision ← readMember (some claim) "revision"
  readMember revision "document"

def checkPrompt (claim : Json) : Except WorkflowError Json := do
  let titleCheckId ← readMember (some claim) "title_check_id"
  let document ← claimedDocument claim
  let sections ← readMember (some claim) "check_sections"
  let quotes ← readMember (some claim) "quotes"
  let evidence ← quotedEvidence quotes
  pure (object
    [("title_check_id", titleCheckId), ("document", document), ("check_sections", sections),
      ("evidence", some (.array evidence))])

def repairPrompt (claim : Json) : Except WorkflowError Json := do
  let document ← claimedDocument claim
  let findings ← readMember (some claim) "blocking_findings"
  let quotes ← readMember (some claim) "quotes"
  let evidence ← quotedEvidence quotes
  let sections ← readMember (some claim) "check_sections"
  pure (object
    [("previous_document", document), ("blocking_findings", findings),
      ("evidence", some (.array evidence)), ("exact_quotes", quotes), ("check_sections", sections)])

/-- The members of a request about an item. -/
abbrev ItemRequest : Type :=
  List (String × JsValue)

variable (request : ItemRequest)

/-- `{...request, token, outcome}`. -/
def finishInput (token : JsValue) (outcome : Json) : Json :=
  object (request ++ [("token", token), ("outcome", some outcome)])

/-- An outcome that has no text. -/
def outcomeStatus (status : String) : Json :=
  object [("status", some (.string status))]

/-- What a completion comes to. The completion is read without a check that it is an object. -/
def completionOutcome (completion : Json) : Except WorkflowError Json := do
  let toolCalls ← readMember (some completion) "tool_calls"
  let text := optionalMember (some completion) "text"
  match (toolCalls.optionalMember "length").truthy, text.asString with
  | false, some text => pure (object [("status", some (.string "completed")), ("text", some (.string text))])
  | _, _ => pure (outcomeStatus "invalid")

/-- A step of an item: claim it, ask the model, and settle the claim. A model that fails settles it too. -/
def claimedStep (kind : StepKind) (prompt : Json → Except WorkflowError Json) (cancelled : String)
    (request : ItemRequest) : Workflow JsValue := do
  let claim ← callHost (.stepBegin kind) (object request)
  let state ← lift (readMember (some claim) "state")
  if state.isText "current" then lift (readMember (some claim) "item")
  else do
    let token ← lift (readMember (some claim) "token")
    let answer : Workflow Json := do
      stopIfCancelled (.error cancelled)
      let prompt ← lift (prompt claim)
      let completion ← modelComplete (.step kind) prompt 4096
      stopIfCancelled (.error cancelled)
      pure completion
    let completion ← recover answer fun error => do
      let _ ← callHost (.stepFinish kind) (finishInput request token (outcomeStatus "unavailable"))
      Script.throw error
    let outcome ← lift (completionOutcome completion)
    let item ← callHost (.stepFinish kind) (finishInput request token outcome)
    pure (some item)

def generateContent : Workflow JsValue :=
  claimedStep .generate generationPrompt "Content generation cancelled." request

def checkContent : Workflow JsValue :=
  claimedStep .check checkPrompt "Content check cancelled." request

def repairContent : Workflow JsValue :=
  claimedStep .repair repairPrompt "Content repair cancelled." request

/-! ### One item -/

/-- An error of the evidence is reported as it is, any other without its text. -/
def evidenceError (error : WorkflowError) : Workflow Json :=
  match error with
  | .preparation _ _ => Script.throw error
  | _ => do
    let cancelled : Bool ← ask .isCancelled
    Script.throw (.preparation "evidence_preparation" (if cancelled then "cancelled" else "unknown"))

/-- A pending item is prepared with its evidence. -/
def prepareItem [JsonText] (fuel : Nat) (item context : Json) (executionId : String)
    (request : ItemRequest) : Workflow JsValue := do
  let reading : Workflow Json := do
    let evidence ← readEvidence fuel item context executionId
    stopIfCancelled (.preparation "evidence_preparation" "cancelled")
    pure evidence
  let evidence ← recover reading evidenceError
  let preparing : Workflow Json := callHost .prepare (object (request ++ [("evidence", some evidence)]))
  let prepared ← recover preparing fun error => Script.throw (preparationHostError "prepare" error)
  pure (some prepared)

/-- Where the checks and repairs of an item stand. -/
structure BranchState where
  current : JsValue
  (checks repairs : Nat)

/-- A check that leaves the item a draft, or changes how often it was repaired, is an error. -/
def checkDraft (state : BranchState) (previousCount : Nat) : Workflow BranchState := do
  failIf (state.checks ≥ 3) (.error "The content branch exhausted its check budget.")
  let current ← checkContent request
  let status ← lift (readMember current "status")
  let count := current.optionalMember "automatic_repair_count"
  failIf (status.isText "drafted" = true ∨ count.isNumber previousCount = false)
    (.error "The content check made no durable progress.")
  pure { state with current, checks := state.checks + 1 }

/-- A repair that does not leave a new draft is an error. -/
def repairDraft (state : BranchState) (previousCount : Nat) : Workflow BranchState := do
  failIf (state.repairs ≥ 2 ∨ previousCount ≥ 2) (.error "The content branch exhausted its repair budget.")
  let current ← repairContent request
  let count ← lift (readMember current "automatic_repair_count")
  let status := current.optionalMember "status"
  failIf (count.isNumber (previousCount + 1) = false ∨ status.isText "drafted" = false)
    (.error "The repair did not persist a new draft.")
  pure { state with current, repairs := state.repairs + 1 }

/-- One pass of the branch: a draft is checked, a draft that needs it is repaired, and anything else
leaves the loop. -/
def branchPass (state : BranchState) : Workflow (BranchState ⊕ JsValue) := do
  let status ← lift (readMember state.current "status")
  if status.isText "drafted" = false ∧ status.isText "needs_repair" = false then
    pure (.inr state.current)
  else do
    let count := (state.current.optionalMember "automatic_repair_count").safeInteger
    let count ← lift (Except.okOr (count.filter (· ≤ 2)) (.error "The durable repair count is invalid."))
    let next ← (if status.isText "drafted" then checkDraft request state count
      else repairDraft request state count)
    pure (.inl next)

/-- What `ctx.emit` is told about a branch. -/
def branchData (status : String) (item : Json) (result : JsValue) : Json :=
  let member := optionalMember (some item)
  object
    [("type", some (.string "thinking")),
      ("data", some (object
        [("status", some (.string status)), ("itemId", member "item_id"),
          ("branchKey", member "branch_key"), ("result", result)]))]

/-- The steps of an item, to the status it ends in. -/
def runBranch [JsonText] (fuel : Nat) (item context : Json) (executionId : String)
    (request : ItemRequest) : Workflow String := do
  let status ← lift (readMember (some item) "status")
  let current ← (if status.isText "pending" then prepareItem fuel item context executionId request
    else pure (some item))
  let status ← lift (readMember current "status")
  let current ← (if status.isText "prepared" then generateContent request else pure current)
  let current ← Script.loop (branchPass request) fuel { current, checks := 0, repairs := 0 }
  let status ← lift (readMember current "status")
  let result ← lift (Except.okOr (status.asString.filter (· ∈ terminalStatuses))
    (.error "The content branch returned an unsupported state."))
  thinking (branchData "content-branch-completed" item (some (.string result)))
  pure result

/-- The first preparation error of an invocation is reported. -/
def reportPreparation (stage reason : String) : Workflow Unit := do
  let first : Bool ← ask .takeDiagnostic
  if first then
    emit "content.preparation_failed" (object [("stage", some (.string stage)), ("reason", some (.string reason))])
  else pure ()

/-- An error ends its branch only. -/
def failBranch (item : Json) (error : WorkflowError) : Workflow String := do
  let report : Workflow Unit :=
    match error with
    | .preparation stage reason => reportPreparation stage reason
    | _ => pure ()
  report
  thinking (branchData "content-branch-failed" item none)
  pure "failed"

def processItem [JsonText] (fuel : Nat) (item context : Json) (executionId : String) : Workflow String := do
  let itemId ← lift (readMember (some item) "item_id")
  let request : ItemRequest := [("execution_id", some (.string executionId)), ("item_id", itemId)]
  recover (runBranch fuel item context executionId request) (failBranch item)

end ContentWorkflow

end GeoMaster
