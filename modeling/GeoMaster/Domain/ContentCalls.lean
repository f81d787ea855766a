import GeoMaster.Domain.JsValue
import GeoMaster.Lib.Op
import GeoMaster.Lib.Script

/-!
# What the content workflow calls

The content workflow is a script of the agent runtime. It reaches the backend through host operations,
a model through `modelComplete`, and its own loop through `ctx`; each call takes JSON and replies with
JSON or throws. The system texts of the model requests are left out: a request names its role instead.
-/

namespace GeoMaster

/-- What a call throws: its name and code, and its message where that is JSON. -/
structure HostError where
  name : String
  code : JsValue
  message : Option Json

/-- What the workflow throws. -/
inductive WorkflowError where
  | preparation (stage reason : String)
  | host (error : HostError)
  | typeError
  | error (message : String)

/-- The steps of an item that are claimed before and settled after a model answers. -/
inductive StepKind where
  | generate
  | check
  | repair
  deriving DecidableEq

/-- The host operations; `stepBegin .generate` is `op_host_content_generate_begin_v1`, and so on. -/
inductive HostOp where
  | itemsRead
  | sourceRead
  | prepare
  | stepBegin (kind : StepKind)
  | stepFinish (kind : StepKind)
  | close
  | executionRead
  | distributionStart
  | distributionResume
  | distributionTargetsRead

/-- What a model is asked to be. -/
inductive ModelRole where
  | evidenceSelector
  | step (kind : StepKind)

/-- A call. `takeDiagnostic` reads and sets the flag that the branches of one invocation share;
`branches` hands a group of items to their branches. -/
inductive WorkflowCall where
  | host (op : HostOp) (input : Json)
  | modelComplete (role : ModelRole) (prompt : Json) (maxOutputTokens : Nat)
  | emit (topic : String) (value : Json)
  | thinking (data : Json)
  | isCancelled
  | takeDiagnostic
  | branches (items : List Json) (context : Json)
  | finish (text : String)

/-- What a call may reply. A group is answered by one result for each of its items. -/
@[reducible] def WorkflowCall.Reply : WorkflowCall → Type
  | .host _ _ => Except HostError Json
  | .modelComplete _ _ _ => Except HostError Json
  | .emit _ _ => Except HostError Unit
  | .thinking _ => Except HostError Unit
  | .isCancelled => Bool
  | .takeDiagnostic => Bool
  | .branches items _ => Except WorkflowError (Fin items.length → String)
  | .finish _ => Except HostError Unit

abbrev Workflow (α : Type) : Type :=
  Script WorkflowCall WorkflowCall.Reply WorkflowError α

namespace ContentWorkflow

open Script (failIf lift recover)

/-- Make a call. -/
def ask (call : WorkflowCall) : Workflow call.Reply :=
  Script.ask call

/-- Wait for a call that may throw. -/
def settled {α : Type} : Except HostError α → Workflow α
  | .ok a => pure a
  | .error error => Script.throw (.host error)

def callHost (op : HostOp) (input : Json) : Workflow Json := do
  let reply ← ask (.host op input)
  settled reply

def modelComplete (role : ModelRole) (prompt : Json) (maxOutputTokens : Nat) : Workflow Json := do
  let reply ← ask (.modelComplete role prompt maxOutputTokens)
  settled reply

def emit (topic : String) (value : Json) : Workflow Unit := do
  let reply ← ask (.emit topic value)
  settled reply

def thinking (data : Json) : Workflow Unit := do
  let reply ← ask (.thinking data)
  settled reply

/-- `if (ctx.isCancelled()) throw`. -/
def stopIfCancelled (error : WorkflowError) : Workflow Unit := do
  let cancelled : Bool ← ask .isCancelled
  failIf (cancelled = true) error

/-- `value.key`. -/
def readMember (value : JsValue) (key : String) : Except WorkflowError JsValue :=
  Except.okOr (value.member key) .typeError

/-- Write an item of an array; an undefined item would be written as null. -/
def quotedEvidence (value : JsValue) : Except WorkflowError (List Json) := do
  let entries ← Except.okOr value.asArray .typeError
  entries.mapM fun entry => do
    let reference ← readMember (some entry) "reference"
    let sourceVersionId ← readMember reference "source_version_id"
    let chunkId ← readMember reference "chunk_id"
    let locator ← readMember reference "locator"
    let quote ← readMember (some entry) "exact_quote"
    pure (JsValue.object
      [("source_version_id", sourceVersionId), ("chunk_id", chunkId), ("locator", locator), ("quote", quote)])

/-- The codes a host operation may report. -/
def hostErrorCodes : List String :=
  ["invalid_request", "capability_missing", "denied", "not_found", "budget_exceeded", "deadline_exceeded",
    "cancelled", "failed", "unknown_result", "idempotency_conflict", "conflict", "internal"]

/-- An error met while content is prepared, reported by its code. -/
def preparationHostError (stage : String) (error : WorkflowError) : WorkflowError :=
  let code : JsValue :=
    match error with
    | .host error =>
      if error.name = "GeoHostOpError" then
        match error.message.bind fun message => JsValue.member (some message) "code" with
        | some code => code
        | none => error.code
      else error.code
    | _ => none
  match code.asString with
  | some code => .preparation stage (if code ∈ hostErrorCodes then code else "unknown")
  | none => .preparation stage "unknown"

end ContentWorkflow

end GeoMaster
