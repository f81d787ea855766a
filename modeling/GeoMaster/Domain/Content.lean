import GeoMaster.Domain.Knowledge
import GeoMaster.Domain.Publication

/-!
# Content executions

An execution turns the planned documents of a manifest into checked revisions. When every document has
reached a final status it is closed by a handoff, which names the revision of each ready document.
-/

namespace GeoMaster

structure ContentCreateDocument where
  (key contentType : String)
  (title instructions : Option String)

/-- Frozen user input for one project-scoped, manually requested content run. -/
structure ContentCreateRequest where
  requestId : Uuid
  topic : String
  sourceVersionIds : List Uuid
  documents : List ContentCreateDocument
  language : String
  (market audience : Option String)

inductive ContentExecutionOrigin where
  | cycle (cycleId : Uuid)
  | onDemand (request : ContentCreateRequest)

def ContentExecutionOrigin.cycleId : ContentExecutionOrigin → Option Uuid
  | .cycle cycleId => some cycleId
  | .onDemand _ => none

inductive ContentExecutionStatus where
  | running
  | closed
  | cancelled
  deriving DecidableEq

inductive ContentItemStatus where
  | pending
  | prepared
  | drafted
  | needsRepair
  | ready
  | blocked
  | deferred
  | notApplicable
  | cancelled
  deriving DecidableEq

structure ContentCoverage where
  (total ready blocked deferred notApplicable cancelled incomplete : Nat)
  deriving DecidableEq

structure ContentHandoffItem where
  itemId : Uuid
  documentKey : String
  status : ContentItemStatus
  reason : Option String
  revisionId : Option Uuid

structure ContentHandoff where
  (handoffId executionId : Uuid)
  revision : Int
  supersedesHandoffId : Option Uuid
  coverage : ContentCoverage
  items : List ContentHandoffItem
  createdAt : DateTime

structure ContentExecution where
  executionId : Uuid
  projectId : ProjectId
  origin : ContentExecutionOrigin
  manifestId : Uuid
  manifestRevision : Int
  (policyVersion inputHash : String)
  status : ContentExecutionStatus
  expectedCount : Nat
  coverage : ContentCoverage
  handoffId : Option Uuid

def ContentExecution.cycleId (execution : ContentExecution) : Option Uuid :=
  execution.origin.cycleId

end GeoMaster
