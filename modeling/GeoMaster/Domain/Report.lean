import GeoMaster.Domain.Base

/-!
# Questions and report rows

The question a measurement is bound to, and the rows a cycle contributes to a report.
-/

namespace GeoMaster

inductive QuestionPurpose where
  | optimization
  | frozenEvaluation
  deriving DecidableEq

structure QuestionReference where
  (questionSetId questionSetVersionId questionId questionRevisionId : Uuid)
  deriving DecidableEq

structure FrozenQuestionBinding where
  reference : QuestionReference
  purpose : QuestionPurpose
  splitPolicyVersion : String
  deriving DecidableEq

inductive ReportManifestKind where
  | document
  | distribution
  | measurement
  deriving DecidableEq

structure ReportManifestRef where
  kind : ReportManifestKind
  manifestId : Uuid
  revision : Int
  sealed : Bool
  expectedCount : Option Nat
  deriving DecidableEq

structure ReportEvidenceReference where
  evidenceId : Uuid
  kind : String
  resourceId : Uuid
  resourceVersion : Option String
  (occurredAt receivedAt : Option DateTime)
  summary : String
  deriving DecidableEq

inductive ReportPublicationStatus where
  | planned
  | published
  | verified
  | unknown
  | failed
  | blocked
  | deferred
  | notApplicable
  | cancelled
  deriving DecidableEq

structure ReportPublicationTarget where
  targetId : Uuid
  platformId : String
  status : ReportPublicationStatus
  reason : Option String
  evidence : List ReportEvidenceReference

inductive ReportMeasurementStatus where
  | observed
  | notMentioned
  | refused
  | missing
  | pending

structure ReportMeasurementTarget where
  targetId : Uuid
  comparisonKey : String
  questionBinding : Option FrozenQuestionBinding
  scheduledAt : DateTime
  status : ReportMeasurementStatus
  missingReason : Option String
  evidence : List ReportEvidenceReference

end GeoMaster
