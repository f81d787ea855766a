import Mathlib.Data.String.Basic
import GeoMaster.Domain.ChannelJobs
import GeoMaster.Domain.Distribution

/-!
# The inputs of a report

What a report is reduced from: the references of the frozen manifests, the documents, and the targets of the two
outcome branches with their evidence. Reordering the lists does not change the input, so each of them is sorted
before anything is hashed or counted.
-/

namespace GeoMaster

open Json

inductive ObservationAnalysisSource where
  | capture (captureId : Uuid)
  | attemptEvidence (evidenceIndex : Nat)
  deriving DecidableEq

/-- Interpretation provenance is supplementary evidence, never a live receipt. -/
structure SavedAnalysisProvenance where
  revisionId : Uuid
  source : ObservationAnalysisSource
  sourceSha256 : String
  (observedAt analyzedAt : DateTime)
  actualModel : String
  configRevision : Option Int
  (promptVersion parserVersion : String)
  deriving DecidableEq

structure EffectiveObservation where
  rawAnswer : String
  citations : List String
  (observedAt receivedAt : DateTime)
  provenance : Option SavedAnalysisProvenance
  deriving DecidableEq

/-- Independently interpreted saved evidence. Never part of frozen coverage. -/
structure ReportSupplementaryMeasurement where
  (targetId attemptId : Uuid)
  planId : Option Uuid
  comparisonKey : String
  questionBinding : Option FrozenQuestionBinding
  observation : EffectiveObservation
  deriving DecidableEq

structure ReportReduceInput where
  projectId : ProjectId
  cycleId : Uuid
  (reportWindowStartAt reportWindowEndAt : DateTime)
  reportTimezone : String
  cutoffAt : DateTime
  inputTemporalProvenanceVerified : Bool
  inputManifestVersions : List ReportManifestRef
  documentManifest : Option DocumentManifest
  publicationTargets : Option (List ReportPublicationTarget)
  measurementTargets : Option (List ReportMeasurementTarget)
  supplementaryMeasurements : List ReportSupplementaryMeasurement

/-! ### JSON -/

def ReportManifestKind.text : ReportManifestKind → String
  | .document => "document"
  | .distribution => "distribution"
  | .measurement => "measurement"

def ReportPublicationStatus.text : ReportPublicationStatus → String
  | .planned => "planned"
  | .published => "published"
  | .verified => "verified"
  | .unknown => "unknown"
  | .failed => "failed"
  | .blocked => "blocked"
  | .deferred => "deferred"
  | .notApplicable => "not_applicable"
  | .cancelled => "cancelled"

def ReportMeasurementStatus.text : ReportMeasurementStatus → String
  | .observed => "observed"
  | .notMentioned => "not_mentioned"
  | .refused => "refused"
  | .missing => "missing"
  | .pending => "pending"

def ReportManifestRef.json (reference : ReportManifestRef) : Json :=
  .object
    [("kind", .string reference.kind.text), ("manifest_id", reference.manifestId.json),
      ("revision", .ofInt reference.revision), ("sealed", .bool reference.sealed),
      ("expected_count", nullable .ofNat reference.expectedCount)]

def FrozenQuestionBinding.json (binding : FrozenQuestionBinding) : Json :=
  .object
    [("reference",
        .object
          [("question_set_id", binding.reference.questionSetId.json),
            ("question_set_version_id", binding.reference.questionSetVersionId.json),
            ("question_id", binding.reference.questionId.json),
            ("question_revision_id", binding.reference.questionRevisionId.json)]),
      ("purpose", .string binding.purpose.text),
      ("split_policy_version", .string binding.splitPolicyVersion)]

def ObservationAnalysisSource.json : ObservationAnalysisSource → Json
  | .capture captureId => .object [("kind", .string "capture"), ("capture_id", captureId.json)]
  | .attemptEvidence evidenceIndex =>
    .object [("kind", .string "attempt_evidence"), ("evidence_index", .ofNat evidenceIndex)]

section

variable [InstantJson]

/-- An instant as `chrono` serializes it. -/
def DateTime.json (t : DateTime) : Json :=
  .string (InstantJson.text t)

def ReportEvidenceReference.json (reference : ReportEvidenceReference) : Json :=
  .object
    [("evidence_id", reference.evidenceId.json), ("kind", .string reference.kind),
      ("resource_id", reference.resourceId.json),
      ("resource_version", nullable .string reference.resourceVersion),
      ("occurred_at", nullable DateTime.json reference.occurredAt),
      ("received_at", nullable DateTime.json reference.receivedAt), ("summary", .string reference.summary)]

def ReportPublicationTarget.json (target : ReportPublicationTarget) : Json :=
  .object
    [("target_id", target.targetId.json), ("platform_id", .string target.platformId),
      ("status", .string target.status.text), ("reason", nullable .string target.reason),
      ("evidence", .array (target.evidence.map ReportEvidenceReference.json))]

def ReportMeasurementTarget.json (target : ReportMeasurementTarget) : Json :=
  .object
    ([("target_id", target.targetId.json), ("comparison_key", .string target.comparisonKey)]
      ++ Json.optionalField "question_binding" (target.questionBinding.map FrozenQuestionBinding.json)
      ++ [("scheduled_at", DateTime.json target.scheduledAt), ("status", .string target.status.text),
        ("missing_reason", nullable .string target.missingReason),
        ("evidence", .array (target.evidence.map ReportEvidenceReference.json))])

def SavedAnalysisProvenance.json (provenance : SavedAnalysisProvenance) : Json :=
  .object
    [("revision_id", provenance.revisionId.json), ("source", provenance.source.json),
      ("source_sha256", .string provenance.sourceSha256), ("observed_at", DateTime.json provenance.observedAt),
      ("analyzed_at", DateTime.json provenance.analyzedAt), ("actual_model", .string provenance.actualModel),
      ("config_revision", nullable .ofInt provenance.configRevision),
      ("prompt_version", .string provenance.promptVersion), ("parser_version", .string provenance.parserVersion)]

def EffectiveObservation.json (observation : EffectiveObservation) : Json :=
  .object
    [("raw_answer", .string observation.rawAnswer), ("citations", .array (observation.citations.map .string)),
      ("observed_at", DateTime.json observation.observedAt), ("received_at", DateTime.json observation.receivedAt),
      ("provenance", nullable SavedAnalysisProvenance.json observation.provenance)]

def ReportSupplementaryMeasurement.json (item : ReportSupplementaryMeasurement) : Json :=
  .object
    ([("target_id", item.targetId.json), ("attempt_id", item.attemptId.json)]
      ++ Json.optionalField "plan_id" (item.planId.map Uuid.json)
      ++ [("comparison_key", .string item.comparisonKey)]
      ++ Json.optionalField "question_binding" (item.questionBinding.map FrozenQuestionBinding.json)
      ++ [("observation", item.observation.json)])

def ReportReduceInput.json (input : ReportReduceInput) : Json :=
  .object
    ([("project_id", input.projectId.asUuid.json), ("cycle_id", input.cycleId.json),
        ("report_window_start_at", DateTime.json input.reportWindowStartAt),
        ("report_window_end_at", DateTime.json input.reportWindowEndAt),
        ("report_timezone", .string input.reportTimezone), ("cutoff_at", DateTime.json input.cutoffAt),
        ("input_temporal_provenance_verified", .bool input.inputTemporalProvenanceVerified),
        ("input_manifest_versions", .array (input.inputManifestVersions.map ReportManifestRef.json)),
        ("document_manifest", nullable DocumentManifest.json input.documentManifest),
        ("publication_targets",
          nullable (fun targets => .array (targets.map ReportPublicationTarget.json)) input.publicationTargets),
        ("measurement_targets",
          nullable (fun targets => .array (targets.map ReportMeasurementTarget.json)) input.measurementTargets)]
      ++ Json.optionalField "supplementary_measurements" (if input.supplementaryMeasurements = [] then none
        else
          some (.array (input.supplementaryMeasurements.map ReportSupplementaryMeasurement.json))))

end

/-! ### The canonical order -/

def ReportManifestKind.rank : ReportManifestKind → Nat
  | .document => 0
  | .distribution => 1
  | .measurement => 2

/-- The keys the lists are sorted by, compared part by part. A UUID counts as its value, and a missing one
comes first. -/
def ReportManifestRef.sortKey (reference : ReportManifestRef) : List Int :=
  [reference.kind.rank, reference.manifestId.bits.toNat, reference.revision]

def ReportSupplementaryMeasurement.sortKey (item : ReportSupplementaryMeasurement) : List Int :=
  [item.targetId.bits.toNat, item.attemptId.bits.toNat,
    (item.observation.provenance.map fun source => (source.revisionId.bits.toNat : Int)).getD (-1)]

/-- `sort_by_key`, which is stable. -/
def sortByKey {α κ : Type} [LE κ] [DecidableLE κ] (key : α → κ) (l : List α) : List α :=
  l.insertionSort fun a b => key a ≤ key b

def DocumentManifest.canonical (manifest : DocumentManifest) : DocumentManifest :=
  { manifest with items := sortByKey DocumentManifestItem.documentManifestItemId manifest.items }

def sortEvidence (evidence : List ReportEvidenceReference) : List ReportEvidenceReference :=
  sortByKey ReportEvidenceReference.evidenceId evidence

def ReportPublicationTarget.canonical (target : ReportPublicationTarget) : ReportPublicationTarget :=
  { target with evidence := sortEvidence target.evidence }

def ReportMeasurementTarget.canonical (target : ReportMeasurementTarget) : ReportMeasurementTarget :=
  { target with evidence := sortEvidence target.evidence }

def ReportReduceInput.canonical (input : ReportReduceInput) : ReportReduceInput :=
  { input with
    inputManifestVersions := sortByKey ReportManifestRef.sortKey input.inputManifestVersions
    documentManifest := input.documentManifest.map DocumentManifest.canonical
    publicationTargets := input.publicationTargets.map fun targets =>
      (sortByKey ReportPublicationTarget.targetId targets).map ReportPublicationTarget.canonical
    measurementTargets := input.measurementTargets.map fun targets =>
      (sortByKey ReportMeasurementTarget.targetId targets).map ReportMeasurementTarget.canonical
    supplementaryMeasurements := sortByKey ReportSupplementaryMeasurement.sortKey input.supplementaryMeasurements }

end GeoMaster
