import GeoMaster.Domain.CalendarWeeks
import GeoMaster.Domain.SerpObservations
import GeoMaster.Lib.Selection

/-!
# Search samples of a report

For each measurement of a period the report takes one of its stored observations: of those whose provenance holds and
that were there at the cutoff, the newest one that says something, or else the newest one. A section of samples is
checked again as a whole when the report is put together.
-/

namespace GeoMaster

open Except

namespace SearchReport

def invalid : AppError :=
  .invalidRequest "invalid search report sample"

end SearchReport

/-! ### Cohorts -/

structure MeasurementPeriodSearchIdentity where
  measurementId : Uuid
  sourceKey : String
  /-- Exact query bytes, duplicated for presentation and validated against protocol. -/
  query : String
  protocol : SerpProtocol
  target : Option SerpTarget
  targetRuleVersion : String
  questionBinding : Option FrozenQuestionBinding
  (scheduledAt createdAt storedAt : DateTime)
  deriving DecidableEq

namespace MeasurementPeriodSearchIdentity

/-- Validation and target matching only. -/
def measurement (identity : MeasurementPeriodSearchIdentity) : SerpMeasurement where
  measurementId := identity.measurementId
  sourceKey := identity.sourceKey
  protocol := identity.protocol
  target := identity.target
  targetRuleVersion := identity.targetRuleVersion
  questionBinding := identity.questionBinding
  scheduledAt := identity.scheduledAt
  createdAt := identity.createdAt
  state := .queued

def validate [UrlWriter] (identity : MeasurementPeriodSearchIdentity) (window : MeasurementPeriodWindow)
    (cutoff : DateTime) : Except AppError Unit := do
  identity.protocol.validate
  identity.measurement.checkTarget
  failIf
    (identity.measurementId.isNil ∨ ¬ Serp.label identity.sourceKey 128 ∨ identity.query ≠ identity.protocol.query
      ∨ identity.targetRuleVersion ≠ serpTargetRuleVersion
      ∨ identity.scheduledAt < window.startAt
      ∨ identity.scheduledAt ≥ window.endAt
      ∨ identity.createdAt > cutoff
      ∨ identity.storedAt > cutoff
      ∨ ∃ binding ∈ identity.questionBinding,
        binding.reference.questionSetId.isNil ∨ binding.reference.questionSetVersionId.isNil
          ∨ binding.reference.questionId.isNil ∨ binding.reference.questionRevisionId.isNil ∨ ¬ Serp.label
          binding.splitPolicyVersion 128)
    SearchReport.invalid

end MeasurementPeriodSearchIdentity

/-! ### Evidence -/

inductive SerpEvidenceOperation where
  | submission
  | resultRead
  | recoveryRead
  deriving DecidableEq

/-- Narrow immutable provenance. -/
structure SerpReportRawMetadata where
  (evidenceId measurementId attemptId : Uuid)
  operation : SerpEvidenceOperation
  responseSha256 : String
  bodyComplete : Bool
  (capturedAt storedAt : DateTime)
  deriving DecidableEq

structure SerpReportObservation where
  observation : SerpObservation
  observationStoredAt : DateTime
  raw : SerpReportRawMetadata
  deriving DecidableEq

inductive SearchEvidenceTimeBasis where
  | providerObservedAt
  | receivedAt
  deriving DecidableEq

structure MeasurementPeriodSearchEvidence where
  observation : SerpObservation
  (rawStoredAt observationStoredAt evidenceTime : DateTime)
  evidenceTimeBasis : SearchEvidenceTimeBasis
  targetMatch : SerpTargetMatch
  deriving DecidableEq

structure MeasurementPeriodSearchSample where
  cohort : MeasurementPeriodSearchIdentity
  evidence : Option MeasurementPeriodSearchEvidence
  deriving DecidableEq

namespace SerpObservation

/-- The time the provider reports, or else the time of receipt. -/
def evidenceTime (observation : SerpObservation) : DateTime :=
  observation.providerObservedAt.getD observation.receivedAt

def evidenceTimeBasis (observation : SerpObservation) : SearchEvidenceTimeBasis :=
  if observation.providerObservedAt.isSome then .providerObservedAt else .receivedAt

/-- The observation says something about the results. -/
def isUseful (observation : SerpObservation) : Bool :=
  observation.status = .observed || observation.status = .isPartial

end SerpObservation

namespace SerpReportObservation

/-- The raw response is the one the observation was read from. -/
def isBound (candidate : SerpReportObservation) : Bool :=
  candidate.raw.evidenceId = candidate.observation.rawEvidenceId ∧ candidate.raw.measurementId
    = candidate.observation.measurementId ∧ candidate.raw.attemptId = candidate.observation.attemptId
    ∧ candidate.raw.responseSha256 = candidate.observation.rawSha256 ∧ candidate.raw.capturedAt
    = candidate.observation.receivedAt

/-- All that happened to a candidate happened by the cutoff. -/
def isTimely (candidate : SerpReportObservation) (cutoff : DateTime) : Bool :=
  candidate.raw.capturedAt ≤ cutoff ∧ candidate.raw.storedAt ≤ cutoff ∧ candidate.observation.receivedAt ≤ cutoff
    ∧ candidate.observation.analyzedAt ≤ cutoff
    ∧ (∀ observedAt ∈ candidate.observation.providerObservedAt, observedAt ≤ cutoff)
    ∧ candidate.observationStoredAt ≤ cutoff

/-- A response that is incomplete, or that only acknowledges the submission, observes no results. -/
def fitsOperation (candidate : SerpReportObservation) : Bool :=
  (candidate.raw.bodyComplete ∨ candidate.observation.status ≠ .observed)
    ∧ (candidate.raw.operation ≠ .submission
      ∨ (candidate.observation.status ≠ .observed ∧ candidate.observation.results = []))

/-- A candidate that may be taken for a measurement. -/
def isEligible [UrlWriter] (measurement : SerpMeasurement) (window : MeasurementPeriodWindow) (cutoff : DateTime)
    (candidate : SerpReportObservation) : Bool :=
  candidate.observation.validate measurement = .ok () ∧ candidate.isBound ∧ candidate.isTimely cutoff
    ∧ candidate.fitsOperation ∧ window.startAt ≤ candidate.observation.evidenceTime ∧ candidate.observation.evidenceTime
    < window.endAt

/-- Useful observations first, then newer ones. -/
def order (candidate : SerpReportObservation) : Bool ×ₗ ℤ ×ₗ ℕ :=
  toLex (candidate.observation.isUseful,
    toLex (candidate.observation.analyzedAt, candidate.observation.observationId.bits.toNat))

/-- The evidence of a candidate that is taken. -/
def evidence [UrlWriter] (measurement : SerpMeasurement) (candidate : SerpReportObservation) :
    Except AppError MeasurementPeriodSearchEvidence := do
  let targetMatch ← candidate.observation.targetMatch measurement
  pure
    { observation := candidate.observation
      rawStoredAt := candidate.raw.storedAt
      observationStoredAt := candidate.observationStoredAt
      evidenceTime := candidate.observation.evidenceTime
      evidenceTimeBasis := candidate.observation.evidenceTimeBasis
      targetMatch }

end SerpReportObservation

/-- The candidate that is taken. -/
def selectCandidate [UrlWriter] (cohort : MeasurementPeriodSearchIdentity) (candidates : List SerpReportObservation)
    (window : MeasurementPeriodWindow) (evidenceAsOf : DateTime) : Option SerpReportObservation :=
  Selection.maxByKey SerpReportObservation.order
    (candidates.filter (SerpReportObservation.isEligible cohort.measurement window evidenceAsOf))

def buildMeasurementPeriodSearchSample [UrlWriter] (cohort : MeasurementPeriodSearchIdentity)
    (candidates : List SerpReportObservation) (window : MeasurementPeriodWindow) (evidenceAsOf : DateTime) :
    Except AppError MeasurementPeriodSearchSample := do
  cohort.validate window evidenceAsOf
  match selectCandidate cohort candidates window evidenceAsOf with
  | none => pure { cohort, evidence := none }
  | some candidate => do
    let evidence ← candidate.evidence cohort.measurement
    pure { cohort, evidence := some evidence }

/-! ### Sections -/

inductive MeasurementPeriodSearchStatus where
  | noEligibleObservation
  | observed
  | isPartial
  | challenge
  | loginRequired
  | missing
  | failed
  | unsupported
  deriving DecidableEq

def SerpObservationStatus.ofSearch : SerpObservationStatus → MeasurementPeriodSearchStatus
  | .observed => .observed
  | .isPartial => .isPartial
  | .challenge => .challenge
  | .loginRequired => .loginRequired
  | .missing => .missing
  | .failed => .failed
  | .unsupported => .unsupported

structure MeasurementPeriodSearchCoverage where
  planned : Nat
  counts : AssocMap MeasurementPeriodSearchStatus Nat

structure MeasurementPeriodSearchSection where
  schemaVersion : String
  coverage : MeasurementPeriodSearchCoverage
  samples : List MeasurementPeriodSearchSample

def MeasurementPeriodSearchSample.status (sample : MeasurementPeriodSearchSample) : MeasurementPeriodSearchStatus :=
  match sample.evidence with
  | none => .noEligibleObservation
  | some evidence => evidence.observation.status.ofSearch

/-- The evidence of a sample, checked against its cohort. -/
def checkSampleEvidence [UrlWriter] (cohort : MeasurementPeriodSearchIdentity) (window : MeasurementPeriodWindow)
    (cutoff : DateTime) (evidence : MeasurementPeriodSearchEvidence) : Except AppError Unit := do
  let observation := evidence.observation
  observation.validate cohort.measurement
  failIf
    (evidence.evidenceTime ≠ observation.evidenceTime ∨ evidence.evidenceTimeBasis ≠ observation.evidenceTimeBasis
      ∨ observation.evidenceTime < window.startAt
      ∨ observation.evidenceTime ≥ window.endAt
      ∨ observation.receivedAt > cutoff
      ∨ observation.analyzedAt > cutoff
      ∨ (∃ observedAt ∈ observation.providerObservedAt, observedAt > cutoff)
      ∨ evidence.rawStoredAt > cutoff
      ∨ evidence.observationStoredAt > cutoff)
    SearchReport.invalid
  let targetMatch ← observation.targetMatch cohort.measurement
  failIf (evidence.targetMatch ≠ targetMatch) SearchReport.invalid

/-- The measurements gone through, and their outcomes. -/
structure SectionScan where
  seen : List Uuid
  coverage : MeasurementPeriodSearchCoverage

def SectionScan.empty : SectionScan where
  seen := []
  coverage := { planned := 0, counts := ∅ }

def checkSample [UrlWriter] (window : MeasurementPeriodWindow) (cutoff : DateTime) (scan : SectionScan)
    (sample : MeasurementPeriodSearchSample) : Except AppError SectionScan := do
  sample.cohort.validate window cutoff
  failIf (sample.cohort.measurementId ∈ scan.seen) SearchReport.invalid
  sample.evidence.forM (checkSampleEvidence sample.cohort window cutoff)
  pure
    { seen := sample.cohort.measurementId :: scan.seen
      coverage :=
        { planned := scan.coverage.planned + 1
          counts := scan.coverage.counts.insert sample.status
            ((scan.coverage.counts.lookup sample.status).getD 0 + 1) } }

def measurementPeriodSearchSection [UrlWriter] (samples : List MeasurementPeriodSearchSample)
    (window : MeasurementPeriodWindow) (cutoff : DateTime) : Except AppError MeasurementPeriodSearchSection := do
  let samples := samples.insertionSort fun a b => a.cohort.measurementId ≤ b.cohort.measurementId
  let scan ← samples.foldlM (checkSample window cutoff) .empty
  pure { schemaVersion := "geo.measurement_period.search.v1", coverage := scan.coverage, samples }

/-! ### Candidates -/

/-- The candidates read so far, by their measurement, and the cursor. -/
structure ObservationPages where
  cursor : Option Uuid
  observations : AssocMap Uuid (List SerpReportObservation)

def ObservationPages.empty : ObservationPages where
  cursor := none
  observations := ∅

/-- One candidate of a page: pages run through the observations in the order of their ids. -/
def takeCandidate (ids : List Uuid) (pages : ObservationPages) (candidate : SerpReportObservation) :
    Except AppError ObservationPages := do
  let id := candidate.observation.observationId
  let measurementId := candidate.observation.measurementId
  failIf ((∃ cursor ∈ pages.cursor, id ≤ cursor) ∨ measurementId ∉ ids)
    (.conflict "search report observation cursor or identity invalid")
  pure
    { cursor := some id
      observations := pages.observations.insert measurementId
        ((pages.observations.lookup measurementId).getD [] ++ [candidate]) }

/-- The candidates of all pages, which go to the sample of their measurement. -/
def collectObservations (ids : List Uuid) (pages : List (List SerpReportObservation)) :
    Except AppError ObservationPages :=
  pages.foldlM (fun state page => page.foldlM (takeCandidate ids) state) .empty

end GeoMaster
