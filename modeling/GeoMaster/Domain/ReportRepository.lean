import GeoMaster.Domain.ReportProjection
import GeoMaster.Lib.Calls

/-!
# The report repository

The snapshots of a project, oldest first. A snapshot is known by its identity: a second one with the same identity
is a replay, or a conflict where its inputs differ. A snapshot that corrects another has to follow it.
-/

namespace GeoMaster

/-- The operator, tenant and project the snapshots are kept under. -/
abbrev ReportOwner : Type :=
  Uuid × Uuid × Uuid

structure MemoryReportRepository where
  reports : AssocMap ReportOwner (List ReportSnapshot)

def reportOwner (scope : TenantScope) (projectId : ProjectId) : ReportOwner :=
  (scope.operatorId.asUuid, scope.tenantId.asUuid, projectId.asUuid)

/-- A report of the same window, cutoff and manifests whose revision is not below that of a snapshot. The cycle is
not compared. -/
def supersedes (snapshot report : ReportSnapshot) : Bool :=
  report.reportWindowStartAt = snapshot.reportWindowStartAt ∧ report.reportWindowEndAt = snapshot.reportWindowEndAt
    ∧ report.cutoffAt = snapshot.cutoffAt ∧ report.inputManifestVersions = snapshot.inputManifestVersions
    ∧ snapshot.revision ≤ report.revision

def validateCorrection (existing : List ReportSnapshot) (snapshot : ReportSnapshot) : Except AppError Unit :=
  if snapshot.revision = 1 ∧ snapshot.correctionOf.isNone then pure ()
  else do
    let previous ←
      Except.okOr (existing.find? fun report => some report.reportId = snapshot.correctionOf)
        (.conflict "correction parent was not found")
    Except.failIf
      (previous.revision + 1 ≠ snapshot.revision ∨ previous.cycleId ≠ snapshot.cycleId
        ∨ previous.reportWindowStartAt ≠ snapshot.reportWindowStartAt
        ∨ previous.reportWindowEndAt ≠ snapshot.reportWindowEndAt
        ∨ previous.cutoffAt ≠ snapshot.cutoffAt
        ∨ previous.projectId ≠ snapshot.projectId
        ∨ previous.inputManifestVersions ≠ snapshot.inputManifestVersions
        ∨ previous.reducerVersion ≠ snapshot.reducerVersion
        ∨ existing.any (supersedes snapshot))
      (.conflict "correction parent does not match report window")

namespace MemoryReportRepository

def default : MemoryReportRepository where
  reports := ∅

/-- The snapshots of a project. -/
def stored (s : MemoryReportRepository) (owner : ReportOwner) : List ReportSnapshot :=
  (s.reports.lookup owner).getD []

/-- `entry(key).or_default()`. -/
def withEntry (s : MemoryReportRepository) (owner : ReportOwner) : MemoryReportRepository :=
  { s with reports := AssocMap.insertNew owner [] s.reports }

def push (s : MemoryReportRepository) (owner : ReportOwner) (snapshot : ReportSnapshot) : MemoryReportRepository :=
  { s with reports := s.reports.insert owner (s.stored owner ++ [snapshot]) }

def create (scope : TenantScope) (snapshot : ReportSnapshot) : Op MemoryReportRepository AppError ReportSnapshot := do
  Op.failIf (scope.projectId ≠ some snapshot.projectId) (.forbidden "report project is outside tenant scope")
  let owner := reportOwner scope snapshot.projectId
  Op.modify fun s => s.withEntry owner
  let reports ← Op.read fun s => s.stored owner
  match reports.find? fun report => report.reportId = snapshot.reportId with
  | some existing => do
    Op.failIf (existing.inputHash ≠ snapshot.inputHash ∨ existing.correctionOf ≠ snapshot.correctionOf)
      (.conflict "report revision inputs differ")
    pure existing
  | none => do
    Op.lift (validateCorrection reports snapshot)
    Op.modify fun s => s.push owner snapshot
    pure snapshot

end MemoryReportRepository

/-! ### Runs -/

/-- A report that is reduced and handed to the repository. -/
structure ReportCall where
  scope : TenantScope
  input : ReportReduceInput
  revision : Nat
  correctionOf : Option Uuid
  now : DateTime

variable [Sha256] [InstantJson] [InstantDisplay]

def ReportCall.run (call : ReportCall) : Op MemoryReportRepository AppError ReportSnapshot := do
  let snapshot ←
    Op.lift (reduceReport call.scope call.input call.revision call.correctionOf call.now)
  MemoryReportRepository.create call.scope snapshot

abbrev ReportEvent : Type :=
  CallEvent ReportCall AppError ReportSnapshot

/-- Reports are created in any order. The order of a hash table does not show in what is stored. -/
def reportMachine : Machine MemoryReportRepository ReportEvent :=
  callMachine ReportCall.run fun s s' => ∀ owner, s'.stored owner = s.stored owner

/-- What the identity of the report of a call is drawn from. -/
def ReportCall.identityText (call : ReportCall) : String :=
  reportIdentityText call.scope call.input call.input.canonical.inputManifestVersions call.revision

end GeoMaster
