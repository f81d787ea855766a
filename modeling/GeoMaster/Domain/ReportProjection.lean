import GeoMaster.Domain.ReportInputs

/-!
# Reducing a report

One pure fan-in over three branches: the planned documents, the publications and the measurements. Each target
is counted in the branch, and in its group where the branch has groups. Evidence is collected in one map for
all of them, and what is missing becomes a finding. A missing branch is never a zero.
-/

namespace GeoMaster

open Except Text

def reportReducerVersion : String :=
  "geo-report-v1"

/-! ### Results -/

inductive ReportAvailability where
  | available
  | unavailable
  | unsealed
  deriving DecidableEq

structure ReportCoverage where
  availability : ReportAvailability
  expectedCount : Option Nat
  observedCount : Nat
  counts : AssocMap String Nat
  reason : Option String

structure ReportPublicationGroup where
  platformId : String
  coverage : ReportCoverage

structure ReportMeasurementGroup where
  comparisonKey : String
  purpose : Option QuestionPurpose
  coverage : ReportCoverage

structure ReportFinding where
  findingId : Uuid
  (kind summary : String)
  evidenceIds : List Uuid
  insufficientReason : Option String

inductive ReportStatus where
  | complete
  | partialCoverage

/-- What both a snapshot and a preview are made of. -/
structure ReportProjection where
  findingNamespace : Uuid
  evidenceAsOf : DateTime
  inputHash : String
  status : ReportStatus
  inputManifestVersions : List ReportManifestRef
  (documents publications measurements : ReportCoverage)
  publicationGroups : List ReportPublicationGroup
  measurementGroups : List ReportMeasurementGroup
  findings : List ReportFinding
  evidence : List ReportEvidenceReference
  supplementaryMeasurements : List ReportSupplementaryMeasurement

structure ReportSnapshot where
  reportId : Uuid
  projectId : ProjectId
  cycleId : Uuid
  revision : Nat
  correctionOf : Option Uuid
  (reportWindowStartAt reportWindowEndAt : DateTime)
  reportTimezone : String
  (cutoffAt evidenceAsOf generatedAt : DateTime)
  (reducerVersion inputHash : String)
  status : ReportStatus
  inputManifestVersions : List ReportManifestRef
  (documents publications measurements : ReportCoverage)
  publicationGroups : List ReportPublicationGroup
  measurementGroups : List ReportMeasurementGroup
  findings : List ReportFinding
  evidence : List ReportEvidenceReference
  supplementaryMeasurements : List ReportSupplementaryMeasurement

/-- An ephemeral read-only projection. It has no identity and is never stored. -/
structure ReportPreview where
  projectId : ProjectId
  cycleId : Uuid
  (reportWindowStartAt reportWindowEndAt : DateTime)
  reportTimezone : String
  (cutoffAt evidenceAsOf generatedAt : DateTime)
  (reducerVersion inputHash : String)
  status : ReportStatus
  inputManifestVersions : List ReportManifestRef
  (documents publications measurements : ReportCoverage)
  publicationGroups : List ReportPublicationGroup
  measurementGroups : List ReportMeasurementGroup
  findings : List ReportFinding
  evidence : List ReportEvidenceReference
  supplementaryMeasurements : List ReportSupplementaryMeasurement

inductive ProjectionMode where
  | official (revision : Nat) (correctionOf : Option Uuid)
  | preview

def ProjectionMode.isOfficial : ProjectionMode → Bool
  | .official _ _ => true
  | .preview => false

/-- Revisions count from one, and exactly the first one corrects nothing. -/
def ProjectionMode.malformed : ProjectionMode → Bool
  | .official revision correctionOf => revision = 0 ∨ (decide (revision = 1)) ≠ correctionOf.isNone
  | .preview => false

/-! ### Identities -/

/-- The text of an instant as `chrono` displays it. -/
class InstantDisplay where
  text : DateTime → String

/-- A UUID from the first half of the digest of a text, with the version and variant bits set. -/
def stableUuid [Sha256] (value : String) : Uuid :=
  let bits := ((sha256Hex (bytes value)).toList.take 32).foldl (fun n c => n * 16 + hexValue c) 0
  let versionMask : BitVec 128 := 0xF000 <<< 64
  let variantMask : BitVec 128 := 0xC0 <<< 56
  ⟨(BitVec.ofNat 128 bits &&& ~~~ versionMask &&& ~~~ variantMask)
    ||| (0x5000 <<< 64) ||| (0x80 <<< 56)⟩

/-- What the identity of an official report is drawn from. The manifests are in canonical order. -/
def reportIdentityText [InstantDisplay] (scope : TenantScope) (input : ReportReduceInput)
    (manifests : List ReportManifestRef) (revision : Nat) : String :=
  join ":"
    [scope.operatorId.asUuid.toString, scope.tenantId.asUuid.toString, input.projectId.asUuid.toString,
      input.cycleId.toString, InstantDisplay.text input.reportWindowStartAt,
      InstantDisplay.text input.reportWindowEndAt, InstantDisplay.text input.cutoffAt,
      (Json.array (manifests.map ReportManifestRef.json)).toText, reportReducerVersion, toString revision]

/-- What the identities of the findings of a preview are drawn from. -/
def previewIdentityText [InstantDisplay] (scope : TenantScope) (input : ReportReduceInput)
    (evidenceAsOf : DateTime) : String :=
  join ":"
    ["report-preview-v1", scope.operatorId.asUuid.toString, scope.tenantId.asUuid.toString,
      input.projectId.asUuid.toString, input.cycleId.toString, InstantDisplay.text evidenceAsOf]

/-! ### Coverage -/

def unavailable (reason : String) : ReportCoverage where
  availability := .unavailable
  expectedCount := none
  observedCount := 0
  counts := ∅
  reason := some reason

def unsealed (reason : String) : ReportCoverage where
  availability := .unsealed
  expectedCount := none
  observedCount := 0
  counts := ∅
  reason := some reason

def bump (counts : AssocMap String Nat) (key : String) : AssocMap String Nat :=
  counts.insert key ((counts.lookup key).getD 0 + 1)

/-- A group before its denominator is known. -/
def newGroup (reason : String) : ReportCoverage where
  availability := .available
  expectedCount := none
  observedCount := 0
  counts := ∅
  reason := some reason

/-- Count a target in its group. -/
def countInGroup (reason key status : String) (groups : AssocMap String ReportCoverage) :
    AssocMap String ReportCoverage :=
  let group := (groups.lookup key).getD (newGroup reason)
  groups.insert key { group with observedCount := group.observedCount + 1, counts := bump group.counts status }

/-- The entries of a `BTreeMap`, in key order. -/
def inKeyOrder {κ ν : Type} [LE κ] [DecidableLE κ] (map : AssocMap κ ν) : List (κ × ν) :=
  (map.entries.map fun e => (e.1, e.2)).insertionSort fun a b => a.1 ≤ b.1

/-! ### Evidence -/

def recordEvidence (collected : AssocMap Uuid ReportEvidenceReference) (reference : ReportEvidenceReference) :
    Except AppError (AssocMap Uuid ReportEvidenceReference) := do
  failIf ((collected.lookup reference.evidenceId).any fun previous => previous ≠ reference)
    (.invalidRequest "conflicting evidence identities")
  pure (collected.insert reference.evidenceId reference)

/-- An identifier without the times of occurrence and receipt is no proof, and what arrived too late or
belongs to another target is none for this one. -/
def proves (asOf : DateTime) (targetId : Uuid) (expectedKind : String)
    (window : Option (DateTime × DateTime)) (reference : ReportEvidenceReference) : Bool :=
  match reference.occurredAt, reference.receivedAt with
  | some occurred, some received =>
    occurred ≤ received ∧ received ≤ asOf ∧ reference.kind = expectedKind ∧ reference.resourceId = targetId
      ∧ ∀ bounds ∈ window, bounds.1 ≤ occurred ∧ occurred < bounds.2
  | _, _ => false

/-- Record the references that prove a target, and say whether there is one. -/
def collectEvidence (asOf : DateTime) (targetId : Uuid) (expectedKind : String)
    (window : Option (DateTime × DateTime)) :
    List ReportEvidenceReference → AssocMap Uuid ReportEvidenceReference →
      Except AppError (Bool × AssocMap Uuid ReportEvidenceReference)
  | [], collected => pure (false, collected)
  | reference :: rest, collected =>
    if proves asOf targetId expectedKind window reference then do
      let collected ← recordEvidence collected reference
      let (_, collected) ← collectEvidence asOf targetId expectedKind window rest collected
      pure (true, collected)
    else collectEvidence asOf targetId expectedKind window rest collected

/-- What the branches share. -/
structure Collected where
  findings : List ReportFinding
  evidence : AssocMap Uuid ReportEvidenceReference

/-- Put a finding behind the others. -/
def Collected.addFinding (collected : Collected) (finding : ReportFinding) : Collected :=
  { collected with findings := collected.findings ++ [finding] }

/-- The references of a target that were recorded, behind the target itself. -/
def citedEvidence (targetId : Uuid) (evidence : List ReportEvidenceReference)
    (collected : AssocMap Uuid ReportEvidenceReference) : List Uuid :=
  targetId ::
    ((evidence.filter fun reference => reference.evidenceId ∈ collected).map ReportEvidenceReference.evidenceId)

/-! ### Supplementary measurements -/

/-- A saved interpretation that may be shown: of an observation in the window, known by the time of the
report, and of a target of the branch unless it belongs to a plan of its own. -/
def eligibleSupplement (input : ReportReduceInput) (asOf : DateTime)
    (item : ReportSupplementaryMeasurement) (source : SavedAnalysisProvenance) : Bool :=
  let observation := item.observation
  ¬ (observation.observedAt < input.reportWindowStartAt ∨ input.reportWindowEndAt ≤ observation.observedAt
    ∨ observation.receivedAt < observation.observedAt
    ∨ asOf < observation.receivedAt
    ∨ source.observedAt ≠ observation.observedAt
    ∨ asOf < source.analyzedAt
    ∨ source.analyzedAt < observation.observedAt
    ∨ isBlank source.actualModel
    ∨ len source.sourceSha256 ≠ 64
    ∨ ¬ source.sourceSha256.toList.all isAsciiHexdigit
    ∨ isBlank item.comparisonKey
    ∨ (item.planId.isNone
      ∧ ¬ input.measurementTargets.any fun targets =>
        targets.any fun target =>
          target.targetId = item.targetId ∧ target.comparisonKey = item.comparisonKey
            ∧ target.questionBinding = item.questionBinding))

/-- The supplement of each target. Two different ones for a target are rejected. -/
def supplementsByTarget (input : ReportReduceInput) (asOf : DateTime)
    (found : AssocMap Uuid ReportSupplementaryMeasurement) :
    List ReportSupplementaryMeasurement → Except AppError (AssocMap Uuid ReportSupplementaryMeasurement)
  | [] => pure found
  | item :: rest =>
    if item.observation.provenance.any (eligibleSupplement input asOf item) then do
      failIf ((found.lookup item.targetId).any fun previous => previous ≠ item)
        (.invalidRequest "multiple supplementary interpretations for one target")
      supplementsByTarget input asOf (found.insert item.targetId item) rest
    else supplementsByTarget input asOf found rest

/-- Record a saved interpretation as evidence. -/
def recordSupplement (collected : AssocMap Uuid ReportEvidenceReference) (item : ReportSupplementaryMeasurement) :
    Except AppError (AssocMap Uuid ReportEvidenceReference) := do
  -- The source expects a provenance here; the items were chosen by theirs.
  let source ← okOr item.observation.provenance (.new .internal "validated provenance")
  recordEvidence collected
    { evidenceId := source.revisionId
      kind := "saved_observation_analysis"
      resourceId := item.targetId
      resourceVersion := some source.revisionId.toString
      occurredAt := some item.observation.observedAt
      receivedAt := some source.analyzedAt
      summary := "Saved response interpretation; original measurement status is unchanged." }

/-! ### Documents -/

def documentStatus : DocumentManifestItemState → String
  | .planned => "planned"
  | .blocked => "blocked"
  | .deferred => "deferred"
  | .notApplicable => "not_applicable"

/-- What the documents counted so far come to. -/
structure DocumentBranch where
  ids : List Uuid
  counts : AssocMap String Nat
  collected : Collected

variable [Sha256]

def sourceVersionReference (sourceId : Uuid) : ReportEvidenceReference where
  evidenceId := sourceId
  kind := "source_version"
  resourceId := sourceId
  resourceVersion := none
  occurredAt := none
  receivedAt := none
  summary := "Source version referenced by the planned document branch"

def projectDocument (findingNamespace : Uuid) (docs : DocumentManifest) (branch : DocumentBranch)
    (item : DocumentManifestItem) : Except AppError DocumentBranch := do
  failIf (item.documentManifestItemId ∈ branch.ids ∨ item.manifestId ≠ docs.manifestId)
    (.invalidRequest "duplicate or mismatched document manifest item")
  let status := documentStatus item.state
  let evidence ← recordEvidence branch.collected.evidence
    { evidenceId := item.documentManifestItemId
      kind := "document_manifest_item"
      resourceId := item.documentManifestItemId
      resourceVersion := some (toString docs.revision)
      occurredAt := none
      receivedAt := none
      summary := "Planned document branch: " ++ status }
  let evidence ←
    (item.sourceVersionRefs.map sourceVersionReference).foldlM recordEvidence evidence
  let collected : Collected := { branch.collected with evidence }
  pure
    { ids := item.documentManifestItemId :: branch.ids
      counts := bump branch.counts status
      collected :=
        if status = "not_applicable" then collected
        else
          collected.addFinding
            { findingId :=
                stableUuid
                  (findingNamespace.toString ++ ":document:" ++ item.documentManifestItemId.toString)
              kind := "document_" ++ status
              summary := "Document branch is " ++ status ++ "; no generated content is inferred."
              evidenceIds := item.documentManifestItemId :: item.sourceVersionRefs
              insufficientReason :=
                some
                  (item.blockReason.getD
                    "Document content and completion evidence are not available.") } }

def projectDocuments (findingNamespace : Uuid) (docs : Option DocumentManifest)
    (reference : Option ReportManifestRef) (collected : Collected) : Except AppError (ReportCoverage × Collected) :=
  match docs, reference with
  | some docs, some reference =>
    if docs.sealed then do
      let branch ←
        docs.items.foldlM (projectDocument findingNamespace docs) { ids := [], counts := ∅, collected }
      failIf (docs.items.length > reference.expectedCount.getD 0)
        (.invalidRequest "document items exceed frozen denominator")
      pure
        ({ availability := .available
           expectedCount := reference.expectedCount
           observedCount := docs.items.length
           counts := branch.counts
           reason := none }, branch.collected)
    else if ¬ reference.sealed then
      pure (unsealed "document manifest is not sealed", collected)
    else pure (unavailable "document manifest is not available", collected)
  | none, some reference =>
    if ¬ reference.sealed then pure (unsealed "document manifest is not sealed", collected)
    else pure (unavailable "document manifest is not available", collected)
  | _, none => pure (unavailable "document manifest is not available", collected)

/-! ### Publications -/

/-- The kind of evidence a publication is proved by. -/
def publicationKind (target : ReportPublicationTarget) : String :=
  if target.status = .verified then "public_verification" else "publication_receipt"

/-- What a publication target is counted as. -/
def countedPublication (target : ReportPublicationTarget) (valid : Bool) : String :=
  match target.status with
  | .verified => if valid then "verified" else "unknown"
  | .published => if valid then "published" else "unknown"
  | .unknown => "unknown"
  | .failed => "failed"
  | .blocked => "blocked"
  | .deferred => "deferred"
  | .notApplicable => "not_applicable"
  | .cancelled => "cancelled"
  | .planned => "pending"

/-- The references to an independently observed asset of a target. -/
def lookupEvidence (asOf : DateTime) (target : ReportPublicationTarget) : List ReportEvidenceReference :=
  target.evidence.filter (proves asOf target.targetId "publication_lookup_asset_observed" none)

/-- What the targets counted so far come to. -/
structure OutcomeBranch where
  ids : List Uuid
  counts : AssocMap String Nat
  groups : AssocMap String ReportCoverage
  collected : Collected

/-- The statuses of a publication that are findings. -/
def publicationGaps : List String :=
  ["unknown", "failed", "blocked", "deferred", "cancelled", "pending"]

def projectPublication (findingNamespace : Uuid) (asOf : DateTime) (revision : Int)
    (branch : OutcomeBranch) (target : ReportPublicationTarget) : Except AppError OutcomeBranch := do
  failIf (target.targetId ∈ branch.ids ∨ isBlank target.platformId)
    (.invalidRequest "duplicate publication target or empty platform")
  let (valid, evidence) ←
    collectEvidence asOf target.targetId (publicationKind target) none target.evidence
      branch.collected.evidence
  let lookups := lookupEvidence asOf target
  let evidence ← lookups.foldlM recordEvidence evidence
  let status := countedPublication target valid
  let collected : Collected := { branch.collected with evidence }
  let collected :=
    if lookups = [] then collected
    else
      collected.addFinding
        { findingId :=
            stableUuid
              (findingNamespace.toString ++ ":publication:asset_observed:"
                ++ target.targetId.toString)
          kind := "publication_asset_observed"
          summary :=
            "A public asset was observed independently; this does not prove the original publication send succeeded."
          evidenceIds := (lookups.map ReportEvidenceReference.evidenceId).dedup.insertionSort (· ≤ ·)
          insufficientReason :=
            some
              "No trusted causal link between the original send and the observed asset is available." }
  let evidence ← recordEvidence collected.evidence
    { evidenceId := target.targetId
      kind := "publication_target"
      resourceId := target.targetId
      resourceVersion := some (toString revision)
      occurredAt := none
      receivedAt := none
      summary := "Publication target: " ++ status }
  let collected : Collected := { collected with evidence }
  pure
    { ids := target.targetId :: branch.ids
      counts := bump branch.counts status
      groups :=
        countInGroup "per-platform planned denominator is unavailable" target.platformId status
          branch.groups
      collected :=
        if status ∈ publicationGaps then
          collected.addFinding
            { findingId :=
                stableUuid
                  (findingNamespace.toString ++ ":publication:" ++ target.targetId.toString)
              kind := "publication_" ++ status
              summary := "Publication target remains " ++ status ++ "; no public verification is inferred."
              evidenceIds := citedEvidence target.targetId target.evidence collected.evidence
              insufficientReason :=
                some
                  (target.reason.getD
                    "Public verification or a terminal receipt is not available.") }
        else collected }

/-- What a branch without a target so far comes to. -/
def OutcomeBranch.start (collected : Collected) : OutcomeBranch where
  ids := []
  counts := ∅
  groups := ∅
  collected

/-- The coverage of a branch: what is left of the denominator was never materialized. -/
def outcomeCoverage (expected observed : Nat) (counts : AssocMap String Nat) : ReportCoverage where
  availability := .available
  expectedCount := some expected
  observedCount := observed
  counts := if expected > observed then counts.insert "unmaterialized" (expected - observed) else counts
  reason := none

def projectPublications (findingNamespace : Uuid) (asOf : DateTime) (targets : Option (List ReportPublicationTarget))
    (reference : Option ReportManifestRef) (collected : Collected) :
    Except AppError (ReportCoverage × AssocMap String ReportCoverage × Collected) :=
  match targets, reference with
  | some targets, some reference => do
    let expected := reference.expectedCount.getD 0
    failIf (targets.length > expected) (.invalidRequest "publication targets exceed frozen denominator")
    let branch ←
      targets.foldlM (projectPublication findingNamespace asOf reference.revision) (.start collected)
    pure (outcomeCoverage expected targets.length branch.counts, branch.groups, branch.collected)
  | none, some reference =>
    if ¬ reference.sealed then
      pure (unsealed "distribution manifest is not sealed", ∅, collected)
    else pure (unavailable "publication targets are not available", ∅, collected)
  | _, none => pure (unavailable "publication targets are not available", ∅, collected)

/-! ### Measurements -/

/-- What a measurement target is counted as. -/
def countedMeasurement (target : ReportMeasurementTarget) (valid : Bool) : String :=
  match target.status with
  | .observed => if valid then "observed" else "missing"
  | .notMentioned => if valid then "not_mentioned" else "missing"
  | .refused => if valid then "refused" else "missing"
  | .missing => "missing"
  | .pending => "pending"

/-- The statuses of a measurement that are findings. -/
def measurementGaps : List String :=
  ["missing", "pending", "refused"]

/-- The sample was scheduled in the window. -/
def scheduledIn (window : DateTime × DateTime) (target : ReportMeasurementTarget) : Bool :=
  window.1 ≤ target.scheduledAt ∧ target.scheduledAt < window.2

structure MeasurementBranch extends OutcomeBranch where
  purposes : AssocMap String (Option QuestionPurpose)

def projectMeasurement (findingNamespace : Uuid) (asOf : DateTime) (window : DateTime × DateTime)
    (revision : Int) (branch : MeasurementBranch) (target : ReportMeasurementTarget) :
    Except AppError MeasurementBranch := do
  failIf (target.targetId ∈ branch.ids ∨ isBlank target.comparisonKey)
    (.invalidRequest "duplicate measurement sample or empty comparison key")
  let purpose := target.questionBinding.map FrozenQuestionBinding.purpose
  failIf ((branch.purposes.lookup target.comparisonKey).any fun existing => existing ≠ purpose)
    (.invalidRequest "measurement purpose cannot share a comparison group")
  let (proved, evidence) ←
    collectEvidence asOf target.targetId "observation" (some window) target.evidence
      branch.collected.evidence
  let status := countedMeasurement target (proved && scheduledIn window target)
  let evidence ← recordEvidence evidence
    { evidenceId := target.targetId
      kind := "measurement_target"
      resourceId := target.targetId
      resourceVersion := some (toString revision)
      occurredAt := some target.scheduledAt
      receivedAt := none
      summary := "Measurement sample: " ++ status }
  let collected : Collected := { branch.collected with evidence }
  pure
    { ids := target.targetId :: branch.ids
      counts := bump branch.counts status
      groups :=
        countInGroup "per-protocol planned denominator is unavailable" target.comparisonKey status
          branch.groups
      purposes := branch.purposes.insert target.comparisonKey purpose
      collected :=
        if status ∈ measurementGaps then
          collected.addFinding
            { findingId :=
                stableUuid
                  (findingNamespace.toString ++ ":measurement:" ++ target.targetId.toString)
              kind := "measurement_" ++ status
              summary :=
                "Independent measurement sample is " ++ status
                  ++ "; missing is not counted as not-mentioned."
              evidenceIds := citedEvidence target.targetId target.evidence collected.evidence
              insufficientReason :=
                target.missingReason.or
                  (if status = "missing" ∨ status = "pending" then
                    some "A timely, timestamped observation is unavailable."
                  else none) }
        else collected }

/-- Every sealed sample is materialized, so each group has an exact planned denominator. -/
def closeGroup (group : ReportCoverage) : ReportCoverage :=
  { group with expectedCount := some group.observedCount, reason := none }

/-- What the measurement branch comes to. -/
structure MeasurementResult where
  coverage : ReportCoverage
  groups : AssocMap String ReportCoverage
  purposes : AssocMap String (Option QuestionPurpose)
  collected : Collected

def projectMeasurements (findingNamespace : Uuid) (asOf : DateTime) (window : DateTime × DateTime)
    (targets : Option (List ReportMeasurementTarget)) (reference : Option ReportManifestRef)
    (collected : Collected) : Except AppError MeasurementResult :=
  match targets, reference with
  | some targets, some reference => do
    let expected := reference.expectedCount.getD 0
    failIf (targets.length > expected) (.invalidRequest "measurement targets exceed frozen denominator")
    let branch ←
      targets.foldlM (projectMeasurement findingNamespace asOf window reference.revision)
        { OutcomeBranch.start collected with purposes := ∅ }
    pure
      { coverage := outcomeCoverage expected targets.length branch.counts
        groups :=
          if expected > targets.length then branch.groups
          else AssocMap.mapValues (fun _ => closeGroup) branch.groups
        purposes := branch.purposes
        collected := branch.collected }
  | none, some reference =>
    let coverage :=
      if ¬ reference.sealed then unsealed "measurement manifest is not sealed"
      else unavailable "independent measurement targets are not available"
    pure { coverage, groups := ∅, purposes := ∅, collected }
  | _, none =>
    pure
      { coverage := unavailable "independent measurement targets are not available"
        groups := ∅
        purposes := ∅
        collected }

/-! ### Checking the input -/

def checkReportWindow (input : ReportReduceInput) (mode : ProjectionMode) : Except AppError Unit :=
  failIf
    (input.reportWindowEndAt ≤ input.reportWindowStartAt ∨ input.cutoffAt < input.reportWindowEndAt ∨ mode.malformed
      ∨ isBlank input.reportTimezone)
    (.invalidRequest "invalid report window, timezone or revision")

/-- One reference for each kind, with a denominator exactly when it is sealed. -/
def checkManifestRefs (kinds : List ReportManifestKind) : List ReportManifestRef → Except AppError Unit
  | [] => pure ()
  | reference :: rest => do
    failIf
      (reference.kind ∈ kinds ∨ reference.revision ≤ 0 ∨ (reference.sealed ∧ reference.expectedCount.isNone)
        ∨ (¬ reference.sealed ∧ reference.expectedCount.isSome))
      (.invalidRequest "invalid or duplicate manifest reference")
    checkManifestRefs (reference.kind :: kinds) rest

def manifestRef (input : ReportReduceInput) (kind : ReportManifestKind) : Option ReportManifestRef :=
  input.inputManifestVersions.find? fun reference => reference.kind = kind

/-- An `i64` as a `u64`, unless it is negative. -/
def unsignedCount (n : Int) : Option Nat :=
  if 0 ≤ n then some n.toNat else none

/-- The document manifest is the one the reference was frozen for. -/
def checkDocuments (scope : TenantScope) (input : ReportReduceInput) : Except AppError Unit :=
  failIf
    (∃ docs ∈ input.documentManifest,
      docs.operatorId ≠ scope.operatorId ∨ docs.tenantId ≠ scope.tenantId ∨ docs.projectId ≠ input.projectId
        ∨ ¬ (manifestRef input .document).any fun reference =>
          reference.manifestId = docs.manifestId ∧ reference.revision = docs.revision ∧ reference.sealed = docs.sealed
            ∧ reference.expectedCount = docs.expectedCount.bind unsignedCount)
    (.invalidRequest "document manifest does not match frozen scope and version")

/-- Outcomes need a sealed manifest. -/
def checkSealed (present : Bool) (reference : Option ReportManifestRef) (name : String) : Except AppError Unit :=
  failIf (present ∧ ¬ reference.any fun reference => reference.sealed)
    (.invalidRequest (name ++ " outcomes require a sealed manifest"))

/-- The time by which evidence must have been received. -/
def evidenceAsOf (input : ReportReduceInput) (now : DateTime) : ProjectionMode → DateTime
  | .official _ (some _) => now
  | _ => min now input.cutoffAt

/-! ### The projection -/

/-- The three branches with what they share, before the status is known. -/
structure ReportBranches where
  (documents publications : ReportCoverage)
  publicationGroups : AssocMap String ReportCoverage
  measurements : MeasurementResult
  supplements : AssocMap Uuid ReportSupplementaryMeasurement

def ReportBranches.findings (branches : ReportBranches) : List ReportFinding :=
  branches.measurements.collected.findings

def ReportBranches.evidence (branches : ReportBranches) : AssocMap Uuid ReportEvidenceReference :=
  branches.measurements.collected.evidence

/-- The window of a report. -/
def ReportReduceInput.window (input : ReportReduceInput) : DateTime × DateTime :=
  (input.reportWindowStartAt, input.reportWindowEndAt)

/-- Project the canonical input, branch after branch. -/
def projectBranches (findingNamespace : Uuid) (asOf : DateTime) (canonical : ReportReduceInput) :
    Except AppError ReportBranches := do
  let supplements ← supplementsByTarget canonical asOf ∅ canonical.supplementaryMeasurements
  let evidence ← ((inKeyOrder supplements).map (·.2)).foldlM recordSupplement ∅
  let (documents, collected) ←
    projectDocuments findingNamespace canonical.documentManifest (manifestRef canonical .document)
      { findings := [], evidence }
  let (publications, publicationGroups, collected) ←
    projectPublications findingNamespace asOf canonical.publicationTargets
      (manifestRef canonical .distribution) collected
  let measurements ←
    projectMeasurements findingNamespace asOf canonical.window canonical.measurementTargets
      (manifestRef canonical .measurement) collected
  pure { documents, publications, publicationGroups, measurements, supplements }

/-- Every expected cell of a branch is there. -/
def ReportCoverage.covered (coverage : ReportCoverage) : Bool :=
  coverage.availability = .available ∧ coverage.expectedCount = some coverage.observedCount

/-- None of some statuses was counted. -/
def ReportCoverage.without (coverage : ReportCoverage) (statuses : List String) : Bool :=
  statuses.all fun status => status ∉ coverage.counts

def documentGaps : List String :=
  ["planned", "blocked", "deferred"]

def ReportBranches.complete (branches : ReportBranches) (verified : Bool) : Bool :=
  branches.documents.covered ∧ branches.publications.covered ∧ branches.measurements.coverage.covered ∧ verified
    ∧ branches.documents.without documentGaps ∧ branches.publications.without publicationGaps
    ∧ branches.measurements.coverage.without measurementGaps

/-- The state of the documents cannot be traced back to the time of the report. -/
def temporalFinding (findingNamespace : Uuid) (official : Bool) (docs : DocumentManifest) : ReportFinding where
  findingId := stableUuid (findingNamespace.toString ++ ":temporal_provenance")
  kind := "temporal_provenance_unavailable"
  summary :=
    if official then
      "Current document manifest state is visible, but its state at the report cutoff cannot be verified."
    else
      "Current document manifest state is visible, but its state at the preview evidence time cannot be verified."
  evidenceIds := docs.items.map DocumentManifestItem.documentManifestItemId
  insufficientReason := some "The source has no recorded seal or item transition timestamps."

def gapFinding (findingNamespace : Uuid) (official : Bool) : ReportFinding where
  findingId := stableUuid (findingNamespace.toString ++ ":coverage_gap")
  kind := "coverage_gap"
  summary :=
    if official then
      "Planned inputs are incomplete or unavailable at the reporting cutoff."
    else "Planned inputs are incomplete or unavailable at the preview evidence time."
  evidenceIds := []
  insufficientReason := some "No unsupported effectiveness or trend inference is made from incomplete inputs."

variable [InstantJson] [InstantDisplay]

/-- The identity the findings are named under. It is that of the report where there is one. -/
def findingNamespace (scope : TenantScope) (input canonical : ReportReduceInput) (now : DateTime) :
    ProjectionMode → Uuid
  | .official revision _ => stableUuid (reportIdentityText scope input canonical.inputManifestVersions revision)
  | .preview => stableUuid (previewIdentityText scope input (evidenceAsOf input now .preview))

def inputHash (canonical : ReportReduceInput) : String :=
  sha256Hex (bytes canonical.json.toText)

/-- What is checked before anything is counted. -/
def checkReportInput (scope : TenantScope) (input : ReportReduceInput) (mode : ProjectionMode) :
    Except AppError Unit := do
  failIf (scope.projectId ≠ some input.projectId) (.forbidden "report project is outside tenant scope")
  checkReportWindow input mode
  let canonical := input.canonical
  checkManifestRefs [] canonical.inputManifestVersions
  checkDocuments scope canonical
  checkSealed canonical.publicationTargets.isSome (manifestRef canonical .distribution) "distribution"
  checkSealed canonical.measurementTargets.isSome (manifestRef canonical .measurement) "measurement"

/-- The findings of the branches, with those about the report as a whole behind them. -/
def ReportBranches.allFindings (branches : ReportBranches) (names : Uuid) (mode : ProjectionMode)
    (canonical : ReportReduceInput) : List ReportFinding :=
  let verified := canonical.inputTemporalProvenanceVerified
  let findings :=
    match canonical.documentManifest with
    | some docs =>
      if verified then branches.findings
      else branches.findings ++ [temporalFinding names mode.isOfficial docs]
    | none => branches.findings
  if branches.complete verified then findings else findings ++ [gapFinding names mode.isOfficial]

/-- The record of a projection, its maps in key order. -/
def ReportBranches.projection (branches : ReportBranches) (names : Uuid) (asOf : DateTime)
    (mode : ProjectionMode) (canonical : ReportReduceInput) : ReportProjection where
  findingNamespace := names
  evidenceAsOf := asOf
  inputHash := inputHash canonical
  status :=
    if branches.complete canonical.inputTemporalProvenanceVerified then .complete
    else .partialCoverage
  inputManifestVersions := canonical.inputManifestVersions
  documents := branches.documents
  publications := branches.publications
  measurements := branches.measurements.coverage
  publicationGroups := (inKeyOrder branches.publicationGroups).map fun e => { platformId := e.1, coverage := e.2 }
  measurementGroups :=
    (inKeyOrder branches.measurements.groups).map fun e =>
      { comparisonKey := e.1
        purpose := (branches.measurements.purposes.lookup e.1).join
        coverage := e.2 }
  findings := branches.allFindings names mode canonical
  evidence := (inKeyOrder branches.evidence).map (·.2)
  supplementaryMeasurements := (inKeyOrder branches.supplements).map (·.2)

def projectReport (scope : TenantScope) (input : ReportReduceInput) (now : DateTime)
    (mode : ProjectionMode) : Except AppError ReportProjection := do
  checkReportInput scope input mode
  let canonical := input.canonical
  let asOf := evidenceAsOf input now mode
  let names := findingNamespace scope input canonical now mode
  let branches ← projectBranches names asOf canonical
  failIf (mode.isOfficial ∧ now < input.cutoffAt ∧ ¬ branches.complete input.inputTemporalProvenanceVerified)
    (.notReady "report inputs remain incomplete before cutoff")
  pure (branches.projection names asOf mode canonical)

/-- The snapshot of a projection. It has the identity its findings are named under. -/
def ReportProjection.snapshot (projection : ReportProjection) (input : ReportReduceInput)
    (revision : Nat) (correctionOf : Option Uuid) (now : DateTime) : ReportSnapshot :=
  { projection with
    reportId := projection.findingNamespace
    projectId := input.projectId
    cycleId := input.cycleId
    revision
    correctionOf
    reportWindowStartAt := input.reportWindowStartAt
    reportWindowEndAt := input.reportWindowEndAt
    reportTimezone := input.reportTimezone
    cutoffAt := input.cutoffAt
    generatedAt := now
    reducerVersion := reportReducerVersion }

def ReportProjection.preview (projection : ReportProjection) (input : ReportReduceInput)
    (now : DateTime) : ReportPreview :=
  { projection with
    projectId := input.projectId
    cycleId := input.cycleId
    reportWindowStartAt := input.reportWindowStartAt
    reportWindowEndAt := input.reportWindowEndAt
    reportTimezone := input.reportTimezone
    cutoffAt := input.cutoffAt
    generatedAt := now
    reducerVersion := reportReducerVersion }

/-- The official report of a revision. -/
def reduceReport (scope : TenantScope) (input : ReportReduceInput) (revision : Nat)
    (correctionOf : Option Uuid) (now : DateTime) : Except AppError ReportSnapshot := do
  let projection ← projectReport scope input now (.official revision correctionOf)
  pure (projection.snapshot input revision correctionOf now)

/-- The frozen denominators against the evidence known by now. Nothing is allocated or stored. -/
def previewReport (scope : TenantScope) (input : ReportReduceInput) (now : DateTime) :
    Except AppError ReportPreview := do
  let projection ← projectReport scope input now .preview
  pure (projection.preview input now)

/-! ### Sample values -/

namespace Sample

/-- The samples use whole seconds of the first ten of an epoch. -/
def second (n : Int) : DateTime :=
  DateTime.seconds n

@[reducible] def secondJson : InstantJson :=
  ⟨fun t => "1970-01-01T00:00:0" ++ toString (t / 1000000000) ++ "Z"⟩

@[reducible] def secondDisplay : InstantDisplay :=
  ⟨fun t => "1970-01-01 00:00:0" ++ toString (t / 1000000000) ++ " UTC"⟩

/-- A receipt for a target. -/
def receipt (evidenceId targetId : Uuid) (kind : String) (occurred received : Int) : ReportEvidenceReference :=
  { evidenceId, kind, resourceId := targetId, resourceVersion := none
    occurredAt := some (second occurred), receivedAt := some (second received), summary := kind }

/-- Two publications of three, the second with a receipt that came after the cutoff. -/
def publicationTargets : List ReportPublicationTarget :=
  [{ targetId := uuid 31, platformId := "zhihu", status := .verified, reason := none
     evidence := [receipt (uuid 41) (uuid 31) "public_verification" 2 3] },
    { targetId := uuid 32, platformId := "weixin", status := .published, reason := none
      evidence := [receipt (uuid 42) (uuid 32) "publication_receipt" 2 7] }]

/-- A measurement that was observed in the window. -/
def measurementTargets : List ReportMeasurementTarget :=
  [{ targetId := uuid 33, comparisonKey := "p1", questionBinding := none
     scheduledAt := second 2, status := .observed, missingReason := none
     evidence := [receipt (uuid 43) (uuid 33) "observation" 3 4] }]

def reportInput : ReportReduceInput :=
  { projectId := ⟨uuid 3⟩, cycleId := uuid 10
    reportWindowStartAt := second 1, reportWindowEndAt := second 5
    reportTimezone := "UTC", cutoffAt := second 6
    inputTemporalProvenanceVerified := true
    inputManifestVersions :=
      [{ kind := .measurement, manifestId := uuid 22, revision := 1, sealed := true
         expectedCount := some 1 },
        { kind := .distribution, manifestId := uuid 21, revision := 1, sealed := true
          expectedCount := some 3 }]
    documentManifest := none
    publicationTargets := some publicationTargets
    measurementTargets := some measurementTargets
    supplementaryMeasurements := [] }

end Sample

end GeoMaster
