import GeoMaster.Domain.CalendarWeeks
import GeoMaster.Lib.Calls

/-!
# The project repository

Projects, the record of each start, and the cycles. A draft is edited under its revision; starting it freezes the
settings and a first window, and every later cycle follows the current one. New identifiers and the time are drawn by
the caller here, as nothing but their freshness matters.
-/

namespace GeoMaster

/-! ### JSON -/

def ResourceMode.text : ResourceMode → String
  | .own => "own"
  | .platform => "platform"
  | .mixed => "mixed"

def PeriodPolicy.text : PeriodPolicy → String
  | .previousCalendarWeek => "previous_calendar_week"

def ReportWeekday.text : ReportWeekday → String
  | .monday => "monday"
  | .tuesday => "tuesday"
  | .wednesday => "wednesday"
  | .thursday => "thursday"
  | .friday => "friday"
  | .saturday => "saturday"
  | .sunday => "sunday"

def DistributionScopeMode.text : DistributionScopeMode → String
  | .allEligible => "all_eligible"
  | .explicit => "explicit"

def ReplicationPolicy.text : ReplicationPolicy → String
  | .oneAccountPerPlatform => "one_account_per_platform"

def MeasurementTargetKind.text : MeasurementTargetKind → String
  | .product => "product"
  | .restaurant => "restaurant"
  | .brand => "brand"
  | .service => "service"
  | .other => "other"

def InitialSourceKind.asText : InitialSourceKind → String
  | .url => "url"
  | .text => "text"
  | .object => "object"
  | .knowledgeCollection => "knowledge_collection"

def InitialSourceVisibility.text : InitialSourceVisibility → String
  | .isPublic => "public"
  | .internal => "internal"

def MeasurementTarget.json (target : MeasurementTarget) : Json :=
  .object
    [("name", .string target.name), ("kind", .string target.kind.text),
      ("aliases", .array (target.aliases.map .string))]

def InitialSource.json (source : InitialSource) : Json :=
  .object
    ([("kind", .string source.kind.asText), ("value", .string source.value),
        ("visibility", .string source.visibility.text)]
      ++ Json.optionalField "version_ref" (source.versionRef.map .string)
      ++ Json.optionalField "content_hash" (source.contentHash.map .string))

def ReportSchedule.json (schedule : ReportSchedule) : Json :=
  .object
    [("report_weekday", .string schedule.reportWeekday.text), ("report_local_time", .string schedule.reportLocalTime),
      ("cutoff_weekday", .string schedule.cutoffWeekday.text),
      ("cutoff_local_time", .string schedule.cutoffLocalTime), ("period_policy", .string schedule.periodPolicy.text)]

def DistributionScope.json (scope : DistributionScope) : Json :=
  .object
    [("mode", .string scope.mode.text), ("included_platform_ids", .array (scope.includedPlatformIds.map .string)),
      ("excluded_platform_ids", .array (scope.excludedPlatformIds.map .string)),
      ("resource_pool_ids", .array (scope.resourcePoolIds.map .string)),
      ("replication_policy", .string scope.replicationPolicy.text)]

def ProjectSettings.json (settings : ProjectSettings) : Json :=
  .object
    ([("measurement_targets", .array (settings.measurementTargets.map MeasurementTarget.json)),
        ("brand_name", .string settings.brandName)]
      ++ Json.optionalField "product_name" (settings.productName.map .string)
      ++ [("market", .string settings.market), ("language", .string settings.language)]
      ++ Json.optionalField "target_audience" (settings.targetAudience.map .string)
      ++ [("competitors", .array (settings.competitors.map .string)),
        ("initial_sources", .array (settings.initialSources.map InitialSource.json)),
        ("resource_mode", .string settings.resourceMode.text), ("budget_currency", .string settings.budgetCurrency),
        ("monthly_budget_minor", .ofInt settings.monthlyBudgetMinor),
        ("monitoring_reserve_percent", .ofNat settings.monitoringReservePercent),
        ("report_timezone", .string settings.reportTimezone), ("report_schedule", settings.reportSchedule.json)]
      ++ Json.optionalField "objective" (settings.objective.map .string)
      ++ [("document_scope", settings.documentScope.json), ("distribution_scope", settings.distributionScope.json)])

section

variable [Sha256]

def settingsHash (settings : ProjectSettings) : String :=
  sha256Hex (Text.bytes settings.json.toText)

def startRequestHash (projectId : ProjectId) (expectedRevision : Int) (settingsHash : String) : String :=
  sha256Hex (Text.bytes
    s!"project={projectId.asUuid.toString}\naction=project.start\nrevision={expectedRevision}\nsettings_hash={settingsHash}")

end

/-! ### Commands -/

structure ProjectCreate where
  slug : Option String
  displayName : String
  settings : ProjectSettings

structure ProjectPatch where
  measurementTargets : Option (List MeasurementTarget)
  (slug displayName brandName productName : Option String)
  clearProductName : Bool
  (market language targetAudience : Option String)
  clearTargetAudience : Bool
  competitors : Option (List String)
  initialSources : Option (List InitialSource)
  resourceMode : Option ResourceMode
  budgetCurrency : Option String
  monthlyBudgetMinor : Option Int
  monitoringReservePercent : Option Nat
  reportTimezone : Option String
  reportSchedule : Option ReportSchedule
  objective : Option String
  clearObjective : Bool
  documentScope : Option DocumentScope
  distributionScope : Option DistributionScope
  status : Option ProjectStatus

/-- The patch that changes nothing. -/
def ProjectPatch.default : ProjectPatch where
  measurementTargets := none
  slug := none
  displayName := none
  brandName := none
  productName := none
  clearProductName := false
  market := none
  language := none
  targetAudience := none
  clearTargetAudience := false
  competitors := none
  initialSources := none
  resourceMode := none
  budgetCurrency := none
  monthlyBudgetMinor := none
  monitoringReservePercent := none
  reportTimezone := none
  reportSchedule := none
  objective := none
  clearObjective := false
  documentScope := none
  distributionScope := none
  status := none

structure UpdateProject where
  project : Project
  previousRevision : Int

structure ProjectStartCommand where
  expectedRevision : Int
  (idempotencyKeyHash requestHash settingsHash : String)
  operationId : Uuid

/-- The acceptance of a document manifest or of a distribution manifest. -/
structure ManifestAcceptance where
  manifestId : Uuid
  revision : Int
  state : String
  isSealed : Bool
  expectedCount : Option Int

abbrev DocumentManifestAcceptance : Type :=
  ManifestAcceptance

abbrev DistributionManifestAcceptance : Type :=
  ManifestAcceptance

inductive StartAcceptanceStatus where
  | accepted

structure ProjectStartAcceptance where
  (operationId cycleId configRevisionId : Uuid)
  documentManifest : DocumentManifestAcceptance
  distributionManifest : DistributionManifestAcceptance
  status : StartAcceptanceStatus
  operationUrl : String

structure ProjectStartView where
  projectId : ProjectId
  acceptance : ProjectStartAcceptance
  requestedRevision : Int
  (settingsHash reportTimezone : String)
  (reportWindowStartAt reportWindowEndAt cutoffAt : DateTime)

structure CycleReportView where
  projectId : ProjectId
  cycleId : Uuid
  reportTimezone : String
  (reportWindowStartAt reportWindowEndAt cutoffAt : DateTime)
  documentManifest : Option DocumentManifestAcceptance
  distributionManifest : Option DistributionManifestAcceptance

/-! ### Projects -/

section

variable [TimezoneNames] [ClockText]

/-- A project outside the scope it is created in is refused. -/
def Project.new (id : ProjectId) (scope : TenantScope) (slug displayName : String)
    (settings : ProjectSettings) (now : DateTime) : Except AppError Project := do
  Except.failIf (scope.projectId.any (· ≠ id)) (.invalidRequest "project scope does not match project id")
  let slug ← validateText "slug" slug 100
  let displayName ← validateText "display_name" displayName 200
  let settings ← settings.validateDraft
  pure
    { id, operatorId := scope.operatorId, tenantId := scope.tenantId, slug, displayName, settings
      status := .draft, revision := 1, currentConfigRevisionId := none, currentCycleId := none
      startOperationId := none, createdAt := now, updatedAt := now }

namespace ProjectPatch

/-- A text that is cleared, replaced or kept. -/
def cleared (clear : Bool) (value kept : Option String) : Option String :=
  if clear then none else value.or kept

/-- A text that is replaced or kept. -/
def patchedText (field : String) (value : Option String) (kept : String) (max : Nat) : Except AppError String :=
  match value with
  | some value => validateText field value max
  | none => pure kept

def applySettings (patch : ProjectPatch) (settings : ProjectSettings) : ProjectSettings where
  measurementTargets := patch.measurementTargets.getD settings.measurementTargets
  brandName := patch.brandName.getD settings.brandName
  productName := cleared patch.clearProductName patch.productName settings.productName
  market := patch.market.getD settings.market
  language := patch.language.getD settings.language
  targetAudience := cleared patch.clearTargetAudience patch.targetAudience settings.targetAudience
  competitors := patch.competitors.getD settings.competitors
  initialSources := patch.initialSources.getD settings.initialSources
  resourceMode := patch.resourceMode.getD settings.resourceMode
  budgetCurrency := patch.budgetCurrency.getD settings.budgetCurrency
  monthlyBudgetMinor := patch.monthlyBudgetMinor.getD settings.monthlyBudgetMinor
  monitoringReservePercent := patch.monitoringReservePercent.getD settings.monitoringReservePercent
  reportTimezone := patch.reportTimezone.getD settings.reportTimezone
  reportSchedule := patch.reportSchedule.getD settings.reportSchedule
  objective := cleared patch.clearObjective patch.objective settings.objective
  documentScope := patch.documentScope.getD settings.documentScope
  distributionScope := patch.distributionScope.getD settings.distributionScope

def applyTo (patch : ProjectPatch) (project : Project) : Except AppError Project := do
  let slug ← patchedText "slug" patch.slug project.slug 100
  let displayName ← patchedText "display_name" patch.displayName project.displayName 200
  let settings ← (patch.applySettings project.settings).validateDraft
  Except.failIf (patch.status.any (· ≠ project.status))
    (.invalidRequest "project lifecycle transitions must use a command")
  pure { project with slug, displayName, settings }

end ProjectPatch

end

/-! ### The repository -/

structure MemoryStartRecord where
  (idempotencyKeyHash requestHash : String)
  view : ProjectStartView

structure MemoryCycleRecord where
  projectId : ProjectId
  previousCycleId : Option Uuid
  configRevisionId : Uuid
  settings : ProjectSettings
  view : CycleReportView

structure MemoryProjectState where
  projects : AssocMap ProjectId Project
  starts : AssocMap ProjectId MemoryStartRecord
  cycles : AssocMap Uuid MemoryCycleRecord

/-- The new identifiers of a cycle. -/
structure CycleIds where
  (cycleId configRevisionId documentManifestId distributionManifestId : Uuid)

structure MemoryProjectRepository where
  state : MemoryProjectState
  failNextStart : Bool

abbrev ProjectOp (α : Type) : Type :=
  Op MemoryProjectRepository AppError α

def awaitingKnowledge (manifestId : Uuid) : DocumentManifestAcceptance where
  manifestId
  revision := 1
  state := "awaiting_knowledge"
  isSealed := false
  expectedCount := none

def awaitingDocuments (manifestId : Uuid) : DistributionManifestAcceptance where
  manifestId
  revision := 1
  state := "awaiting_documents"
  isSealed := false
  expectedCount := none

/-- A scope that may see a project. -/
def TenantScope.seesProject (scope : TenantScope) (project : Project) (id : ProjectId) : Bool :=
  project.operatorId = scope.operatorId ∧ project.tenantId = scope.tenantId ∧ ∀ own ∈ scope.projectId, own = id

namespace MemoryProjectRepository

open Op

def default : MemoryProjectRepository where
  state := { projects := ∅, starts := ∅, cycles := ∅ }
  failNextStart := false

def putProject (id : ProjectId) (project : Project) (s : MemoryProjectRepository) : MemoryProjectRepository :=
  { s with state := { s.state with projects := s.state.projects.insert id project } }

def putStart (id : ProjectId) (record : MemoryStartRecord) (s : MemoryProjectRepository) : MemoryProjectRepository :=
  { s with state := { s.state with starts := s.state.starts.insert id record } }

def putCycle (record : MemoryCycleRecord) (s : MemoryProjectRepository) : MemoryProjectRepository :=
  { s with
    state := { s.state with cycles := s.state.cycles.insert record.view.cycleId record } }

/-- Another project of a tenant has a slug. -/
def slugTaken (s : MemoryProjectState) (operatorId : OperatorId) (tenantId : TenantId)
    (id : ProjectId) (slug : String) : Bool :=
  (AssocMap.values s.projects).any fun candidate =>
    candidate.operatorId = operatorId ∧ candidate.tenantId = tenantId ∧ candidate.slug = slug ∧ candidate.id ≠ id

def slugExists : AppError :=
  .conflict "a project with this slug already exists in the tenant"

def insert (project : Project) : ProjectOp Unit := do
  let taken ← read fun s => slugTaken s.state project.operatorId project.tenantId project.id project.slug
  failIf (taken = true) slugExists
  modify (putProject project.id project)

/-- The project a scope may see. -/
def visibleProject (scope : TenantScope) (id : ProjectId) : ProjectOp Project := do
  let found ← read fun s => s.state.projects.lookup id
  okOr (found.filter fun project => scope.seesProject project id) (.notFound "project not found")

def revisionConflict (expected current : Int) : AppError :=
  .conflict s!"project revision conflict: expected {expected}, current {current}"

section

variable [TimezoneNames] [ClockText]

def create (scope : TenantScope) (input : ProjectCreate) (id : ProjectId) (now : DateTime) : ProjectOp Project := do
  let slug := input.slug.getD ("project-" ++ String.ofList (id.asUuid.toString.toList.take 8))
  let project ← lift (Project.new id scope slug input.displayName input.settings now)
  insert project
  pure project

def update (scope : TenantScope) (id : ProjectId) (expectedRevision : Int) (patch : ProjectPatch)
    (now : DateTime) : ProjectOp UpdateProject := do
  let current ← visibleProject scope id
  failIf (current.revision ≠ expectedRevision) (revisionConflict expectedRevision current.revision)
  -- The slug is compared as it was sent.
  let taken ← read fun s => patch.slug.any (slugTaken s.state scope.operatorId scope.tenantId id)
  failIf (taken = true) slugExists
  let patched ← lift (patch.applyTo current)
  let updated := { patched with revision := patched.revision + 1, updatedAt := now }
  modify (putProject id updated)
  pure { project := updated, previousRevision := current.revision }

/-- The window that is frozen at a start. -/
def startWindow (settings : ProjectSettings) (now : DateTime) : Except AppError ReportWindowUtc :=
  previousCalendarWeekWindow settings.reportTimezone settings.reportSchedule now

def acceptStart (operationId : Uuid) (ids : CycleIds) : ProjectStartAcceptance where
  operationId
  cycleId := ids.cycleId
  configRevisionId := ids.configRevisionId
  documentManifest := awaitingKnowledge ids.documentManifestId
  distributionManifest := awaitingDocuments ids.distributionManifestId
  status := .accepted
  operationUrl := "/api/v1/operations/" ++ operationId.toString

/-- The view of a cycle that has just begun. -/
def cycleView (projectId : ProjectId) (ids : CycleIds) (reportTimezone : String)
    (window : ReportWindowUtc) : CycleReportView where
  projectId
  cycleId := ids.cycleId
  reportTimezone
  reportWindowStartAt := window.1
  reportWindowEndAt := window.2.1
  cutoffAt := window.2.2
  documentManifest := some (awaitingKnowledge ids.documentManifestId)
  distributionManifest := some (awaitingDocuments ids.distributionManifestId)

variable [Sha256]

/-- The first start of a project. -/
def startDraft (id : ProjectId) (current : Project) (command : ProjectStartCommand) (ids : CycleIds)
    (now : DateTime) : ProjectOp ProjectStartAcceptance := do
  failIf (current.status ≠ .draft) (.conflict "project has already been started")
  failIf (current.revision ≠ command.expectedRevision) (revisionConflict command.expectedRevision current.revision)
  let settings ← lift current.settings.validateStart
  let computedSettingsHash := settingsHash settings
  failIf
    (computedSettingsHash ≠ command.settingsHash
      ∨ startRequestHash id command.expectedRevision computedSettingsHash ≠ command.requestHash)
    (.conflict "project settings changed while the start request was being prepared")
  let window ← lift (startWindow settings now)
  let acceptance := acceptStart command.operationId ids
  let injected ← read MemoryProjectRepository.failNextStart
  modify fun s => { s with failNextStart := false }
  failIf (injected = true) (.new .dependencyUnavailable "injected project start failure")
  let view : ProjectStartView :=
    { projectId := id, acceptance, requestedRevision := command.expectedRevision
      settingsHash := computedSettingsHash, reportTimezone := settings.reportTimezone
      reportWindowStartAt := window.1, reportWindowEndAt := window.2.1, cutoffAt := window.2.2 }
  modify (putProject id
    { current with
      status := .active
      revision := current.revision + 1
      updatedAt := now
      currentConfigRevisionId := some ids.configRevisionId
      currentCycleId := some ids.cycleId
      startOperationId := some command.operationId })
  modify (putStart id
    { idempotencyKeyHash := command.idempotencyKeyHash, requestHash := command.requestHash, view })
  modify (putCycle
    { projectId := id
      previousCycleId := none
      configRevisionId := ids.configRevisionId
      settings
      view := cycleView id ids view.reportTimezone window })
  pure acceptance

def start (scope : TenantScope) (id : ProjectId) (command : ProjectStartCommand) (ids : CycleIds)
    (now : DateTime) : ProjectOp ProjectStartAcceptance := do
  let current ← visibleProject scope id
  let record ← read fun s => s.state.starts.lookup id
  match record with
  | some record =>
    failIf (record.idempotencyKeyHash ≠ command.idempotencyKeyHash) (.conflict "project has already been started")
    failIf (record.requestHash ≠ command.requestHash)
      (.conflict "Idempotency-Key was already used with a different project start request")
    pure record.view.acceptance
  | none => startDraft id current command ids now

/-- The successor of a cycle, if it has one. -/
def successorOf (s : MemoryProjectState) (projectId : ProjectId) (predecessorCycleId : Uuid) :
    Option MemoryCycleRecord :=
  (AssocMap.values s.cycles).find? fun cycle =>
    cycle.projectId = projectId ∧ cycle.previousCycleId = some predecessorCycleId

/-- The settings of the next cycle: those of the last one, with the distribution scope of the project. Settings that
change are checked again and get a revision of their own. -/
def successorSettings (project : Project) (predecessor : MemoryCycleRecord) (ids : CycleIds) :
    Except AppError (ProjectSettings × Uuid) :=
  let settings :=
    { predecessor.settings with distributionScope := project.settings.distributionScope }
  if settings ≠ predecessor.settings then do
    let settings ← settings.validateStart
    pure (settings, ids.configRevisionId)
  else pure (settings, predecessor.configRevisionId)

/-- The cycle after the current one. -/
def advance (projectId : ProjectId) (project : Project) (predecessorCycleId : Uuid)
    (predecessor : MemoryCycleRecord) (ids : CycleIds) (now : DateTime) : ProjectOp CycleReportView := do
  failIf (project.status ≠ .active) (.conflict "only active projects can advance cycles")
  failIf (project.currentCycleId ≠ some predecessorCycleId) (.conflict "predecessor is not the current cycle")
  failIf (now < predecessor.view.cutoffAt) (.conflict "predecessor report cutoff has not passed")
  let window ← lift
    (nextCalendarWeekWindow predecessor.view.reportTimezone predecessor.settings.reportSchedule
      predecessor.view.reportWindowEndAt)
  let (settings, configRevisionId) ← lift (successorSettings project predecessor ids)
  let view := cycleView projectId ids predecessor.view.reportTimezone window
  modify (putCycle
    { projectId
      previousCycleId := some predecessorCycleId
      configRevisionId
      settings
      view })
  modify (putProject projectId
    { project with
      currentCycleId := some ids.cycleId
      currentConfigRevisionId := some configRevisionId
      revision := project.revision + 1
      updatedAt := now })
  pure view

def scheduleNextCycle (scope : TenantScope) (projectId : ProjectId) (predecessorCycleId : Uuid)
    (ids : CycleIds) (now : DateTime) : ProjectOp CycleReportView := do
  let project ← visibleProject scope projectId
  let found ← read fun s => s.state.cycles.lookup predecessorCycleId
  let predecessor ← okOr (found.filter fun cycle => cycle.projectId = projectId)
    (.notFound "predecessor cycle not found")
  let existing ← read fun s => successorOf s.state projectId predecessorCycleId
  match existing with
  | some existing => pure existing.view
  | none => advance projectId project predecessorCycleId predecessor ids now

end

end MemoryProjectRepository

/-! ### Runs -/

inductive ProjectCall where
  | create (scope : TenantScope) (input : ProjectCreate) (id : ProjectId) (now : DateTime)
  | update (scope : TenantScope) (id : ProjectId) (expectedRevision : Int) (patch : ProjectPatch) (now : DateTime)
  | start (scope : TenantScope) (id : ProjectId) (command : ProjectStartCommand) (ids : CycleIds) (now : DateTime)
  | scheduleNextCycle (scope : TenantScope) (projectId : ProjectId) (predecessorCycleId : Uuid)
      (ids : CycleIds) (now : DateTime)

inductive ProjectReply where
  | created (project : Project)
  | updated (update : UpdateProject)
  | started (acceptance : ProjectStartAcceptance)
  | cycle (view : CycleReportView)

variable [TimezoneNames] [ClockText] [Sha256]

open MemoryProjectRepository in
def ProjectCall.run : ProjectCall → ProjectOp ProjectReply
  | .create scope input id now => do
    let project ← MemoryProjectRepository.create scope input id now
    pure (.created project)
  | .update scope id expectedRevision patch now => do
    let updated ← MemoryProjectRepository.update scope id expectedRevision patch now
    pure (.updated updated)
  | .start scope id command ids now => do
    let acceptance ← MemoryProjectRepository.start scope id command ids now
    pure (.started acceptance)
  | .scheduleNextCycle scope projectId predecessorCycleId ids now => do
    let view ← MemoryProjectRepository.scheduleNextCycle scope projectId predecessorCycleId ids now
    pure (.cycle view)

abbrev ProjectEvent : Type :=
  CallEvent ProjectCall AppError ProjectReply

/-- The same maps, listed in another order. -/
structure MemoryProjectRepository.Reordered (s s' : MemoryProjectRepository) : Prop where
  projects : ∀ id, s'.state.projects.lookup id = s.state.projects.lookup id
  starts : ∀ id, s'.state.starts.lookup id = s.state.starts.lookup id
  cycles : ∀ id, s'.state.cycles.lookup id = s.state.cycles.lookup id
  failNextStart : s'.failNextStart = s.failNextStart

def projectMachine : Machine MemoryProjectRepository ProjectEvent :=
  callMachine ProjectCall.run MemoryProjectRepository.Reordered

end GeoMaster
