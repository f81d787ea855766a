import GeoMaster.Domain.Projects
import GeoMaster.Proofs.WeekTiling

/-!
# What a call does to the projects

Every call of the project repository does one of five things: nothing, one new project, one edited project, one start, or
one cycle after the current one. `ProjectEffect` lists them with the checks that were passed, and the invariants of the
repository are proved from the list alone.
-/

namespace GeoMaster

open Op Except

open MemoryProjectRepository

/-! ### Reads -/

/-- A project as a scope finds it. -/
def Visible (s : MemoryProjectRepository) (scope : TenantScope) (id : ProjectId) (current : Project) : Prop :=
  s.state.projects.lookup id = some current ∧ scope.seesProject current id = true

theorem visibleProject_readOnly (scope : TenantScope) (id : ProjectId) : (visibleProject scope id).ReadOnly :=
  .bind .read fun _ => .okOr

theorem visibleProject_returns {scope : TenantScope} {id : ProjectId} {s s' : MemoryProjectRepository}
    {current : Project} :
    (visibleProject scope id).Returns s current s' ↔ Visible s scope id current ∧ s' = s := by
  simp only [visibleProject, returns_iff, Option.filter_eq_some_iff, Visible]
  constructor
  · rintro ⟨_, _, ⟨rfl, rfl⟩, ⟨hsome, hsees⟩, rfl⟩
    exact ⟨⟨hsome, hsees⟩, rfl⟩
  · rintro ⟨⟨hsome, hsees⟩, rfl⟩
    exact ⟨_, _, ⟨rfl, rfl⟩, ⟨hsome, hsees⟩, rfl⟩

/-! ### Patches -/

theorem validateText_ok {field value text : String} {max : Nat}
    (h : validateText field value max = .ok text) : text = Text.trim value := by
  simp only [validateText, validateOptionalText, eq_ok_iff] at h
  obtain ⟨_, _, _, _, rfl⟩ := h
  rfl

section

variable [TimezoneNames] [ClockText]

/-- What a patch leaves of a project. -/
structure ProjectPatch.Patched (patch : ProjectPatch) (current patched : Project) : Prop where
  slug : patched.slug = (patch.slug.map Text.trim).getD current.slug
  kept : patched = { current with
    slug := patched.slug, displayName := patched.displayName, settings := patched.settings }

variable {current project : Project} {patch : ProjectPatch} {acceptance : ProjectStartAcceptance}

theorem ProjectPatch.applyTo_ok {patched : Project}
    (h : patch.applyTo current = .ok patched) : patch.Patched current patched := by
  simp only [applyTo, eq_ok_iff] at h
  obtain ⟨slug, hslug, _, -, _, -, _, -, rfl⟩ := h
  refine ⟨?_, rfl⟩
  cases hpatch : patch.slug with
  | none =>
    rw [hpatch] at hslug
    exact (pure_eq_ok.mp hslug).symm
  | some raw =>
    rw [hpatch] at hslug
    exact validateText_ok hslug

variable {command : ProjectStartCommand} {id : ProjectId} {ids : CycleIds} {now : DateTime}
  {s s' : MemoryProjectRepository} {scope : TenantScope}

theorem Project.new_ok {slug displayName : String} {settings : ProjectSettings}
    (h : Project.new id scope slug displayName settings now = .ok project) :
    project.id = id ∧ project.status = .draft ∧ project.revision = 1
      ∧ project.currentCycleId = none ∧ project.currentConfigRevisionId = none := by
  simp only [Project.new, eq_ok_iff] at h
  obtain ⟨_, -, _, -, _, -, _, -, rfl⟩ := h
  exact ⟨rfl, rfl, rfl, rfl, rfl⟩

/-! ### Effects -/

/-- What a start leaves of a project. -/
def Project.started (current : Project) (ids : CycleIds) (operationId : Uuid) (now : DateTime) : Project :=
  { current with
    status := .active
    revision := current.revision + 1
    updatedAt := now
    currentConfigRevisionId := some ids.configRevisionId
    currentCycleId := some ids.cycleId
    startOperationId := some operationId }

/-- The first cycle of a project. -/
def firstCycle (id : ProjectId) (ids : CycleIds) (settings : ProjectSettings)
    (window : ReportWindowUtc) : MemoryCycleRecord where
  projectId := id
  previousCycleId := none
  configRevisionId := ids.configRevisionId
  settings
  view := cycleView id ids settings.reportTimezone window

/-- The cycle after another one. -/
def nextCycle (id : ProjectId) (predecessorCycleId : Uuid) (predecessor : MemoryCycleRecord) (ids : CycleIds)
    (settings : ProjectSettings) (configRevisionId : Uuid) (window : ReportWindowUtc) : MemoryCycleRecord where
  projectId := id
  previousCycleId := some predecessorCycleId
  configRevisionId
  settings
  view := cycleView id ids predecessor.view.reportTimezone window

/-- What the next cycle leaves of a project. -/
def Project.advanced (project : Project) (ids : CycleIds) (configRevisionId : Uuid) (now : DateTime) : Project :=
  { project with
    currentCycleId := some ids.cycleId
    currentConfigRevisionId := some configRevisionId
    revision := project.revision + 1
    updatedAt := now }

/-- The record of a start. -/
structure StartRecordOf (command : ProjectStartCommand) (acceptance : ProjectStartAcceptance)
    (record : MemoryStartRecord) : Prop where
  key : record.idempotencyKeyHash = command.idempotencyKeyHash
  request : record.requestHash = command.requestHash
  acceptance : record.view.acceptance = acceptance

inductive ProjectEffect (s : MemoryProjectRepository) :
    ProjectCall → Except AppError ProjectReply → MemoryProjectRepository → Prop where
  | refused (call : ProjectCall) (error : AppError) : ProjectEffect s call (.error error) s
  | created {scope : TenantScope} {input : ProjectCreate} {id : ProjectId} {now : DateTime} {project : Project}
      (hid : project.id = id) (hstatus : project.status = .draft) (hrevision : project.revision = 1)
      (hcycle : project.currentCycleId = none) (hconfig : project.currentConfigRevisionId = none)
      (hslug : ¬ slugTaken s.state project.operatorId project.tenantId id project.slug = true) :
      ProjectEffect s (.create scope input id now) (.ok (.created project)) (putProject id project s)
  | updated {scope : TenantScope} {id : ProjectId} {patch : ProjectPatch} {now : DateTime} {current patched : Project}
      (hvisible : Visible s scope id current)
      (hslug : ∀ raw ∈ patch.slug, ¬ slugTaken s.state scope.operatorId scope.tenantId id raw = true)
      (hpatched : patch.applyTo current = .ok patched) :
      ProjectEffect s (.update scope id current.revision patch now)
        (.ok (.updated
          { project := { patched with revision := patched.revision + 1, updatedAt := now }
            previousRevision := current.revision }))
        (putProject id { patched with revision := patched.revision + 1, updatedAt := now } s)
  | restarted {scope : TenantScope} {id : ProjectId} {command : ProjectStartCommand} {ids : CycleIds} {now : DateTime}
      {current : Project} {record : MemoryStartRecord} (hvisible : Visible s scope id current)
      (hrecord : s.state.starts.lookup id = some record)
      (hsame : StartRecordOf command record.view.acceptance record) :
      ProjectEffect s (.start scope id command ids now) (.ok (.started record.view.acceptance)) s
  | started {scope : TenantScope} {id : ProjectId} {command : ProjectStartCommand} {ids : CycleIds} {now : DateTime}
      {current : Project} {settings : ProjectSettings} {window : ReportWindowUtc} {record : MemoryStartRecord}
      (hvisible : Visible s scope id current) (hdraft : current.status = .draft)
      (hnew : s.state.starts.lookup id = none) (hsettings : current.settings.validateStart = .ok settings)
      (hwindow : startWindow settings now = .ok window)
      (hrecord : StartRecordOf command (acceptStart command.operationId ids) record) :
      ProjectEffect s (.start scope id command ids now) (.ok (.started (acceptStart command.operationId ids)))
        (putCycle (firstCycle id ids settings window)
          (putStart id record (putProject id (current.started ids command.operationId now) s)))
  | found {scope : TenantScope} {id : ProjectId} {predecessorCycleId : Uuid} {ids : CycleIds} {now : DateTime}
      {existing : MemoryCycleRecord} (hexisting : successorOf s.state id predecessorCycleId = some existing) :
      ProjectEffect s (.scheduleNextCycle scope id predecessorCycleId ids now) (.ok (.cycle existing.view)) s
  | advanced {scope : TenantScope} {id : ProjectId} {predecessorCycleId : Uuid} {ids : CycleIds} {now : DateTime}
      {project : Project} {predecessor : MemoryCycleRecord} {settings : ProjectSettings} {configRevisionId : Uuid}
      {window : ReportWindowUtc} (hvisible : Visible s scope id project)
      (hpredecessor : s.state.cycles.lookup predecessorCycleId = some predecessor)
      (hproject : predecessor.projectId = id) (hcurrent : project.currentCycleId = some predecessorCycleId)
      (hwindow : nextCalendarWeekWindow predecessor.view.reportTimezone
        predecessor.settings.reportSchedule predecessor.view.reportWindowEndAt = .ok window)
      (hsettings : successorSettings project predecessor ids = .ok (settings, configRevisionId)) :
      ProjectEffect s (.scheduleNextCycle scope id predecessorCycleId ids now)
        (.ok (.cycle (cycleView id ids predecessor.view.reportTimezone window)))
        (putProject id (project.advanced ids configRevisionId now)
          (putCycle (nextCycle id predecessorCycleId predecessor ids settings configRevisionId window) s))

/-! ### Failing calls -/

theorem create_atomic (scope : TenantScope) (input : ProjectCreate) (id : ProjectId) (now : DateTime) :
    (MemoryProjectRepository.create scope input id now).Atomic := by
  refine .bind .lift fun project => .bind_total ?_ fun _ => .pure
  exact .bind .read fun taken => .bind .failIf fun _ => Op.Total.modify.atomic

theorem update_atomic (scope : TenantScope) (id : ProjectId) (expectedRevision : Int) (patch : ProjectPatch)
    (now : DateTime) : (MemoryProjectRepository.update scope id expectedRevision patch now).Atomic := by
  refine .bind (visibleProject_readOnly scope id) fun current => .bind .failIf fun _ => ?_
  refine .bind .read fun taken => .bind .failIf fun _ => .bind .lift fun patched => ?_
  exact (Op.Total.bind .modify fun _ => .pure).atomic

variable [Sha256]

/-- Nothing is written before the last check, where no failure is injected. -/
theorem startDraft_failed {e : AppError} (hflag : s.failNextStart = false)
    (h : (startDraft id current command ids now).Fails s e s') : s' = s := by
  have hsame : { s with failNextStart := false } = s := by rw [← hflag]
  simp only [startDraft, fails_iff, returns_iff, false_or, or_false, and_false, exists_false, exists_and_left, exists_eq_left'] at h
  grind

theorem start_failed {e : AppError} (hflag : s.failNextStart = false)
    (h : (MemoryProjectRepository.start scope id command ids now).Fails s e s') : s' = s := by
  rcases fails_bind.mp h with hfirst | ⟨current, s₁, hvisible, hrest⟩
  · exact (visibleProject_readOnly scope id).atomic.failed s e s' hfirst
  · obtain rfl := (visibleProject_readOnly scope id).returns hvisible
    rcases fails_bind.mp hrest with hread | ⟨record, s₂, hread, hcase⟩
    · exact absurd hread not_fails_read
    · obtain ⟨-, rfl⟩ := returns_read.mp hread
      cases record with
      | none => exact startDraft_failed hflag hcase
      | some record =>
        have hreadOnly : (do
            failIf (record.idempotencyKeyHash ≠ command.idempotencyKeyHash)
              (.conflict "project has already been started")
            failIf (record.requestHash ≠ command.requestHash)
              (.conflict "Idempotency-Key was already used with a different project start request")
            pure record.view.acceptance : ProjectOp ProjectStartAcceptance).ReadOnly :=
          .bind .failIf fun _ => .bind .failIf fun _ => .pure
        exact hreadOnly.atomic.failed _ e s' hcase

omit [Sha256] in
theorem scheduleNextCycle_atomic (scope : TenantScope) (id : ProjectId) (predecessorCycleId : Uuid) (ids : CycleIds)
    (now : DateTime) : (MemoryProjectRepository.scheduleNextCycle scope id predecessorCycleId ids now).Atomic := by
  refine .bind (visibleProject_readOnly scope id) fun project => .bind .read fun found => ?_
  refine .bind .okOr fun predecessor => .bind .read fun existing => ?_
  cases existing with
  | some existing => exact Op.ReadOnly.pure.atomic
  | none =>
    refine .bind .failIf fun _ => .bind .failIf fun _ => .bind .failIf fun _ => ?_
    refine .bind .lift fun window => .bind .lift fun settings => ?_
    exact (Op.Total.bind .modify fun _ => .bind .modify fun _ => .pure).atomic

/-! ### Calls that return -/

omit [Sha256] in
theorem create_effect {input : ProjectCreate}
    (h : (MemoryProjectRepository.create scope input id now).Returns s project s') :
    ProjectEffect s (.create scope input id now) (.ok (.created project)) s' := by
  simp only [MemoryProjectRepository.create, MemoryProjectRepository.insert, returns_iff] at h
  obtain ⟨_, _, ⟨hnew, rfl⟩, _, _, ⟨_, _, ⟨rfl, rfl⟩, _, _, ⟨htaken, rfl⟩, hput⟩, rfl, rfl⟩ := h
  obtain ⟨hid, hstatus, hrevision, hcycle, hconfig⟩ := Project.new_ok hnew
  rw [hid] at htaken hput
  rw [← hput]
  exact .created hid hstatus hrevision hcycle hconfig htaken

omit [Sha256] in
theorem update_effect {expectedRevision : Int} {reply : UpdateProject}
    (h : (MemoryProjectRepository.update scope id expectedRevision patch now).Returns s reply s') :
    ProjectEffect s (.update scope id expectedRevision patch now) (.ok (.updated reply)) s' := by
  obtain ⟨_, _, hvisible, hrest⟩ := returns_bind.mp h
  obtain ⟨hvisible, rfl⟩ := visibleProject_returns.mp hvisible
  simp only [returns_iff] at hrest
  obtain ⟨_, _, ⟨hrevision, rfl⟩, _, _, ⟨rfl, rfl⟩, _, _, ⟨htaken, rfl⟩, patched, _, ⟨hpatched, rfl⟩,
    _, _, rfl, rfl, rfl⟩ := hrest
  obtain rfl := not_not.mp hrevision
  refine .updated hvisible ?_ hpatched
  intro raw hraw htaken'
  refine htaken ?_
  rw [hraw]
  exact htaken'

theorem startDraft_effect (hvisible : Visible s scope id current) (hnew : s.state.starts.lookup id = none)
    (hflag : s.failNextStart = false) (h : (startDraft id current command ids now).Returns s acceptance s') :
    ProjectEffect s (.start scope id command ids now) (.ok (.started acceptance)) s' := by
  have hsame : { s with failNextStart := false } = s := by rw [← hflag]
  simp only [startDraft, returns_iff] at h
  obtain ⟨_, _, ⟨hdraft, rfl⟩, _, _, ⟨hrevision, rfl⟩, settings, _, ⟨hsettings, rfl⟩, _, _, ⟨hhash, rfl⟩,
    window, _, ⟨hwindow, rfl⟩, _, _, ⟨rfl, rfl⟩, _, _, rfl, _, _, ⟨-, rfl⟩, _, _, rfl, _, _, rfl, _, _,
    rfl, rfl, rfl⟩ := h
  rw [hsame]
  exact .started hvisible (not_not.mp hdraft) hnew hsettings hwindow ⟨rfl, rfl, rfl⟩

theorem start_effect (hflag : s.failNextStart = false)
    (h : (MemoryProjectRepository.start scope id command ids now).Returns s acceptance s') :
    ProjectEffect s (.start scope id command ids now) (.ok (.started acceptance)) s' := by
  obtain ⟨_, _, hvisible, hrest⟩ := returns_bind.mp h
  obtain ⟨hvisible, rfl⟩ := visibleProject_returns.mp hvisible
  obtain ⟨record, _, hread, hcase⟩ := returns_bind.mp hrest
  obtain ⟨hlook, rfl⟩ := returns_read.mp hread
  cases record with
  | none => exact startDraft_effect hvisible hlook hflag hcase
  | some record =>
    simp only [returns_iff] at hcase
    obtain ⟨_, _, ⟨hkey, rfl⟩, _, _, ⟨hrequest, rfl⟩, rfl, rfl⟩ := hcase
    exact .restarted hvisible hlook ⟨not_not.mp hkey, not_not.mp hrequest, rfl⟩

omit [Sha256] in
theorem scheduleNextCycle_effect {predecessorCycleId : Uuid} {view : CycleReportView}
    (h : (MemoryProjectRepository.scheduleNextCycle scope id predecessorCycleId ids now).Returns s view s') :
    ProjectEffect s (.scheduleNextCycle scope id predecessorCycleId ids now) (.ok (.cycle view)) s' := by
  obtain ⟨_, _, hvisible, hrest⟩ := returns_bind.mp h
  obtain ⟨hvisible, rfl⟩ := visibleProject_returns.mp hvisible
  obtain ⟨found, _, hread, hchecks⟩ := returns_bind.mp hrest
  obtain ⟨hlook, rfl⟩ := returns_read.mp hread
  obtain ⟨_, _, hfound, hlast⟩ := returns_bind.mp hchecks
  obtain ⟨hfilter, rfl⟩ := returns_okOr.mp hfound
  obtain ⟨rfl, hproject⟩ := Option.filter_eq_some_iff.mp hfilter
  obtain ⟨existing, _, hsuccessor, hcase⟩ := returns_bind.mp hlast
  obtain ⟨hexisting, rfl⟩ := returns_read.mp hsuccessor
  cases existing with
  | some existing =>
    obtain ⟨rfl, rfl⟩ := returns_pure.mp hcase
    exact .found hexisting
  | none =>
    simp only [advance, returns_iff] at hcase
    obtain ⟨_, _, ⟨-, rfl⟩, _, _, ⟨hcurrent, rfl⟩, _, _, ⟨-, rfl⟩, window, _, ⟨hwindow, rfl⟩, settings,
      _, ⟨hsettings, rfl⟩, _, _, rfl, _, _, rfl, rfl, rfl⟩ := hcase
    exact .advanced hvisible hlook (by simpa using hproject) (not_not.mp hcurrent) hwindow hsettings

theorem run_projectEffect {call : ProjectCall} {reply : Except AppError ProjectReply}
    (hflag : s.failNextStart = false) (h : call.run.run s = (reply, s')) : ProjectEffect s call reply s' := by
  cases reply with
  | error e =>
    have hsame : s' = s := by
      have hfails : call.run.Fails s e s' := h
      cases call with
      | create scope input id now =>
        exact (Op.Atomic.bind_total (create_atomic scope input id now) fun _ => .pure).failed s e s' h
      | update scope id expectedRevision patch now =>
        exact (Op.Atomic.bind_total (update_atomic scope id expectedRevision patch now) fun _ => .pure).failed s e s' h
      | start =>
        rcases fails_bind.mp hfails with hstart | ⟨_, _, -, hpure⟩
        · exact start_failed hflag hstart
        · exact absurd hpure not_fails_pure
      | scheduleNextCycle scope id predecessorCycleId ids now =>
        exact (Op.Atomic.bind_total (scheduleNextCycle_atomic scope id predecessorCycleId ids now)
          fun _ => .pure).failed s e s' h
    rw [hsame]
    exact .refused call e
  | ok reply =>
    have hreturns : call.run.Returns s reply s' := h
    cases call with
    | create =>
      obtain ⟨_, _, hcreate, hpure⟩ := returns_bind.mp hreturns
      obtain ⟨rfl, rfl⟩ := returns_pure.mp hpure
      exact create_effect hcreate
    | update =>
      obtain ⟨_, _, hupdate, hpure⟩ := returns_bind.mp hreturns
      obtain ⟨rfl, rfl⟩ := returns_pure.mp hpure
      exact update_effect hupdate
    | start =>
      obtain ⟨_, _, hstart, hpure⟩ := returns_bind.mp hreturns
      obtain ⟨rfl, rfl⟩ := returns_pure.mp hpure
      exact start_effect hflag hstart
    | scheduleNextCycle =>
      obtain ⟨_, _, hschedule, hpure⟩ := returns_bind.mp hreturns
      obtain ⟨rfl, rfl⟩ := returns_pure.mp hpure
      exact scheduleNextCycle_effect hschedule

end

end GeoMaster
