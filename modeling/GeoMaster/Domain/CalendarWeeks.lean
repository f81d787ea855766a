import GeoMaster.Domain.ProjectSettings

/-!
# Calendar weeks

The windows of weekly reports. A window is a local week from Monday to Monday, frozen as instants; its cutoff is the
scheduled weekday and time after it. A local time that is repeated counts at its first showing, and one that is skipped
at the first minute after it that is shown.
-/

namespace GeoMaster

open Except

open LocalTime (TimeZone dateOf midnight weekday minute)

def ReportWeekday.numDaysFromMonday : ReportWeekday → Int
  | .monday => 0
  | .tuesday => 1
  | .wednesday => 2
  | .thursday => 3
  | .friday => 4
  | .saturday => 5
  | .sunday => 6

/-- `NaiveDate::and_time`. -/
def andTime (date : Int) (time : Fin 1440) : Int :=
  midnight date + time.val * minute

/-- The start, the end and the cutoff of a report. -/
abbrev ReportWindowUtc : Type :=
  DateTime × DateTime × DateTime

def cutoffAfter (zone : TimeZone) (scheduled : ReportWeekday) (time : Fin 1440) (floor : DateTime) : DateTime :=
  let date := dateOf (zone.toLocal floor)
  let date := date + (7 + scheduled.numDaysFromMonday - weekday date) % 7
  let cutoff := zone.resolve (andTime date time)
  if cutoff < floor then zone.resolve (andTime (date + 7) time) else cutoff

section

variable [TimezoneNames] [ClockText]

def parseTimezone (timezone : String) : Except AppError TimeZone :=
  okOr (TimezoneNames.parse timezone) (.invalidRequest "report_timezone must be a valid IANA timezone")

def reportTime (schedule : ReportSchedule) : Except AppError (Fin 1440) :=
  okOr (ClockText.parse schedule.reportLocalTime) (.invalidRequest "report_schedule.report_local_time must be HH:MM")

def cutoffTime (schedule : ReportSchedule) : Except AppError (Fin 1440) :=
  okOr (ClockText.parse schedule.cutoffLocalTime) (.invalidRequest "report_schedule.cutoff_local_time must be HH:MM")

/-- The date of the next scheduled report after an instant. -/
def nextReportDate (zone : TimeZone) (schedule : ReportSchedule) (time : Fin 1440) (now : DateTime) : Int :=
  let today := dateOf (zone.toLocal now)
  let date := today + (7 + schedule.reportWeekday.numDaysFromMonday - weekday today) % 7
  if zone.resolve (andTime date time) ≤ now then date + 7 else date

/-- The calendar week before the next report. -/
def previousCalendarWeekWindow (timezone : String) (schedule : ReportSchedule) (now : DateTime) :
    Except AppError ReportWindowUtc := do
  let zone ← parseTimezone timezone
  let reportTime ← reportTime schedule
  let cutoffTime ← cutoffTime schedule
  let reportDate := nextReportDate zone schedule reportTime now
  let reportWeekMonday := reportDate - weekday reportDate
  let periodEnd := zone.resolve (midnight reportWeekMonday)
  let cutoff := cutoffAfter zone schedule.cutoffWeekday cutoffTime periodEnd
  pure (zone.resolve (midnight (reportWeekMonday - 7)), periodEnd, cutoff)

/-- The week right after another one. -/
def nextCalendarWeekWindow (timezone : String) (schedule : ReportSchedule)
    (predecessorEndAt : DateTime) : Except AppError ReportWindowUtc := do
  let zone ← parseTimezone timezone
  let localEnd := dateOf (zone.toLocal predecessorEndAt)
  let start := zone.resolve (midnight localEnd)
  failIf (start ≠ predecessorEndAt ∨ weekday localEnd ≠ 0)
    (.invalidRequest "predecessor report window must end at local Monday midnight")
  let periodEnd := zone.resolve (midnight (localEnd + 7))
  let cutoffTime ← cutoffTime schedule
  let cutoff := cutoffAfter zone schedule.cutoffWeekday cutoffTime periodEnd
  pure (start, periodEnd, cutoff)

/-! ### Weekly measurements -/

structure MeasurementPeriodWindow where
  (startAt endAt : DateTime)
  reportTimezone : String

structure MeasurementWeeklySchedule where
  id : Uuid
  scope : TenantScope
  window : MeasurementPeriodWindow
  (evidenceAsOf reportAt dueAt : DateTime)
  reportSchedule : ReportSchedule
  reportId : Option Uuid

def freezeWeek (id : Uuid) (scope : TenantScope) (timezone : String) (schedule : ReportSchedule)
    (startAt endAt : DateTime) : Except AppError MeasurementWeeklySchedule := do
  failIf scope.projectId.isNone (.forbidden "project scope required")
  let zone ← parseTimezone timezone
  let reportTime ← reportTime schedule
  let cutoffTime ← cutoffTime schedule
  let reportAt := cutoffAfter zone schedule.reportWeekday reportTime endAt
  let evidenceAsOf := cutoffAfter zone schedule.cutoffWeekday cutoffTime endAt
  pure
    { id, scope, window := { startAt, endAt, reportTimezone := timezone }, evidenceAsOf, reportAt
      dueAt := max reportAt evidenceAsOf, reportSchedule := schedule, reportId := none }

/-- The week before the next scheduled report. -/
def firstMeasurementWeek (id : Uuid) (scope : TenantScope) (timezone : String)
    (schedule : ReportSchedule) (now : DateTime) : Except AppError MeasurementWeeklySchedule := do
  let (startAt, endAt, _) ← previousCalendarWeekWindow timezone schedule now
  freezeWeek id scope timezone schedule startAt endAt

/-- The week after another one, under settings that may have changed. -/
def nextMeasurementWeek (id : Uuid) (predecessor : MeasurementWeeklySchedule) (timezone : String)
    (schedule : ReportSchedule) : Except AppError MeasurementWeeklySchedule := do
  let zone ← parseTimezone timezone
  let date := dateOf (zone.toLocal predecessor.window.endAt)
  let monday := date - weekday date
  freezeWeek id predecessor.scope timezone schedule (zone.resolve (midnight monday))
    (zone.resolve (midnight (monday + 7)))

end

end GeoMaster
