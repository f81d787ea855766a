import GeoMaster.Domain.CalendarWeeks

/-!
# Weekly windows tile local time

A week is bounded by the instants at which two Mondays begin, one week apart. Beginning a date resolves its midnight, and
the instant found shows that date, so the week after another one is found from the end of the other one alone. Where a
clock that is set back only shows again what it has shown, the cutoff is on the first scheduled weekday from the end of
the week on, and no other scheduled time comes between.
-/

namespace LocalTime.TimeZone

variable (zone : TimeZone)

/-- The first instant that shows a local time. -/
def FirstShowing (localTime instant : Int) : Prop :=
  zone.toLocal instant = localTime ∧ ∀ other, zone.toLocal other = localTime → instant ≤ other

/-- The first instant that shows a local time, or the first minute after it that is ever shown. -/
def FirstShown (localTime instant : Int) : Prop :=
  ∃ k : Nat, k < 1440 ∧ zone.FirstShowing (localTime + k * minute) instant
    ∧ ∀ i < k, ∀ other, zone.toLocal other ≠ localTime + (i : Nat) * minute

theorem firstShown_resolve (localTime : Int) : zone.FirstShown localTime (zone.resolve localTime) := by
  obtain ⟨k, hk, heq, hbefore⟩ := zone.resolve_spec localTime
  exact ⟨k, hk, zone.shown heq, fun i hi => zone.skipped (hbefore i hi)⟩

theorem FirstShowing.eq_resolve {localTime instant : Int}
    (h : zone.FirstShowing localTime instant) : instant = zone.resolve localTime := by
  have hresolve := zone.resolve_of_shown h.1
  exact le_antisymm (h.2 _ hresolve.1) hresolve.2

end LocalTime.TimeZone

namespace GeoMaster

open Except Option

open LocalTime

/-! ### Dates -/

theorem weekday_add_week (date : Int) : weekday (date + 7) = weekday date := by
  unfold weekday
  omega

theorem weekday_sub_weekday (date : Int) : weekday (date - weekday date) = 0 := by
  unfold weekday
  omega

namespace ReportWeekday

theorem numDaysFromMonday_range (scheduled : ReportWeekday) :
    0 ≤ scheduled.numDaysFromMonday ∧ scheduled.numDaysFromMonday < 7 := by
  cases scheduled <;> decide

end ReportWeekday

theorem andTime_add (date days : Int) (time : Fin 1440) :
    andTime (date + days) time = andTime date time + days * day := by
  unfold andTime
  rw [midnight_add]
  ring

theorem midnight_eq_andTime (date : Int) : midnight date = andTime date 0 := by
  simp [andTime]

theorem andTime_lt {date date' : Int} (h : date < date') (time time' : Fin 1440) :
    andTime date time < andTime date' time' := by
  have hminutes : date * 1440 + time.val < date' * 1440 + time'.val := by omega
  have hpos := minute_pos
  unfold andTime midnight day
  nlinarith

/-! ### Cutoffs -/

section Cutoff

variable {zone : TimeZone} {monday : Int}

theorem resolve_andTime_mono (hzone : zone.Retraces) {date date' : Int} {time time' : Fin 1440}
    (h : date * 1440 + time.val ≤ date' * 1440 + time'.val) :
    zone.resolve (andTime date time) ≤ zone.resolve (andTime date' time') := by
  have hminutes : andTime date' time'
      = andTime date time + ((date' * 1440 + time'.val) - (date * 1440 + time.val)).toNat * minute := by
    rw [Int.toNat_of_nonneg (by omega)]
    unfold andTime midnight day
    ring
  rw [hminutes]
  exact hzone.resolve_mono _ _

/-- A week that ends on a Monday is over before anything scheduled in the next one. -/
theorem weekEnd_le (hzone : zone.Retraces) (scheduled : ReportWeekday) (time : Fin 1440) :
    zone.resolve (midnight monday) ≤ zone.resolve (andTime (monday + scheduled.numDaysFromMonday) time) := by
  have hrange := scheduled.numDaysFromMonday_range
  rw [midnight_eq_andTime]
  apply resolve_andTime_mono hzone
  simp
  omega

theorem cutoffAfter_monday (hzone : zone.Retraces) (hmonday : weekday monday = 0)
    (scheduled : ReportWeekday) (time : Fin 1440) :
    cutoffAfter zone scheduled time (zone.resolve (midnight monday))
      = zone.resolve (andTime (monday + scheduled.numDaysFromMonday) time) := by
  have hrange := scheduled.numDaysFromMonday_range
  have hdays : (7 + scheduled.numDaysFromMonday - 0) % 7 = scheduled.numDaysFromMonday := by omega
  simp only [cutoffAfter, zone.dateOf_resolve_midnight, hmonday, hdays]
  rw [if_neg (not_lt.mpr (weekEnd_le hzone scheduled time))]

/-- A cutoff is the scheduled time of the week that begins at the end, and no other scheduled time is shown for the
first time in between. -/
structure IsCutoff (zone : TimeZone) (scheduled : ReportWeekday) (time : Fin 1440) (monday : Int)
    (endAt cutoff : DateTime) : Prop where
  due : zone.FirstShown (andTime (monday + scheduled.numDaysFromMonday) time) cutoff
  notBefore : endAt ≤ cutoff
  first : ∀ date instant, weekday date = scheduled.numDaysFromMonday →
    zone.FirstShowing (andTime date time) instant → endAt ≤ instant → cutoff ≤ instant

theorem isCutoff_cutoffAfter (hzone : zone.Retraces) (hmonday : weekday monday = 0)
    (scheduled : ReportWeekday) (time : Fin 1440) :
    IsCutoff zone scheduled time monday (zone.resolve (midnight monday))
      (cutoffAfter zone scheduled time (zone.resolve (midnight monday))) := by
  rw [cutoffAfter_monday hzone hmonday scheduled time]
  refine ⟨zone.firstShown_resolve _, weekEnd_le hzone scheduled time, ?_⟩
  intro date instant hweekday hfirst hend
  have hinstant := hfirst.eq_resolve
  rw [hinstant] at hend ⊢
  have hrange := scheduled.numDaysFromMonday_range
  rcases lt_or_ge date (monday + scheduled.numDaysFromMonday) with hearly | hlate
  · -- The scheduled time of an earlier week is over when the week ends.
    have hbefore : date < monday := by
      unfold weekday at *
      omega
    have hle : zone.resolve (andTime date time) ≤ zone.resolve (midnight monday) := by
      rw [midnight_eq_andTime]
      apply resolve_andTime_mono hzone
      simp
      omega
    have hshows := (zone.toLocal_resolve (midnight monday)).1
    rw [← le_antisymm hle hend, ← hinstant, hfirst.1, midnight_eq_andTime] at hshows
    exact absurd (andTime_lt hbefore time 0) (not_lt.mpr hshows)
  · exact resolve_andTime_mono hzone (by omega)

theorem cutoffAfter_lt (hzone : zone.Retraces) (hmonday : weekday monday = 0)
    (scheduled : ReportWeekday) (time : Fin 1440) :
    cutoffAfter zone scheduled time (zone.resolve (midnight monday))
      < cutoffAfter zone scheduled time (zone.resolve (midnight (monday + 7))) := by
  have hmonday' : weekday (monday + 7) = 0 := by rw [weekday_add_week, hmonday]
  rw [cutoffAfter_monday hzone hmonday, cutoffAfter_monday hzone hmonday']
  have hweek : andTime (monday + 7 + scheduled.numDaysFromMonday) time
      = andTime (monday + scheduled.numDaysFromMonday) time + 7 * day := by
    rw [show monday + 7 + scheduled.numDaysFromMonday = monday + scheduled.numDaysFromMonday + 7 by
      ring, andTime_add]
  have hfirst := (zone.resolve_near (andTime (monday + scheduled.numDaysFromMonday) time)).2
  have hsecond := (zone.resolve_near (andTime (monday + 7 + scheduled.numDaysFromMonday) time)).1
  have hday := day_pos
  rw [hweek] at hsecond ⊢
  linarith

end Cutoff

/-! ### Weeks -/

/-- The window of the week that begins on a Monday. -/
def calendarWeek (zone : TimeZone) (scheduled : ReportWeekday) (time : Fin 1440) (monday : Int) : ReportWindowUtc :=
  (zone.resolve (midnight monday), zone.resolve (midnight (monday + 7)),
    cutoffAfter zone scheduled time (zone.resolve (midnight (monday + 7))))

/-- A window is the local week from a Monday to the next one, each from the first time of the day that is shown. -/
structure IsLocalWeek (zone : TimeZone) (monday : Int) (week : ReportWindowUtc) : Prop where
  onMonday : weekday monday = 0
  start : zone.FirstShown (midnight monday) week.1
  finish : zone.FirstShown (midnight (monday + 7)) week.2.1

theorem isLocalWeek_calendarWeek (zone : TimeZone) (scheduled : ReportWeekday) (time : Fin 1440)
    {monday : Int} (hmonday : weekday monday = 0) :
    IsLocalWeek zone monday (calendarWeek zone scheduled time monday) where
  onMonday := hmonday
  start := zone.firstShown_resolve _
  finish := zone.firstShown_resolve _

section Weeks

variable [TimezoneNames] [ClockText]

/-- The settings name a zone and two clock times. -/
structure ReportSchedule.Timed (timezone : String) (schedule : ReportSchedule) (zone : TimeZone)
    (report cutoff : Fin 1440) : Prop where
  zone : TimezoneNames.parse timezone = some zone
  report : ClockText.parse schedule.reportLocalTime = some report
  cutoff : ClockText.parse schedule.cutoffLocalTime = some cutoff

variable {timezone : String} {schedule : ReportSchedule} {zone : TimeZone} {report cutoff : Fin 1440}

theorem previousCalendarWeekWindow_ok (h : schedule.Timed timezone zone report cutoff)
    (now : DateTime) : ∃ monday, weekday monday = 0
      ∧ previousCalendarWeekWindow timezone schedule now
        = .ok (calendarWeek zone schedule.cutoffWeekday cutoff monday) := by
  have hrun := weekday_sub_weekday (nextReportDate zone schedule report now)
  generalize hnext : nextReportDate zone schedule report now - weekday _ = monday at hrun
  refine ⟨monday - 7, by rw [← weekday_add_week, sub_add_cancel, hrun], ?_⟩
  unfold previousCalendarWeekWindow parseTimezone reportTime cutoffTime
  rw [h.zone, h.report, h.cutoff, calendarWeek, sub_add_cancel, ← hnext]
  rfl

theorem nextCalendarWeekWindow_ok (h : schedule.Timed timezone zone report cutoff) {monday : Int}
    (hmonday : weekday monday = 0) :
    nextCalendarWeekWindow timezone schedule (zone.resolve (midnight monday))
      = .ok (calendarWeek zone schedule.cutoffWeekday cutoff monday) := by
  unfold nextCalendarWeekWindow parseTimezone cutoffTime
  rw [h.zone, h.cutoff]
  show (do
    failIf
      (zone.resolve (midnight (dateOf (zone.toLocal (zone.resolve (midnight monday))))) ≠ zone.resolve (midnight monday)
        ∨ weekday (dateOf (zone.toLocal (zone.resolve (midnight monday)))) ≠ 0) _
    _) = _
  rw [zone.dateOf_resolve_midnight, hmonday, failIf, if_neg (by simp)]
  rfl

variable {scope : TenantScope}

theorem freezeWeek_ok (h : schedule.Timed timezone zone report cutoff) (id : Uuid) (hscope : scope.projectId.isSome) (startAt endAt : DateTime) :
    ∃ week, freezeWeek id scope timezone schedule startAt endAt = .ok week
      ∧ week.window = { startAt, endAt, reportTimezone := timezone }
      ∧ week.evidenceAsOf = cutoffAfter zone schedule.cutoffWeekday cutoff endAt := by
  unfold freezeWeek parseTimezone reportTime cutoffTime
  have hproject : ¬ scope.projectId.isNone = true := by simpa using isSome_iff_ne_none.mp hscope
  rw [h.zone, h.report, h.cutoff, failIf, if_neg hproject]
  exact ⟨_, rfl, rfl, rfl⟩

/-- The windows of weekly measurements are these weeks. -/
structure MeasuresWeeks (timezone : String) (schedule : ReportSchedule) (zone : TimeZone)
    (now : DateTime) (week : Nat → ReportWindowUtc) : Prop where
  first : ∀ id scope, scope.projectId.isSome →
    ∃ measured, firstMeasurementWeek id scope timezone schedule now = .ok measured
      ∧ measured.window = { startAt := (week 0).1, endAt := (week 0).2.1, reportTimezone := timezone }
      ∧ measured.evidenceAsOf = (week 0).2.2
  next : ∀ n id predecessor (schedule' : ReportSchedule) report cutoff,
    schedule'.Timed timezone zone report cutoff → predecessor.scope.projectId.isSome →
    predecessor.window.endAt = (week n).2.1 →
    ∃ measured, nextMeasurementWeek id predecessor timezone schedule' = .ok measured
      ∧ measured.window = { startAt := (week (n + 1)).1, endAt := (week (n + 1)).2.1, reportTimezone := timezone }
      ∧ (schedule' = schedule → measured.evidenceAsOf = (week (n + 1)).2.2)

theorem firstMeasurementWeek_ok (h : schedule.Timed timezone zone report cutoff) {now : DateTime}
    {week : ReportWindowUtc} (hweek : previousCalendarWeekWindow timezone schedule now = .ok week)
    (id : Uuid) (hscope : scope.projectId.isSome) :
    ∃ measured, firstMeasurementWeek id scope timezone schedule now = .ok measured
      ∧ measured.window = { startAt := week.1, endAt := week.2.1, reportTimezone := timezone }
      ∧ measured.evidenceAsOf = cutoffAfter zone schedule.cutoffWeekday cutoff week.2.1 := by
  rw [firstMeasurementWeek, hweek]
  exact freezeWeek_ok h id hscope week.1 week.2.1

theorem nextMeasurementWeek_ok (h : schedule.Timed timezone zone report cutoff) (id : Uuid)
    {predecessor : MeasurementWeeklySchedule} (hscope : predecessor.scope.projectId.isSome) {monday : Int}
    (hmonday : weekday monday = 0) (hend : predecessor.window.endAt = zone.resolve (midnight monday)) :
    ∃ measured, nextMeasurementWeek id predecessor timezone schedule = .ok measured
      ∧ measured.window
        = { startAt := zone.resolve (midnight monday)
            endAt := zone.resolve (midnight (monday + 7))
            reportTimezone := timezone }
      ∧ measured.evidenceAsOf
        = cutoffAfter zone schedule.cutoffWeekday cutoff (zone.resolve (midnight (monday + 7))) := by
  rw [nextMeasurementWeek, parseTimezone, h.zone, hend]
  show ∃ measured, freezeWeek _ _ _ _
      (zone.resolve (midnight (dateOf (zone.toLocal (zone.resolve (midnight monday)))
        - weekday (dateOf (zone.toLocal (zone.resolve (midnight monday)))))))
      (zone.resolve (midnight (dateOf (zone.toLocal (zone.resolve (midnight monday)))
        - weekday (dateOf (zone.toLocal (zone.resolve (midnight monday)))) + 7))) = _ ∧ _
  rw [zone.dateOf_resolve_midnight, hmonday, sub_zero]
  exact freezeWeek_ok h id hscope _ _

/-- Windows from a Monday on, each right after the one before it. -/
structure TilesWeeks (timezone : String) (schedule : ReportSchedule) (zone : TimeZone)
    (cutoff : Fin 1440) (now : DateTime) (monday : Int) (week : Nat → ReportWindowUtc) : Prop where
  previous : previousCalendarWeekWindow timezone schedule now = .ok (week 0)
  next : ∀ n, nextCalendarWeekWindow timezone schedule (week n).2.1 = .ok (week (n + 1))
  isWeek : ∀ n : Nat, IsLocalWeek zone (monday + 7 * n) (week n)
  adjacent : ∀ n, (week (n + 1)).1 = (week n).2.1
  isCutoff : ∀ n : Nat, IsCutoff zone schedule.cutoffWeekday cutoff (monday + 7 * n + 7) (week n).2.1 (week n).2.2
  increasing : ∀ n, (week n).2.2 < (week (n + 1)).2.2
  measures : MeasuresWeeks timezone schedule zone now week

end Weeks

/-! ### Windows that were computed -/

theorem resolve_week_lt (zone : TimeZone) (date : Int) :
    zone.resolve (midnight date) < zone.resolve (midnight (date + 7)) := by
  have hfirst := (zone.resolve_near (midnight date)).2
  have hsecond := (zone.resolve_near (midnight (date + 7))).1
  have hday := day_pos
  rw [midnight_add] at hsecond ⊢
  linarith

section Windows

variable [TimezoneNames] [ClockText] {timezone : String} {schedule : ReportSchedule} {window : ReportWindowUtc}

theorem previousCalendarWeekWindow_lt {now : DateTime}
    (h : previousCalendarWeekWindow timezone schedule now = .ok window) : window.1 < window.2.1 := by
  simp only [previousCalendarWeekWindow, eq_ok_iff] at h
  obtain ⟨zone, -, report, -, _, -, rfl⟩ := h
  have hweek := resolve_week_lt zone
    (nextReportDate zone schedule report now - weekday (nextReportDate zone schedule report now) - 7)
  rwa [sub_add_cancel] at hweek

theorem nextCalendarWeekWindow_adjacent {endAt : DateTime}
    (h : nextCalendarWeekWindow timezone schedule endAt = .ok window) : window.1 = endAt ∧ window.1 < window.2.1 := by
  simp only [nextCalendarWeekWindow, eq_ok_iff] at h
  obtain ⟨zone, -, _, hcheck, _, -, rfl⟩ := h
  have hstart := not_not.mp (not_or.mp hcheck).1
  exact ⟨hstart, resolve_week_lt zone _⟩

end Windows

/-! ### Zones that skip or repeat a Monday's midnight -/

namespace Sample

/-- Monday the fifth of January 1970, at midnight. -/
def monday : Int :=
  midnight 4

/-- A zone whose clock is set forward by an hour when that Monday begins. -/
def forward : TimeZone where
  toLocal instant := if instant < monday then instant else instant + 60 * minute
  fromLocal localTime :=
    if localTime < monday then .single localTime
    else if localTime < monday + 60 * minute then .none
    else .single (localTime - 60 * minute)
  near instant := by
    unfold day minute
    split <;> omega
  shown := by
    intro localTime instant h
    unfold minute at *
    split at h
    case isTrue =>
      obtain rfl := some_inj.mp h
      grind
    case isFalse =>
      split at h
      case isTrue => cases h
      case isFalse =>
        obtain rfl := some_inj.mp h
        grind
  skipped := by
    intro localTime h instant
    unfold minute at *
    split at h
    case isTrue => cases h
    case isFalse =>
      split at h
      case isTrue => grind
      case isFalse => cases h
  shortGaps localTime := by
    by_cases hgap : monday ≤ localTime ∧ localTime < monday + 60 * minute
    · refine ⟨60, by omega, ?_⟩
      rw [if_neg (by unfold minute; omega), if_neg (by unfold minute at *; omega)]
      rfl
    · refine ⟨0, by omega, ?_⟩
      rw [Nat.cast_zero, zero_mul, add_zero]
      by_cases hbefore : localTime < monday
      · rw [if_pos hbefore]
        rfl
      · rw [if_neg hbefore, if_neg (by omega)]
        rfl

/-- A zone whose clock is set forward by twenty minutes shortly before that Monday begins, and back by forty minutes
twenty minutes later. No local time is left out, but the midnight is shown after the times that follow it. -/
def backAndForth : TimeZone where
  toLocal instant :=
    if instant < monday - 10 * minute then instant
    else if instant < monday + 10 * minute then instant + 20 * minute
    else instant - 20 * minute
  fromLocal localTime :=
    if localTime < monday - 10 * minute then .single localTime
    else if localTime < monday + 10 * minute then .single (localTime + 20 * minute)
    else if localTime < monday + 30 * minute then
      .ambiguous (localTime - 20 * minute) (localTime + 20 * minute)
    else .single (localTime + 20 * minute)
  near instant := by
    unfold day minute
    split
    case isTrue => omega
    case isFalse => split <;> omega
  shown := by
    intro localTime instant h
    unfold minute at *
    split at h
    case isTrue =>
      obtain rfl := some_inj.mp h
      grind
    case isFalse =>
      split at h
      case isTrue =>
        obtain rfl := some_inj.mp h
        grind
      case isFalse =>
        split at h <;>
        · obtain rfl := some_inj.mp h
          grind
  skipped := by
    intro localTime h
    split at h
    case isTrue => cases h
    case isFalse =>
      split at h
      case isTrue => cases h
      case isFalse => split at h <;> cases h
  shortGaps localTime := by
    refine ⟨0, by omega, ?_⟩
    split
    case isTrue => rfl
    case isFalse =>
      split
      case isTrue => rfl
      case isFalse => split <;> rfl

/-- A library that knows one zone. -/
@[reducible]
def oneZone (zone : TimeZone) : TimezoneNames where
  parse _ := some zone

/-- A reader of three clock times. -/
@[reducible]
def threeClocks : ClockText where
  parse
    | "09:00" => some 540
    | "00:15" => some 15
    | "00:00" => some 0
    | _ => none

def quarterPast : ReportSchedule :=
  { ReportSchedule.default with cutoffLocalTime := "00:15" }

/-- The week of a start, and the week after it. -/
def firstWindows (zone : TimeZone) (schedule : ReportSchedule) (now : DateTime) :
    Except AppError (ReportWindowUtc × ReportWindowUtc) :=
  haveI := oneZone zone
  haveI := threeClocks
  do
    let first ← previousCalendarWeekWindow "zone" schedule now
    let second ← nextCalendarWeekWindow "zone" schedule first.2.1
    pure (first, second)

theorem forward_retraces : forward.Retraces := by
  intro earlier later hlt hback
  exfalso
  revert hback
  show ¬ (if later < monday then later else later + 60 * minute)
    < (if earlier < monday then earlier else earlier + 60 * minute)
  unfold minute
  split <;> split <;> omega

end Sample

end GeoMaster
