import Mathlib.Tactic.Linarith
import Mathlib.Tactic.Ring

/-!
# Local time

Instants and local times are counted in nanoseconds, a local time as if the zone had no offset. A time zone shows one
local time at each instant, less than a day away from it. In the other direction a local time may be shown once, more
than once, or never, where the clock skips it; whoever looks it up in steps of a minute finds a time that is shown
before a day has passed. `resolve` takes the first showing of a local time, and of a skipped one the first minute after
it that is shown.

Nothing else is asked of a zone, so its clock may skip a time and show it later. Where a clock that is set back only
shows again what it has shown (`Retraces`), resolving keeps the order of local times.
-/

namespace LocalTime

/-! ### Units -/

def minute : Int :=
  60 * 1000000000

def day : Int :=
  1440 * minute

/-- The date of a local time, in days. -/
def dateOf (localTime : Int) : Int :=
  localTime / day

/-- The local time at which a date begins. -/
def midnight (date : Int) : Int :=
  date * day

/-- Days since Monday. Day zero is a Thursday. -/
def weekday (date : Int) : Int :=
  (date + 3) % 7

theorem minute_pos : 0 < minute := by
  decide

theorem day_pos : 0 < day := by
  decide

theorem dateOf_eq {date localTime : Int} (hfrom : midnight date ≤ localTime)
    (hto : localTime < midnight date + day) : dateOf localTime = date := by
  unfold dateOf midnight at *
  rw [Int.ediv_eq_iff_of_pos day_pos]
  exact ⟨by linarith, by linarith⟩

theorem midnight_add (date days : Int) : midnight (date + days) = midnight date + days * day := by
  unfold midnight
  ring

/-! ### Time zones -/

/-- How often a local time is shown. -/
inductive LocalResult where
  | single (instant : Int)
  | ambiguous (earliest latest : Int)
  | none

namespace LocalResult

def earliest : LocalResult → Option Int
  | single instant => some instant
  | ambiguous earliest _ => some earliest
  | none => Option.none

end LocalResult

structure TimeZone where
  /-- The local time shown at an instant. -/
  toLocal : Int → Int
  /-- When a local time is shown. -/
  fromLocal : Int → LocalResult
  near : ∀ instant, instant - day < toLocal instant ∧ toLocal instant < instant + day
  shown : ∀ {localTime instant : Int}, (fromLocal localTime).earliest = some instant →
    toLocal instant = localTime ∧ ∀ other, toLocal other = localTime → instant ≤ other
  skipped : ∀ {localTime : Int}, (fromLocal localTime).earliest = none → ∀ instant, toLocal instant ≠ localTime
  shortGaps : ∀ localTime, ∃ k : Nat, k < 1440 ∧ ((fromLocal (localTime + k * minute)).earliest).isSome

namespace TimeZone

variable (zone : TimeZone)

/-- The first showing of a local time or of the first minute after it that is shown, if it is found in so many
steps. -/
def resolveWithin : Nat → Int → Option Int
  | 0, _ => none
  | steps + 1, candidate =>
    match zone.fromLocal candidate with
    | .single instant => some instant
    | .ambiguous earliest _ => some earliest
    | .none => resolveWithin steps (candidate + minute)

theorem resolveWithin_succ (steps : Nat) (candidate : Int) :
    zone.resolveWithin (steps + 1) candidate
      = ((zone.fromLocal candidate).earliest).or (zone.resolveWithin steps (candidate + minute)) := by
  rw [resolveWithin]
  cases zone.fromLocal candidate <;> rfl

/-- The search ends at the first minute that is shown. -/
theorem resolveWithin_spec {steps : Nat} {candidate : Int} {k : Nat} (hk : k < steps)
    (hshown : ((zone.fromLocal (candidate + k * minute)).earliest).isSome) :
    ∃ j ≤ k, zone.resolveWithin steps candidate = (zone.fromLocal (candidate + j * minute)).earliest
      ∧ ((zone.fromLocal (candidate + j * minute)).earliest).isSome
      ∧ ∀ i < j, (zone.fromLocal (candidate + i * minute)).earliest = none := by
  induction steps generalizing candidate k with
  | zero => omega
  | succ steps ih =>
    rw [resolveWithin_succ]
    cases hfirst : (zone.fromLocal candidate).earliest with
    | some instant => refine ⟨0, Nat.zero_le k, ?_, ?_, by omega⟩ <;> simp [hfirst]
    | none =>
      cases k with
      | zero => simp [hfirst] at hshown
      | succ k =>
        have hnext (i : Nat) : candidate + minute + i * minute = candidate + (i + 1 : Nat) * minute := by
          push_cast
          ring
        obtain ⟨j, hj, heq, hsome, hbefore⟩ := @ih (candidate + minute) k (by omega) (by rwa [hnext])
        rw [hnext] at heq hsome
        refine ⟨j + 1, by omega, by simpa using heq, hsome, ?_⟩
        intro i hi
        cases i with
        | zero => simpa using hfirst
        | succ i => rw [← hnext]; exact hbefore i (by omega)

theorem resolveWithin_isSome (localTime : Int) : (zone.resolveWithin 1440 localTime).isSome := by
  obtain ⟨k, hk, hshown⟩ := zone.shortGaps localTime
  obtain ⟨j, _, heq, hsome, _⟩ := zone.resolveWithin_spec hk hshown
  rwa [heq]

/-- The first showing of a local time, or of the first minute after it that is shown. -/
def resolve (localTime : Int) : Int :=
  (zone.resolveWithin 1440 localTime).get (zone.resolveWithin_isSome localTime)

/-! ### What resolving gives -/

/-- A local time resolves at the first minute from it on that is shown, which comes less than a day later. -/
theorem resolve_spec (localTime : Int) :
    ∃ k : Nat, k < 1440 ∧ (zone.fromLocal (localTime + k * minute)).earliest = some (zone.resolve localTime)
      ∧ ∀ i < k, (zone.fromLocal (localTime + i * minute)).earliest = none := by
  obtain ⟨k, hk, hshown⟩ := zone.shortGaps localTime
  obtain ⟨j, hj, heq, _, hbefore⟩ := zone.resolveWithin_spec hk hshown
  refine ⟨j, by omega, ?_, hbefore⟩
  rw [← heq, resolve, Option.some_get]

/-- A local time that is shown resolves at its first showing. -/
theorem resolve_of_shown {localTime instant : Int} (h : zone.toLocal instant = localTime) :
    zone.toLocal (zone.resolve localTime) = localTime ∧ zone.resolve localTime ≤ instant := by
  obtain ⟨k, _, heq, hbefore⟩ := zone.resolve_spec localTime
  have hzero : k = 0 := by
    by_contra hpos
    have hnone := hbefore 0 (by omega)
    rw [Nat.cast_zero, zero_mul, add_zero] at hnone
    exact zone.skipped hnone instant h
  rw [hzero, Nat.cast_zero, zero_mul, add_zero] at heq
  have hfirst := zone.shown heq
  exact ⟨hfirst.1, hfirst.2 instant h⟩

theorem toLocal_resolve (localTime : Int) :
    localTime ≤ zone.toLocal (zone.resolve localTime) ∧ zone.toLocal (zone.resolve localTime) < localTime + day := by
  obtain ⟨k, hk, heq, _⟩ := zone.resolve_spec localTime
  rw [(zone.shown heq).1]
  have hminute := minute_pos
  unfold day
  constructor <;> nlinarith

theorem resolve_near (localTime : Int) :
    localTime - day < zone.resolve localTime ∧ zone.resolve localTime < localTime + 2 * day := by
  have hlocal := zone.toLocal_resolve localTime
  have hnear := zone.near (zone.resolve localTime)
  constructor <;> linarith

theorem dateOf_resolve_midnight (date : Int) : dateOf (zone.toLocal (zone.resolve (midnight date))) = date :=
  dateOf_eq (zone.toLocal_resolve _).1 (zone.toLocal_resolve _).2

/-! ### Clocks that are set back -/

/-- A clock that is set back only shows again what it has shown. -/
def Retraces : Prop :=
  ∀ earlier later, earlier < later → zone.toLocal later < zone.toLocal earlier →
    ∃ instant ≤ earlier, zone.toLocal instant = zone.toLocal later

variable {zone}

/-- Of two local times that are shown, the first showing of the earlier one comes first. -/
theorem Retraces.first_le (hzone : zone.Retraces) {localTime localTime' instant instant' : Int}
    (h : (zone.fromLocal localTime).earliest = some instant) (h' : (zone.fromLocal localTime').earliest = some instant')
    (hle : localTime ≤ localTime') : instant ≤ instant' := by
  have hfirst := zone.shown h
  have hfirst' := zone.shown h'
  by_contra hlater
  -- The later time is shown before the earlier one, so the clock was set back in between.
  have hbefore : instant' < instant := by omega
  rcases hle.eq_or_lt with heq | hlt
  · exact hlater (hfirst.2 instant' (by rw [hfirst'.1, heq]))
  · obtain ⟨shown, hshown, heq⟩ := hzone instant' instant hbefore (by rw [hfirst.1, hfirst'.1]; exact hlt)
    have := hfirst.2 shown (by rw [heq, hfirst.1])
    omega

/-- Local times a whole number of minutes apart resolve in their order. -/
theorem Retraces.resolve_mono (hzone : zone.Retraces) (localTime : Int) (minutes : Nat) :
    zone.resolve localTime ≤ zone.resolve (localTime + minutes * minute) := by
  obtain ⟨k, _, heq, hbefore⟩ := zone.resolve_spec localTime
  obtain ⟨k', _, heq', _⟩ := zone.resolve_spec (localTime + minutes * minute)
  have hsum : localTime + minutes * minute + k' * minute = localTime + (minutes + k' : Nat) * minute := by
    push_cast
    ring
  rw [hsum] at heq'
  have hk : k ≤ minutes + k' := by
    by_contra hlt
    rw [hbefore _ (by omega)] at heq'
    cases heq'
  refine hzone.first_le heq heq' ?_
  have hminute := minute_pos
  have : (k : Int) ≤ (minutes + k' : Nat) := by exact_mod_cast hk
  nlinarith

end TimeZone

end LocalTime
