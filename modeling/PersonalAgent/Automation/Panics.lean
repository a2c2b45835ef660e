/-
# Durations that do not exist

`Duration::seconds` panics above `i64::MAX / 1000` seconds, and adding a day with `+=` panics past
the last day there is.  The scheduler and `parse_schedule` (`automation_host.rs`) cap a `u64` of
seconds at `i64::MAX` only, so intervals that are accepted can panic: in `parse_schedule` at once,
in `evaluate` when the automation is due (`scheduling_panics_iff`).
-/

import PersonalAgent.Automation.Evaluation

namespace PersonalAgent.Automation

open PersonalAgent.Core (trim toAsciiLowercase stripped)

/-! ### Schedules -/

/-- What a schedule asks for, before any time is computed. -/
inductive Schedule where
  | once (at_ : Instant)
  | daily (hour minute : ℕ)
  | every (seconds : ℕ)
  | cron (expression : String) (seconds : ℕ)
  deriving DecidableEq

/-- `str::split_once(':')`. -/
def splitColon (value : String) : Option (String × String) :=
  match value.toList.span (· ≠ ':') with
  | (before, ':' :: after) => some (String.ofList before, String.ofList after)
  | _ => none

/-- `str::parse::<u8>`, below a bound. -/
def parseBelow (bound : ℕ) (value : String) : Option ℕ :=
  (parseU64 value).filter fun n => n < 256 && n < bound

def parseClock (value : String) : Except String (ℕ × ℕ) :=
  match splitColon value with
  | none => .error "time must use HH:MM"
  | some (hour, minute) =>
    match parseBelow 24 hour, parseBelow 60 minute with
    | none, _ => .error "hour must be between 00 and 23"
    | some _, none => .error "minute must be between 00 and 59"
    | some hour, some minute => .ok (hour, minute)

/-- The seconds of a unit, whatever number of `s` it ends with. -/
def unitSeconds (unit : String) : Option ℕ :=
  match String.ofList (unit.toList.reverse.dropWhile (· = 's')).reverse with
  | "second" => some 1
  | "minute" => some 60
  | "hour" => some 3600
  | _ => none

def readEvery (amount unit : String) : Except String Schedule :=
  match (parseU64 amount).filter (0 < ·) with
  | none => .error "interval amount must be a positive integer"
  | some amount =>
    match unitSeconds unit with
    | none => .error "interval unit must be seconds, minutes, or hours"
    | some multiplier =>
      if amount * multiplier < 2 ^ 64 then .ok (.every (amount * multiplier))
      else .error "automation interval is too large"

def readCron (schedule : String) : Except String Schedule :=
  match splitWhitespace schedule with
  | [minutes, "*", "*", "*", "*"] =>
    match ((stripped "*/" minutes).bind parseU64).filter (0 < ·) with
    | none => .error "cron minute interval must be */N"
    | some minutes =>
      if minutes * 60 < 2 ^ 64 then .ok (.cron schedule (minutes * 60))
      else .error "cron interval is too large"
  | _ => .error ("unsupported schedule; use daily at HH:MM, every N minutes, */N * * * *, " ++
      "an RFC 3339 timestamp, or now")

/-- The text of a schedule.  `DateTime::parse_from_rfc3339` is a parameter. -/
def readSchedule (rfc3339 : String → Option Instant) (schedule : String) (now : Instant) :
    Except String Schedule :=
  let schedule := trim schedule
  if toAsciiLowercase schedule = "now" then .ok (.once now)
  else
    match rfc3339 schedule with
    | some at_ =>
      if at_ < now then .error "one-time automation timestamp is in the past" else .ok (.once at_)
    | none =>
      let words := toAsciiLowercase schedule
      match stripped "daily at " words with
      | some time => (parseClock time).map fun (hour, minute) => .daily hour minute
      | none =>
        match (stripped "every " words).map splitWhitespace with
        | some [amount, unit] => readEvery amount unit
        | _ => readCron schedule

/-- A time of the day of `now`. -/
def timeOfDay (now : Instant) (hour minute : ℕ) : Option Instant :=
  if h : hour < 24 ∧ minute < 60 then
    some {
      secs := now.secs - now.secs % 86400 + (hour * 3600 + minute * 60 : ℕ)
      nanos := 0
      inRange := by have := now.inRange; omega
      subsecond := Nat.zero_lt_of_lt now.subsecond }
  else none

section

variable [ChronoSeconds]

/-- The first time of a schedule; `none` is a panic. -/
def Schedule.plan (now : Instant) : Schedule → Option (Except String (Trigger × Option Instant))
  | once at_ => some (.ok (.once at_, some at_))
  | daily hour minute =>
    match timeOfDay now hour minute with
    | none => some (.error "daily schedule time is invalid")
    | some at_ =>
      if now < at_ then some (.ok (.interval 86400, some at_))
      else (at_.checkedAddSigned 86400).map fun next => .ok (.interval 86400, some next)
  | every seconds => (durationSeconds seconds).map fun step =>
    match now.checkedAddSigned step with
    | none => .error "automation interval is too large"
    | some due => .ok (.interval seconds, some due)
  | cron expression seconds => (durationSeconds seconds).map fun step =>
    match now.checkedAddSigned step with
    | none => .error "cron interval is too large"
    | some due => .ok (.cron expression, some due)

def parseSchedule (rfc3339 : String → Option Instant) (schedule : String) (now : Instant) :
    Option (Except String (Trigger × Option Instant)) :=
  match readSchedule rfc3339 schedule now with
  | .error error => some (.error error)
  | .ok kind => kind.plan now

/-- It asks for an interval that no duration can hold, or for a time of day that has passed on the
last day. -/
def Schedule.Excessive (now : Instant) : Schedule → Prop
  | once _ => False
  | daily hour minute => ∃ at_, timeOfDay now hour minute = some at_ ∧ at_ ≤ now ∧
      8210266876799 - 86400 < at_.secs
  | every seconds | cron _ seconds => maxDuration < seconds

theorem durationSeconds_eq_none_iff {seconds : ℕ} :
    durationSeconds seconds = none ↔ maxDuration < seconds := by
  refine ⟨fun h => ?_, durationSeconds_of_lt⟩
  by_contra hle
  rw [durationSeconds_of_le (not_lt.mp hle)] at h
  cases h

theorem checkedAddSigned_eq_none_iff {t : Instant} {seconds : ℕ} :
    t.checkedAddSigned seconds = none ↔ 8210266876799 - seconds < t.secs := by
  refine ⟨fun h => ?_, fun h => Option.eq_none_iff_forall_ne_some.mpr fun u hu => ?_⟩
  · by_contra hlast
    have hrange := t.inRange
    have hsub := t.subsecond
    have hsum : t.checkedAddSigned seconds = some
        ⟨t.secs + seconds, if 0 < seconds then t.nanos % 10 ^ 9 else t.nanos,
          ⟨by omega, by omega⟩, by split_ifs <;> omega⟩ :=
      Instant.checkedAddSigned_eq_some.mpr ⟨rfl, rfl⟩
    rw [h] at hsum
    cases hsum
  · have hsecs := (Instant.checkedAddSigned_eq_some.mp hu).1
    have hrange := u.inRange
    omega

theorem Schedule.plan_eq_none_iff {now : Instant} {schedule : Schedule} :
    schedule.plan now = none ↔ schedule.Excessive now := by
  cases schedule with
  | once at_ => exact iff_of_false nofun id
  | daily hour minute =>
    cases hday : timeOfDay now hour minute with
    | none => simp [plan, Excessive, hday]
    | some at_ =>
      by_cases hnow : now < at_
      · simp [plan, Excessive, hday, hnow]
      · have hlast : at_.checkedAddSigned 86400 = none ↔ 8210266790399 < at_.secs :=
          checkedAddSigned_eq_none_iff
        simp [plan, Excessive, hday, hnow, not_lt.mp hnow, hlast]
  | every seconds => exact Option.map_eq_none_iff.trans durationSeconds_eq_none_iff
  | cron expression seconds => exact Option.map_eq_none_iff.trans durationSeconds_eq_none_iff

end

/-! ### Evaluations -/

namespace SchedulerSnapshot

/-- **When scheduling panics.**  An evaluation of accepted automations does exactly if one of them
is enabled, due and has an interval above `i64::MAX / 1000` seconds; `parse_schedule` does exactly
for a text that asks for such an interval, or for a time of day that has passed on the last
representable day. -/
theorem scheduling_panics_iff [ChronoSeconds] (now : Instant) :
    (∀ (s : SchedulerSnapshot) (draw : String → Uuid), s.Sound →
      ((s.evaluate draw now).2 = .error .panicked ↔ ∃ id, s.Overflowing now id)) ∧
    ∀ (rfc3339 : String → Option Instant) (schedule : String),
      parseSchedule rfc3339 schedule now = none ↔
        ∃ kind, readSchedule rfc3339 schedule now = .ok kind ∧ kind.Excessive now := by
  refine ⟨fun s draw hs => (evaluate_fault_iff hs).trans (and_iff_right rfl),
    fun rfc3339 schedule => ?_⟩
  unfold parseSchedule
  cases readSchedule rfc3339 schedule now with
  | error error => simp
  | ok kind => simpa using Schedule.plan_eq_none_iff

section Examples

attribute [local instance] plainSeconds

/-- **Accepted, and it panics.**  An interval of `i64::MAX / 1000 + 1` seconds at its due time; a
text with `i64::MAX` seconds at any time. -/
theorem accepted_interval_panics :
    ((Lib.run apply {} hugeInterval).evaluate (fun _ => 9) (second 5)).2 = .error .panicked ∧
    parseSchedule (fun _ => none) "every 9223372036854775807 seconds" (second 0) = none := by
  decide +kernel

/-- An interval of a minute. -/
theorem scheduling_panics_missed :
    ((Lib.run apply {} missedRuns).evaluate (fun _ => 9) (second 200)).2 ≠ .error .panicked := by
  rw [Ne, (scheduling_panics_iff _).1 _ _ (sound_run missedRuns)]
  rintro ⟨id, a, first, interval, ha, -, -, -, hinterval, hnot⟩
  exact hnot (intervalsFit_missedRuns id a interval ha hinterval)

end Examples

end SchedulerSnapshot

end PersonalAgent.Automation
