/-
# Times of the scheduler

The scheduler compares times, adds whole seconds to them and reads them off in milliseconds.
`Instant` is `chrono::DateTime<Utc>` for that purpose: the seconds since the epoch and the
nanoseconds within the second, of which a leap second has up to two thousand million.  Times
compare by the seconds first.

The additions are a parameter (`ChronoSeconds`).  `checkedAddSigned` is
`DateTime::checked_add_signed` with a duration of whole seconds; the duration itself comes from
`Duration::seconds`, which panics for more than `i64::MAX / 1000` seconds (`durationSeconds`).
-/

import Mathlib

namespace PersonalAgent.Automation

/-- `chrono::DateTime<Utc>`. -/
structure Instant where
  secs : ℤ
  nanos : ℕ
  inRange : -8334601228800 ≤ secs ∧ secs ≤ 8210266876799
  subsecond : nanos < 2 * 10 ^ 9
  deriving DecidableEq

namespace Instant

theorem ext_iff' {t u : Instant} : t = u ↔ t.secs = u.secs ∧ t.nanos = u.nanos := by
  cases t
  cases u
  simp

instance : LinearOrder Instant :=
  LinearOrder.lift' (fun t => toLex (t.secs, t.nanos)) fun t u h => by
    have h' : (t.secs, t.nanos) = (u.secs, u.nanos) := toLex_inj.mp h
    exact ext_iff'.mpr (Prod.mk.inj h')

theorem lt_of_secs_lt {t u : Instant} (h : t.secs < u.secs) : t < u :=
  Prod.Lex.toLex_lt_toLex.mpr (.inl h)

/-- `DateTime::timestamp_millis`. -/
def timestampMillis (t : Instant) : ℤ := t.secs * 1000 + (t.nanos / 10 ^ 6 : ℕ)

end Instant

/-- The seconds that `chrono::Duration` can hold. -/
def maxDuration : ℕ := (2 ^ 63 - 1) / 1000

/-- The additions of `chrono`, with the laws that its documentation gives. -/
class ChronoSeconds where
  /-- `DateTime::checked_add_signed` with whole seconds. -/
  checkedAddSigned : Instant → ℕ → Option Instant
  /-- `Duration::seconds(i64::try_from(seconds).unwrap_or(i64::MAX))`; nothing where it
  panics. -/
  durationSeconds : ℕ → Option ℕ
  /-- A sum leaves a leap second, and there is none past the last date. -/
  checkedAddSigned_eq_some {t u : Instant} {seconds : ℕ} :
    checkedAddSigned t seconds = some u ↔ u.secs = t.secs + seconds ∧
      u.nanos = if 0 < seconds then t.nanos % 10 ^ 9 else t.nanos
  durationSeconds_of_le {seconds : ℕ} (h : seconds ≤ maxDuration) :
    durationSeconds seconds = some seconds
  durationSeconds_of_lt {seconds : ℕ} (h : maxDuration < seconds) : durationSeconds seconds = none

export ChronoSeconds (durationSeconds durationSeconds_of_le durationSeconds_of_lt)

namespace Instant

variable [ChronoSeconds]

abbrev checkedAddSigned (t : Instant) (seconds : ℕ) : Option Instant :=
  ChronoSeconds.checkedAddSigned t seconds

theorem checkedAddSigned_eq_some {t u : Instant} {seconds : ℕ} :
    t.checkedAddSigned seconds = some u ↔ u.secs = t.secs + seconds ∧
      u.nanos = if 0 < seconds then t.nanos % 10 ^ 9 else t.nanos :=
  ChronoSeconds.checkedAddSigned_eq_some

theorem lt_checkedAddSigned {t u : Instant} {seconds : ℕ} (hpos : 0 < seconds)
    (h : t.checkedAddSigned seconds = some u) : t < u := by
  obtain ⟨hsecs, -⟩ := checkedAddSigned_eq_some.mp h
  exact lt_of_secs_lt (by omega)

@[simp] theorem checkedAddSigned_zero (t : Instant) : t.checkedAddSigned 0 = some t :=
  checkedAddSigned_eq_some.mpr ⟨by simp, by simp⟩

/-- Adding twice is adding the sum. -/
theorem checkedAddSigned_add {t u v : Instant} {a b : ℕ} (hu : t.checkedAddSigned a = some u)
    (hv : u.checkedAddSigned b = some v) : t.checkedAddSigned (a + b) = some v := by
  rw [checkedAddSigned_eq_some] at hu hv ⊢
  refine ⟨?_, ?_⟩
  · push_cast
    omega
  · rw [hv.2, hu.2]
    split_ifs <;> omega

end Instant

/-- `chrono` for closed runs. -/
@[reducible] def plainSeconds : ChronoSeconds where
  checkedAddSigned t seconds :=
    if h : t.secs + seconds ≤ 8210266876799 then
      some {
        secs := t.secs + seconds
        nanos := if 0 < seconds then t.nanos % 10 ^ 9 else t.nanos
        inRange := ⟨by have := t.inRange; omega, h⟩
        subsecond := by have := t.subsecond; split_ifs <;> omega }
    else none
  durationSeconds seconds := if seconds ≤ maxDuration then some seconds else none
  checkedAddSigned_eq_some := by
    intro t u seconds
    by_cases h : t.secs + seconds ≤ 8210266876799
    · rw [dif_pos h, Option.some_inj, eq_comm, Instant.ext_iff']
    · rw [dif_neg h]
      refine iff_of_false (fun hnone => by cases hnone) fun hu => ?_
      have hrange := u.inRange
      omega
  durationSeconds_of_le h := if_pos h
  durationSeconds_of_lt h := if_neg (not_le.mpr h)

end PersonalAgent.Automation
