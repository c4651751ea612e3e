import SeppPy.Data.Binary64

/-! # Durations and instants

A `timedelta` counts microseconds and a `datetime` is a wall-clock reading with its UTC offset.
Whatever builds a `timedelta` rounds half to even.
-/

namespace SeppPy

/-- A `timedelta`, in microseconds. -/
abbrev Timedelta := ℤ

namespace Timedelta

/-- `timedelta(milliseconds=millis)` of an integer. -/
def ofMillis (millis : ℤ) : Timedelta := millis * 1000

/-- `td / n`. -/
def divide (td : Timedelta) (n : ℕ) : Timedelta := Rat.roundHalfEven ((td : ℤ) / n)

/-- A quotient is rounded up by half a microsecond at most. -/
theorem divide_le (td : Timedelta) {n : ℕ} (positive : 0 < n) :
    2 * n * td.divide n ≤ 2 * td + n := by
  have rounded := Rat.roundHalfEven_le ((td : ℤ) / n)
  have scale : (0 : ℚ) < n := by exact_mod_cast positive
  have cleared : (2 * n * td.divide n : ℚ) ≤ 2 * (td : ℤ) + n := by
    calc (2 * n * td.divide n : ℚ) ≤ 2 * n * ((td : ℤ) / n + 1 / 2) := by gcongr; exact rounded
      _ = 2 * (td : ℤ) + n := by field_simp
  exact_mod_cast cleared

end Timedelta

/-- A `datetime`: wall-clock microseconds since 1970-01-01 and, unless naive, the UTC offset. -/
structure Datetime where
  wall : ℤ
  utcoffset : Option Timedelta
deriving DecidableEq, Repr

/-- The instant a datetime names; naive datetimes are assumed UTC. -/
def Datetime.instant (dt : Datetime) : ℤ := dt.wall - dt.utcoffset.getD 0

/-- Milliseconds since the epoch, rounded down. -/
def datetimeToMillis (dt : Datetime) : ℤ := dt.instant / 1000

end SeppPy
