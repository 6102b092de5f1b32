import EventServer.Python.Json

/-! # Dates and their texts

The calendar of `datetime`: a day is its ordinal in the proleptic Gregorian calendar, with the day 1
of the year 1 as 1, and `_ord2ymd` finds year, month and day. `isoformat` is the text of a point in
time in UTC. -/

namespace EventServer.Python

/-- A day in microseconds. -/
def day : ℤ := seconds 86400

/-- The ordinal of the first day of the epoch. -/
def epochOrdinal : ℤ := 719163

def isLeap (year : ℕ) : Bool := year % 4 = 0 && (year % 100 ≠ 0 || year % 400 = 0)

/-- `_days_before_year`. -/
def daysBeforeYear (year : ℕ) : ℕ :=
  let y := year - 1
  y * 365 + y / 4 - y / 100 + y / 400

/-- `_days_before_month` for a month of a year that is or is not a leap year. -/
def daysBeforeMonth (leap : Bool) (month : ℕ) : ℕ :=
  [0, 0, 31, 59, 90, 120, 151, 181, 212, 243, 273, 304, 334].getD month 0 +
    if 2 < month ∧ leap then 1 else 0

structure Date where
  year : ℕ
  month : ℕ
  day : ℕ
  deriving DecidableEq

/-- `_ymd2ord`. -/
def Date.toOrdinal (d : Date) : ℕ :=
  daysBeforeYear d.year + daysBeforeMonth (isLeap d.year) d.month + d.day

/-- Month and day of a day of the year, counted from 0. -/
def monthDay (leap : Bool) (n : ℕ) : ℕ × ℕ :=
  let month := (n + 50) / 32
  let preceding := daysBeforeMonth leap month
  if n < preceding then (month - 1, n - daysBeforeMonth leap (month - 1) + 1)
  else (month, n - preceding + 1)

/-- `_ord2ymd`. -/
def Date.ofOrdinal (ordinal : ℕ) : Date :=
  let n := ordinal - 1
  let n400 := n / 146097
  let n := n % 146097
  let n100 := n / 36524
  let n := n % 36524
  let n4 := n / 1461
  let n := n % 1461
  let n1 := n / 365
  let n := n % 365
  let year := n400 * 400 + 1 + n100 * 100 + n4 * 4 + n1
  if n1 = 4 ∨ n100 = 4 then ⟨year - 1, 12, 31⟩
  else
    let leap := n1 = 3 && (n4 ≠ 24 || n100 = 3)
    ⟨year, (monthDay leap n).1, (monthDay leap n).2⟩

/-- `n` in decimal with at least `w` digits. -/
def decPad (w n : ℕ) : List Char :=
  let digits := Nat.toDigits 10 n
  List.replicate (w - digits.length) '0' ++ digits

/-- The date of a point in time, in UTC. -/
def dateOf (t : Time) : Date := .ofOrdinal (t / day + epochOrdinal).toNat

/-- `t.isoformat()` of an aware time in UTC, up to the offset. -/
def isoClock (t : Time) : List Char :=
  let date := dateOf t
  let us := (t % day).toNat
  let s := us / 1000000
  decPad 4 date.year ++ '-' :: decPad 2 date.month ++ '-' :: decPad 2 date.day ++
    'T' :: decPad 2 (s / 3600) ++ ':' :: decPad 2 (s / 60 % 60) ++ ':' :: decPad 2 (s % 60) ++
    if us % 1000000 = 0 then [] else '.' :: decPad 6 (us % 1000000)

def isoformat (t : Time) : String := String.ofList (isoClock t ++ "+00:00".toList)

example : isoformat (seconds 1789517700) = "2026-09-16T00:15:00+00:00" := by decide

end EventServer.Python
