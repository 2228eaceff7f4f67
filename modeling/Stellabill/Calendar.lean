import Mathlib.Data.Int.Order.Basic
import Stellabill.Transitions

/-!
Numbers of 64 bits, and what is computed of instants with them.
-/
namespace Stellabill.Calendar
open Transitions

/-- The result of an operation on numbers of 64 bits, which wraps around. -/
def int64 (n : Int) : Int := n.bmod 18446744073709551616
/-- The numbers of 64 bits. -/
def Int64 (n : Int) : Prop := -9223372036854775808 ≤ n ∧ n < 9223372036854775808
  deriving Decidable

variable {n now before : Int}

theorem int64_of_fits (fits : Int64 n) : int64 n = n := by
  obtain ⟨low,high⟩ := fits
  exact Int.bmod_eq_of_le (by omega) (by omega)

/-- Above the smallest number only downwards, below the largest only upwards. -/
theorem int64_le (low : -9223372036854775808 ≤ n) : int64 n ≤ n := by
  unfold int64
  rw [Int.bmod_def]
  split <;> omega
theorem le_int64 (high : n < 9223372036854775808) : n ≤ int64 n := by
  unfold int64
  rw [Int.bmod_def]
  split <;> omega

def second : Int := 1000000000
/-- `Sub`: the duration between two instants, the longest one when it does not fit. -/
def since (now before : Int) : Int := max (-9223372036854775808) (min 9223372036854775807 (now-before))

theorem since_le (ordered : before ≤ now) : since now before ≤ now-before := by
  unfold since
  omega
theorem since_nonneg (ordered : before ≤ now) : 0 ≤ since now before := by
  unfold since
  omega
theorem since_eq (ordered : before ≤ now) (short : since now before < 9223372036854775807) : since now before = now-before := by
  unfold since at short ⊢
  omega

/-! ### Months -/

def Leap (year : Int) : Prop := year % 4 = 0 ∧ (year % 100 ≠ 0 ∨ year % 400 = 0)
  deriving Decidable
def yearDays (year : Int) : Int := 365*year+(year-1)/4-(year-1)/100+(year-1)/400
/-- The days of a year before a month, in a year without a leap day; January is 0. -/
def daysBefore : Nat → Int
  | 0 => 0 | 1 => 31 | 2 => 59 | 3 => 90 | 4 => 120 | 5 => 151 | 6 => 181 | 7 => 212 | 8 => 243 | 9 => 273 | 10 => 304 | 11 => 334 | _ => 365
/-- The day on which a month begins. Months are numbered through, January of the year 0 being 0. -/
def monthDays (month : Int) : Int :=
  yearDays (month/12)+daysBefore (month % 12).toNat+(if Leap (month/12) ∧ 2 ≤ month % 12 then 1 else 0)
/-- The month that a day is in: a guess by the average length, which is off by one at most. -/
def monthOfDay (day : Int) : Int :=
  let guess := 4800*day/146097
  if day < monthDays guess then guess-1 else if monthDays (guess+1) ≤ day then guess+1 else guess

def dayLength : Int := 86400*second
def epochDays : Int := 719527
def monthStart (month : Int) : Int := dayLength*(monthDays month-epochDays)
def monthOf (now : Int) : Int := monthOfDay (now/dayLength+epochDays)
/-- `AddDate` of months: the day and the time are kept, and a day beyond the end of the month runs into the next. -/
def addMonths (now months : Int) : Int := monthStart (monthOf now+months)+(now-monthStart (monthOf now))
example : monthOf (monthStart (12*2026+10)+1) = 12*2026+10 ∧ monthStart (12*1970) = 0 ∧ monthStart (12*2000+2) = 951868800*second := by decide

end Stellabill.Calendar
