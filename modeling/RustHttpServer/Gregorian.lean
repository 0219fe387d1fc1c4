import RustHttpServer.Time

/-!
# The Gregorian calendar

`chrono` on the calendar it implements: days and seconds counted from the epoch, and
dates printed as mail messages have them.
-/

namespace RustHttpServer

open Foundation

namespace Gregorian

/-- The years that `chrono` can represent. -/
def inRange (year : Int) : Bool := -262144 ≤ year ∧ year ≤ 262143

/-- The seconds of a day. -/
def secondsPerDay : Nat := 86400

def isLeap (year : Nat) : Bool := year % 4 = 0 ∧ (year % 100 ≠ 0 ∨ year % 400 = 0)

def daysInMonth (year month : Nat) : Nat :=
  if month = 2 then if isLeap year then 29 else 28
  else if month ∈ [4, 6, 9, 11] then 30
  else 31

/-- The days from the epoch to a date. Years are counted from March on, so that the leap
day is the last of its year. -/
def daysFromCivil (year month day : Nat) : Int :=
  let year : Int := if month ≤ 2 then year - 1 else year
  let shifted : Int := if month ≤ 2 then month + 9 else (month : Int) - 3
  let dayOfYear := (153 * shifted + 2) / 5 + day - 1
  365 * year + year / 4 - year / 100 + year / 400 + dayOfYear - 719468

/-- The year, month and day that lie some days from the epoch. -/
def civilFromDays (days : Int) : Int × Nat × Nat :=
  let days := days + 719468
  let era := days / 146097
  let dayOfEra := days % 146097
  let yearOfEra := (dayOfEra - dayOfEra / 1460 + dayOfEra / 36524 - dayOfEra / 146096) / 365
  let dayOfYear := dayOfEra - (365 * yearOfEra + yearOfEra / 4 - yearOfEra / 100)
  let shifted := (5 * dayOfYear + 2) / 153
  let day := dayOfYear - (153 * shifted + 2) / 5 + 1
  let month := if shifted < 10 then shifted + 3 else shifted - 9
  let year := yearOfEra + era * 400
  (if month ≤ 2 then year + 1 else year, month.toNat, day.toNat)

def weekdayName (days : Int) : Text :=
  match (days % 7).toNat with
  | 0 => "Thu".toList
  | 1 => "Fri".toList
  | 2 => "Sat".toList
  | 3 => "Sun".toList
  | 4 => "Mon".toList
  | 5 => "Tue".toList
  | _ => "Wed".toList

def monthName (month : Nat) : Text :=
  match month with
  | 1 => "Jan".toList
  | 2 => "Feb".toList
  | 3 => "Mar".toList
  | 4 => "Apr".toList
  | 5 => "May".toList
  | 6 => "Jun".toList
  | 7 => "Jul".toList
  | 8 => "Aug".toList
  | 9 => "Sep".toList
  | 10 => "Oct".toList
  | 11 => "Nov".toList
  | _ => "Dec".toList

/-- A number with leading zeros up to a width. -/
def padded (width number : Nat) : Text :=
  List.replicate (width - (Text.decimal number).length) '0' ++ Text.decimal number

/-- A year with its sign, if it has one, within four places. -/
def yearText (year : Int) : Text :=
  if 0 ≤ year then padded 4 year.toNat else '-' :: padded 3 (-year).toNat

/-- The date and time of day some seconds from the epoch. -/
def dateText (seconds : Int) : Text :=
  let days := seconds / secondsPerDay
  let time := (seconds % secondsPerDay).toNat
  let (year, month, day) := civilFromDays days
  weekdayName days ++ ", ".toList ++ padded 2 day ++ [' '] ++ monthName month ++ [' '] ++
    yearText year ++ [' '] ++ padded 2 (time / 3600) ++ [':'] ++ padded 2 (time / 60 % 60) ++
    [':'] ++ padded 2 (time % 60)

end Gregorian

open Gregorian

/-- `chrono`, with instants in seconds from the epoch. -/
def gregorian : Chrono where
  DateTime := Int
  NaiveDate := Int
  NaiveTime := Nat
  fromYmd year month day :=
    if inRange year ∧ 1 ≤ month ∧ month ≤ 12 ∧ 1 ≤ day ∧ day ≤ daysInMonth year month then
      some (daysFromCivil year month day)
    else none
  fromHms hour min sec :=
    if hour < 24 ∧ min < 60 ∧ sec < 60 then some (hour * 3600 + min * 60 + sec) else none
  andTime date time := date * secondsPerDay + time
  fromTimestamp secs _ :=
    if inRange (civilFromDays (secs / secondsPerDay)).1 then some secs else none
  timestamp datetime := datetime
  toRfc2822 datetime := dateText datetime ++ " +0000".toList

instance : DecidableEq gregorian.DateTime := inferInstanceAs (DecidableEq Int)

example : dateText 784111777 = "Sun, 06 Nov 1994 08:49:37".toList := by decide +kernel

example : civilFromDays (daysFromCivil 2000 2 29) = (2000, 2, 29) := by decide +kernel

private theorem newline_not_mem_padded (width number : Nat) : '\n' ∉ padded width number := by
  rw [padded, List.mem_append, not_or]
  refine ⟨fun inside => ?_, Text.newline_not_mem_decimal number⟩
  have zero := List.eq_of_mem_replicate inside
  revert zero
  decide

/-- Every day has the name of a weekday. -/
theorem exists_weekday (days : Int) : ∃ weekday : Weekday, weekdayName days = weekday.toText := by
  unfold weekdayName
  split
  · exact ⟨.thu, rfl⟩
  · exact ⟨.fri, rfl⟩
  · exact ⟨.sat, rfl⟩
  · exact ⟨.sun, rfl⟩
  · exact ⟨.mon, rfl⟩
  · exact ⟨.tue, rfl⟩
  · exact ⟨.wed, rfl⟩

/-- No date has a line break in it. -/
private theorem newline_not_mem_dateText (seconds : Int) : '\n' ∉ dateText seconds := by
  have weekday : ∀ days, '\n' ∉ weekdayName days := by
    intro days
    unfold weekdayName
    split <;> decide
  have month : ∀ number, '\n' ∉ monthName number := by
    intro number
    unfold monthName
    split <;> decide
  have year : ∀ number, '\n' ∉ yearText number := by
    intro number
    unfold yearText
    split
    · exact newline_not_mem_padded 4 _
    · exact List.not_mem_cons_of_ne_of_not_mem (by decide) (newline_not_mem_padded 3 _)
  simp only [dateText, List.mem_append, not_or, newline_not_mem_padded, not_false_eq_true,
    weekday, month, year, and_true, true_and]
  decide

/-- The calendar prints dates as documented. -/
theorem gregorian_printsRfc2822 : gregorian.PrintsRfc2822 where
  toRfc2822 := by
    intro (seconds : Int)
    have leading : weekdayName (seconds / secondsPerDay) <+: dateText seconds := by
      simp only [dateText, List.append_assoc]
      exact List.prefix_append _ _
    obtain ⟨weekday, named⟩ := exists_weekday (seconds / secondsPerDay)
    obtain ⟨text, whole⟩ := leading
    refine ⟨weekday, text, ?_, fun inside => newline_not_mem_dateText seconds ?_⟩
    · change dateText seconds ++ " +0000".toList = _
      rw [← whole, named]
    · rw [← whole]
      exact List.mem_append_right _ inside

/-- The calendar prints dates with an offset at their end. -/
theorem gregorian_printsUtc : gregorian.PrintsUtc := gregorian_printsRfc2822.printsUtc

end RustHttpServer
