import Mathlib.Algebra.Group.Nat.Defs
import RustHttpServer.Parse

/-!
# Dates

The dates of `time.rs`. Calendar and clock come from the `chrono` crate, which is a
parameter: its constructors panic on dates and times that do not exist.
-/

namespace RustHttpServer

open Foundation

/-- What the server uses of `chrono`. A constructor that is `none` panics. -/
structure Chrono where
  DateTime : Type
  NaiveDate : Type
  NaiveTime : Type
  fromYmd : (year : Nat) → (month : Nat) → (day : Nat) → Option NaiveDate
  fromHms : (hour : Nat) → (min : Nat) → (sec : Nat) → Option NaiveTime
  andTime : NaiveDate → NaiveTime → DateTime
  fromTimestamp : (secs : Int) → (nsecs : Nat) → Option DateTime
  timestamp : DateTime → Int
  toRfc2822 : DateTime → Text

/-- As `chrono` documents, a date in UTC is printed on one line, with its offset last. -/
structure Chrono.PrintsUtc (chrono : Chrono) : Prop where
  toRfc2822 : ∀ datetime, ∃ text,
    chrono.toRfc2822 datetime = text ++ " +0000".toList ∧ '\n' ∉ text

/-- `chrono::Weekday` -/
inductive Weekday
  | mon
  | tue
  | wed
  | thu
  | fri
  | sat
  | sun
  deriving DecidableEq, Repr

/-- The name under which a weekday is printed. -/
def Weekday.toText : Weekday → Text
  | .mon => "Mon".toList
  | .tue => "Tue".toList
  | .wed => "Wed".toList
  | .thu => "Thu".toList
  | .fri => "Fri".toList
  | .sat => "Sat".toList
  | .sun => "Sun".toList

/-- As `chrono` documents, a date in UTC is printed on one line, with its weekday first
and its offset last. -/
structure Chrono.PrintsRfc2822 (chrono : Chrono) : Prop where
  toRfc2822 : ∀ datetime, ∃ (weekday : Weekday) (text : Text),
    chrono.toRfc2822 datetime = weekday.toText ++ text ++ " +0000".toList ∧ '\n' ∉ text

/-- A date that is printed as documented ends with its offset. -/
theorem Chrono.PrintsRfc2822.printsUtc {chrono : Chrono} (prints : chrono.PrintsRfc2822) :
    chrono.PrintsUtc where
  toRfc2822 datetime := by
    obtain ⟨weekday, text, printed, unbroken⟩ := prints.toRfc2822 datetime
    refine ⟨_, printed, ?_⟩
    have name : '\n' ∉ weekday.toText := by cases weekday <;> decide
    rw [List.mem_append, not_or]
    exact ⟨name, unbroken⟩

variable (chrono : Chrono)

/-- `to_1123` -/
def to1123 {ε : Type} (datetime : chrono.DateTime) : Outcome ε Text := do
  let datetime2822 := chrono.toRfc2822 datetime
  let length ← Outcome.checkedSub (Utf8.byteLength datetime2822) 5
  let datetime1123 ← datetime2822.sliceTo length
  return datetime1123 ++ "GMT".toList

/-- In place of the offset stands the name of the time zone. -/
theorem to1123_of_printed {chrono : Chrono} {ε : Type} {datetime : chrono.DateTime} {text : Text}
    (printed : chrono.toRfc2822 datetime = text ++ " +0000".toList) :
    (to1123 chrono datetime : Outcome ε Text) = .ok (text ++ " GMT".toList) := by
  have whole : chrono.toRfc2822 datetime = (text ++ [' ']) ++ "+0000".toList := by
    rw [printed, List.append_assoc]
    rfl
  have length :
      Utf8.byteLength (chrono.toRfc2822 datetime) = Utf8.byteLength (text ++ [' ']) + 5 := by
    rw [whole, Utf8.byteLength_append]
    rfl
  rw [to1123, Outcome.checkedSub_of_le (by omega), length, Nat.add_sub_cancel, Outcome.ok_bind,
    whole, Text.sliceTo_byteLength, Outcome.ok_bind, Outcome.pure_eq, List.append_assoc]
  rfl

/-- Every time is printed, in one line that ends with the name of the zone. -/
theorem to1123_eq {chrono : Chrono} (printsUtc : chrono.PrintsUtc) {ε : Type}
    (datetime : chrono.DateTime) :
    ∃ text, (to1123 chrono datetime : Outcome ε Text) = .ok (text ++ " GMT".toList) ∧
      '\n' ∉ text := by
  obtain ⟨text, printed, unbroken⟩ := printsUtc.toRfc2822 datetime
  exact ⟨text, to1123_of_printed printed, unbroken⟩

/-- A date is printed without whitespace around it. -/
theorem trim_to1123 {chrono : Chrono} (prints : chrono.PrintsRfc2822) {ε : Type}
    {datetime : chrono.DateTime} {text : Text}
    (dated : (to1123 chrono datetime : Outcome ε Text) = .ok text) : Text.trim text = text := by
  obtain ⟨weekday, rest, printed, -⟩ := prints.toRfc2822 datetime
  rw [to1123_of_printed printed, Outcome.ok.injEq] at dated
  subst dated
  apply Text.trim_of_ends
  · rw [List.append_assoc]
    intro char first
    cases weekday <;> cases first <;> rfl
  · rw [List.getLast?_append]
    rintro char ⟨⟩
    rfl

/-- Printing a time may panic, but does not fail. -/
theorem to1123_unfailing {ε : Type} (datetime : chrono.DateTime) :
    (to1123 chrono datetime : Outcome ε Text).Unfailing :=
  (Outcome.Unfailing.checkedSub _ _).bind fun _ =>
    (Outcome.Unfailing.unwrap _).bind fun _ => .ok _

/-- `parse_wkday` -/
def parseWkday (s : Text) : Outcome Error (Weekday × Text) := do
  let rest ← s.sliceFrom 3
  let name ← s.sliceTo 3
  if name = "Mon".toList then return (.mon, rest)
  else if name = "Tue".toList then return (.tue, rest)
  else if name = "Wed".toList then return (.wed, rest)
  else if name = "Thu".toList then return (.thu, rest)
  else if name = "Fri".toList then return (.fri, rest)
  else if name = "Sat".toList then return (.sat, rest)
  else if name = "Sun".toList then return (.sun, rest)
  else .err ⟨"Could not parse weekday"⟩

/-- `parse_month` -/
def parseMonth (s : Text) : Outcome Error (Nat × Text) := do
  let rest ← s.sliceFrom 3
  let name ← s.sliceTo 3
  if name = "Jan".toList then return (1, rest)
  else if name = "Feb".toList then return (2, rest)
  else if name = "Mar".toList then return (3, rest)
  else if name = "Apr".toList then return (4, rest)
  else if name = "May".toList then return (5, rest)
  else if name = "Jun".toList then return (6, rest)
  else if name = "Jul".toList then return (7, rest)
  else if name = "Aug".toList then return (8, rest)
  else if name = "Sep".toList then return (9, rest)
  else if name = "Oct".toList then return (10, rest)
  else if name = "Nov".toList then return (11, rest)
  else if name = "Dec".toList then return (12, rest)
  else .err ⟨"Could not parse month"⟩

/-- `parse_digit` -/
def parseDigit (s : Text) : Outcome Error (Nat × Text) := do
  let rest ← s.sliceFrom 1
  let name ← s.sliceTo 1
  match name with
  | [char] =>
      match Text.digit? char with
      | some digit => return (digit, rest)
      | none => .err ⟨"Could not parse digit"⟩
  | _ => .err ⟨"Could not parse digit"⟩

/-- The rounds of the loop in `parse_digits` that are left, with the value of the digits
already read. -/
def parseDigitsFrom : Nat → Nat → Text → Outcome Error (Nat × Text)
  | 0, running, s => return (running, s)
  | left + 1, running, s => do
      let (d, s) ← parseDigit s
      parseDigitsFrom left (running + d * 10 ^ left) s

/-- `parse_digits` -/
def parseDigits (n : Nat) (s : Text) : Outcome Error (Nat × Text) := parseDigitsFrom n 0 s

/-- `parse_date` -/
def parseDate (s : Text) : Outcome Error (chrono.NaiveDate × Text) := do
  let (day, s) ← parseDigits 2 s
  let s ← (discardChar ' ' s).mapErr Error.ofUnit
  let (month, s) ← parseMonth s
  let s ← (discardChar ' ' s).mapErr Error.ofUnit
  let (year, s) ← parseDigits 4 s
  let date ← Outcome.unwrap (chrono.fromYmd year month day)
  return (date, s)

/-- `parse_time` -/
def parseTime (s : Text) : Outcome Error (chrono.NaiveTime × Text) := do
  let (hour, s) ← parseDigits 2 s
  let s ← (discardChar ':' s).mapErr Error.ofUnit
  let (minute, s) ← parseDigits 2 s
  let s ← (discardChar ':' s).mapErr Error.ofUnit
  let (second, s) ← parseDigits 2 s
  let time ← Outcome.unwrap (chrono.fromHms hour minute second)
  return (time, s)

/-- `parse_date_1123` -/
def parseDate1123 (s : Text) : Outcome Error chrono.DateTime := do
  let (_, s) ← parseWkday s
  let s ← (discardChar ',' s).mapErr Error.ofUnit
  let s ← (discardChar ' ' s).mapErr Error.ofUnit
  let (date, s) ← parseDate chrono s
  let s ← (discardChar ' ' s).mapErr Error.ofUnit
  let (time, s) ← parseTime chrono s
  let s ← (discardChar ' ' s).mapErr Error.ofUnit
  let _ ← (discardString "GMT".toList s).mapErr Error.ofUnit
  return chrono.andTime date time

end RustHttpServer
