import RustHttpServer.Time.Legibility

/-!
# Dates are read back

The fields of a date are read as they are printed. A date that `chrono` prints as it
documents is therefore read back by `parse_date_1123` as the date it was printed from
(`parseDate1123_to1123`).
-/

namespace RustHttpServer

open Foundation Utf8 Gregorian

/-- The fields of a date as it is printed. -/
structure DateFields where
  weekday : Weekday
  year : Nat
  month : Nat
  day : Nat
  hour : Nat
  min : Nat
  sec : Nat

namespace DateFields

/-- `Www, DD Mon YYYY HH:MM:SS` -/
def text (fields : DateFields) : Text :=
  fields.weekday.toText ++ ", ".toList ++ padded 2 fields.day ++ [' '] ++
    monthName fields.month ++ [' '] ++ padded 4 fields.year ++ [' '] ++ padded 2 fields.hour ++
    [':'] ++ padded 2 fields.min ++ [':'] ++ padded 2 fields.sec

/-- Every field is one of the calendar and fits into its width. -/
structure Bounded (fields : DateFields) : Prop where
  year : fields.year ≤ 9999
  firstMonth : 1 ≤ fields.month
  lastMonth : fields.month ≤ 12
  day : fields.day ≤ 31
  hour : fields.hour < 24
  min : fields.min < 60
  sec : fields.sec < 60

end DateFields

/-- The seconds from the epoch to the end of the year 9999. -/
def endOfYears : Int := 253402300800

/-- As `chrono` documents, an instant in UTC is printed with zero-padded fields, and
`from_ymd`, `from_hms` and `and_time` make of these fields the instant again, as `from_timestamp`
does of its `timestamp`. -/
structure Chrono.Documented (chrono : Chrono) : Prop extends chrono.PrintsRfc2822 where
  instant : ∀ secs : Int, 0 ≤ secs → secs < endOfYears → ∃ datetime,
    chrono.fromTimestamp secs 0 = some datetime ∧ chrono.timestamp datetime = secs ∧
      ∃ (fields : DateFields) (date : chrono.NaiveDate) (time : chrono.NaiveTime),
        fields.Bounded ∧ chrono.toRfc2822 datetime = fields.text ++ " +0000".toList ∧
        chrono.fromYmd fields.year fields.month fields.day = some date ∧
        chrono.fromHms fields.hour fields.min fields.sec = some time ∧
        chrono.andTime date time = datetime

variable {chrono : Chrono} {fields : DateFields}

/-- The fields of a date are read back. -/
private theorem parseDate1123_fields (bounded : fields.Bounded) {date : chrono.NaiveDate}
    {time : chrono.NaiveTime}
    (dated : chrono.fromYmd fields.year fields.month fields.day = some date)
    (timed : chrono.fromHms fields.hour fields.min fields.sec = some time) :
    parseDate1123 chrono (fields.text ++ " GMT".toList) = .ok (chrono.andTime date time) := by
  obtain ⟨year, firstMonth, lastMonth, day, hour, min, sec⟩ := bounded
  let writtenDay : WrittenDay := ⟨fields.weekday, ⟨fields.day, by omega⟩,
    ⟨fields.month, firstMonth, lastMonth⟩, ⟨fields.year, by omega⟩⟩
  let writtenClock : WrittenClock :=
    ⟨⟨fields.hour, by omega⟩, ⟨fields.min, by omega⟩, ⟨fields.sec, by omega⟩⟩
  have whole : fields.text ++ " GMT".toList =
      writtenDay.text ++ (writtenClock.text ++ (" GMT".toList ++ [])) := by
    simp only [DateFields.text, WrittenDay.text, WrittenClock.text, List.append_assoc,
      List.append_nil, writtenDay, writtenClock]
  have read : readClock chrono date (writtenClock.text ++ (" GMT".toList ++ [])) =
      .ok (chrono.andTime date time) := by
    refine clockReader_reads.bind_eq_ok_iff.mpr ⟨writtenClock, _, rfl, ?_⟩
    dsimp only [writtenClock]
    rw [timed, Outcome.unwrap_some, Outcome.ok_bind, discardZone_eq_ok_iff.mpr rfl]
    rfl
  rw [whole, parseDate1123_eq]
  refine dayReader_reads.bind_eq_ok_iff.mpr ⟨writtenDay, _, rfl, ?_⟩
  dsimp only [writtenDay]
  rw [dated, Outcome.unwrap_some, Outcome.ok_bind, read]

/-- **Dates are read back.** Every instant of the years from 1970 to 9999 in whole seconds
is written as a date, and what is written is read as the instant. -/
theorem Chrono.Documented.parseDate1123_to1123 (documented : chrono.Documented) {secs : Int}
    (recent : 0 ≤ secs) (limited : secs < endOfYears) : ∃ datetime text,
      chrono.fromTimestamp secs 0 = some datetime ∧ chrono.timestamp datetime = secs ∧
      (∀ ε, (to1123 chrono datetime : Outcome ε Text) = .ok text) ∧
      parseDate1123 chrono text = .ok datetime := by
  obtain ⟨datetime, made, counted, fields, date, time, bounded, printed, dated, timed, same⟩ :=
    documented.instant secs recent limited
  refine ⟨datetime, _, made, counted, fun _ => to1123_of_printed printed, ?_⟩
  rw [parseDate1123_fields bounded dated timed, same]

end RustHttpServer
