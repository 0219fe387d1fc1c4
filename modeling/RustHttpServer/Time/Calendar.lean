import RustHttpServer.Time.Reading

/-!
# The calendar counts days

The days of the Gregorian calendar repeat after 400 years. Within these, a day lies in a
century, in four years of it, in one of these years and on one of its days
(`exists_dayOfYear`), and from these `civilFromDays` finds its date. Counting the days to
this date gives the day again (`civilFromDays_spec`), so the calendar is as `chrono`
documents it.
-/

namespace RustHttpServer

open Foundation

namespace Gregorian

/-- The place of a day in 400 years that begin with a March: its century, the four years
in it, the year of these and the day of the year. Only a year before a leap day has 366 days. -/
structure DayOfEra (dayOfEra century quad year day : Int) : Prop where
  whole : dayOfEra = 36524 * century + 1461 * quad + 365 * year + day
  centuries : 0 ≤ century ∧ century ≤ 3
  quads : 0 ≤ quad ∧ quad ≤ 24
  years : 0 ≤ year ∧ year ≤ 3
  days : 0 ≤ day ∧ day ≤ 365
  leap : day = 365 → year = 3 ∧ (quad = 24 → century = 3)

private theorem exists_dayOfEra {dayOfEra : Int} (nonneg : 0 ≤ dayOfEra)
    (limited : dayOfEra < 146097) :
    ∃ century quad year day, DayOfEra dayOfEra century quad year day := by
  obtain ⟨century, centuries⟩ : ∃ century, century = min (dayOfEra / 36524) 3 := ⟨_, rfl⟩
  obtain ⟨rest, rests⟩ : ∃ rest, rest = dayOfEra - 36524 * century := ⟨_, rfl⟩
  have restRange : 0 ≤ rest ∧ rest ≤ 36524 ∧ (rest = 36524 → century = 3) := by omega
  obtain ⟨quad, quads⟩ : ∃ quad, quad = rest / 1461 := ⟨_, rfl⟩
  obtain ⟨left, lefts⟩ : ∃ left, left = rest - 1461 * quad := ⟨_, rfl⟩
  have leftRange : 0 ≤ left ∧ left ≤ 1460 ∧ (left = 1460 → quad = 24 → century = 3) := by omega
  obtain ⟨year, years⟩ : ∃ year, year = min (left / 365) 3 := ⟨_, rfl⟩
  refine ⟨century, quad, year, left - 365 * year, ?_⟩
  constructor <;> omega

/-- The year within 400 years, as `civilFromDays` finds it. -/
theorem DayOfEra.yearOfEra {dayOfEra century quad year day : Int}
    (place : DayOfEra dayOfEra century quad year day) :
    (dayOfEra - dayOfEra / 1460 + dayOfEra / 36524 - dayOfEra / 146096) / 365 =
      100 * century + 4 * quad + year := by
  obtain ⟨whole, centuries, quads, years, days, leap⟩ := place
  obtain ⟨quarter, quarters⟩ : ∃ quarter, quarter = dayOfEra / 1460 := ⟨_, rfl⟩
  by_cases last : dayOfEra = 146096
  · omega
  · have full : dayOfEra / 146096 = 0 := by omega
    have hundreds : dayOfEra / 36524 = century := by omega
    have close : quarter = 25 * century + quad ∨ quarter = 25 * century + quad + 1 := by omega
    rw [← quarters, full, hundreds]
    rcases close with below | above
    · omega
    · omega

/-- The month of a day of the year and the day of the month, with months counted from
March. -/
structure DayOfYear (dayOfYear shifted day : Int) : Prop where
  month : shifted = (5 * dayOfYear + 2) / 153
  months : 0 ≤ shifted ∧ shifted ≤ 11
  inMonth : day = dayOfYear - (153 * shifted + 2) / 5 + 1
  days : 1 ≤ day ∧ day ≤ 31
  short : shifted = 1 ∨ shifted = 3 ∨ shifted = 6 ∨ shifted = 8 → day ≤ 30
  last : shifted = 11 → day ≤ 29 ∧ (day = 29 → dayOfYear = 365)

private theorem exists_dayOfYear {dayOfYear : Int} (nonneg : 0 ≤ dayOfYear)
    (limited : dayOfYear ≤ 365) :
    ∃ shifted day, DayOfYear dayOfYear shifted day := by
  obtain ⟨shifted, month⟩ : ∃ shifted, shifted = (5 * dayOfYear + 2) / 153 := ⟨_, rfl⟩
  have months : 0 ≤ shifted ∧ shifted ≤ 11 := by omega
  refine ⟨shifted, _, month, months, rfl, ?_, ?_, ?_⟩
  · omega
  · omega
  · omega

/-- A month is as long as its days in the calendar. -/
theorem le_daysInMonth {year month day : Nat} (days : day ≤ 31)
    (short : month = 4 ∨ month = 6 ∨ month = 9 ∨ month = 11 → day ≤ 30)
    (february : month = 2 → day ≤ 29 ∧ (day = 29 → isLeap year)) :
    day ≤ daysInMonth year month := by
  unfold daysInMonth
  split
  · next second =>
      obtain ⟨most, leap⟩ := february second
      split
      · exact most
      · next common =>
          have other : day ≠ 29 := fun last => common (leap last)
          omega
  · split
    · next fewer => exact short (by simpa using fewer)
    · exact days

/-- **The calendar counts days.** The date that lies some days from the epoch is one of
the calendar, and lies as many days from the epoch. -/
theorem civilFromDays_spec {days : Int} (recent : 0 ≤ days) (limited : days < 2932897) :
    ∃ year month day : Nat, civilFromDays days = ((year : Int), month, day) ∧ year ≤ 9999 ∧
      1 ≤ month ∧ month ≤ 12 ∧ day ≤ daysInMonth year month ∧ 1 ≤ day ∧
      daysFromCivil year month day = days := by
  obtain ⟨era, eras⟩ : ∃ era, era = (days + 719468) / 146097 := ⟨_, rfl⟩
  obtain ⟨dayOfEra, daysOfEra⟩ : ∃ dayOfEra, dayOfEra = (days + 719468) % 146097 := ⟨_, rfl⟩
  obtain ⟨century, quad, year, dayOfYear, place⟩ :=
    @exists_dayOfEra dayOfEra (by omega) (by omega)
  obtain ⟨shifted, day, date⟩ := exists_dayOfYear place.days.1 place.days.2
  obtain ⟨yearOfEra, yearsOfEra⟩ : ∃ yearOfEra, yearOfEra = 100 * century + 4 * quad + year :=
    ⟨_, rfl⟩
  have civil : civilFromDays days =
      (if (if shifted < 10 then shifted + 3 else shifted - 9) ≤ 2 then yearOfEra + era * 400 + 1
        else yearOfEra + era * 400,
      (if shifted < 10 then shifted + 3 else shifted - 9).toNat, day.toNat) := by
    have rest : dayOfEra - (365 * yearOfEra + yearOfEra / 4 - yearOfEra / 100) = dayOfYear := by
      obtain ⟨whole, centuries, quads, years, -, -⟩ := place
      omega
    simp only [civilFromDays]
    rw [← eras, ← daysOfEra, place.yearOfEra, ← yearsOfEra, rest, ← date.month, ← date.inMonth]
  obtain ⟨whole, centuries, quads, years, -, leap⟩ := place
  obtain ⟨month, months, inMonth, inDays, short, last⟩ := date
  have quarters : (yearOfEra + era * 400) / 4 = 25 * century + quad + 100 * era := by omega
  have hundreds : (yearOfEra + era * 400) / 100 = century + 4 * era := by omega
  have whole400 : (yearOfEra + era * 400) / 400 = era := by omega
  by_cases spring : shifted < 10
  · refine ⟨(yearOfEra + era * 400).toNat, (shifted + 3).toNat, day.toNat, ?_, ?_, ?_, ?_,
      ?_, ?_, ?_⟩
    · rw [civil, if_pos spring, if_neg (by omega), Int.toNat_of_nonneg (by omega)]
    · omega
    · omega
    · omega
    · apply le_daysInMonth
      · omega
      · omega
      · omega
    · omega
    · rw [daysFromCivil, if_neg (by omega), if_neg (by omega), Int.toNat_of_nonneg (by omega),
        quarters, hundreds, whole400]
      omega
  · refine ⟨(yearOfEra + era * 400 + 1).toNat, (shifted - 9).toNat, day.toNat, ?_, ?_, ?_, ?_,
      ?_, ?_, ?_⟩
    · rw [civil, if_neg spring, if_pos (by omega), Int.toNat_of_nonneg (by omega)]
    · omega
    · omega
    · omega
    · apply le_daysInMonth
      · omega
      · omega
      · intro second
        refine ⟨by omega, fun longest => ?_⟩
        simp only [isLeap, decide_eq_true_eq]
        omega
    · omega
    · rw [daysFromCivil, if_pos (by omega), if_pos (by omega), Int.toNat_of_nonneg (by omega),
        Int.add_sub_cancel, quarters, hundreds, whole400]
      omega

end Gregorian

open Gregorian

/-- The calendar does all that is documented. -/
theorem gregorian_documented : gregorian.Documented where
  toPrintsRfc2822 := gregorian_printsRfc2822
  instant := by
    intro secs recent limited
    have limit : endOfYears = 253402300800 := rfl
    have perDay : (secondsPerDay : Int) = 86400 := rfl
    rw [limit] at limited
    obtain ⟨days, countedDays⟩ : ∃ days, days = secs / secondsPerDay := ⟨_, rfl⟩
    obtain ⟨time, countedTime⟩ : ∃ time, time = (secs % secondsPerDay).toNat := ⟨_, rfl⟩
    obtain ⟨year, month, day, civil, years, first, last, inMonth, positive, same⟩ :=
      @civilFromDays_spec days (by rw [countedDays, perDay]; omega)
        (by rw [countedDays, perDay]; omega)
    have timeOfDay : (time : Int) = secs - 86400 * days := by
      rw [countedTime, countedDays, perDay]
      omega
    have inDay : time < 86400 := by
      rw [perDay] at countedTime
      omega
    obtain ⟨weekday, named⟩ := exists_weekday days
    have inYears : inRange year = true := by
      simp only [inRange, decide_eq_true_eq]
      omega
    have short : daysInMonth year month ≤ 31 := by
      unfold daysInMonth
      split
      · split <;> decide
      · split <;> decide
    refine ⟨secs, ?_, rfl, ⟨weekday, year, month, day, time / 3600, time / 60 % 60, time % 60⟩,
      daysFromCivil year month day, time / 3600 * 3600 + time / 60 % 60 * 60 + time % 60, ?_, ?_,
      ?_, ?_, ?_⟩
    · change (if inRange (civilFromDays (secs / secondsPerDay)).1 then some secs else none) = _
      rw [← countedDays, civil, if_pos inYears]
      rfl
    · refine ⟨years, first, last, inMonth.trans short, ?_, ?_, ?_⟩
      · exact Nat.div_lt_of_lt_mul inDay
      · exact Nat.mod_lt _ (by decide)
      · exact Nat.mod_lt _ (by decide)
    · change dateText secs ++ _ = _
      simp only [dateText, ← countedDays, ← countedTime, civil, yearText, DateFields.text, named]
      rw [if_pos (Int.natCast_nonneg year), Int.toNat_natCast]
    · exact if_pos ⟨inYears, first, last, positive, inMonth⟩
    · refine if_pos ⟨Nat.div_lt_of_lt_mul inDay, ?_, ?_⟩
      · exact Nat.mod_lt _ (by decide)
      · exact Nat.mod_lt _ (by decide)
    · change daysFromCivil year month day * secondsPerDay +
        ((time / 3600 * 3600 + time / 60 % 60 * 60 + time % 60 : Nat) : Int) = secs
      rw [same, perDay]
      omega

end RustHttpServer
