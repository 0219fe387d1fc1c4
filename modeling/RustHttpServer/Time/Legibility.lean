import Mathlib.Tactic.IntervalCases
import RustHttpServer.Foundation.Layout
import RustHttpServer.Gregorian

/-!
# Which dates can be read

`parse_date_1123` reads its fields one after the other. It cuts a field off before it looks
at it, and makes the date and the time of what it has read without looking at that. So it
returns on the texts that are `Readable`: at each field that is reached something can be cut
off, and a date or a time of day that is complete exists (`parseDate1123_returns_iff`). Whether
it reads a date does not depend on that (`parseDate1123_ok_iff`).
-/

namespace RustHttpServer

open Foundation Utf8 Gregorian

/-! ### The fields -/

def weekdaySlot : Slot where
  pieces := ["Mon", "Tue", "Wed", "Thu", "Fri", "Sat", "Sun"].map String.toList
  width := some 3

def monthSlot : Slot where
  pieces := ["Jan", "Feb", "Mar", "Apr", "May", "Jun", "Jul", "Aug", "Sep", "Oct", "Nov", "Dec"].map
    String.toList
  width := some 3

def digitSlot : Slot where
  pieces := ["0", "1", "2", "3", "4", "5", "6", "7", "8", "9"].map String.toList
  width := some 1

/-- `Www, DD Mon YYYY` -/
def dayLayout : List Slot :=
  [weekdaySlot, .mark ',', .mark ' ', digitSlot, digitSlot, .mark ' ', monthSlot, .mark ' ',
    digitSlot, digitSlot, digitSlot, digitSlot]

/-- ` HH:MM:SS` -/
def clockLayout : List Slot :=
  [.mark ' ', digitSlot, digitSlot, .mark ':', digitSlot, digitSlot, .mark ':', digitSlot,
    digitSlot]

/-- The weekday of a name. -/
def Weekday.named (name : Text) : Option Weekday :=
  [mon, tue, wed, thu, fri, sat, sun].find? fun weekday => weekday.toText = name

private theorem Weekday.named_eq_some_iff {name : Text} {weekday : Weekday} :
    Weekday.named name = some weekday ↔ weekday.toText = name := by
  constructor
  · intro found
    unfold named at found
    have same := List.find?_some found
    exact of_decide_eq_true same
  · rintro rfl
    cases weekday <;> rfl

/-- The weekday is read from its name. -/
private theorem parseWkday_reads : Reads [weekdaySlot] parseWkday id Weekday.toText := by
  have listed : ∀ piece, piece ∈ weekdaySlot.pieces ↔
      ∃ weekday : Weekday, weekday.toText = piece := by
    intro piece
    constructor
    · intro inside
      simp only [weekdaySlot, List.map_cons, List.map_nil, List.mem_cons, List.not_mem_nil,
        or_false] at inside
      obtain rfl | rfl | rfl | rfl | rfl | rfl | rfl := inside
      exacts [⟨.mon, rfl⟩, ⟨.tue, rfl⟩, ⟨.wed, rfl⟩, ⟨.thu, rfl⟩, ⟨.fri, rfl⟩, ⟨.sat, rfl⟩,
        ⟨.sun, rfl⟩]
    · rintro ⟨weekday, rfl⟩
      cases weekday <;> decide
  have looked : parseWkday = Reader.named 3 Weekday.named ⟨"Could not parse weekday"⟩ := by
    funext s
    rw [parseWkday, Reader.named]
    refine bind_congr fun rest => bind_congr fun name => ?_
    cases found : Weekday.named name with
    | some weekday =>
        obtain rfl := Weekday.named_eq_some_iff.mp found
        cases weekday <;> rfl
    | none =>
        have absent : name ∉ weekdaySlot.pieces := by
          rw [listed]
          rintro ⟨weekday, named⟩
          rw [Weekday.named_eq_some_iff.mpr named] at found
          cases found
        simp only [weekdaySlot, List.map_cons, List.map_nil, List.mem_cons, List.not_mem_nil,
          or_false, not_or] at absent
        simp only [absent, ↓reduceIte]
  rw [looked]
  refine Reads.named _ (fun name weekday => ?_) (fun weekday => ?_) listed
  · rw [Weekday.named_eq_some_iff]
    simp only [id, exists_eq_left]
  · cases weekday <;> rfl

/-- The number of the month of a name. -/
def monthNamed (name : Text) : Option Nat :=
  (List.range' 1 12).find? fun month => monthName month = name

/-- The months by their numbers. -/
abbrev Month := { month : Nat // 1 ≤ month ∧ month ≤ 12 }

private theorem monthNamed_eq_some_iff {name : Text} {number : Nat} :
    monthNamed name = some number ↔
      ∃ month : Month, month.1 = number ∧ monthName month.1 = name := by
  constructor
  · intro found
    unfold monthNamed at found
    have listed := List.mem_range'_1.mp (List.mem_of_find?_eq_some found)
    have same := List.find?_some found
    exact ⟨⟨number, listed.1, Nat.le_of_lt_succ listed.2⟩, rfl, of_decide_eq_true same⟩
  · rintro ⟨⟨month, first, last⟩, rfl, rfl⟩
    dsimp only
    interval_cases month <;> rfl

/-- The month is read from its name. -/
private theorem parseMonth_reads :
    Reads [monthSlot] parseMonth (fun month : Month => month.1) fun month => monthName month.1 := by
  have listed : ∀ piece, piece ∈ monthSlot.pieces ↔ ∃ month : Month, monthName month.1 = piece := by
    intro piece
    change piece ∈ (List.range' 1 12).map monthName ↔ _
    rw [List.mem_map, Subtype.exists]
    refine exists_congr fun month => ?_
    refine Iff.trans (and_congr_left fun _ => ?_) exists_prop.symm
    rw [List.mem_range'_1]
    omega
  have looked : parseMonth = Reader.named 3 monthNamed ⟨"Could not parse month"⟩ := by
    funext s
    rw [parseMonth, Reader.named]
    refine bind_congr fun rest => bind_congr fun name => ?_
    cases found : monthNamed name with
    | some month =>
        obtain ⟨⟨month, first, last⟩, rfl, rfl⟩ := monthNamed_eq_some_iff.mp found
        dsimp only
        interval_cases month <;> rfl
    | none =>
        have absent : name ∉ monthSlot.pieces := by
          rw [listed]
          rintro ⟨month, named⟩
          rw [monthNamed_eq_some_iff.mpr ⟨month, rfl, named⟩] at found
          cases found
        simp only [monthSlot, List.map_cons, List.map_nil, List.mem_cons, List.not_mem_nil,
          or_false, not_or] at absent
        simp only [absent, ↓reduceIte]
  rw [looked]
  refine Reads.named _ (fun _ _ => monthNamed_eq_some_iff) ?_ listed
  rintro ⟨month, first, last⟩
  dsimp only
  interval_cases month <;> rfl

/-- The value of a digit on its own. -/
def digitNamed : Text → Option Nat
  | [char] => Text.digit? char
  | _ => none

private theorem digitNamed_eq_some_iff {name : Text} {read : Nat} : digitNamed name = some read ↔
    ∃ digit : Fin 10, digit.1 = read ∧ [Nat.digitChar digit] = name := by
  constructor
  · intro found
    unfold digitNamed at found
    split at found
    · next char =>
        obtain ⟨small, rfl⟩ := Text.digit?_eq_some_iff.mp found
        exact ⟨⟨read, small⟩, rfl, rfl⟩
    · cases found
  · rintro ⟨digit, rfl, rfl⟩
    exact Text.digit?_digitChar digit digit.2

/-- A digit is read from its character. -/
private theorem parseDigit_reads : Reads [digitSlot] parseDigit (fun digit : Fin 10 => digit.1)
    fun digit => [Nat.digitChar digit] := by
  have looked : parseDigit = Reader.named 1 digitNamed ⟨"Could not parse digit"⟩ := by
    funext s
    rw [parseDigit, Reader.named]
    refine bind_congr fun rest => bind_congr fun name => ?_
    obtain _ | ⟨char, _ | ⟨next, name⟩⟩ := name
    · rfl
    · dsimp only [digitNamed]
      cases Text.digit? char with
      | none => rfl
      | some digit => rfl
    · rfl
  have listed : ∀ piece, piece ∈ digitSlot.pieces ↔
      ∃ digit : Fin 10, [Nat.digitChar digit] = piece := by
    intro piece
    change piece ∈ (List.finRange 10).map (fun digit => [Nat.digitChar digit.1]) ↔ _
    rw [List.mem_map]
    exact exists_congr fun digit => and_iff_right (List.mem_finRange digit)
  rw [looked]
  refine Reads.named _ (fun _ _ => digitNamed_eq_some_iff) ?_ listed
  decide

/-! ### Numbers of a fixed width -/

private theorem padded_one {digit : Nat} (small : digit < 10) :
    padded 1 digit = [Nat.digitChar digit] := by
  rw [padded, Text.decimal_eq, if_pos small]
  rfl

/-- The last digit of a padded number stands behind the padded rest. -/
theorem padded_succ (width number : Nat) : padded (width + 2) number =
    padded (width + 1) (number / 10) ++ [Nat.digitChar (number % 10)] := by
  by_cases small : number < 10
  · have zeros : padded (width + 1) 0 = List.replicate (width + 1) '0' := by
      rw [List.replicate_succ']
      rfl
    rw [Nat.div_eq_of_lt small, Nat.mod_eq_of_lt small, zeros, padded, Text.decimal_eq,
      if_pos small]
    rfl
  · have length : width + 2 - (Text.decimal (number / 10) ++ [Nat.digitChar (number % 10)]).length =
        width + 1 - (Text.decimal (number / 10)).length := by
      rw [List.length_append, List.length_singleton]
      omega
    rw [padded, Text.decimal_eq, if_neg small, length, padded, List.append_assoc]

/-- The first digit of a padded number stands before the padded rest. -/
theorem padded_cons (width : Nat) {number : Nat} (small : number < 10 ^ (width + 2)) :
    padded (width + 2) number = Nat.digitChar (number / 10 ^ (width + 1)) ::
      padded (width + 1) (number % 10 ^ (width + 1)) := by
  induction width generalizing number with
  | zero =>
      have tens : number / 10 < 10 := by omega
      have last : number % 10 < 10 := by omega
      rw [padded_succ, padded_one tens, Nat.zero_add, Nat.pow_one, padded_one last]
      rfl
  | succ width ih =>
      have shorter : number / 10 < 10 ^ (width + 2) := by
        rw [Nat.pow_succ] at small
        exact Nat.div_lt_of_lt_mul (by omega)
      have leading : number / 10 / 10 ^ (width + 1) = number / 10 ^ (width + 2) := by
        rw [Nat.div_div_eq_div_mul, Nat.pow_succ' (n := width + 1)]
      have middle : number / 10 % 10 ^ (width + 1) = number % 10 ^ (width + 2) / 10 := by
        rw [Nat.pow_succ' (n := width + 1), Nat.mod_mul_right_div_self]
      have last : number % 10 ^ (width + 2) % 10 = number % 10 :=
        Nat.mod_mod_of_dvd _ (Dvd.intro_left _ rfl)
      rw [padded_succ, ih shorter, padded_succ width, leading, middle, last, List.cons_append]

/-- The digits of a number before and behind the first one. -/
theorem exists_digits (width : Nat) (number : Fin (10 ^ (width + 2))) :
    ∃ (digit : Fin 10) (rest : Fin (10 ^ (width + 1))),
      number.1 = digit.1 * 10 ^ (width + 1) + rest.1 ∧
        padded (width + 2) number = [Nat.digitChar digit] ++ padded (width + 1) rest := by
  have leading : number.1 / 10 ^ (width + 1) < 10 :=
    Nat.div_lt_of_lt_mul (number.2.trans_eq (Nat.pow_succ 10 (width + 1)))
  refine ⟨⟨_, leading⟩, ⟨number % 10 ^ (width + 1), Nat.mod_lt _ (Nat.pow_pos (by decide))⟩,
    (Nat.div_add_mod' _ _).symm, padded_cons width number.2⟩

/-- A digit before a number. -/
theorem exists_number (width : Nat) (digit : Fin 10) (rest : Fin (10 ^ (width + 1))) :
    ∃ number : Fin (10 ^ (width + 2)), number.1 = digit.1 * 10 ^ (width + 1) + rest.1 ∧
      padded (width + 2) number = [Nat.digitChar digit] ++ padded (width + 1) rest := by
  have most : digit.1 * 10 ^ (width + 1) ≤ 9 * 10 ^ (width + 1) :=
    Nat.mul_le_mul_right _ (Nat.le_of_lt_succ digit.2)
  have small : digit.1 * 10 ^ (width + 1) + rest.1 < 10 ^ (width + 2) := by
    have last := rest.2
    rw [Nat.pow_succ 10 (width + 1)]
    omega
  refine ⟨⟨_, small⟩, rfl, ?_⟩
  have first : (digit.1 * 10 ^ (width + 1) + rest.1) / 10 ^ (width + 1) = digit.1 := by
    rw [Nat.add_comm, Nat.add_mul_div_right _ _ (Nat.pow_pos (by decide)),
      Nat.div_eq_of_lt rest.2, Nat.zero_add]
  have others : (digit.1 * 10 ^ (width + 1) + rest.1) % 10 ^ (width + 1) = rest.1 := by
    rw [Nat.add_comm, Nat.add_mul_mod_self_right, Nat.mod_eq_of_lt rest.2]
  rw [padded_cons width small, first, others]
  rfl

/-- Digits are those of a number, with zeros in front. -/
private theorem fills_digits_iff (width : Nat) {text : Text} :
    Fills (List.replicate (width + 1) digitSlot) text ↔
      ∃ number : Fin (10 ^ (width + 1)), text = padded (width + 1) number := by
  have one := parseDigit_reads.fills_iff
  induction width generalizing text with
  | zero =>
      refine (one text).trans (exists_congr fun number => ?_)
      rw [padded_one number.2]
  | succ width ih =>
      rw [List.replicate_succ, ← List.singleton_append, fills_append_iff]
      constructor
      · rintro ⟨_, _, rfl, first, others⟩
        obtain ⟨digit, rfl⟩ := (one _).mp first
        obtain ⟨rest, rfl⟩ := ih.mp others
        obtain ⟨number, _, printed⟩ := exists_number width digit rest
        exact ⟨number, printed.symm⟩
      · rintro ⟨number, rfl⟩
        obtain ⟨digit, rest, _, printed⟩ := exists_digits width number
        exact ⟨_, _, printed, (one _).mpr ⟨digit, rfl⟩, ih.mpr ⟨rest, rfl⟩⟩

private theorem parseDigitsFrom_returns_iff (left running : Nat) {s : Text} :
    (parseDigitsFrom left running s).Returns ↔ Legible (List.replicate left digitSlot) s := by
  induction left generalizing running s with
  | zero => exact iff_of_true (.ok _) trivial
  | succ left ih =>
      rw [List.replicate_succ, ← List.singleton_append, parseDigit_reads.legible_append_iff]
      refine parseDigit_reads.bind_returns_iff.trans (and_congr_right fun _ => ?_)
      exact forall₃_congr fun digit rest _ => ih (running + digit.1 * 10 ^ left)

/-- Digits are read as the number that they are printed for. -/
private theorem parseDigitsFrom_eq_ok_iff (width running : Nat) {s rest : Text} {value : Nat} :
    parseDigitsFrom (width + 1) running s = .ok (value, rest) ↔
      ∃ number : Fin (10 ^ (width + 1)), running + number = value ∧
        s = padded (width + 1) number ++ rest := by
  induction width generalizing running s with
  | zero =>
      refine parseDigit_reads.bind_eq_ok_iff.trans (exists_congr fun digit => ?_)
      simp only [parseDigitsFrom, Outcome.pure_eq, Outcome.ok.injEq, Prod.mk.injEq, Nat.pow_zero,
        Nat.mul_one, padded_one digit.2]
      constructor
      · rintro ⟨_, rfl, rfl, rfl⟩
        exact ⟨rfl, rfl⟩
      · rintro ⟨rfl, rfl⟩
        exact ⟨rest, rfl, rfl, rfl⟩
  | succ width ih =>
      refine parseDigit_reads.bind_eq_ok_iff.trans ?_
      constructor
      · rintro ⟨digit, behind, rfl, others⟩
        obtain ⟨last, rfl, rfl⟩ := (ih _).mp others
        obtain ⟨number, counted, printed⟩ := exists_number width digit last
        refine ⟨number, by rw [counted, Nat.add_assoc], ?_⟩
        rw [printed, List.append_assoc]
      · rintro ⟨number, rfl, rfl⟩
        obtain ⟨digit, last, counted, printed⟩ := exists_digits width number
        refine ⟨digit, padded (width + 1) last ++ rest, by rw [printed, List.append_assoc], ?_⟩
        exact (ih _).mpr ⟨last, by rw [counted, Nat.add_assoc], rfl⟩

/-- Digits are read up to the width. -/
theorem parseDigits_reads (width : Nat) :
    Reads (List.replicate (width + 1) digitSlot) (parseDigits (width + 1))
      (fun number : Fin (10 ^ (width + 1)) => number.1)
      fun number => padded (width + 1) number where
  returns_iff _ := parseDigitsFrom_returns_iff (width + 1) 0
  ok_iff s value rest := by
    rw [parseDigits, parseDigitsFrom_eq_ok_iff]
    simp only [Nat.zero_add]
  fills_iff _ := fills_digits_iff width

/-! ### Dates and times of day -/

/-- `Www, DD Mon YYYY`, whether there is such a day or not. -/
structure WrittenDay where
  weekday : Weekday
  day : Fin 100
  month : Month
  year : Fin 10000

/-- `HH:MM:SS`, whether there is such a time or not. -/
structure WrittenClock where
  hour : Fin 100
  min : Fin 100
  sec : Fin 100

/-- The text of a day. -/
def WrittenDay.text (written : WrittenDay) : Text :=
  written.weekday.toText ++ ", ".toList ++ padded 2 written.day ++ [' '] ++
    monthName written.month ++ [' '] ++ padded 4 written.year

/-- The calendar has the day. -/
def WrittenDay.Exists (written : WrittenDay) : Prop :=
  1 ≤ written.day.1 ∧ written.day.1 ≤ daysInMonth written.year written.month

/-- The text of a time, behind a day. -/
def WrittenClock.text (written : WrittenClock) : Text :=
  [' '] ++ padded 2 written.hour ++ [':'] ++ padded 2 written.min ++ [':'] ++ padded 2 written.sec

/-- The day has the time. -/
def WrittenClock.Exists (written : WrittenClock) : Prop :=
  written.hour.1 < 24 ∧ written.min.1 < 60 ∧ written.sec.1 < 60

/-- `discard_char`, as `parse_date_1123` calls it. -/
def discardMark (char : Char) (s : Text) : Outcome Error Text :=
  (discardChar char s).mapErr Error.ofUnit

private theorem discardMark_discards {char : Char} (size : byteLength [char] = 1) :
    Discards char (discardMark char) where
  returns text := by
    rw [discardMark, discardChar_eq size]
    exact (discardString_returns _ _).mapErr _
  ok_iff text rest := by
    rw [discardMark, discardChar_eq size, Outcome.mapErr_eq_ok_iff, discardString_eq_ok_iff]

/-- The reader of a day. -/
def dayReader : Reader Error (Weekday × Nat × Nat × Nat) :=
  Reader.seq parseWkday (Reader.behind (discardMark ',') (Reader.behind (discardMark ' ')
    (Reader.seq (parseDigits 2) (Reader.behind (discardMark ' ')
      (Reader.seq parseMonth (Reader.behind (discardMark ' ') (parseDigits 4)))))))

/-- The reader of a time. -/
def clockReader : Reader Error (Nat × Nat × Nat) :=
  Reader.behind (discardMark ' ') (Reader.seq (parseDigits 2) (Reader.behind (discardMark ':')
    (Reader.seq (parseDigits 2) (Reader.behind (discardMark ':') (parseDigits 2)))))

/-- The reader of the day reads what is written of it. -/
theorem dayReader_reads : Reads dayLayout dayReader
    (fun written : WrittenDay => (written.weekday, written.day.1, written.month.1, written.year.1))
    WrittenDay.text := by
  have space := @discardMark_discards ' ' rfl
  have comma := @discardMark_discards ',' rfl
  have fields := parseWkday_reads.seq (.behind comma (.behind space ((parseDigits_reads 1).seq
    (.behind space (parseMonth_reads.seq (.behind space (parseDigits_reads 3)))))))
  have covers : Function.Surjective fun written : WrittenDay =>
      (written.weekday, written.day, written.month, written.year) :=
    fun ⟨weekday, day, month, year⟩ => ⟨⟨weekday, day, month, year⟩, rfl⟩
  have text : WrittenDay.text = fun written => written.weekday.toText ++ ([','] ++ ([' '] ++
      (padded 2 written.day ++ ([' '] ++ (monthName written.month ++ ([' '] ++
        padded 4 written.year)))))) := by
    funext written
    simp only [WrittenDay.text, List.append_assoc]
    rfl
  rw [text]
  exact fields.reindex covers

/-- The reader of the clock reads what is written of it. -/
theorem clockReader_reads : Reads clockLayout clockReader
    (fun written : WrittenClock => (written.hour.1, written.min.1, written.sec.1))
    WrittenClock.text := by
  have space := @discardMark_discards ' ' rfl
  have colon := @discardMark_discards ':' rfl
  have fields := Reads.behind space ((parseDigits_reads 1).seq (.behind colon
    ((parseDigits_reads 1).seq (.behind colon (parseDigits_reads 1)))))
  have covers : Function.Surjective fun written : WrittenClock =>
      (written.hour, written.min, written.sec) :=
    fun ⟨hour, min, sec⟩ => ⟨⟨hour, min, sec⟩, rfl⟩
  have text : WrittenClock.text = fun written => [' '] ++ (padded 2 written.hour ++ ([':'] ++
      (padded 2 written.min ++ ([':'] ++ padded 2 written.sec)))) := by
    funext written
    simp only [WrittenClock.text, List.append_assoc]
  rw [text]
  exact fields.reindex covers

/-! ### Reading -/

/-- As `chrono` documents, `from_ymd` and `from_hms` panic exactly on dates and times of day that
do not exist. -/
structure Chrono.Strict (chrono : Chrono) : Prop where
  fromYmd : ∀ written : WrittenDay,
    (chrono.fromYmd written.year written.month written.day).isSome ↔ written.Exists
  fromHms : ∀ written : WrittenClock,
    (chrono.fromHms written.hour written.min written.sec).isSome ↔ written.Exists

/-- The text begins with a date and a time of day that exist. -/
def DenotesDate (s : Text) : Prop :=
  ∃ (day : WrittenDay) (clock : WrittenClock) (rest : Text),
    day.Exists ∧ clock.Exists ∧ s = day.text ++ clock.text ++ " GMT".toList ++ rest

/-- At each field that is reached something can be cut off, and the date and the time of day
exist if all their fields are there. -/
structure Readable (s : Text) : Prop where
  legible : Legible (dayLayout ++ clockLayout) s
  day : ∀ (day : WrittenDay) (rest : Text), s = day.text ++ rest → day.Exists
  clock : ∀ (day : WrittenDay) (clock : WrittenClock) (rest : Text),
    s = day.text ++ clock.text ++ rest → clock.Exists

variable {chrono : Chrono}

/-- What `parse_date_1123` looks for behind the time. -/
def discardZone (s : Text) : Outcome Error Text := do
  let s ← discardMark ' ' s
  (discardString "GMT".toList s).mapErr Error.ofUnit

private theorem discardZone_returns (s : Text) : (discardZone s).Returns :=
  ((discardMark_discards rfl).returns s).bind fun _ => (discardString_returns _ _).mapErr _

/-- The zone is discarded with the blank before it. -/
theorem discardZone_eq_ok_iff {s rest : Text} :
    discardZone s = .ok rest ↔ s = " GMT".toList ++ rest := by
  rw [discardZone, Outcome.bind_eq_ok_iff]
  constructor
  · rintro ⟨between, space, zone⟩
    obtain rfl := ((discardMark_discards rfl).ok_iff _ _).mp space
    obtain rfl := discardString_eq_ok_iff.mp (Outcome.mapErr_eq_ok_iff.mp zone)
    rfl
  · rintro rfl
    exact ⟨"GMT".toList ++ rest, ((discardMark_discards rfl).ok_iff _ _).mpr rfl,
      Outcome.mapErr_eq_ok_iff.mpr (discardString_append _ _)⟩

/-- What `parse_date_1123` reads behind the date. -/
def readClock (chrono : Chrono) (date : chrono.NaiveDate) (s : Text) :
    Outcome Error chrono.DateTime := do
  let ((hour, min, sec), s) ← clockReader s
  let time ← Outcome.unwrap (chrono.fromHms hour min sec)
  let _ ← discardZone s
  return chrono.andTime date time

/-- A date is read by the reader of the day, and then of the clock. -/
theorem parseDate1123_eq (s : Text) : parseDate1123 chrono s =
    (dayReader s >>= fun ((_, day, month, year), s) =>
      Outcome.unwrap (chrono.fromYmd year month day) >>= fun date => readClock chrono date s) := by
  simp only [parseDate1123, parseDate, parseTime, dayReader, clockReader, readClock, discardZone,
    Reader.seq, Reader.behind, discardMark, bind_assoc, pure_bind]

private theorem readClock_returns_iff (strict : chrono.Strict) (date : chrono.NaiveDate)
    {s : Text} :
    (readClock chrono date s).Returns ↔ Legible clockLayout s ∧
      ∀ (clock : WrittenClock) (rest : Text), s = clock.text ++ rest → clock.Exists := by
  refine clockReader_reads.bind_returns_iff.trans (and_congr_right fun _ => ?_)
  refine forall₃_congr fun clock rest _ => ?_
  dsimp only
  rw [← strict.fromHms]
  cases made : chrono.fromHms clock.hour clock.min clock.sec with
  | none => exact iff_of_false (fun returns => returns rfl) Bool.false_ne_true
  | some time => exact iff_of_true ((discardZone_returns rest).bind fun _ => .ok _) rfl

/-- A time of the day is read if it exists and is followed by the zone. -/
private theorem readClock_ok_iff (strict : chrono.Strict) (date : chrono.NaiveDate) {s : Text} :
    (∃ datetime, readClock chrono date s = .ok datetime) ↔
      ∃ (clock : WrittenClock) (rest : Text),
        clock.Exists ∧ s = clock.text ++ (" GMT".toList ++ rest) := by
  constructor
  · rintro ⟨datetime, read⟩
    obtain ⟨clock, between, rfl, made⟩ := clockReader_reads.bind_eq_ok_iff.mp read
    obtain ⟨time, timed, zoned⟩ := Outcome.bind_eq_ok_iff.mp made
    obtain ⟨rest, zone, _⟩ := Outcome.bind_eq_ok_iff.mp zoned
    obtain rfl := discardZone_eq_ok_iff.mp zone
    refine ⟨clock, rest, (strict.fromHms clock).mp ?_, rfl⟩
    rw [Outcome.unwrap_eq_ok_iff.mp timed]
    rfl
  · rintro ⟨clock, rest, exist, rfl⟩
    obtain ⟨time, timed⟩ := Option.isSome_iff_exists.mp ((strict.fromHms clock).mpr exist)
    refine ⟨chrono.andTime date time, clockReader_reads.bind_eq_ok_iff.mpr ⟨clock, _, rfl, ?_⟩⟩
    dsimp only
    rw [timed, Outcome.unwrap_some, Outcome.ok_bind, discardZone_eq_ok_iff.mpr rfl]
    rfl

/-- `parse_date_1123` returns on the texts that can be read. -/
theorem parseDate1123_returns_iff (strict : chrono.Strict) {s : Text} :
    (parseDate1123 chrono s).Returns ↔ Readable s := by
  have goes : ∀ (day : WrittenDay) (rest : Text),
      (Outcome.unwrap (chrono.fromYmd day.year day.month day.day) >>= fun date =>
        readClock chrono date rest : Outcome Error chrono.DateTime).Returns ↔
      day.Exists ∧ Legible clockLayout rest ∧
        ∀ (clock : WrittenClock) (rest' : Text), rest = clock.text ++ rest' → clock.Exists := by
    intro day rest
    rw [← strict.fromYmd]
    cases made : chrono.fromYmd day.year day.month day.day with
    | none => exact iff_of_false (fun returns => returns rfl) fun both => Bool.false_ne_true both.1
    | some date => exact (readClock_returns_iff strict date).trans (and_iff_right rfl).symm
  rw [parseDate1123_eq, dayReader_reads.bind_returns_iff]
  constructor
  · rintro ⟨legible, returns⟩
    have behind := fun day rest whole => (goes day rest).mp (returns day rest whole)
    refine ⟨dayReader_reads.legible_append_iff.mpr ⟨legible, ?_⟩, ?_, ?_⟩
    · exact fun day rest whole => (behind day rest whole).2.1
    · exact fun day rest whole => (behind day rest whole).1
    · intro day clock rest whole
      exact (behind day (clock.text ++ rest) (by rw [whole, List.append_assoc])).2.2 clock rest rfl
  · rintro ⟨legible, days, clocks⟩
    obtain ⟨leading, others⟩ := dayReader_reads.legible_append_iff.mp legible
    refine ⟨leading, fun day rest whole => (goes day rest).mpr ⟨days day rest whole, ?_⟩⟩
    refine ⟨others day rest whole, fun clock rest' behind => clocks day clock rest' ?_⟩
    rw [whole, behind, List.append_assoc]

/-- A date is read where one stands, whatever else aborts. -/
theorem parseDate1123_ok_iff (strict : chrono.Strict) {s : Text} :
    (∃ datetime, parseDate1123 chrono s = .ok datetime) ↔ DenotesDate s := by
  simp only [parseDate1123_eq, dayReader_reads.bind_eq_ok_iff]
  constructor
  · rintro ⟨datetime, day, _, rfl, made⟩
    obtain ⟨date, dated, read⟩ := Outcome.bind_eq_ok_iff.mp made
    obtain ⟨clock, rest, inDay, rfl⟩ := (readClock_ok_iff strict date).mp ⟨datetime, read⟩
    refine ⟨day, clock, rest, (strict.fromYmd day).mp ?_, inDay, by simp only [List.append_assoc]⟩
    rw [Outcome.unwrap_eq_ok_iff.mp dated]
    rfl
  · rintro ⟨day, clock, rest, inYear, inDay, rfl⟩
    obtain ⟨date, dated⟩ := Option.isSome_iff_exists.mp ((strict.fromYmd day).mpr inYear)
    obtain ⟨datetime, read⟩ := (readClock_ok_iff strict date).mpr ⟨clock, rest, inDay, rfl⟩
    refine ⟨datetime, day, clock.text ++ (" GMT".toList ++ rest),
      by simp only [List.append_assoc], ?_⟩
    rw [dated, Outcome.unwrap_some, Outcome.ok_bind, read]

/-- The calendar is as strict as that. -/
theorem gregorian_strict : gregorian.Strict where
  fromYmd written := by
    have inYears : inRange written.year.1 = true := by
      have := written.year.2
      simp only [inRange, decide_eq_true_eq]
      omega
    unfold gregorian
    dsimp only
    rw [Option.isSome_ite]
    simp only [inYears, written.month.2.1, written.month.2.2, true_and]
    rfl
  fromHms written := by
    unfold gregorian
    dsimp only
    rw [Option.isSome_ite]
    rfl

end RustHttpServer
