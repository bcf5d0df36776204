import DfeClickhouse.Dynamic.Coercion
import DfeClickhouse.Library.Calendar
import DfeClickhouse.Library.Numeral
import DfeClickhouse.Library.Reader

/-!
# Timestamps

A date-time string of the documented form, what the parser reads out of it, and the
`DateTime64` ticks it is stored as.  The day count of the source is a closed form; it
is compared with counting through the calendar.
-/

namespace DfeClickhouse.Dynamic

open Library

theorem tmod_eq_zero_iff (value divisor : Int) : value.tmod divisor = 0 ↔ divisor ∣ value :=
  ⟨Int.dvd_of_tmod_eq_zero, fun divides => Int.tmod_eq_zero_of_dvd divides⟩

theorem daysInMonth_eq_monthLength (year : Int) {month : Nat} (isMonth : 1 ≤ month ∧ month ≤ 12) :
    daysInMonth year month = monthLength year month := by
  have leap : (year.tmod 4 = 0 ∧ (year.tmod 100 ≠ 0 ∨ year.tmod 400 = 0)) ↔ IsLeapYear year := by
    simp only [IsLeapYear, ne_eq, tmod_eq_zero_iff]
  obtain ⟨least, greatest⟩ := isMonth
  simp only [daysInMonth, leap]
  interval_cases month <;> rfl

theorem checkCalendarDay_iff {year : Int} {month day : Nat} :
    checkCalendarDay year month day = true ↔ CivilDate.Exists year month day := by
  simp only [checkCalendarDay, CivilDate.Exists, Bool.and_eq_true, decide_eq_true_eq, and_assoc]
  constructor
  · rintro ⟨least, greatest, first, last⟩
    rw [daysInMonth_eq_monthLength year ⟨least, greatest⟩] at last
    exact ⟨least, greatest, first, last⟩
  · rintro ⟨least, greatest, first, last⟩
    rw [← daysInMonth_eq_monthLength year ⟨least, greatest⟩] at last
    exact ⟨least, greatest, first, last⟩

/-- The source's day number of a date. -/
def civilDays (date : CivilDate) : Int :=
  civilDaysFromEpoch date.year date.month date.day

theorem civilDaysFromEpoch_day (year : Int) (month day : Nat) :
    civilDaysFromEpoch year month day = civilDaysFromEpoch year month 1 + (day - 1) := by
  simp only [civilDaysFromEpoch]
  push_cast
  ring

/-- The first of a month follows the last day of the month before it. -/
theorem civilDaysFromEpoch_month (year : Int) {month : Nat} (least : 1 ≤ month)
    (greatest : month < 12) :
    civilDaysFromEpoch year (month + 1) 1 =
      civilDaysFromEpoch year month (monthLength year month) + 1 := by
  interval_cases month <;> simp [civilDaysFromEpoch, monthLength]
  · omega
  · split
    · next leap =>
        unfold IsLeapYear at leap
        omega
    · next common =>
        unfold IsLeapYear at common
        omega
  all_goals omega

/-- The first of January follows the last day of December. -/
theorem civilDaysFromEpoch_year (year : Int) :
    civilDaysFromEpoch (year + 1) 1 1 = civilDaysFromEpoch year 12 31 + 1 := by
  simp only [civilDaysFromEpoch, show ¬ 12 ≤ 2 by decide, show 1 ≤ 2 by decide, if_true, if_false]
  have same : year + 1 - 1 = year := by omega
  rw [same]
  push_cast
  ring

/-- The day number grows by one from a date to the next. -/
@[simp] theorem civilDays_next (date : CivilDate) : civilDays date.next = civilDays date + 1 := by
  have ⟨least, greatest⟩ := date.isMonth
  have ⟨_, last⟩ := date.isDay
  unfold civilDays CivilDate.next
  split
  · rw [civilDaysFromEpoch_day _ _ (date.day + 1), civilDaysFromEpoch_day _ _ date.day]
    push_cast
    ring
  · next ended =>
      have lastDay : date.day = monthLength date.year date.month := by omega
      split
      · next sameYear =>
          rw [lastDay]
          exact civilDaysFromEpoch_month date.year least sameYear
      · next ended =>
          have december : date.month = 12 := by omega
          rw [lastDay, december]
          exact civilDaysFromEpoch_year date.year

/-- Months are counted from the first of January on. -/
theorem civilDaysFromEpoch_daysBeforeMonth (year : Int) {month : Nat} (least : 1 ≤ month)
    (greatest : month ≤ 12) :
    civilDaysFromEpoch year month 1 = civilDaysFromEpoch year 1 1 + daysBeforeMonth year month := by
  induction month, least using Nat.le_induction with
  | base => exact (Int.add_zero _).symm
  | succ month least ih =>
      rw [civilDaysFromEpoch_month year least greatest, civilDaysFromEpoch_day, ih (by omega),
        daysBeforeMonth]
      push_cast
      ring

/-- Years are counted from the start of year zero on. -/
theorem civilDaysFromEpoch_daysBeforeYear (year : Nat) :
    civilDaysFromEpoch year 1 1 = civilDaysFromEpoch 0 1 1 + daysBeforeYear year := by
  induction year with
  | zero => rfl
  | succ year ih =>
      have december := civilDaysFromEpoch_daysBeforeMonth year (by decide : 1 ≤ 12) le_rfl
      have length := daysBeforeMonth_december year
      rw [Nat.cast_succ, civilDaysFromEpoch_year, civilDaysFromEpoch_day, december, ih,
        daysBeforeYear]
      omega

@[simp] theorem civilDaysFromEpoch_epoch : civilDaysFromEpoch 1970 1 1 = 0 := rfl

/-- The source's day number is the count of days through the calendar. -/
theorem civilDays_eq_daysSince {date : CivilDate} (fromZero : 0 ≤ date.year) :
    civilDays date = date.daysSince 1970 := by
  have months := civilDaysFromEpoch_daysBeforeMonth date.year date.isMonth.1 date.isMonth.2
  have years := civilDaysFromEpoch_daysBeforeYear date.year.toNat
  have epoch := civilDaysFromEpoch_daysBeforeYear 1970
  rw [Int.toNat_of_nonneg fromZero] at years
  rw [Nat.cast_ofNat, civilDaysFromEpoch_epoch] at epoch
  rw [civilDays, civilDaysFromEpoch_day, months, years, CivilDate.daysSince]
  omega

/-- The numbers of a date-time string. -/
structure Fields where
  year : Int
  month : Nat
  day : Nat
  hour : Nat
  minute : Nat
  second : Nat

namespace Fields

/-- The date exists and the time is one of a day. -/
def Valid (fields : Fields) : Prop :=
  CivilDate.Exists fields.year fields.month fields.day ∧
    fields.hour ≤ 23 ∧ fields.minute ≤ 59 ∧ fields.second ≤ 59

/-- The numbers are those the parser takes from their places. -/
structure ReadFrom (fields : Fields) (text : Text) : Prop where
  year : parseSigned 32 (slice text 0 4) = some fields.year
  month : parseUnsigned 32 (slice text 5 7) = some fields.month
  day : parseUnsigned 32 (slice text 8 10) = some fields.day
  hour : parseUnsigned 32 (slice text 11 13) = some fields.hour
  minute : parseUnsigned 32 (slice text 14 16) = some fields.minute
  second : parseUnsigned 32 (slice text 17 19) = some fields.second

def seconds (fields : Fields) : Int :=
  civilDaysFromEpoch fields.year fields.month fields.day * 86400 + (fields.hour : Int) * 3600 +
    (fields.minute : Int) * 60 + (fields.second : Int)

end Fields

/-- A text after the seconds: a fraction of so many nanoseconds and a zone. -/
def ReadsTail (text : Text) (nanos : Nat) : Prop :=
  ∃ rest, parseFraction text = .ok (nanos, rest) ∧ parseZone rest = .ok []

@[simp] theorem component_ok_iff {α ε : Type} {error : ε} {parsed : Option α} {value : α} :
    component error parsed = .ok value ↔ parsed = some value := by
  cases parsed with
  | none => exact iff_of_false (fun same => nomatch same) (fun same => nomatch same)
  | some found => simp [component]

theorem reject_ok_iff {α ε : Type} {condition : Prop} [Decidable condition] {error : ε}
    {outcome : Except ε α} {value : α} :
    (if condition then .error error else outcome) = .ok value ↔
      ¬ condition ∧ outcome = .ok value := by
  split
  · next holds => exact iff_of_false (fun same => nomatch same) fun both => both.1 holds
  · next fails => exact (and_iff_right fails).symm

/-- What a date-time string is accepted for, and as what. -/
theorem parseDatetimeStr_ok_iff {text : Text} {seconds : Int} {nanos : Nat} :
    parseDatetimeStr text = .ok (seconds, nanos) ↔
      (19 ≤ text.length ∧ isAscii text = true ∧
        (text[10]? = some ' ' ∨ text[10]? = some 'T')) ∧
      ReadsTail (text.drop 19) nanos ∧
      ∃ fields : Fields, fields.ReadFrom text ∧ fields.Valid ∧ fields.seconds = seconds := by
  have front : ¬ (text.length < 19 ∨ (!isAscii text) = true ∨
      (text[10]? ≠ some ' ' ∧ text[10]? ≠ some 'T')) ↔
      19 ≤ text.length ∧ isAscii text = true ∧
        (text[10]? = some ' ' ∨ text[10]? = some 'T') := by
    simp only [not_or, not_lt, Bool.not_eq_true', Bool.not_eq_false, not_and, ne_eq, not_not]
    rw [or_iff_not_imp_left]
  simp only [parseDatetimeStr, reject_ok_iff, front, Reader.ok_bind_iff, component_ok_iff]
  apply and_congr_right
  intro _
  constructor
  · rintro ⟨⟨fraction, rest⟩, read, left, zone, ended, year, isYear, month, isMonth,
    day, isDay, hour,
      isHour, minute, isMinute, second, isSecond, inRange, same⟩
    obtain rfl := not_not.mp ended
    cases same
    refine ⟨⟨rest, read, zone⟩, ⟨year, month, day, hour, minute, second⟩,
      ⟨isYear, isMonth, isDay, isHour, isMinute, isSecond⟩, ?_, rfl⟩
    simp only [not_or, Bool.not_eq_true', Bool.not_eq_false, checkCalendarDay_iff, not_lt,
      gt_iff_lt] at inRange
    exact inRange
  · rintro ⟨⟨rest, read, zone⟩, fields, taken, valid, rfl⟩
    refine ⟨(nanos, rest), read, [], zone, fun absent => absent rfl, fields.year, taken.year,
      fields.month, taken.month, fields.day, taken.day, fields.hour, taken.hour, fields.minute,
      taken.minute, fields.second, taken.second, ?_, rfl⟩
    simp only [not_or, Bool.not_eq_true', Bool.not_eq_false, checkCalendarDay_iff, not_lt,
      gt_iff_lt]
    exact valid

/-- What stands between date and time. -/
inductive Separator
  | space
  | letter

def Separator.char : Separator → Char
  | space => ' '
  | letter => 'T'

/-- How UTC is written, if it is. -/
inductive Zone
  | unwritten
  | letter
  | offset

def Zone.text : Zone → Text
  | unwritten => []
  | letter => ['Z']
  | offset => ['+', '0', '0', ':', '0', '0']

/-- A fraction of a second in writing, nothing when it has no digits. -/
def fractionText (digits : Text) : Text :=
  if digits = [] then [] else '.' :: digits

/-- The nanoseconds of a fraction, cut to nine digits. -/
def fractionNanos (digits : Text) : Nat :=
  numeral (digits.take 9) * 10 ^ (9 - digits.length)

/-- A part of a text and what follows it. -/
theorem slice_append_drop (text : Text) {start stop : Nat} (ordered : start ≤ stop) :
    slice text start stop ++ text.drop stop = text.drop start := by
  have after : text.drop stop = (text.drop start).drop (stop - start) := by
    rw [List.drop_drop, Nat.add_sub_cancel' ordered]
  rw [slice, List.drop_take, after, List.take_append_drop]

theorem parseZone_end_iff {text : Text} :
    parseZone text = .ok [] ↔ ∃ zone : Zone, text = zone.text := by
  constructor
  · intro read
    unfold parseZone at read
    split at read
    · cases read
      exact ⟨.letter, rfl⟩
    · dsimp only at read
      split at read
      · next shape =>
          obtain ⟨signed, -, colon, -⟩ := shape
          split at read
          · cases read
          · next utc =>
              simp only [not_or, ne_eq, not_not] at utc
              obtain ⟨negative, hours, minutes⟩ := utc
              have short : text.drop 6 = [] := Except.ok.inj read
              have positive : text.take 1 = ['+'] := signed.resolve_right negative
              refine ⟨.offset, ?_⟩
              rw [← List.take_append_drop 1 text, positive,
                ← slice_append_drop text (by decide : 1 ≤ 3), hours,
                ← slice_append_drop text (by decide : 3 ≤ 4), colon,
                ← slice_append_drop text (by decide : 4 ≤ 6), minutes, short]
              rfl
      · cases read
        exact ⟨.unwritten, rfl⟩
  · rintro ⟨zone, rfl⟩
    cases zone <;> rfl

theorem takeWhile_isDigit_zone (digits : Text) (isDigits : IsDigits digits) (zone : Zone) :
    (digits ++ zone.text).takeWhile Char.isDigit = digits ∧
      (digits ++ zone.text).dropWhile Char.isDigit = zone.text := by
  rw [List.takeWhile_append_of_pos isDigits, List.dropWhile_append_of_pos isDigits]
  cases zone <;> simp [Zone.text]

theorem parseUnsigned_fraction {digits : Text} (nonempty : digits ≠ [])
    (isDigits : IsDigits digits) :
    parseUnsigned 32 (digits.take 9) = some (numeral (digits.take 9)) := by
  have cut : IsDigits (digits.take 9) := fun char member =>
      isDigits char (List.mem_of_mem_take member)
  have small : numeral (digits.take 9) < 2 ^ 32 :=
    calc numeral (digits.take 9) < 10 ^ (digits.take 9).length := numeral_lt cut
      _ ≤ 10 ^ 9 := Nat.pow_le_pow_right (by decide) (List.length_take_le 9 digits)
      _ < 2 ^ 32 := by decide
  rw [parseUnsigned_of_isDigits (by simpa using nonempty) cut, if_pos small]

/-- After the seconds stand a fraction and a zone. -/
theorem readsTail_iff {text : Text} {nanos : Nat} :
    ReadsTail text nanos ↔
      ∃ (digits : Text) (zone : Zone), IsDigits digits ∧
        text = fractionText digits ++ zone.text ∧ nanos = fractionNanos digits := by
  constructor
  · rintro ⟨rest, read, zoned⟩
    obtain ⟨zone, rfl⟩ := parseZone_end_iff.mp zoned
    unfold parseFraction at read
    split at read
    · next rest' =>
        dsimp only at read
        split at read
        · cases read
        · next present =>
            have isDigits : IsDigits (rest'.takeWhile Char.isDigit) :=
              fun char member => List.mem_takeWhile_imp member
            have nonempty : rest'.takeWhile Char.isDigit ≠ [] := by simpa using present
            rw [parseUnsigned_fraction nonempty isDigits] at read
            injection read with same
            injection same with fraction left
            refine ⟨rest'.takeWhile Char.isDigit, zone, isDigits, ?_, fraction.symm⟩
            rw [fractionText, if_neg nonempty, ← left, List.cons_append,
              List.takeWhile_append_dropWhile]
    · cases read
      exact ⟨[], zone, isDigits_nil, rfl, rfl⟩
  · rintro ⟨digits, zone, isDigits, rfl, rfl⟩
    refine ⟨zone.text, ?_, parseZone_end_iff.mpr ⟨zone, rfl⟩⟩
    by_cases nonempty : digits = []
    · subst nonempty
      cases zone <;> rfl
    · have ⟨taken, left⟩ := takeWhile_isDigit_zone digits isDigits zone
      rw [fractionText, if_neg nonempty, List.cons_append, parseFraction, taken, left,
        parseUnsigned_fraction nonempty isDigits]
      simp [nonempty, fractionNanos]

/-- A date of a year of four digits, a time of day and the digits of a fraction of a
second, none for a time stamp without one. -/
structure Timestamp where
  date : CivilDate
  hour : Nat
  minute : Nat
  second : Nat
  fraction : Text
  isYear : 0 ≤ date.year ∧ date.year ≤ 9999
  isHour : hour ≤ 23
  isMinute : minute ≤ 59
  isSecond : second ≤ 59
  isFraction : IsDigits fraction

namespace Timestamp

/-- A time stamp in writing. -/
def text (stamp : Timestamp) (separator : Separator) (zone : Zone) : Text :=
  padded 4 stamp.date.year.toNat ++ '-' :: padded 2 stamp.date.month ++
    '-' :: padded 2 stamp.date.day ++ separator.char :: padded 2 stamp.hour ++
    ':' :: padded 2 stamp.minute ++ ':' :: padded 2 stamp.second ++
    (fractionText stamp.fraction ++ zone.text)

def fields (stamp : Timestamp) : Fields where
  year := stamp.date.year
  month := stamp.date.month
  day := stamp.date.day
  hour := stamp.hour
  minute := stamp.minute
  second := stamp.second

variable (stamp : Timestamp) (separator : Separator) (zone : Zone)

theorem fields_valid : stamp.fields.Valid :=
  ⟨⟨stamp.date.isMonth, stamp.date.isDay⟩, stamp.isHour, stamp.isMinute, stamp.isSecond⟩

theorem monthLength_le (year : Int) (month : Nat) : monthLength year month ≤ 31 := by
  unfold monthLength
  split <;> try split
  all_goals decide

theorem parseUnsigned_padded {value : Nat} (fits : value < 100) :
    parseUnsigned 32 (padded 2 value) = some value := by
  have nonempty : padded 2 value ≠ [] := List.ne_nil_of_length_pos (by simp)
  rw [parseUnsigned_of_isDigits nonempty (isDigits_padded 2 value), numeral_padded_of_lt fits,
    if_pos (by omega)]

theorem parseSigned_padded {value : Nat} (fits : value < 10000) :
    parseSigned 32 (padded 4 value) = some (value : Int) := by
  have nonempty : padded 4 value ≠ [] := List.ne_nil_of_length_pos (by simp)
  rw [parseSigned_of_isDigits nonempty (isDigits_padded 4 value), numeral_padded_of_lt fits,
    if_pos (by omega)]

/-- The parser finds the numbers of a time stamp at their places. -/
theorem fields_readFrom : stamp.fields.ReadFrom (stamp.text separator zone) := by
  have ⟨fromZero, fourDigits⟩ := stamp.isYear
  have month := stamp.date.isMonth.2
  have day := stamp.date.isDay.2.trans (monthLength_le stamp.date.year stamp.date.month)
  have hour := stamp.isHour
  have minute := stamp.isMinute
  have second := stamp.isSecond
  have year : parseSigned 32 (padded 4 stamp.date.year.toNat) = some stamp.date.year := by
    rw [parseSigned_padded (by omega), Int.toNat_of_nonneg fromZero]
  exact {
    year := year
    month := parseUnsigned_padded (by omega)
    day := parseUnsigned_padded (by omega)
    hour := parseUnsigned_padded (by omega)
    minute := parseUnsigned_padded (by omega)
    second := parseUnsigned_padded (by omega) }

@[simp, grind =] theorem isAscii_append (front back : Text) :
    isAscii (front ++ back) = (isAscii front && isAscii back) :=
  List.all_append

@[simp, grind =] theorem isAscii_cons (char : Char) (text : Text) :
    isAscii (char :: text) = (decide (char.toNat < 128) && isAscii text) :=
  List.all_cons

theorem isAscii_of_isDigits {text : Text} (digits : IsDigits text) : isAscii text = true := by
  apply List.all_eq_true.mpr
  intro char member
  have bounds := Char.isDigit_iff_toNat.mp (digits char member)
  simp only [Char.reduceToNat] at bounds
  simp only [decide_eq_true_eq]
  omega

@[simp] theorem isAscii_text : isAscii (stamp.text separator zone) = true := by
  have isPadded (width value : Nat) : isAscii (padded width value) = true :=
    isAscii_of_isDigits (isDigits_padded width value)
  have isFraction : isAscii (fractionText stamp.fraction) = true := by
    unfold fractionText
    split
    · rfl
    · rw [isAscii_cons, isAscii_of_isDigits stamp.isFraction]
      rfl
  have isZone : isAscii zone.text = true := by cases zone <;> rfl
  have isSeparator : separator.char.toNat < 128 := by cases separator <;> decide
  simp only [text, isAscii_append, isAscii_cons, isPadded, isFraction, isZone, isSeparator,
    decide_true, Bool.and_true]
  decide

/-- A time stamp in writing is parsed as the second it names and its nanoseconds. -/
theorem parseDatetimeStr_text :
    parseDatetimeStr (stamp.text separator zone) =
      .ok (stamp.fields.seconds, fractionNanos stamp.fraction) := by
  refine parseDatetimeStr_ok_iff.mpr ⟨⟨?_, stamp.isAscii_text separator zone, ?_⟩, ?_,
    stamp.fields, stamp.fields_readFrom separator zone, stamp.fields_valid, rfl⟩
  · simp [text]
    omega
  · cases separator
    · exact .inl rfl
    · exact .inr rfl
  · exact readsTail_iff.mpr ⟨stamp.fraction, zone, stamp.isFraction, rfl, rfl⟩

@[simp] theorem trim_text : trim (stamp.text separator zone) = stamp.text separator zone := by
  have digit {width value : Nat} {char : Char} (member : char ∈ padded width value) :
      isWhitespace char = false :=
    isWhitespace_of_isDigit (isDigits_padded width value char member)
  have isZone : ∀ char ∈ zone.text, isWhitespace char = false := by
    cases zone <;> simp [Zone.text, isWhitespace]
  have isFraction : ∀ char ∈ fractionText stamp.fraction, isWhitespace char = false := by
    unfold fractionText
    split
    · intro char member
      cases member
    · exact List.forall_mem_cons.mpr
        ⟨rfl, fun char member => isWhitespace_of_isDigit (stamp.isFraction char member)⟩
  have ending : ∀ char ∈ padded 2 stamp.second ++ (fractionText stamp.fraction ++ zone.text),
      isWhitespace char = false :=
    List.forall_mem_append.mpr ⟨fun _ => digit, List.forall_mem_append.mpr ⟨isFraction, isZone⟩⟩
  have opening : isWhitespace ((padded 4 stamp.date.year.toNat).head (by simp [padded])) = false :=
    digit (List.head_mem _)
  have split : stamp.text separator zone =
      (padded 4 stamp.date.year.toNat ++ '-' :: padded 2 stamp.date.month ++
        '-' :: padded 2 stamp.date.day ++ separator.char :: padded 2 stamp.hour ++
        ':' :: padded 2 stamp.minute ++ [':']) ++
      (padded 2 stamp.second ++ (fractionText stamp.fraction ++ zone.text)) := by
    simp [text]
  rw [split]
  exact trim_eq_self_of_ends opening (by simp [padded]) ending

/-- A time stamp in writing is no integer. -/
@[simp] theorem parseSignedText_text :
    parseSignedText 64 (String.ofList (stamp.text separator zone)) = none := by
  rw [parseSignedText, String.toList_ofList, trim_text]
  cases read : parseSigned 64 (stamp.text separator zone) with
  | none => rfl
  | some value => cases isDigit_of_parseSigned read (by decide : 0 < 4) rfl

/-- The seconds since 1970-01-01, the fraction cut to nine digits. -/
def instant : ℚ :=
  stamp.date.daysSince 1970 * 86400 + stamp.hour * 3600 + stamp.minute * 60 + stamp.second +
    (numeral (stamp.fraction.take 9) : ℚ) / 10 ^ (stamp.fraction.take 9).length

theorem fractionNanos_div (digits : Text) :
    (fractionNanos digits : ℚ) / 10 ^ 9 =
      (numeral (digits.take 9) : ℚ) / 10 ^ (digits.take 9).length := by
  have places : (digits.take 9).length + (9 - digits.length) = 9 := by
    rw [List.length_take]
    omega
  rw [fractionNanos, div_eq_div_iff (by positivity) (by positivity)]
  have tens : (10 : ℚ) ^ 9 = 10 ^ (digits.take 9).length * 10 ^ (9 - digits.length) := by
    rw [← pow_add, places]
  rw [tens]
  push_cast
  ring

theorem fractionNanos_lt {digits : Text} (isDigits : IsDigits digits) :
    fractionNanos digits < 10 ^ 9 := by
  have cut : IsDigits (digits.take 9) :=
    fun char member => isDigits char (List.mem_of_mem_take member)
  have places : (digits.take 9).length + (9 - digits.length) = 9 := by
    rw [List.length_take]
    omega
  calc fractionNanos digits
      < 10 ^ (digits.take 9).length * 10 ^ (9 - digits.length) :=
        Nat.mul_lt_mul_of_pos_right (numeral_lt cut) (by positivity)
    _ = 10 ^ 9 := by rw [← pow_add, places]

theorem instant_eq :
    stamp.instant = stamp.fields.seconds + (fractionNanos stamp.fraction : ℚ) / 10 ^ 9 := by
  have days := civilDays_eq_daysSince stamp.isYear.1
  rw [instant, ← days, ← fractionNanos_div, Fields.seconds, fields, civilDays]
  push_cast
  ring

/-- The ticks of a time stamp round down, before 1970 as well. -/
theorem floor_instant_mul {precision : Nat} (atMostNanos : precision ≤ 9) :
    ⌊stamp.instant * 10 ^ precision⌋ =
      stamp.fields.seconds * 10 ^ precision +
        (fractionNanos stamp.fraction : Int) / 10 ^ (9 - precision) := by
  have scaled : stamp.instant * 10 ^ precision =
      ((stamp.fields.seconds * 10 ^ precision : Int) : ℚ) +
        (fractionNanos stamp.fraction : ℚ) / (10 ^ (9 - precision) : Nat) := by
    have split : (10 : ℚ) ^ 9 = 10 ^ (9 - precision) * 10 ^ precision := by
      rw [← pow_add, Nat.sub_add_cancel atMostNanos]
    rw [instant_eq, split]
    push_cast
    field_simp
  rw [scaled, Int.floor_intCast_add, Rat.floor_natCast_div_natCast,
    Nat.cast_pow, Nat.cast_ofNat]

theorem floor_instant : ⌊stamp.instant⌋ = stamp.fields.seconds := by
  have whole := stamp.floor_instant_mul (Nat.zero_le 9)
  have none : (fractionNanos stamp.fraction : Int) / 10 ^ 9 = 0 :=
    Int.ediv_eq_zero_of_lt (Int.natCast_nonneg _)
      (by exact_mod_cast fractionNanos_lt stamp.isFraction)
  rw [pow_zero, mul_one, pow_zero, mul_one, Nat.sub_zero, none, add_zero] at whole
  exact whole

end Timestamp

/-- An integer is an `i64`. -/
def IsI64 (value : Int) : Prop :=
  -2 ^ 63 ≤ value ∧ value < 2 ^ 63

instance (value : Int) : Decidable (IsI64 value) :=
  inferInstanceAs (Decidable (_ ∧ _))

theorem fitsSigned_64 (value : Int) :
    fitsSigned 64 value = if IsI64 value then some value else none :=
  rfl

theorem pow10I64_eq {exponent : Nat} (small : exponent ≤ 18) :
    pow10I64 exponent = 10 ^ exponent := by
  interval_cases exponent <;> rfl

/-- A time stamp is stored as the ticks that have passed at it, or refused where they or
its whole seconds are too many; the day number behind it is zero for 1970-01-01 and one
more for each next date. -/
theorem datetime64ToTicks_timestamp (stamp : Timestamp) (separator : Separator) (zone : Zone)
    {precision : Nat} (atMostNanos : precision ≤ 9) (col : String) :
    datetime64ToTicks (.string (String.ofList (stamp.text separator zone))) precision col =
      (if IsI64 (⌊stamp.instant⌋ * 10 ^ precision) ∧ IsI64 ⌊stamp.instant * 10 ^ precision⌋ then
        .ok ⌊stamp.instant * 10 ^ precision⌋
      else
        encErr col "DateTime64 epoch overflow") ∧
    civilDaysFromEpoch 1970 1 1 = 0 ∧
    ∀ date : CivilDate, civilDays date.next = civilDays date + 1 := by
  refine ⟨?_, civilDaysFromEpoch_epoch, civilDays_next⟩
  have parsed : datetimeOf (trim (String.ofList (stamp.text separator zone)).toList) col =
      .ok (stamp.fields.seconds, fractionNanos stamp.fraction) := by
    rw [String.toList_ofList, stamp.trim_text, datetimeOf, stamp.parseDatetimeStr_text]
  rw [datetime64ToTicks, stamp.parseSignedText_text, stamp.floor_instant_mul atMostNanos,
    stamp.floor_instant]
  simp only [parsed, pow10I64_eq (show precision ≤ 18 by omega),
    pow10I64_eq (show 9 - precision ≤ 18 by omega), fitsSigned_64]
  by_cases base : IsI64 (stamp.fields.seconds * 10 ^ precision)
  · by_cases ticks : IsI64 (stamp.fields.seconds * 10 ^ precision +
        (fractionNanos stamp.fraction : Int) / 10 ^ (9 - precision))
    · simp only [bind, Except.bind, orErr, base, ticks, and_self, if_true]
    · simp only [bind, Except.bind, orErr, base, ticks, and_false, if_true, if_false]
  · simp only [bind, Except.bind, orErr, base, false_and, if_false]
    rfl

/-- Half a second before 1970. -/
def halfSecondBefore1970 : Timestamp where
  date := ⟨1969, 12, 31, by decide, by decide⟩
  hour := 23
  minute := 59
  second := 59
  fraction := ['5']
  isYear := by decide
  isHour := by decide
  isMinute := by decide
  isSecond := by decide
  isFraction := List.forall_mem_singleton.mpr rfl

theorem datetime64ToTicks_halfSecondBefore1970 :
    datetime64ToTicks (.string "1969-12-31T23:59:59.5Z") 3 "at" = .ok (-500) := by
  have precision : 3 ≤ 9 := by decide
  have ⟨stored, _, _⟩ :=
    datetime64ToTicks_timestamp halfSecondBefore1970 .letter .letter precision "at"
  rw [halfSecondBefore1970.floor_instant_mul precision, halfSecondBefore1970.floor_instant,
    if_pos (by decide)] at stored
  exact stored

end DfeClickhouse.Dynamic
