import DfeClickhouse.Dynamic.Timestamp

/-!
# Which strings are date-times

The parser takes the fields of a date-time string from fixed places.  It looks at one
of the five separators, and an integer may begin with a sign.  A string it accepts is
therefore a time stamp in writing once its separators are put in place and the signs
of its fields are read as zeros.
-/

namespace DfeClickhouse.Dynamic

open Library

/-- A time stamp in writing. -/
def IsTimestamp (text : Text) : Prop :=
  ∃ (stamp : Timestamp) (separator : Separator) (zone : Zone), text = stamp.text separator zone

@[simp] theorem getElem?_slice (text : Text) (start stop index : Nat) :
    (slice text start stop)[index]? =
      if start + index < stop then text[start + index]? else none := by
  rw [slice, List.getElem?_drop, List.getElem?_take]

theorem length_slice {text : Text} {start stop : Nat} (inside : stop ≤ text.length) :
    (slice text start stop).length = stop - start := by
  rw [slice, List.length_drop, List.length_take, Nat.min_eq_left inside]

/-- One place of a text and what follows it. -/
theorem cons_drop_succ {text : Text} {place : Nat} {char : Char}
    (found : text[place]? = some char) :
    char :: text.drop (place + 1) = text.drop place := by
  obtain ⟨inside, rfl⟩ := List.getElem?_eq_some_iff.mp found
  exact List.getElem_cons_drop inside

/-- The numbers written in the places of a text. -/
def writtenFields (text : Text) : Fields where
  year := numeral (slice text 0 4)
  month := numeral (slice text 5 7)
  day := numeral (slice text 8 10)
  hour := numeral (slice text 11 13)
  minute := numeral (slice text 14 16)
  second := numeral (slice text 17 19)

/-- The places of a time stamp in writing. -/
structure HasPlaces (text : Text) : Prop where
  long : 19 ≤ text.length
  year : IsDigits (slice text 0 4)
  month : IsDigits (slice text 5 7)
  day : IsDigits (slice text 8 10)
  hour : IsDigits (slice text 11 13)
  minute : IsDigits (slice text 14 16)
  second : IsDigits (slice text 17 19)
  valid : (writtenFields text).Valid
  separator : text[10]? = some ' ' ∨ text[10]? = some 'T'
  tail : ∃ nanos, ReadsTail (text.drop 19) nanos

/-- The separators a time stamp always has. -/
structure HasSeparators (text : Text) : Prop where
  afterYear : text[4]? = some '-'
  afterMonth : text[7]? = some '-'
  afterHour : text[13]? = some ':'
  afterMinute : text[16]? = some ':'

namespace HasPlaces

variable {text : Text}

/-- The time stamp whose numbers and fraction a text has at its places. -/
def stamp (places : HasPlaces text) {digits : Text} (isFraction : IsDigits digits) : Timestamp where
  date := {
    year := (writtenFields text).year
    month := (writtenFields text).month
    day := (writtenFields text).day
    isMonth := places.valid.1.1
    isDay := places.valid.1.2 }
  hour := (writtenFields text).hour
  minute := (writtenFields text).minute
  second := (writtenFields text).second
  fraction := digits
  isYear := by
    have fourDigits := numeral_lt places.year
    rw [length_slice (by have := places.long; omega)] at fourDigits
    simp only [writtenFields]
    omega
  isHour := places.valid.2.1
  isMinute := places.valid.2.2.1
  isSecond := places.valid.2.2.2
  isFraction := isFraction

theorem padded_slice {start stop : Nat} (digits : IsDigits (slice text start stop))
    (inside : stop ≤ text.length) :
    padded (stop - start) (numeral (slice text start stop)) = slice text start stop := by
  have shown := padded_numeral digits
  rwa [length_slice inside] at shown

/-- A text with a time stamp's separators and places is that time stamp in writing. -/
theorem exists_text (places : HasPlaces text) (separators : HasSeparators text) :
    IsTimestamp text := by
  have long := places.long
  obtain ⟨nanos, tail⟩ := places.tail
  obtain ⟨digits, zone, isFraction, written, -⟩ := readsTail_iff.mp tail
  obtain ⟨separator, between⟩ : ∃ separator : Separator, text[10]? = some separator.char := by
    rcases places.separator with space | letter
    · exact ⟨.space, space⟩
    · exact ⟨.letter, letter⟩
  refine ⟨places.stamp isFraction, separator, zone, ?_⟩
  have year := padded_slice places.year (by omega)
  have month := padded_slice places.month (by omega)
  have day := padded_slice places.day (by omega)
  have hour := padded_slice places.hour (by omega)
  have minute := padded_slice places.minute (by omega)
  have second := padded_slice places.second (by omega)
  calc text
      = slice text 0 4 ++ '-' :: (slice text 5 7 ++ '-' :: (slice text 8 10 ++ separator.char ::
          (slice text 11 13 ++ ':' :: (slice text 14 16 ++ ':' :: (slice text 17 19 ++
            text.drop 19))))) := by
        rw [slice_append_drop text (by decide : 17 ≤ 19), cons_drop_succ separators.afterMinute,
          slice_append_drop text (by decide : 14 ≤ 16), cons_drop_succ separators.afterHour,
          slice_append_drop text (by decide : 11 ≤ 13), cons_drop_succ between,
          slice_append_drop text (by decide : 8 ≤ 10), cons_drop_succ separators.afterMonth,
          slice_append_drop text (by decide : 5 ≤ 7), cons_drop_succ separators.afterYear,
          slice_append_drop text (by decide : 0 ≤ 4), List.drop_zero]
    _ = (places.stamp isFraction).text separator zone := by
        rw [written, ← year, ← month, ← day, ← hour, ← minute, ← second]
        simp [Timestamp.text, stamp, writtenFields]

end HasPlaces

namespace Timestamp

variable (stamp : Timestamp) (separator : Separator) (zone : Zone)

/-- The numbers in writing are those of the time stamp. -/
theorem writtenFields_text : writtenFields (stamp.text separator zone) = stamp.fields := by
  have ⟨fromZero, fourDigits⟩ := stamp.isYear
  have month := stamp.date.isMonth.2
  have day := stamp.date.isDay.2.trans (monthLength_le stamp.date.year stamp.date.month)
  have hour := stamp.isHour
  have minute := stamp.isMinute
  have second := stamp.isSecond
  have shown {width value : Nat} (fits : value < 10 ^ width) :
      numeral (padded width value) = value := numeral_padded_of_lt fits
  have year : ((numeral (padded 4 stamp.date.year.toNat) : Nat) : Int) = stamp.date.year := by
    rw [shown (by omega), Int.toNat_of_nonneg fromZero]
  calc writtenFields (stamp.text separator zone)
      = ⟨numeral (padded 4 stamp.date.year.toNat), numeral (padded 2 stamp.date.month),
          numeral (padded 2 stamp.date.day), numeral (padded 2 stamp.hour),
          numeral (padded 2 stamp.minute), numeral (padded 2 stamp.second)⟩ := rfl
    _ = stamp.fields := by
        rw [year, shown (by omega), shown (by omega), shown (by omega), shown (by omega),
          shown (by omega)]
        rfl

theorem hasSeparators_text : HasSeparators (stamp.text separator zone) :=
  ⟨rfl, rfl, rfl, rfl⟩

theorem hasPlaces_text : HasPlaces (stamp.text separator zone) where
  long := by
    simp [text]
    omega
  year := isDigits_padded 4 _
  month := isDigits_padded 2 _
  day := isDigits_padded 2 _
  hour := isDigits_padded 2 _
  minute := isDigits_padded 2 _
  second := isDigits_padded 2 _
  valid := by
    rw [writtenFields_text]
    exact stamp.fields_valid
  separator := by
    cases separator
    · exact .inl rfl
    · exact .inr rfl
  tail := ⟨_, readsTail_iff.mpr ⟨stamp.fraction, zone, stamp.isFraction, rfl, rfl⟩⟩

end Timestamp

theorem isTimestamp_iff {text : Text} :
    IsTimestamp text ↔ HasSeparators text ∧ HasPlaces text := by
  constructor
  · rintro ⟨stamp, separator, zone, rfl⟩
    exact ⟨stamp.hasSeparators_text separator zone, stamp.hasPlaces_text separator zone⟩
  · rintro ⟨separators, places⟩
    exact places.exists_text separators

/-- What the parser takes a character for: the separator at its place, or a zero where a
sign begins a field. -/
def repairedAt (place : Nat) (char : Char) : Char :=
  if place = 4 ∨ place = 7 then '-'
  else if place = 13 ∨ place = 16 then ':'
  else if place = 0 ∧ isSign char then '0'
  else if place ∈ [5, 8, 11, 14, 17] ∧ char = '+' then '0'
  else char

/-- A text as the parser takes it. -/
def repaired (text : Text) : Text :=
  text.mapIdx repairedAt

@[simp] theorem getElem?_repaired (text : Text) (place : Nat) :
    (repaired text)[place]? = text[place]?.map (repairedAt place) :=
  List.getElem?_mapIdx

@[simp] theorem length_repaired (text : Text) : (repaired text).length = text.length :=
  List.length_mapIdx

theorem slice_repaired (text : Text) (start stop : Nat) :
    slice (repaired text) start stop =
      (slice text start stop).mapIdx fun index => repairedAt (start + index) := by
  apply List.ext_getElem?
  intro index
  rw [List.getElem?_mapIdx, getElem?_slice, getElem?_slice, getElem?_repaired]
  split <;> rfl

@[simp] theorem drop_repaired (text : Text) : (repaired text).drop 19 = text.drop 19 := by
  apply List.ext_getElem?
  intro index
  have past (char : Char) : repairedAt (19 + index) char = char := by
    have noField : 19 + index ∉ [5, 8, 11, 14, 17] := by
      simp only [List.mem_cons, List.not_mem_nil, or_false]
      omega
    unfold repairedAt
    split_ifs with hyphen colon year field
    · omega
    · omega
    · omega
    · exact absurd field.1 noField
    · rfl
  rw [List.getElem?_drop, List.getElem?_drop, getElem?_repaired, funext past, Option.map_id_fun']
  rfl

@[simp] theorem repaired_separator (text : Text) : (repaired text)[10]? = text[10]? := by
  rw [getElem?_repaired]
  exact Option.map_id_apply

/-- A zero where a sign begins a field. -/
def unsigned (sign : Char → Bool) (char : Char) : Char :=
  if sign char then '0' else char

/-- A number of two characters is read with its plus sign taken for a zero. -/
theorem parseUnsigned_pair_iff {first second : Char} {value : Nat} :
    parseUnsigned 32 [first, second] = some value ↔
      IsDigits [unsigned (· == '+') first, second] ∧
        numeral [unsigned (· == '+') first, second] = value := by
  have same : parseUnsigned 32 [first, second] =
      (parseDigits [unsigned (· == '+') first, second]).filter fun value => value < 2 ^ 32 := by
    by_cases plus : first = '+'
    · subst plus
      rw [show unsigned (· == '+') '+' = '0' from rfl, parseDigits_zero (by simp)]
      rfl
    · simp [parseUnsigned, unsigned, plus]
  rw [same, Option.filter_eq_some_iff, parseDigits_eq_some_iff]
  constructor
  · rintro ⟨⟨-, digits, number⟩, -⟩
    exact ⟨digits, number⟩
  · rintro ⟨digits, rfl⟩
    have small : _ < 10 ^ 2 := numeral_lt digits
    exact ⟨⟨by simp, digits, rfl⟩, decide_eq_true (by omega)⟩

/-- A year of four characters is read with its sign taken for a zero. -/
theorem parseSigned_year_iff {first : Char} {rest : Text} (three : rest.length = 3) {value : Int} :
    parseSigned 32 (first :: rest) = some value ↔
      IsDigits (unsigned isSign first :: rest) ∧
        value = (if first = '-' then -(numeral (unsigned isSign first :: rest) : Int)
          else numeral (unsigned isSign first :: rest)) := by
  have nonempty : rest ≠ [] := List.ne_nil_of_length_pos (by omega)
  have same : parseDigits (unsignedPart (first :: rest)) =
      parseDigits (unsigned isSign first :: rest) := by
    by_cases minus : first = '-'
    · subst minus
      exact (parseDigits_zero nonempty).symm
    · by_cases plus : first = '+'
      · subst plus
        exact (parseDigits_zero nonempty).symm
      · simp [unsignedPart, unsigned, isSign, minus, plus]
  rw [parseSigned_eq, same, Option.filter_eq_some_iff, Option.map_eq_some_iff]
  simp only [parseDigits_eq_some_iff, List.head?_cons, Option.some.injEq]
  constructor
  · rintro ⟨⟨_, ⟨-, digits, rfl⟩, rfl⟩, -⟩
    exact ⟨digits, rfl⟩
  · rintro ⟨digits, rfl⟩
    have small := numeral_lt digits
    rw [List.length_cons, three] at small
    refine ⟨⟨_, ⟨by simp, digits, rfl⟩, rfl⟩, ?_⟩
    simp only [Bool.and_eq_true, decide_eq_true_eq]
    split <;> omega

/-- A field of two characters after the year. -/
theorem parseUnsigned_slice_iff {text : Text} {place value : Nat}
    (isField : place ∈ [5, 8, 11, 14, 17]) (inside : place + 2 ≤ text.length) :
    parseUnsigned 32 (slice text place (place + 2)) = some value ↔
      IsDigits (slice (repaired text) place (place + 2)) ∧
        numeral (slice (repaired text) place (place + 2)) = value := by
  have two : (slice text place (place + 2)).length = 2 := by
    rw [length_slice inside, Nat.add_sub_cancel_left]
  obtain ⟨first, second, pair⟩ := List.length_eq_two.mp two
  have repairedPair : slice (repaired text) place (place + 2) =
      [unsigned (· == '+') first, second] := by
    rw [slice_repaired, pair]
    simp only [List.mem_cons, List.not_mem_nil, or_false] at isField
    rcases isField with rfl | rfl | rfl | rfl | rfl <;> simp [repairedAt, unsigned]
  rw [repairedPair, pair, parseUnsigned_pair_iff]

/-- The year. -/
theorem parseSigned_slice_iff {text : Text} {value : Int} (inside : 4 ≤ text.length) :
    parseSigned 32 (slice text 0 4) = some value ↔
      IsDigits (slice (repaired text) 0 4) ∧
        value = (if text.head? = some '-' then -(numeral (slice (repaired text) 0 4) : Int)
          else numeral (slice (repaired text) 0 4)) := by
  have four : (slice text 0 4).length = 4 := length_slice inside
  obtain ⟨first, rest, written⟩ := List.exists_cons_of_length_eq_add_one four
  have three : rest.length = 3 := by
    rw [written] at four
    exact Nat.succ.inj four
  have head : text.head? = some first := by
    have start := getElem?_slice text 0 4 0
    rw [written] at start
    rw [List.head?_eq_getElem?]
    exact start.symm
  have repairedYear : slice (repaired text) 0 4 = unsigned isSign first :: rest := by
    obtain ⟨second, third, fourth, rfl⟩ := List.length_eq_three.mp three
    rw [slice_repaired, written]
    simp [repairedAt, unsigned]
  simp only [repairedYear, written, parseSigned_year_iff three, head, Option.some.injEq]

/-- A year and its negative have the same dates. -/
@[simp] theorem exists_neg_iff {year : Int} {month day : Nat} :
    CivilDate.Exists (-year) month day ↔ CivilDate.Exists year month day := by
  have leap : IsLeapYear (-year) ↔ IsLeapYear year := by
    simp only [IsLeapYear, Int.dvd_neg]
  have same : monthLength (-year) month = monthLength year month := by
    unfold monthLength
    split <;> simp only [leap]
  rw [CivilDate.Exists, CivilDate.Exists, same]

@[simp]
theorem exists_signed_iff {negative : Prop} [Decidable negative] {year : Int} {month day : Nat} :
    CivilDate.Exists (if negative then -year else year) month day ↔
      CivilDate.Exists year month day := by
  split
  · exact exists_neg_iff
  · rfl

/-- The fields the parser takes from a text are the numbers of its places, the year with
its sign. -/
theorem readFrom_iff {text : Text} (long : 19 ≤ text.length) {fields : Fields} :
    fields.ReadFrom text ↔
      (IsDigits (slice (repaired text) 0 4) ∧ IsDigits (slice (repaired text) 5 7) ∧
        IsDigits (slice (repaired text) 8 10) ∧ IsDigits (slice (repaired text) 11 13) ∧
        IsDigits (slice (repaired text) 14 16) ∧ IsDigits (slice (repaired text) 17 19)) ∧
      fields = { writtenFields (repaired text) with
        year := if text.head? = some '-' then -(writtenFields (repaired text)).year
          else (writtenFields (repaired text)).year } := by
  have year {value : Int} : parseSigned 32 (slice text 0 4) = some value ↔ _ :=
    parseSigned_slice_iff (show 4 ≤ text.length by omega)
  have field {place value : Nat} (isField : place ∈ [5, 8, 11, 14, 17])
      (inside : place + 2 ≤ text.length) :
      parseUnsigned 32 (slice text place (place + 2)) = some value ↔ _ :=
    parseUnsigned_slice_iff isField inside
  constructor
  · intro taken
    have ⟨isYear, yearValue⟩ := year.mp taken.year
    have ⟨isMonth, monthValue⟩ := (field (by decide) (by omega)).mp taken.month
    have ⟨isDay, dayValue⟩ := (field (by decide) (by omega)).mp taken.day
    have ⟨isHour, hourValue⟩ := (field (by decide) (by omega)).mp taken.hour
    have ⟨isMinute, minuteValue⟩ := (field (by decide) (by omega)).mp taken.minute
    have ⟨isSecond, secondValue⟩ := (field (by decide) (by omega)).mp taken.second
    refine ⟨⟨isYear, isMonth, isDay, isHour, isMinute, isSecond⟩, ?_⟩
    cases fields
    simp only [Fields.mk.injEq]
    exact ⟨yearValue, monthValue.symm, dayValue.symm, hourValue.symm, minuteValue.symm,
      secondValue.symm⟩
  · rintro ⟨⟨isYear, isMonth, isDay, isHour, isMinute, isSecond⟩, rfl⟩
    exact {
      year := year.mpr ⟨isYear, rfl⟩
      month := (field (by decide) (by omega)).mpr ⟨isMonth, rfl⟩
      day := (field (by decide) (by omega)).mpr ⟨isDay, rfl⟩
      hour := (field (by decide) (by omega)).mpr ⟨isHour, rfl⟩
      minute := (field (by decide) (by omega)).mpr ⟨isMinute, rfl⟩
      second := (field (by decide) (by omega)).mpr ⟨isSecond, rfl⟩ }

/-- The parser accepts an ASCII text that has a time stamp's places once it is repaired. -/
theorem accepts_iff_places {text : Text} :
    (∃ result, parseDatetimeStr text = .ok result) ↔
      isAscii text = true ∧ HasPlaces (repaired text) := by
  constructor
  · rintro ⟨⟨seconds, nanos⟩, accepted⟩
    obtain ⟨⟨long, ascii, separator⟩, tail, fields, taken, valid, -⟩ :=
      parseDatetimeStr_ok_iff.mp accepted
    obtain ⟨⟨year, month, day, hour, minute, second⟩, rfl⟩ := (readFrom_iff long).mp taken
    refine ⟨ascii, by rwa [length_repaired], year, month, day, hour, minute, second,
      ⟨exists_signed_iff.mp valid.1, valid.2⟩, by rwa [repaired_separator], nanos,
      by rwa [drop_repaired]⟩
  · rintro ⟨ascii, places⟩
    have long := places.long
    have separator := places.separator
    obtain ⟨nanos, tail⟩ := places.tail
    rw [length_repaired] at long
    rw [repaired_separator] at separator
    rw [drop_repaired] at tail
    have taken := (readFrom_iff long).mpr
      ⟨⟨places.year, places.month, places.day, places.hour, places.minute, places.second⟩, rfl⟩
    exact ⟨(_, nanos), parseDatetimeStr_ok_iff.mpr ⟨⟨long, ascii, separator⟩, tail, _, taken,
      ⟨exists_signed_iff.mpr places.valid.1, places.valid.2⟩, rfl⟩⟩

theorem hasSeparators_repaired {text : Text} (long : 19 ≤ text.length) :
    HasSeparators (repaired text) := by
  have present {place : Nat} (inside : place < 19) :
      ∃ char, (repaired text)[place]? = some (repairedAt place char) := by
    have reached : place < text.length := by omega
    exact ⟨text[place], by rw [getElem?_repaired, List.getElem?_eq_getElem reached]; rfl⟩
  constructor
  · obtain ⟨char, found⟩ := present (by decide : 4 < 19)
    exact found
  · obtain ⟨char, found⟩ := present (by decide : 7 < 19)
    exact found
  · obtain ⟨char, found⟩ := present (by decide : 13 < 19)
    exact found
  · obtain ⟨char, found⟩ := present (by decide : 16 < 19)
    exact found

/-- The parser accepts what becomes a time stamp in writing by being repaired. -/
theorem accepts_iff_repaired {text : Text} :
    (∃ result, parseDatetimeStr text = .ok result) ↔
      isAscii text = true ∧ IsTimestamp (repaired text) := by
  rw [accepts_iff_places, isTimestamp_iff]
  constructor
  · rintro ⟨ascii, places⟩
    have long := places.long
    rw [length_repaired] at long
    exact ⟨ascii, hasSeparators_repaired long, places⟩
  · rintro ⟨ascii, -, places⟩
    exact ⟨ascii, places⟩

theorem IsTimestamp.isAscii {text : Text} (written : IsTimestamp text) : isAscii text = true := by
  obtain ⟨stamp, separator, zone, rfl⟩ := written
  exact stamp.isAscii_text separator zone

theorem isDigit_of_slice {text : Text} {start stop : Nat}
    (digits : IsDigits (slice text start stop))
    (nonempty : start < stop) {char : Char} (found : text[start]? = some char) :
    char.isDigit = true := by
  have first : (slice text start stop)[0]? = some char := by
    rw [getElem?_slice, Nat.add_zero, if_pos nonempty, found]
  exact digits char (List.mem_of_getElem? first)

/-- A time stamp in writing needs no repair. -/
theorem IsTimestamp.repaired_eq {text : Text} (written : IsTimestamp text) :
    repaired text = text := by
  have ⟨separators, places⟩ := isTimestamp_iff.mp written
  apply List.ext_getElem?
  intro place
  rw [getElem?_repaired]
  cases found : text[place]? with
  | none => rfl
  | some char =>
      rw [Option.map_some, Option.some.injEq]
      unfold repairedAt
      split_ifs with hyphen colon year field
      · have expected : text[place]? = some '-' := by
          rcases hyphen with rfl | rfl
          · exact separators.afterYear
          · exact separators.afterMonth
        exact Option.some.inj (expected.symm.trans found)
      · have expected : text[place]? = some ':' := by
          rcases colon with rfl | rfl
          · exact separators.afterHour
          · exact separators.afterMinute
        exact Option.some.inj (expected.symm.trans found)
      · obtain ⟨rfl, sign⟩ := year
        rw [not_isSign_of_isDigit (isDigit_of_slice places.year (by decide) found)] at sign
        cases sign
      · obtain ⟨isField, rfl⟩ := field
        have digit : Char.isDigit '+' = true := by
          simp only [List.mem_cons, List.not_mem_nil, or_false] at isField
          rcases isField with rfl | rfl | rfl | rfl | rfl
          · exact isDigit_of_slice places.month (by decide) found
          · exact isDigit_of_slice places.day (by decide) found
          · exact isDigit_of_slice places.hour (by decide) found
          · exact isDigit_of_slice places.minute (by decide) found
          · exact isDigit_of_slice places.second (by decide) found
        cases digit
      · rfl

/-- A year, a month and a day in writing. -/
def IsDateForm (text : Text) : Prop :=
  ∃ year month day : Text, IsDigits year ∧ IsDigits month ∧ IsDigits day ∧
    year.length = 4 ∧ month.length = 2 ∧ day.length = 2 ∧
    text = year ++ '-' :: (month ++ '-' :: day)

/-- The rest of a bare date's form, which is not checked before its fields are parsed. -/
def IsDateBesides (text : Text) : Prop :=
  text[7]? = some '-' ∧
    ∀ place ∈ [0, 1, 2, 3, 5, 6, 8, 9], ∀ char, text[place]? = some char → char.isDigit = true

theorem isDigits_slice {text : Text} {start stop : Nat}
    (digits : ∀ place, start ≤ place → place < stop →
      ∀ char, text[place]? = some char → char.isDigit = true) :
    IsDigits (slice text start stop) := by
  intro char member
  obtain ⟨index, found⟩ := List.mem_iff_getElem?.mp member
  rw [getElem?_slice] at found
  split at found
  · next inside => exact digits _ (Nat.le_add_right _ _) inside char found
  · cases found

theorem isDateForm_iff {text : Text} (bare : isBareDate text = true) :
    IsDateForm text ↔ IsDateBesides text := by
  simp only [isBareDate, Bool.and_eq_true, beq_iff_eq] at bare
  obtain ⟨⟨ten, -⟩, afterYear⟩ := bare
  constructor
  · rintro ⟨year, month, day, isYear, isMonth, isDay, four, two, two', rfl⟩
    obtain ⟨y, rest, rfl⟩ := List.exists_cons_of_length_eq_add_one four
    obtain ⟨y', y'', y''', rfl⟩ := List.length_eq_three.mp (Nat.succ.inj four)
    obtain ⟨m, m', rfl⟩ := List.length_eq_two.mp two
    obtain ⟨d, d', rfl⟩ := List.length_eq_two.mp two'
    simp only [IsDigits, List.forall_mem_cons] at isYear isMonth isDay
    refine ⟨rfl, ?_⟩
    simp only [List.forall_mem_cons, List.cons_append, List.nil_append]
    simp [isYear, isMonth, isDay]
  · rintro ⟨afterMonth, digits⟩
    have within {start stop : Nat}
        (places : ∀ place, start ≤ place → place < stop → place ∈ [0, 1, 2, 3, 5, 6, 8, 9]) :
        IsDigits (slice text start stop) :=
      isDigits_slice fun place least below => digits place (places place least below)
    refine ⟨slice text 0 4, slice text 5 7, slice text 8 10, within ?_, within ?_, within ?_,
      length_slice (by omega), length_slice (by omega), length_slice (by omega), ?_⟩
    · intro place least below
      interval_cases place <;> decide
    · intro place least below
      interval_cases place <;> decide
    · intro place least below
      interval_cases place <;> decide
    · have ended : text.drop 10 = [] := List.drop_eq_nil_of_le (by omega)
      have day := slice_append_drop text (by decide : 8 ≤ 10)
      rw [ended, List.append_nil] at day
      rw [day, cons_drop_succ afterMonth, slice_append_drop text (by decide : 5 ≤ 7),
        cons_drop_succ afterYear, slice_append_drop text (by decide : 0 ≤ 4), List.drop_zero]

/-- The parser accepts exactly time stamps in writing, and dates alone are exactly taken
for dates, on the texts that need no repair to become a time stamp and that have nothing
but digits and a hyphen in the unchecked places of a date. -/
theorem parseDatetimeStr_grammar_iff (text : Text) :
    (((∃ result, parseDatetimeStr text = .ok result) ↔ IsTimestamp text) ∧
        (isBareDate (trim text) = true → IsDateForm (trim text))) ↔
      (isAscii text = true → IsTimestamp (repaired text) → repaired text = text) ∧
        (isBareDate (trim text) = true → IsDateBesides (trim text)) := by
  apply and_congr
  · rw [accepts_iff_repaired]
    constructor
    · intro precise ascii becomes
      exact (precise.mp ⟨ascii, becomes⟩).repaired_eq
    · intro unrepaired
      constructor
      · rintro ⟨ascii, becomes⟩
        rwa [unrepaired ascii becomes] at becomes
      · intro written
        exact ⟨written.isAscii, by rwa [written.repaired_eq]⟩
  · constructor
    · intro formed bare
      exact (isDateForm_iff bare).mp (formed bare)
    · intro besides bare
      exact (isDateForm_iff bare).mpr (besides bare)

/-- A date-time with slashes in its date is accepted. -/
theorem parseDatetimeStr_slashes :
    parseDatetimeStr "2026/01/15 10:30:00".toList = .ok (1768473000, 0) ∧
      ¬ IsTimestamp "2026/01/15 10:30:00".toList := by
  constructor
  · decide
  · rintro ⟨stamp, separator, zone, written⟩
    have hyphen : "2026/01/15 10:30:00".toList[4]? = some '-' := by
      rw [written]
      rfl
    exact absurd hyphen (by decide)

end DfeClickhouse.Dynamic
