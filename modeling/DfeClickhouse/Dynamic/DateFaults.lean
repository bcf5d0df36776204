import DfeClickhouse.Dynamic.Timestamp
import DfeClickhouse.Library.Faults

/-!
# Faults of the date coercions

The date coercions with their machine operations unchecked: integer arithmetic of the
source's widths, slices at byte offsets, and indexing.  Every one of them gives what the
coercion gives, except that the power of ten of a `DateTime64` overflows for a precision
of nineteen or more.
-/

namespace DfeClickhouse.Dynamic

open Library

variable {ε : Type}

/-! ## Calendar -/

/-- `civilDaysFromEpoch` in `i32`, `u32` and `i64` arithmetic. -/
def civilDaysFaulty (year : Int) (month day : Nat) : Faulty ε Int := do
  let y ← if month ≤ 2 then Faulty.signed 32 (year - 1) else pure year
  let m ← if month ≤ 2 then Faulty.unsigned 32 (month + 9) else Faulty.sub month 3
  let era := y / 400
  let yoe := y % 400
  let scaled ← Faulty.signed 64 (153 * (m : Int))
  let rounded ← Faulty.signed 64 (scaled + 2)
  let untilDay ← Faulty.signed 64 (rounded / 5 + day)
  let dayOfYear ← Faulty.signed 64 (untilDay - 1)
  let years ← Faulty.signed 64 (yoe * 365)
  let leapDays ← Faulty.signed 64 (years + yoe / 4)
  let commonDays ← Faulty.signed 64 (leapDays - yoe / 100)
  let doe ← Faulty.signed 64 (commonDays + dayOfYear)
  let eras ← Faulty.signed 64 (era * 146097)
  let days ← Faulty.signed 64 (eras + doe)
  Faulty.signed 64 (days - 719468)

/-- The seconds of a day and a time of day, in `i64` arithmetic. -/
def secondsFaulty (days : Int) (hour minute second : Nat) : Faulty ε Int := do
  let midnight ← Faulty.signed 64 (days * 86400)
  let hours ← Faulty.signed 64 ((hour : Int) * 3600)
  let atHour ← Faulty.signed 64 (midnight + hours)
  let minutes ← Faulty.signed 64 ((minute : Int) * 60)
  let atMinute ← Faulty.signed 64 (atHour + minutes)
  Faulty.signed 64 (atMinute + (second : Int))

theorem civilDaysFaulty_eq {year : Int} {month day : Nat} (small : year.natAbs < 10000)
    (isMonth : 1 ≤ month ∧ month ≤ 12) (isDay : day ≤ 31) :
    (civilDaysFaulty year month day : Faulty ε Int) = pure (civilDaysFromEpoch year month day) := by
  unfold civilDaysFaulty civilDaysFromEpoch
  split
  · rw [Faulty.signed_of_fits (by omega) (by omega), Faulty.unsigned_of_fits (by omega) (by omega)]
    simp only [pure_bind]
    repeat rw [Faulty.signed_of_fits (by omega) (by omega), pure_bind]
    rw [Faulty.signed_of_fits (by omega) (by omega)]
    congr 1
  · rw [Faulty.sub_of_le (by omega)]
    simp only [pure_bind]
    repeat rw [Faulty.signed_of_fits (by omega) (by omega), pure_bind]
    rw [Faulty.signed_of_fits (by omega) (by omega)]
    congr 1
    omega

theorem civilDaysFromEpoch_bounds {year : Int} {month day : Nat} (small : year.natAbs < 10000)
    (isMonth : 1 ≤ month ∧ month ≤ 12) (isDay : day ≤ 31) :
    (civilDaysFromEpoch year month day).natAbs < 10000000 := by
  simp only [civilDaysFromEpoch]
  split <;> omega

theorem secondsFaulty_eq {days : Int} {hour minute second : Nat} (small : days.natAbs < 10000000)
    (isHour : hour ≤ 23) (isMinute : minute ≤ 59) (isSecond : second ≤ 59) :
    (secondsFaulty days hour minute second : Faulty ε Int) =
      pure (days * 86400 + (hour : Int) * 3600 + (minute : Int) * 60 + (second : Int)) := by
  unfold secondsFaulty
  repeat rw [Faulty.signed_of_fits (by omega) (by omega), pure_bind]
  rw [Faulty.signed_of_fits (by omega) (by omega)]

/-! ## Date texts -/

/-- A component of a date text, cut at byte offsets. -/
def componentFaulty {α : Type} (text : Text) (start stop : Nat) (read : Text → Option α)
    (error : ε) : Faulty ε α := do
  let part ← sliceBytes text start stop
  Faulty.plain (component error (read part))

/-- The loop over the digits of a fraction: the position after them. -/
def digitsEnd (text : Text) : Nat → Nat → Faulty ε Nat
  | 0, pos => pure pos
  | rounds + 1, pos =>
      if pos < byteLength text then do
        let char ← byteAt text pos
        if char.isDigit then digitsEnd text rounds (pos + 1) else pure pos
      else
        pure pos

/-- Fill a fraction of at most nine digits up to nanoseconds. -/
def padFractionFaulty (fraction clamped : Nat) : Faulty ε Nat :=
  if clamped < 9 then do
    let places ← Faulty.sub 9 clamped
    let power ← Faulty.unsigned 32 (10 ^ places)
    Faulty.unsigned 32 ((fraction : Int) * power)
  else
    pure fraction

/-- The fraction at byte 19, in nanoseconds, and the position after it. -/
def fractionFaulty (text : Text) : Faulty String (Nat × Nat) :=
  if 19 < byteLength text then do
    let char ← byteAt text 19
    if char = '.' then do
      let stop ← digitsEnd text text.length 20
      let count ← Faulty.sub stop 20
      if count = 0 then
        Faulty.refuse "invalid DateTime string"
      else do
        let fraction ← componentFaulty text 20 (20 + min count 9) (parseUnsigned 32)
          "invalid fractional seconds"
        let nanos ← padFractionFaulty fraction (min count 9)
        pure (nanos, stop)
    else
      pure (0, 19)
  else
    pure (0, 19)

/-- The position after a zone at a position, if there is one. -/
def zoneFaulty (text : Text) (pos : Nat) : Faulty String Nat :=
  if pos < byteLength text then do
    let sign ← byteAt text pos
    if sign = 'Z' then
      pure (pos + 1)
    else if (sign = '+' ∨ sign = '-') ∧ pos + 6 ≤ byteLength text then do
      let zone ← sliceBytes text (pos + 1) (pos + 6)
      if byteLength zone = 5 then do
        let colon ← byteAt zone 2
        if colon = ':' then do
          let hours ← sliceBytes zone 0 2
          if hours.all Char.isDigit then do
            let minutes ← sliceBytes zone 3 (byteLength zone)
            if minutes.all Char.isDigit then
              if sign = '-' ∨ hours ≠ ['0', '0'] ∨ minutes ≠ ['0', '0'] then
                Faulty.refuse ("non-UTC timezone offset '" ++ String.ofList (sign :: zone) ++
                  "' not supported; convert to UTC first")
              else
                pure (pos + 6)
            else
              pure pos
          else
            pure pos
        else
          pure pos
      else
        pure pos
    else
      pure pos
  else
    pure pos

/-- The date and the time of a date-time string, behind its fraction. -/
def fieldsFaulty (text : Text) (fraction : Nat) : Faulty String (Int × Nat) := do
  let year ← componentFaulty text 0 4 (parseSigned 32) "invalid year"
  let month ← componentFaulty text 5 7 (parseUnsigned 32) "invalid month"
  let day ← componentFaulty text 8 10 (parseUnsigned 32) "invalid day"
  let hour ← componentFaulty text 11 13 (parseUnsigned 32) "invalid hour"
  let minute ← componentFaulty text 14 16 (parseUnsigned 32) "invalid minute"
  let second ← componentFaulty text 17 19 (parseUnsigned 32) "invalid second"
  if !checkCalendarDay year month day ∨ hour > 23 ∨ minute > 59 ∨ second > 59 then
    Faulty.refuse "invalid DateTime string"
  else do
    let days ← civilDaysFaulty year month day
    let seconds ← secondsFaulty days hour minute second
    pure (seconds, fraction)

/-- `parseDatetimeStr` on bytes. -/
def parseDatetimeFaulty (text : Text) : Faulty String (Int × Nat) :=
  if byteLength text < 19 then
    Faulty.refuse "invalid DateTime string"
  else if !isAscii text then
    Faulty.refuse "invalid DateTime string"
  else do
    let separator ← byteAt text 10
    if separator ≠ ' ' ∧ separator ≠ 'T' then
      Faulty.refuse "invalid DateTime string"
    else do
      let (fraction, pos) ← fractionFaulty text
      let pos ← zoneFaulty text pos
      if pos ≠ byteLength text then
        Faulty.refuse "invalid DateTime string"
      else
        fieldsFaulty text fraction

section Ascii

variable {text : Text}

theorem utf8Size_of_isAscii (ascii : isAscii text = true) {char : Char} (member : char ∈ text) :
    char.utf8Size = 1 := by
  have small : char.toNat < 128 := by simpa using List.all_eq_true.mp ascii char member
  rw [Char.utf8Size_eq_one_iff, UInt32.le_iff_toNat_le]
  exact Nat.le_of_lt_succ small

theorem byteLength_of_isAscii (ascii : isAscii text = true) : byteLength text = text.length :=
  byteLength_of_ascii fun _ => utf8Size_of_isAscii ascii

theorem sliceBytes_of_isAscii (ascii : isAscii text = true) {start stop : Nat}
    (ordered : start ≤ stop) (inside : stop ≤ text.length) :
    (sliceBytes text start stop : Faulty ε Text) = pure (slice text start stop) :=
  sliceBytes_of_ascii (fun _ => utf8Size_of_isAscii ascii) ordered inside

theorem componentFaulty_eq {α : Type} (ascii : isAscii text = true) {start stop : Nat}
    (ordered : start ≤ stop) (inside : stop ≤ text.length) (read : Text → Option α) (error : ε) :
    componentFaulty text start stop read error =
      Faulty.plain (component error (read (slice text start stop))) := by
  rw [componentFaulty, sliceBytes_of_isAscii ascii ordered inside, pure_bind]

theorem digitsEnd_eq (ascii : isAscii text = true) {rounds pos : Nat} (inside : pos ≤ text.length)
    (enough : text.length ≤ pos + rounds) :
    (digitsEnd text rounds pos : Faulty ε Nat) =
      pure (pos + ((text.drop pos).takeWhile Char.isDigit).length) := by
  induction rounds generalizing pos with
  | zero =>
      have none : text.drop pos = [] := List.drop_eq_nil_of_le enough
      rw [none]
      rfl
  | succ rounds ih =>
      rw [digitsEnd, byteLength_of_isAscii ascii]
      by_cases more : pos < text.length
      · rw [if_pos more, byteAt_of_lt more, pure_bind, List.drop_eq_getElem_cons more,
          List.takeWhile_cons]
        split
        · rw [ih more (by omega), List.length_cons, Nat.succ_eq_add_one, Nat.add_assoc,
            Nat.add_comm 1]
        · rfl
      · rw [if_neg more, List.drop_eq_nil_of_le (Nat.le_of_not_lt more)]
        rfl

theorem take_min_takeWhile (kind : Char → Bool) (limit : Nat) (text : Text) :
    text.take (min (text.takeWhile kind).length limit) = (text.takeWhile kind).take limit := by
  have front : text.takeWhile kind = text.take (text.takeWhile kind).length :=
    List.prefix_iff_eq_take.mp (List.takeWhile_prefix kind)
  rw [Nat.min_comm, ← List.take_take, ← front]

theorem padFractionFaulty_eq {fraction clamped : Nat} (small : fraction < 10 ^ clamped)
    (limited : clamped ≤ 9) :
    (padFractionFaulty fraction clamped : Faulty ε Nat) = pure (fraction * 10 ^ (9 - clamped)) := by
  rw [padFractionFaulty]
  split
  · have power : 10 ^ (9 - clamped) ≤ 10 ^ 9 := Nat.pow_le_pow_right (by decide) (Nat.sub_le ..)
    have scaled : fraction * 10 ^ (9 - clamped) < 10 ^ clamped * 10 ^ (9 - clamped) :=
      Nat.mul_lt_mul_of_pos_right small (Nat.pow_pos (by decide))
    rw [← Nat.pow_add, Nat.add_sub_cancel' limited] at scaled
    have cast : (10 : Int) ^ (9 - clamped) = ((10 ^ (9 - clamped) : Nat) : Int) := by push_cast; rfl
    rw [Faulty.sub_of_le limited, pure_bind, cast]
    generalize 10 ^ (9 - clamped) = power at *
    rw [Faulty.unsigned_of_fits (by omega) (by omega), pure_bind, Int.toNat_natCast,
      ← Int.natCast_mul]
    rw [Faulty.unsigned_of_fits (by omega) (by omega), Int.toNat_natCast]
  · have full : 9 - clamped = 0 := by omega
    rw [full, Nat.pow_zero, Nat.mul_one]

theorem parseFraction_dot (rest : Text) :
    parseFraction ('.' :: rest) =
      if (rest.takeWhile Char.isDigit).isEmpty then .error "invalid DateTime string"
      else (component "invalid fractional seconds"
        (parseUnsigned 32 ((rest.takeWhile Char.isDigit).take 9))).map fun fraction =>
          (fraction * 10 ^ (9 - (rest.takeWhile Char.isDigit).length),
            rest.dropWhile Char.isDigit) := by
  rw [parseFraction]
  split
  · rfl
  · cases parseUnsigned 32 ((rest.takeWhile Char.isDigit).take 9) <;> rfl

/-- The fraction is cut within the text and fits its integers. -/
theorem fractionFaulty_eq (ascii : isAscii text = true) (long : 19 ≤ text.length) :
    fractionFaulty text = Faulty.plain ((parseFraction (text.drop 19)).map fun parts =>
      (parts.1, text.length - parts.2.length)) := by
  rw [fractionFaulty, byteLength_of_isAscii ascii]
  by_cases more : 19 < text.length
  · rw [if_pos more, byteAt_of_lt more, pure_bind, List.drop_eq_getElem_cons more]
    by_cases dot : text[19] = '.'
    · have ends := @digitsEnd_eq String text ascii text.length 20 more (by omega)
      have short := (List.takeWhile_prefix (l := text.drop 20) Char.isDigit).length_le
      have after := congrArg List.length
        (List.takeWhile_append_dropWhile (p := Char.isDigit) (l := text.drop 20))
      rw [List.length_append, List.length_drop] at after
      rw [List.length_drop] at short
      rw [if_pos dot, dot, parseFraction_dot, ends, pure_bind,
        Faulty.sub_of_le (Nat.le_add_right ..),
        pure_bind, Nat.add_sub_cancel_left]
      have cut := take_min_takeWhile Char.isDigit 9 (text.drop 20)
      generalize (text.drop 20).takeWhile Char.isDigit = digits at *
      by_cases empty : digits = []
      · rw [empty]
        rfl
      · have some : ¬ digits.length = 0 := fun zero => empty (List.length_eq_zero_iff.mp zero)
        have notEmpty : ¬ digits.isEmpty = true := by rwa [List.isEmpty_iff]
        have sliced : slice text 20 (20 + min digits.length 9) = digits.take 9 := by
          rw [slice, List.drop_take, Nat.add_sub_cancel_left, cut]
        have inside : 20 + min digits.length 9 ≤ text.length := by omega
        simp only [if_neg some, if_neg notEmpty,
          componentFaulty_eq ascii (Nat.le_add_right 20 _) inside, sliced]
        cases parsed : parseUnsigned 32 (digits.take 9) with
        | none => rfl
        | some fraction =>
            have small := lt_of_parseUnsigned parsed
            rw [List.length_take, Nat.min_comm] at small
            have places : 9 - digits.length = 9 - min digits.length 9 := by omega
            have stop : text.length - ((text.drop 20).dropWhile Char.isDigit).length =
                20 + digits.length := by omega
            simp only [component, Except.map, stop, places, Faulty.plain_ok, pure_bind,
              padFractionFaulty_eq small (Nat.min_le_right ..)]
    · rw [if_neg dot]
      have none : parseFraction (text[19] :: text.drop (19 + 1)) =
          .ok (0, text[19] :: text.drop 20) := by
        unfold parseFraction
        split
        · rename_i same
          injection same with same
          exact absurd same dot
        · rfl
      rw [none]
      show _ = Faulty.plain (.ok (0, text.length - (text[19] :: text.drop 20).length))
      rw [List.length_cons, List.length_drop]
      have back : text.length - (text.length - 20 + 1) = 19 := by omega
      rw [back]
      rfl
  · have none : text.drop 19 = [] := List.drop_eq_nil_of_le (Nat.le_of_not_lt more)
    have whole : text.length = 19 := Nat.le_antisymm (Nat.le_of_not_lt more) long
    rw [if_neg more, none, whole]
    rfl

/-- A text that does not begin with a whole offset is left as it is. -/
theorem parseZone_short {sign : Char} {after : Text} (notZ : sign ≠ 'Z')
    (short : ¬ ((sign = '+' ∨ sign = '-') ∧ 5 ≤ after.length)) :
    parseZone (sign :: after) = .ok (sign :: after) := by
  unfold parseZone
  split
  · rename_i same
    injection same with same
    exact absurd same notZ
  · apply if_neg
    rintro ⟨signs, length, -⟩
    exact short ⟨by simpa using signs, by simpa using length⟩

/-- A text that begins with a whole offset, accepted for UTC only. -/
theorem parseZone_long {sign a b c d e : Char} {tail : Text} (notZ : sign ≠ 'Z')
    (signed : sign = '+' ∨ sign = '-') :
    parseZone (sign :: a :: b :: c :: d :: e :: tail) =
      if c = ':' ∧ [a, b].all Char.isDigit ∧ [d, e].all Char.isDigit then
        if sign = '-' ∨ [a, b] ≠ ['0', '0'] ∨ [d, e] ≠ ['0', '0'] then
          .error ("non-UTC timezone offset '" ++ String.ofList [sign, a, b, c, d, e] ++
            "' not supported; convert to UTC first")
        else
          .ok tail
      else
        .ok (sign :: a :: b :: c :: d :: e :: tail) := by
  unfold parseZone
  split
  · rename_i same
    injection same with same
    exact absurd same notZ
  · apply if_congr
    · simp [slice, signed]
    · apply if_congr
      · simp [slice]
      · rfl
      · rfl
    · rfl

/-- The zone is cut within the text. -/
theorem zoneFaulty_eq (ascii : isAscii text = true) {pos : Nat} (inside : pos ≤ text.length) :
    zoneFaulty text pos = Faulty.plain ((parseZone (text.drop pos)).map fun rest =>
      text.length - rest.length) := by
  rw [zoneFaulty, byteLength_of_isAscii ascii]
  by_cases more : pos < text.length
  · have split := List.drop_eq_getElem_cons more
    have length := congrArg List.length split
    rw [List.length_drop, List.length_cons] at length
    rw [if_pos more, byteAt_of_lt more, pure_bind, split]
    generalize after : text.drop (pos + 1) = rest at *
    generalize text[pos] = sign at *
    by_cases isZ : sign = 'Z'
    · have stop : text.length - rest.length = pos + 1 := by omega
      rw [if_pos isZ, isZ, parseZone]
      simp only [Except.map, stop]
      rfl
    · rw [if_neg isZ]
      by_cases offset : (sign = '+' ∨ sign = '-') ∧ 5 ≤ rest.length
      · rw [if_pos ⟨offset.1, by omega⟩,
          sliceBytes_of_isAscii ascii (by omega) (by omega), pure_bind]
        match rest, offset with
        | a :: b :: c :: d :: e :: tail, offset =>
            have zone : slice text (pos + 1) (pos + 6) = [a, b, c, d, e] := by
              rw [slice, List.drop_take, after]
              simp
            have zoneAscii : isAscii [a, b, c, d, e] = true := by
              apply List.all_eq_true.mpr
              intro char member
              rw [← zone] at member
              exact List.all_eq_true.mp ascii char
                (List.mem_of_mem_take (List.mem_of_mem_drop member))
            have five : byteLength [a, b, c, d, e] = 5 := byteLength_of_isAscii zoneAscii
            have hours : (sliceBytes [a, b, c, d, e] 0 2 : Faulty String Text) = pure [a, b] :=
              sliceBytes_of_isAscii zoneAscii (by decide) (show 2 ≤ 5 by decide)
            have minutes : (sliceBytes [a, b, c, d, e] 3 5 : Faulty String Text) = pure [d, e] :=
              sliceBytes_of_isAscii zoneAscii (by decide) (show 5 ≤ 5 by decide)
            have colon : (byteAt [a, b, c, d, e] 2 : Faulty String Char) = pure c := rfl
            have kept : text.length - (sign :: a :: b :: c :: d :: e :: tail).length = pos := by
              rw [List.length_cons]
              omega
            have taken : text.length - tail.length = pos + 6 := by
              simp only [List.length_cons] at length
              omega
            rw [zone, parseZone_long isZ offset.1, five, if_pos rfl, colon, hours, minutes]
            simp only [pure_bind]
            by_cases isColon : c = ':'
            · by_cases isHours : [a, b].all Char.isDigit = true
              · by_cases isMinutes : [d, e].all Char.isDigit = true
                · have all : c = ':' ∧ [a, b].all Char.isDigit ∧ [d, e].all Char.isDigit :=
                    ⟨isColon, isHours, isMinutes⟩
                  rw [if_pos isColon, if_pos isHours, if_pos isMinutes, if_pos all]
                  split
                  · rfl
                  · simp only [Except.map, taken]
                    rfl
                · rw [if_pos isColon, if_pos isHours, if_neg isMinutes,
                    if_neg fun all => isMinutes all.2.2]
                  simp only [Except.map, kept]
                  rfl
              · rw [if_pos isColon, if_neg isHours, if_neg fun all => isHours all.2.1]
                simp only [Except.map, kept]
                rfl
            · rw [if_neg isColon, if_neg fun all => isColon all.1]
              simp only [Except.map, kept]
              rfl
      · have stop : text.length - (sign :: rest).length = pos := by
          rw [List.length_cons]
          omega
        rw [if_neg fun both => offset ⟨both.1, by omega⟩, parseZone_short isZ offset]
        simp only [Except.map, stop]
        rfl
  · have none : text.drop pos = [] := List.drop_eq_nil_of_le (Nat.le_of_not_lt more)
    have whole : pos = text.length := Nat.le_antisymm inside (Nat.le_of_not_lt more)
    rw [if_neg more, none, whole]
    rfl

theorem suffix_of_parseFraction {nanos : Nat} {rest : Text}
    (parsed : parseFraction text = .ok (nanos, rest)) : rest <:+ text := by
  unfold parseFraction at parsed
  split at parsed
  · rename_i after
    dsimp only at parsed
    split at parsed
    · cases parsed
    · split at parsed
      · cases parsed
        exact (List.dropWhile_suffix _).trans (List.suffix_cons '.' after)
      · cases parsed
  · cases parsed
    exact List.suffix_refl text

theorem length_of_parseZone {rest : Text} (parsed : parseZone text = .ok rest) :
    rest.length ≤ text.length := by
  unfold parseZone at parsed
  split at parsed
  · cases parsed
    exact Nat.le_succ _
  · dsimp only at parsed
    split at parsed
    · split at parsed
      · cases parsed
      · cases parsed
        rw [List.length_drop]
        exact Nat.sub_le ..
    · cases parsed
      exact Nat.le_refl _

theorem le_daysInMonth {year : Int} {month day : Nat} (exists' : checkCalendarDay year month day) :
    (1 ≤ month ∧ month ≤ 12) ∧ day ≤ 31 := by
  simp only [checkCalendarDay, Bool.and_eq_true, decide_eq_true_eq] at exists'
  obtain ⟨⟨⟨least, greatest⟩, -⟩, last⟩ := exists'
  refine ⟨⟨least, greatest⟩, last.trans ?_⟩
  unfold daysInMonth
  split_ifs <;> decide

theorem fieldsFaulty_eq (ascii : isAscii text = true) (long : 19 ≤ text.length) (fraction : Nat) :
    fieldsFaulty text fraction = Faulty.plain (do
      let year ← component "invalid year" (parseSigned 32 (slice text 0 4))
      let month ← component "invalid month" (parseUnsigned 32 (slice text 5 7))
      let day ← component "invalid day" (parseUnsigned 32 (slice text 8 10))
      let hour ← component "invalid hour" (parseUnsigned 32 (slice text 11 13))
      let minute ← component "invalid minute" (parseUnsigned 32 (slice text 14 16))
      let second ← component "invalid second" (parseUnsigned 32 (slice text 17 19))
      if !checkCalendarDay year month day ∨ hour > 23 ∨ minute > 59 ∨ second > 59 then
        .error "invalid DateTime string"
      else
        let days := civilDaysFromEpoch year month day
        return (days * 86400 + (hour : Int) * 3600 + (minute : Int) * 60 + (second : Int),
          fraction)) := by
  have cut {α : Type} {start stop : Nat} (ordered : start ≤ stop) (inside : stop ≤ 19)
      (read : Text → Option α) (error : String) :
      componentFaulty text start stop read error =
        Faulty.plain (component error (read (slice text start stop))) :=
    componentFaulty_eq ascii ordered (inside.trans long) read error
  have short : (slice text 0 4).length ≤ 4 := by
    rw [slice, List.length_drop, List.length_take]
    omega
  simp only [fieldsFaulty, cut (show 0 ≤ 4 by decide) (by decide),
    cut (show 5 ≤ 7 by decide) (by decide), cut (show 8 ≤ 10 by decide) (by decide),
    cut (show 11 ≤ 13 by decide) (by decide), cut (show 14 ≤ 16 by decide) (by decide),
    cut (show 17 ≤ 19 by decide) (by decide), Faulty.plain_bind]
  apply Faulty.plain_bind_congr
  intro year parsed
  have small : year.natAbs < 10000 :=
    Nat.lt_of_lt_of_le (natAbs_lt_of_parseSigned (component_ok_iff.mp parsed))
      (Nat.pow_le_pow_right (by decide) short)
  congr 1
  funext month
  congr 1
  funext day
  congr 1
  funext hour
  congr 1
  funext minute
  congr 1
  funext second
  split
  · rfl
  · rename_i valid
    simp only [not_or, Nat.not_lt, Bool.not_eq_true, Bool.not_eq_false'] at valid
    obtain ⟨exists', isHour, isMinute, isSecond⟩ := valid
    obtain ⟨isMonth, isDay⟩ := le_daysInMonth exists'
    rw [civilDaysFaulty_eq small isMonth isDay, pure_bind,
      secondsFaulty_eq (civilDaysFromEpoch_bounds small isMonth isDay) isHour isMinute isSecond]
    rfl

/-- Date-time strings are parsed without a fault. -/
@[simp] theorem parseDatetimeFaulty_eq (text : Text) :
    parseDatetimeFaulty text = Faulty.plain (parseDatetimeStr text) := by
  have bytes := length_le_byteLength text
  rw [parseDatetimeFaulty, parseDatetimeStr]
  by_cases short : byteLength text < 19
  · have less : text.length < 19 := Nat.lt_of_le_of_lt bytes short
    rw [if_pos short]
    simp only [if_pos (Or.inl less)]
    rfl
  · rw [if_neg short]
    cases ascii : isAscii text with
    | false => simp; rfl
    | true =>
        have long : 19 ≤ text.length := by
          rw [← byteLength_of_isAscii ascii]
          exact Nat.le_of_not_lt short
        have place : text[10]? = some text[10] := List.getElem?_eq_getElem (by omega)
        simp only [Bool.not_true, Bool.false_eq_true, if_false, place,
          Nat.not_lt.mpr long, false_or,
          ne_eq, Option.some.injEq]
        rw [byteAt_of_lt (by omega), pure_bind]
        by_cases separated : ¬ text[10] = ' ' ∧ ¬ text[10] = 'T'
        · simp only [if_pos separated]
          rfl
        · simp only [if_neg separated]
          rw [fractionFaulty_eq ascii long]
          cases fraction : parseFraction (text.drop 19) with
          | error message => rfl
          | ok parts =>
              obtain ⟨nanos, rest⟩ := parts
              have suffix := (suffix_of_parseFraction fraction).trans (List.drop_suffix 19 text)
              have back := (List.suffix_iff_eq_drop.mp suffix).symm
              have within := suffix.length_le
              simp only [Except.map, Faulty.plain_ok, pure_bind]
              rw [zoneFaulty_eq ascii (Nat.sub_le ..), back]
              change _ = Faulty.plain (parseZone rest >>= _)
              cases zone : parseZone rest with
              | error message => rfl
              | ok after =>
                  have shorter := length_of_parseZone zone
                  have ended : text.length - after.length = byteLength text ↔ after = [] := by
                    rw [byteLength_of_isAscii ascii, ← List.length_eq_zero_iff]
                    omega
                  change (if ¬ text.length - after.length = byteLength text then _ else _) =
                    Faulty.plain (if ¬ after = [] then _ else _)
                  simp only [ended]
                  by_cases empty : after = []
                  · rw [if_neg (not_not_intro empty), if_neg (not_not_intro empty)]
                    exact fieldsFaulty_eq ascii long nanos
                  · rw [if_pos empty, if_pos empty]
                    rfl

end Ascii

/-! ## Values -/

/-- Whether a text has the shape of a bare date, by its bytes. -/
def isBareDateFaulty (text : Text) : Faulty ε Bool :=
  if byteLength text = 10 ∧ isAscii text then do
    let dash ← byteAt text 4
    pure (dash == '-')
  else
    pure false

/-- `dateDays` on bytes. -/
def dateDaysFaulty (text : Text) (col : String) : Faulty DynamicError Int := do
  let year ← componentFaulty text 0 4 (parseSigned 32) (.encodingError col "invalid Date year")
  let month ← componentFaulty text 5 7 (parseUnsigned 32) (.encodingError col "invalid Date month")
  let day ← componentFaulty text 8 10 (parseUnsigned 32) (.encodingError col "invalid Date day")
  if !checkCalendarDay year month day then
    Faulty.refuse (.encodingError col "invalid Date components")
  else do
    let days ← civilDaysFaulty year month day
    Faulty.plain (narrowDays days col)

/-- `datetimeOf` on bytes. -/
def datetimeOfFaulty (text : Text) (col : String) : Faulty DynamicError (Int × Nat) :=
  Faulty.mapRefused (.encodingError col) (parseDatetimeFaulty text)

def toEpochSecondsFaulty (value : Value) (col : String) : Faulty DynamicError Int :=
  match value with
  | .string text =>
      match parseSignedText 64 text with
      | some raw => pure (epochToSeconds raw)
      | none => do
          let (seconds, _) ← datetimeOfFaulty (trim text.toList) col
          pure seconds
  | value => Faulty.plain (toEpochSeconds value col)

def epochDaysFaulty (value : Value) (col : String) : Faulty DynamicError Int := do
  let seconds ← toEpochSecondsFaulty value col
  Faulty.plain (narrowDays (seconds / 86400) col)

def toEpochDaysFaulty (value : Value) (col : String) : Faulty DynamicError Int :=
  match value with
  | .string text => do
      let bare ← isBareDateFaulty (trim text.toList)
      if bare then dateDaysFaulty (trim text.toList) col else epochDaysFaulty value col
  | _ => epochDaysFaulty value col

/-- `datetime64ToTicks` with the powers of ten in `i64`. -/
def datetime64ToTicksFaulty (value : Value) (precision : Nat) (col : String) :
    Faulty DynamicError Int :=
  match value with
  | .string text =>
      match parseSignedText 64 text with
      | some ticks => pure ticks
      | none => do
          let (seconds, fraction) ← datetimeOfFaulty (trim text.toList) col
          let multiplier ← Faulty.signed 64 (10 ^ precision)
          let base ← Faulty.plain (orErr col "DateTime64 epoch overflow"
            (fitsSigned 64 (seconds * multiplier)))
          let divisor ← Faulty.signed 64 (10 ^ (9 - precision))
          Faulty.plain (orErr col "DateTime64 epoch overflow"
            (fitsSigned 64 (base + (fraction : Int) / divisor)))
  | value => Faulty.plain (datetime64ToTicks value precision col)

/-- A text that is converted to ticks by a power of ten. -/
def isScaledText (text : String) : Bool :=
  (parseSignedText 64 text).isNone && (parseDatetimeStr (trim text.toList)).isOk

@[simp] theorem isBareDateFaulty_eq (text : Text) :
    (isBareDateFaulty text : Faulty ε Bool) = pure (isBareDate text) := by
  rw [isBareDateFaulty, isBareDate]
  cases ascii : isAscii text with
  | false => simp
  | true =>
      rw [byteLength_of_isAscii ascii]
      by_cases ten : text.length = 10
      · have place : text[4]? = some text[4] := List.getElem?_eq_getElem (by omega)
        rw [if_pos ⟨ten, rfl⟩, byteAt_of_lt (by omega), pure_bind, place, beq_iff_eq.mpr ten]
        simp
      · rw [if_neg fun both => ten both.1, beq_eq_false_iff_ne.mpr ten]
        rfl

theorem component_eq_orErr {α : Type} (col message : String) (parsed : Option α) :
    component (DynamicError.encodingError col message) parsed = orErr col message parsed := by
  cases parsed <;> rfl

theorem dateDaysFaulty_eq {text : Text} (bare : isBareDate text = true) (col : String) :
    dateDaysFaulty text col = Faulty.plain (dateDays text col) := by
  simp only [isBareDate, Bool.and_eq_true, beq_iff_eq] at bare
  obtain ⟨⟨length, ascii⟩, -⟩ := bare
  have cut {α : Type} {start stop : Nat} (ordered : start ≤ stop) (inside : stop ≤ 10)
      (read : Text → Option α) (message : String) :
      componentFaulty text start stop read (.encodingError col message) =
        Faulty.plain (orErr col message (read (slice text start stop))) := by
    rw [componentFaulty_eq ascii ordered (by omega), component_eq_orErr]
  have short : (slice text 0 4).length ≤ 4 := by
    rw [slice, List.length_drop, List.length_take]
    omega
  simp only [dateDaysFaulty, dateDays, cut (show 0 ≤ 4 by decide) (by decide),
    cut (show 5 ≤ 7 by decide) (by decide), cut (show 8 ≤ 10 by decide) (by decide),
    Faulty.plain_bind]
  apply Faulty.plain_bind_congr
  intro year parsed
  rw [← component_eq_orErr] at parsed
  have small : year.natAbs < 10000 :=
    Nat.lt_of_lt_of_le (natAbs_lt_of_parseSigned (component_ok_iff.mp parsed))
      (Nat.pow_le_pow_right (by decide) short)
  congr 1
  funext month
  congr 1
  funext day
  split
  · rfl
  · rename_i valid
    have exists' : checkCalendarDay year month day = true := by simpa using valid
    obtain ⟨isMonth, isDay⟩ := le_daysInMonth exists'
    rw [civilDaysFaulty_eq small isMonth isDay, pure_bind]

@[simp] theorem datetimeOfFaulty_eq (text : Text) (col : String) :
    datetimeOfFaulty text col = Faulty.plain (datetimeOf text col) := by
  rw [datetimeOfFaulty, parseDatetimeFaulty_eq, datetimeOf]
  cases parseDatetimeStr text <;> rfl

@[simp] theorem toEpochSecondsFaulty_eq (value : Value) (col : String) :
    toEpochSecondsFaulty value col = Faulty.plain (toEpochSeconds value col) := by
  cases value with
  | string text =>
      simp only [toEpochSecondsFaulty, toEpochSeconds]
      cases parseSignedText 64 text with
      | some raw => rfl
      | none =>
          simp only [datetimeOfFaulty_eq, Faulty.plain_bind]
          rfl
  | _ => rfl

@[simp] theorem epochDaysFaulty_eq (value : Value) (col : String) :
    epochDaysFaulty value col = Faulty.plain (epochDays value col) := by
  rw [epochDaysFaulty, epochDays, toEpochSecondsFaulty_eq, Faulty.plain_bind]

@[simp] theorem toEpochDaysFaulty_eq (value : Value) (col : String) :
    toEpochDaysFaulty value col = Faulty.plain (toEpochDays value col) := by
  cases value with
  | string text =>
      simp only [toEpochDaysFaulty, toEpochDays, isBareDateFaulty_eq, pure_bind]
      split
      · exact dateDaysFaulty_eq ‹_› col
      · exact epochDaysFaulty_eq ..
  | _ => exact epochDaysFaulty_eq ..

theorem signed_pow10 {exponent : Nat} (small : exponent ≤ 18) :
    (Faulty.signed 64 (10 ^ exponent) : Faulty ε Int) = pure (pow10I64 exponent) := by
  rw [pow10I64_eq small]
  apply Faulty.signed_of_fits
  · exact (by decide : (-2 : Int) ^ (64 - 1) ≤ 0).trans (Int.pow_nonneg (by decide))
  · have below := Nat.pow_le_pow_right (show 0 < 10 by decide) small
    have cast : (10 : Int) ^ exponent = ((10 ^ exponent : Nat) : Int) := by push_cast; rfl
    rw [cast]
    generalize 10 ^ exponent = power at *
    omega

theorem faults_signed_pow10 {exponent : Nat} (large : 19 ≤ exponent) :
    Faulty.Faults (Faulty.signed 64 (10 ^ exponent) : Faulty ε Int) := by
  have above := Nat.pow_le_pow_right (show 0 < 10 by decide) large
  have cast : (10 : Int) ^ exponent = ((10 ^ exponent : Nat) : Int) := by push_cast; rfl
  rw [cast]
  generalize 10 ^ exponent = power at *
  rw [Faulty.signed, if_neg (by omega)]
  exact Faulty.faults_fault .overflow

/-- Ten to the precision fits an `i64` up to a precision of eighteen. -/
theorem datetime64ToTicksFaulty_eq (value : Value) {precision : Nat} (small : precision ≤ 18)
    (col : String) :
    datetime64ToTicksFaulty value precision col =
      Faulty.plain (datetime64ToTicks value precision col) := by
  cases value with
  | string text =>
      simp only [datetime64ToTicksFaulty, datetime64ToTicks]
      cases parseSignedText 64 text with
      | some ticks => rfl
      | none =>
          simp only [datetimeOfFaulty_eq, Faulty.plain_bind, signed_pow10 small,
            signed_pow10 (show 9 - precision ≤ 18 by omega), pure_bind]
  | _ => rfl

/-- A power of ten past an `i64` is a fault, once the text is accepted. -/
theorem faults_datetime64ToTicksFaulty {text : String} (scaled : isScaledText text = true)
    {precision : Nat} (large : 19 ≤ precision) (col : String) :
    Faulty.Faults (datetime64ToTicksFaulty (.string text) precision col) := by
  simp only [isScaledText, Bool.and_eq_true, Option.isNone_iff_eq_none] at scaled
  obtain ⟨notTicks, accepted⟩ := scaled
  rw [datetime64ToTicksFaulty]
  simp only [notTicks, datetimeOfFaulty_eq, datetimeOf]
  cases parsed : parseDatetimeStr (trim text.toList) with
  | error message =>
      rw [parsed] at accepted
      cases accepted
  | ok parts =>
      simp only [Faulty.plain_ok, pure_bind]
      exact (faults_signed_pow10 large).bind _

/-- A value that is not scaled is not affected by the precision. -/
theorem datetime64ToTicksFaulty_of_unscaled {value : Value}
    (unscaled : ∀ text, value = .string text → isScaledText text = false) (precision : Nat)
    (col : String) :
    datetime64ToTicksFaulty value precision col =
      Faulty.plain (datetime64ToTicks value precision col) := by
  cases value with
  | string text =>
      have unscaled := unscaled text rfl
      rw [datetime64ToTicksFaulty, datetime64ToTicks]
      cases read : parseSignedText 64 text with
      | some ticks => rfl
      | none =>
          rw [isScaledText, read, Option.isNone_none, Bool.true_and] at unscaled
          simp only [datetimeOfFaulty_eq, datetimeOf]
          cases parsed : parseDatetimeStr (trim text.toList) with
          | error message => rfl
          | ok parts =>
              rw [parsed] at unscaled
              cases unscaled
  | _ => rfl

end DfeClickhouse.Dynamic
