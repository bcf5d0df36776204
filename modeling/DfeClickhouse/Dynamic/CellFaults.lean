import DfeClickhouse.Dynamic.DateFaults
import DfeClickhouse.Dynamic.Encode
import DfeClickhouse.Dynamic.TypeFaults

/-!
# Faults of the cells

The cell of a value with its machine operations unchecked.  The digits of a decimal,
the members of an enum and the halves of a UUID are cut within their texts; only the
ticks of a `DateTime64` can fault.
-/

namespace DfeClickhouse.Dynamic

open Library
open Native (putString)

variable {ε : Type}

/-- The digit at a place of a fraction, subtracted in `u8`. -/
def fractionDigitFaulty (fraction : Text) (place : Nat) : Faulty Unit Int :=
  match fraction[place]? with
  | some digit => do
      let value ← Faulty.sub digit.toNat '0'.toNat
      pure value
  | none => pure 0

def shiftDigitsFaulty (fraction : Text) : Nat → Nat → Int → Faulty Unit Int
  | 0, _, acc => pure acc
  | count + 1, place, acc => do
      let digit ← fractionDigitFaulty fraction place
      let shifted ← Faulty.ofOption (fitsSigned 128 (acc * 10))
      let acc ← Faulty.ofOption (fitsSigned 128 (shifted + digit))
      shiftDigitsFaulty fraction count (place + 1) acc

/-- Scale the digits of a decimal behind its sign. -/
def scaleDigitsFaulty (negative : Bool) (digits : Text) (scale : Nat) : Faulty Unit Int :=
  let (whole, fraction) := (splitOnce digits ['.']).getD (digits, [])
  if whole = [] ∧ fraction = [] then Faulty.refuse ()
  else if !whole.all Char.isDigit || !fraction.all Char.isDigit then Faulty.refuse ()
  else do
    let start ← if whole = [] then pure 0 else Faulty.ofOption (parseSigned 128 whole)
    let acc ← shiftDigitsFaulty fraction scale 0 start
    let rounded ←
      if 5 ≤ fractionDigit fraction scale then Faulty.ofOption (fitsSigned 128 (acc + 1))
      else pure acc
    if negative then Faulty.ofOption (fitsSigned 128 (-rounded)) else pure rounded

/-- `decimalFromText`, its sign sliced off. -/
def decimalFromTextFaulty (text : Text) (scale : Nat) : Faulty Unit Int :=
  match text with
  | [] => Faulty.refuse ()
  | '-' :: rest => do
      let digits ← sliceBytes ('-' :: rest) 1 (byteLength ('-' :: rest))
      scaleDigitsFaulty true digits scale
  | '+' :: rest => do
      let digits ← sliceBytes ('+' :: rest) 1 (byteLength ('+' :: rest))
      scaleDigitsFaulty false digits scale
  | text => scaleDigitsFaulty false text scale

/-- The backing integer of a decimal's text. -/
def scaleTextFaulty (text : Text) (scale : Nat) (col : String) : Faulty DynamicError Int := do
  match ← Faulty.toOption (decimalFromTextFaulty text scale) with
  | some backing => pure backing
  | none =>
      let digits := text.dropWhile fun char => char == '+' || char == '-'
      if digits.any Char.isDigit && digits.all (fun char => char.isDigit || char == '.') then
        Faulty.plain (encErr col "decimal out of range")
      else do
        let parsed ← Faulty.plain (orErr col "not parseable as a decimal" (Binary64.parse text))
        let scaled := parsed.mul (Binary64.powi (.ofInt 10) (.ofInt 1) 8 scale)
        if !scaled.isFinite ∨ scaled.round ≥ 2 ^ 127 ∨ scaled.round < -2 ^ 127 then
          Faulty.plain (encErr col "decimal out of range after scaling")
        else
          pure scaled.round

/-- `decimalBackingI128` on bytes. -/
def decimalBackingFaulty (json : JsonText) (value : Value) (scale : Nat) (col : String) :
    Faulty DynamicError Int :=
  match value with
  | .number number => scaleTextFaulty (number.text json).toList scale col
  | .string text => scaleTextFaulty (trim text.toList) scale col
  | .bool value => scaleTextFaulty (if value then ['1'] else ['0']) scale col
  | _ => Faulty.plain (encErr col "expected decimal number")

theorem fractionDigitFaulty_eq {fraction : Text} (digits : IsDigits fraction) (place : Nat) :
    fractionDigitFaulty fraction place = pure (fractionDigit fraction place) := by
  rw [fractionDigitFaulty, fractionDigit]
  cases found : fraction[place]? with
  | none => rfl
  | some digit =>
      have isDigit := digits digit (List.mem_of_getElem? found)
      have above : '0'.toNat ≤ digit.toNat := by
        simp only [Char.isDigit, Bool.and_eq_true, decide_eq_true_eq] at isDigit
        exact isDigit.1
      simp only [Faulty.sub_of_le above, pure_bind, Int.natCast_sub above]

theorem shiftDigitsFaulty_eq {fraction : Text} (digits : IsDigits fraction) (count place : Nat)
    (acc : Int) :
    shiftDigitsFaulty fraction count place acc =
      Faulty.ofOption (shiftDigits fraction count place acc) := by
  induction count generalizing place acc with
  | zero => rfl
  | succ count ih =>
      simp only [shiftDigitsFaulty, shiftDigits, fractionDigitFaulty_eq digits, pure_bind,
        Faulty.ofOption_bind, ih]

theorem scaleDigitsFaulty_eq (negative : Bool) (digits : Text) (scale : Nat) :
    scaleDigitsFaulty negative digits scale = Faulty.ofOption (do
      let (whole, fraction) := (splitOnce digits ['.']).getD (digits, [])
      if whole = [] ∧ fraction = [] then none
      else if !whole.all Char.isDigit || !fraction.all Char.isDigit then none
      else
        let start ← if whole = [] then some 0 else parseSigned 128 whole
        let acc ← shiftDigits fraction scale 0 start
        let rounded ←
          if 5 ≤ fractionDigit fraction scale then fitsSigned 128 (acc + 1) else some acc
        if negative then fitsSigned 128 (-rounded) else some rounded) := by
  rw [scaleDigitsFaulty]
  obtain ⟨whole, fraction⟩ := (splitOnce digits ['.']).getD (digits, [])
  dsimp only
  split
  · rfl
  · split
    · rfl
    · rename_i plain
      have ⟨_, isNumber⟩ : IsDigits whole ∧ IsDigits fraction := by
        simpa [IsDigits] using plain
      simp only [apply_ite Faulty.ofOption, Faulty.ofOption_bind, Faulty.ofOption_some,
        shiftDigitsFaulty_eq isNumber]

@[simp] theorem decimalFromTextFaulty_eq (text : Text) (scale : Nat) :
    decimalFromTextFaulty text scale = Faulty.ofOption (decimalFromText text scale) := by
  have behind {sign : Char} (single : sign.utf8Size = 1) (rest : Text) :
      (sliceBytes (sign :: rest) 1 (byteLength (sign :: rest)) : Faulty Unit Text) = pure rest := by
    have sliced := @sliceBytes_append Unit [sign] rest []
    rw [List.append_nil, byteLength_cons, single, byteLength_nil] at sliced
    rw [byteLength_cons, single]
    exact sliced
  unfold decimalFromTextFaulty
  split
  · rfl
  · rw [behind rfl, pure_bind, scaleDigitsFaulty_eq]
    rfl
  · rw [behind rfl, pure_bind, scaleDigitsFaulty_eq]
    rfl
  · rename_i filled notMinus notPlus
    rw [scaleDigitsFaulty_eq, decimalFromText]
    · rfl
    · exact filled
    · exact notMinus
    · exact notPlus

theorem scaleTextFaulty_eq (text : Text) (scale : Nat) (col : String) :
    scaleTextFaulty text scale col = Faulty.plain (match decimalFromText text scale with
      | some backing => .ok backing
      | none =>
          let digits := text.dropWhile fun char => char == '+' || char == '-'
          if digits.any Char.isDigit && digits.all (fun char => char.isDigit || char == '.') then
            encErr col "decimal out of range"
          else do
            let parsed ← orErr col "not parseable as a decimal" (Binary64.parse text)
            let scaled := parsed.mul (Binary64.powi (.ofInt 10) (.ofInt 1) 8 scale)
            if !scaled.isFinite ∨ scaled.round ≥ 2 ^ 127 ∨ scaled.round < -2 ^ 127 then
              encErr col "decimal out of range after scaling"
            else
              return scaled.round) := by
  simp only [scaleTextFaulty, decimalFromTextFaulty_eq, Faulty.toOption_ofOption, pure_bind]
  cases decimalFromText text scale with
  | some backing => rfl
  | none =>
      simp only [apply_ite Faulty.plain, Faulty.plain_bind]
      rfl

@[simp]
theorem decimalBackingFaulty_eq (json : JsonText) (value : Value) (scale : Nat) (col : String) :
    decimalBackingFaulty json value scale col =
      Faulty.plain (decimalBackingI128 json value scale col) := by
  cases value with
  | number number =>
      rw [decimalBackingFaulty, scaleTextFaulty_eq]
      rfl
  | string text =>
      rw [decimalBackingFaulty, scaleTextFaulty_eq]
      rfl
  | bool value =>
      rw [decimalBackingFaulty, scaleTextFaulty_eq]
      rfl
  | _ => rfl

/-- The loop of `splitEnumMembers` over the rest of a text: the offsets of the current
member's start and of the next character. -/
def splitEnumMembersLoop (inner : Text) (quote : Option Char) (escaped : Bool)
    (start index : Nat) : Text → Faulty ε (List Text)
  | [] => do
      let last ← sliceBytes inner start (byteLength inner)
      pure [last]
  | char :: rest =>
      if escaped then
        splitEnumMembersLoop inner quote false start (index + char.utf8Size) rest
      else if char = '\\' ∧ quote.isSome then
        splitEnumMembersLoop inner quote true start (index + char.utf8Size) rest
      else if quote.isSome then
        splitEnumMembersLoop inner (if quote = some char then none else quote) false start
          (index + char.utf8Size) rest
      else if char = Char.ofNat 39 ∨ char = '"' then
        splitEnumMembersLoop inner (some char) false start (index + char.utf8Size) rest
      else if char = ',' then do
        let member ← sliceBytes inner start index
        let members ←
          splitEnumMembersLoop inner none false (index + 1) (index + char.utf8Size) rest
        pure (member :: members)
      else
        splitEnumMembersLoop inner none false start (index + char.utf8Size) rest

/-- `enumMemberValue` on bytes. -/
def enumMemberValueFaulty (typeStr : Text) (name : String) : Faulty ε (Option Int) := do
  match ← ParsedType.parenSlice typeStr with
  | none => pure none
  | some inner => do
      let members ← splitEnumMembersLoop inner none false 0 0 inner
      pure (enumMemberIn name.toList members)

def enumDiscriminantFaulty (value : Value) (typeStr : Text) (col : String) :
    Faulty DynamicError Int :=
  match value with
  | .string text =>
      match parseSignedText 64 text with
      | some number => pure number
      | none => do
          let found ← enumMemberValueFaulty typeStr text
          Faulty.plain (orErr col "enum string not found in type definition" found)
  | value => Faulty.plain (enumDiscriminant value typeStr col)

theorem splitEnumMembersLoop_eq {inner before current text : Text} {quote : Option Char}
    {escaped : Bool} (whole : inner = before ++ current.reverse ++ text) :
    (splitEnumMembersLoop inner quote escaped (byteLength before)
      (byteLength before + byteLength current) text : Faulty ε (List Text)) =
      pure (splitEnumMembersFrom quote escaped current text) := by
  induction text generalizing before current quote escaped with
  | nil =>
      have sliced := @sliceBytes_append ε before current.reverse []
      rw [← whole, byteLength_reverse] at sliced
      have length : byteLength inner = byteLength before + byteLength current := by
        rw [whole, List.append_nil, byteLength_append, byteLength_reverse]
      rw [splitEnumMembersLoop, length, sliced]
      rfl
  | cons char text ih =>
      have next {quote : Option Char} {escaped : Bool} :
          (splitEnumMembersLoop inner quote escaped (byteLength before)
            (byteLength before + byteLength current + char.utf8Size) text :
              Faulty ε (List Text)) =
            pure (splitEnumMembersFrom quote escaped (char :: current) text) := by
        have longer : inner = before ++ (char :: current).reverse ++ text := by simpa using whole
        have size : byteLength before + byteLength current + char.utf8Size =
            byteLength before + byteLength (char :: current) := by
          rw [byteLength_cons]
          omega
        rw [size]
        exact ih longer
      rw [splitEnumMembersLoop, splitEnumMembersFrom]
      simp only [next]
      by_cases comma : char = ','
      · subst comma
        have sliced := @sliceBytes_append ε before current.reverse (',' :: text)
        have rest := @ih (before ++ current.reverse ++ [',']) [] none false (by simpa using whole)
        have size : ','.utf8Size = 1 := rfl
        rw [← whole, byteLength_reverse] at sliced
        simp only [byteLength_append, byteLength_reverse, byteLength_cons, byteLength_nil, size,
          Nat.add_zero] at rest
        simp only [size, sliced, rest, pure_bind]
        split_ifs <;> rfl
      · simp only [if_neg comma]
        split_ifs <;> rfl

@[simp] theorem enumMemberValueFaulty_eq (typeStr : Text) (name : String) :
    (enumMemberValueFaulty typeStr name : Faulty ε (Option Int)) =
      pure (enumMemberValue typeStr name) := by
  simp only [enumMemberValueFaulty, enumMemberValue, ParsedType.parenSlice_eq, pure_bind]
  cases ParsedType.extractParens typeStr with
  | none => rfl
  | some inner =>
      have members := @splitEnumMembersLoop_eq ε inner [] [] inner none false rfl
      simp only [byteLength_nil, Nat.add_zero] at members
      simp only [members, pure_bind]
      rfl

@[simp] theorem enumDiscriminantFaulty_eq (value : Value) (typeStr : Text) (col : String) :
    enumDiscriminantFaulty value typeStr col =
      Faulty.plain (enumDiscriminant value typeStr col) := by
  cases value with
  | string text =>
      simp only [enumDiscriminantFaulty, enumDiscriminant, enumMemberValueFaulty_eq, pure_bind]
      cases parseSignedText 64 text <;> rfl
  | _ => rfl

/-- `uuidBytes`, its halves sliced out of the digits. -/
def uuidFaulty (json : JsonText) (value : Value) (col : String) : Faulty DynamicError Bytes :=
  let hex := (valueToStr json value).toList.filter fun char => (hexDigit char).isSome
  if byteLength hex ≠ 32 then
    Faulty.plain (encErr col "invalid UUID length")
  else do
    let high ← sliceBytes hex 0 16
    let low ← sliceBytes hex 16 (byteLength hex)
    pure (natLe 8 (digitsNumber 16 (high.filterMap hexDigit)) ++
      natLe 8 (digitsNumber 16 (low.filterMap hexDigit)))

theorem utf8Size_of_hexDigit {char : Char} (isHex : (hexDigit char).isSome = true) :
    char.utf8Size = 1 := by
  rw [Char.utf8Size_eq_one_iff, UInt32.le_iff_toNat_le]
  unfold hexDigit at isHex
  split at isHex
  · rename_i digit
    simp only [Char.isDigit, Bool.and_eq_true, decide_eq_true_eq, ge_iff_le,
      UInt32.le_iff_toNat_le] at digit
    exact digit.2.trans (by decide)
  · split at isHex
    · rename_i lower
      exact (UInt32.le_iff_toNat_le.mp lower.2).trans (by decide)
    · split at isHex
      · rename_i upper
        exact (UInt32.le_iff_toNat_le.mp upper.2).trans (by decide)
      · cases isHex

/-- Digits and their values are in the same places. -/
theorem filterMap_hexDigit (text : Text) :
    text.filterMap hexDigit =
      (text.filter fun char => (hexDigit char).isSome).map fun char => (hexDigit char).getD 0 := by
  induction text with
  | nil => rfl
  | cons char text ih =>
      cases isHex : hexDigit char <;> simp [isHex, ih]

@[simp] theorem uuidFaulty_eq (json : JsonText) (value : Value) (col : String) :
    uuidFaulty json value col = Faulty.plain (uuidBytes json value col) := by
  rw [uuidFaulty, uuidBytes]
  have digits := filterMap_hexDigit (valueToStr json value).toList
  have isHex : ∀ char ∈ (valueToStr json value).toList.filter fun char => (hexDigit char).isSome,
      (hexDigit char).isSome = true := fun char member => (List.mem_filter.mp member).2
  generalize (valueToStr json value).toList.filter (fun char => (hexDigit char).isSome) = hex at *
  have ascii : ∀ char ∈ hex, char.utf8Size = 1 := fun char member =>
    utf8Size_of_hexDigit (isHex char member)
  have part (piece : Text) (inside : ∀ char ∈ piece, char ∈ hex) :
      piece.filterMap hexDigit = piece.map fun char => (hexDigit char).getD 0 := by
    rw [filterMap_hexDigit, List.filter_eq_self.mpr fun char member =>
      isHex char (inside char member)]
  rw [digits, byteLength_of_ascii ascii, List.length_map]
  by_cases full : hex.length = 32
  · have low : (hex.take hex.length).drop 16 = hex.drop 16 := by rw [List.take_length]
    rw [if_neg (not_not_intro full), if_neg (not_not_intro full),
      sliceBytes_of_ascii ascii (by decide) (by omega), pure_bind,
      sliceBytes_of_ascii ascii (by omega) (Nat.le_refl _), pure_bind, low, List.drop_zero,
      part (hex.take 16) fun char => List.mem_of_mem_take,
      part (hex.drop 16) fun char => List.mem_of_mem_drop, List.map_take, List.map_drop]
    rfl
  · rw [if_pos full, if_pos full]

/-- `checked` behind a coercion that may fault. -/
def checkedFaulty (width : Nat) (wide : Faulty DynamicError Int) (fits : Nat → Int → Option Int)
    (col message : String) : Faulty DynamicError Bytes := do
  let value ← wide
  let value ← Faulty.plain (orErr col message (fits (8 * width) value))
  pure (intLe width value)

/-- `scalarCell` with its coercions unchecked.  The types without a branch here have no
operation that could fault before the buffer. -/
def scalarCellFaulty (json : JsonText) (info : TypeInfo) (value : Value) (col : String) :
    Faulty DynamicError Bytes :=
  let backing := decimalBackingFaulty json value (info.scale.getD 0) col
  match encodingTag info with
  | .enum8 =>
      checkedFaulty 1 (enumDiscriminantFaulty value info.raw col) fitsSigned col
        "Enum8 value out of range"
  | .enum16 =>
      checkedFaulty 2 (enumDiscriminantFaulty value info.raw col) fitsSigned col
        "Enum16 value out of range"
  | .date =>
      checkedFaulty 2 (toEpochDaysFaulty value col) fitsUnsigned col
        "Date out of range for UInt16 days"
  | .date32 => do
      let days ← toEpochDaysFaulty value col
      pure (intLe 4 days)
  | .dateTime =>
      checkedFaulty 4 (toEpochSecondsFaulty value col) fitsUnsigned col
        "DateTime out of range for UInt32 seconds"
  | .dateTime64 => do
      let ticks ← datetime64ToTicksFaulty value (info.precision.getD 3) col
      pure (intLe 8 ticks)
  | .decimal32 => checkedFaulty 4 backing fitsSigned col "Decimal32 overflow"
  | .decimal64 => checkedFaulty 8 backing fitsSigned col "Decimal64 overflow"
  | .decimal128 => do
      let value ← backing
      pure (intLe 16 value)
  | .decimal256 => do
      let value ← backing
      pure (i128ToI256Le value)
  | .uuid => uuidFaulty json value col
  | _ => Faulty.plain (scalarCell json info value col)

/-- The power of ten for the ticks of a value is past an `i64`. -/
def ticksOverflow (info : TypeInfo) : Value → Bool
  | .string text =>
      encodingTag info == .dateTime64 && decide (19 ≤ info.precision.getD 3) && isScaledText text
  | _ => false

theorem checkedFaulty_plain (width : Nat) (wide : Except DynamicError Int)
    (fits : Nat → Int → Option Int) (col message : String) :
    checkedFaulty width (Faulty.plain wide) fits col message =
      Faulty.plain (checked width wide fits col message) := by
  rw [checkedFaulty, checked, Faulty.plain_bind]
  congr 1
  funext value
  rw [Faulty.plain_bind]
  rfl

theorem plain_bind_pure {α β : Type} (outcome : Except DynamicError α) (next : α → β) :
    (do let value ← Faulty.plain outcome; pure (next value)) =
      Faulty.plain (do let value ← outcome; pure (next value)) := by
  cases outcome <;> rfl

theorem datetime64ToTicksFaulty_of_fits {info : TypeInfo} {value : Value}
    (tag : encodingTag info = .dateTime64) (fits : ticksOverflow info value = false)
    (col : String) :
    datetime64ToTicksFaulty value (info.precision.getD 3) col =
      Faulty.plain (datetime64ToTicks value (info.precision.getD 3) col) := by
  by_cases small : info.precision.getD 3 ≤ 18
  · exact datetime64ToTicksFaulty_eq value small col
  · apply datetime64ToTicksFaulty_of_unscaled
    intro text same
    have large : 19 ≤ info.precision.getD 3 := Nat.lt_of_not_le small
    simpa [same, ticksOverflow, tag, large] using fits

/-- Where its ticks fit, a cell is what the encoder makes it. -/
theorem scalarCellFaulty_eq {json : JsonText} {info : TypeInfo} {value : Value}
    (fits : ticksOverflow info value = false) (col : String) :
    scalarCellFaulty json info value col = Faulty.plain (scalarCell json info value col) := by
  unfold scalarCellFaulty
  cases tag : encodingTag info
  case enum8 | enum16 =>
    rw [scalarCell, tag]
    simp only [enumDiscriminantFaulty_eq, checkedFaulty_plain]
  case date =>
    rw [scalarCell, tag]
    simp only [toEpochDaysFaulty_eq, checkedFaulty_plain]
  case dateTime =>
    rw [scalarCell, tag]
    simp only [toEpochSecondsFaulty_eq, checkedFaulty_plain]
  case date32 =>
    rw [scalarCell, tag]
    simp only [toEpochDaysFaulty_eq, plain_bind_pure]
  case dateTime64 =>
    rw [scalarCell, tag]
    simp only [datetime64ToTicksFaulty_of_fits tag fits, plain_bind_pure]
  case decimal32 | decimal64 =>
    rw [scalarCell, tag]
    simp only [decimalBackingFaulty_eq, checkedFaulty_plain]
  case decimal128 | decimal256 =>
    rw [scalarCell, tag]
    simp only [decimalBackingFaulty_eq, plain_bind_pure]
  case uuid =>
    rw [scalarCell, tag]
    exact uuidFaulty_eq json value col
  all_goals rfl

/-- Where its ticks overflow, a cell is a fault. -/
theorem faults_scalarCellFaulty {json : JsonText} {info : TypeInfo} {value : Value}
    (spills : ticksOverflow info value = true) (col : String) :
    Faulty.Faults (scalarCellFaulty json info value col) := by
  cases value with
  | string text =>
      simp only [ticksOverflow, Bool.and_eq_true, beq_iff_eq, decide_eq_true_eq] at spills
      obtain ⟨⟨tag, large⟩, scaled⟩ := spills
      rw [scalarCellFaulty, tag]
      exact (faults_datetime64ToTicksFaulty scaled large col).bind _
  | _ => cases spills

end DfeClickhouse.Dynamic
