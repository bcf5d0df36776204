import DfeClickhouse.Dynamic.CellBoundaries
import DfeClickhouse.Library.Numeral
import DfeClickhouse.Library.WholeFloat
import DfeClickhouse.Native.JsonValidity
import DfeClickhouse.Native.TypeName

/-!
# Scalars from JSON and back

Integers and UUIDs are written by the dynamic encoder and rendered by the native reader,
with coercions of their own on either side.  An integer is written exactly when it is in
the range of its column, and what is written is rendered as its decimal text.
-/

namespace DfeClickhouse.Dynamic

open Library Native

/-- An integer as the JSON library holds it: a `u64` or an `i64`, or its decimal text,
of any size. -/
inductive IntegerInput
  | posInt (value : BitVec 64)
  | negInt (value : BitVec 64)
  | text (value : Int)

namespace IntegerInput

def value : IntegerInput → Value
  | posInt value => .number (.posInt value)
  | negInt value => .number (.negInt value)
  | text value => .string (toString value)

def integer : IntegerInput → Int
  | posInt value => value.toNat
  | negInt value => value.toInt
  | text value => value

end IntegerInput

theorem fitsUnsigned_eq_none {bits : Nat} {value : Int} (negative : value < 0) :
    fitsUnsigned bits value = none :=
  if_neg fun both => absurd both.1 (Int.not_le.mpr negative)

theorem fitsSigned_eq_none {bits : Nat} {value : Int} (large : 2 ^ (bits - 1) ≤ value) :
    fitsSigned bits value = none :=
  if_neg fun both => absurd both.2 (Int.not_lt.mpr large)

theorem fitsUnsigned_eq_some_iff {bits : Nat} {value found : Int} :
    fitsUnsigned bits value = some found ↔ (0 ≤ value ∧ value < 2 ^ bits) ∧ found = value := by
  rw [fitsUnsigned, Option.ite_none_right_eq_some, Option.some_inj, @eq_comm Int value]

theorem fitsSigned_eq_some_iff {bits : Nat} {value found : Int} :
    fitsSigned bits value = some found ↔
      (-2 ^ (bits - 1) ≤ value ∧ value < 2 ^ (bits - 1)) ∧ found = value := by
  rw [fitsSigned, Option.ite_none_right_eq_some, Option.some_inj, @eq_comm Int value]

/-- Fitting a width and then a narrower one is fitting the narrower one. -/
theorem fitsUnsigned_bind {narrow wide : Nat} (narrower : narrow ≤ wide) (value : Int) :
    (fitsUnsigned wide value).bind (fitsUnsigned narrow) = fitsUnsigned narrow value := by
  ext found
  have power : (2 : Int) ^ narrow ≤ 2 ^ wide := by
    exact_mod_cast Nat.pow_le_pow_right (by decide : 0 < 2) narrower
  rw [Option.bind_eq_some_iff, fitsUnsigned_eq_some_iff]
  constructor
  · intro both
    obtain ⟨middle, first, second⟩ := both
    obtain ⟨_, rfl⟩ := fitsUnsigned_eq_some_iff.mp first
    exact fitsUnsigned_eq_some_iff.mp second
  · intro inside
    refine ⟨value, ?_, fitsUnsigned_eq_some_iff.mpr inside⟩
    exact fitsUnsigned_eq_some_iff.mpr ⟨⟨inside.1.1, by omega⟩, rfl⟩

theorem fitsSigned_bind {narrow wide : Nat} (narrower : narrow ≤ wide) (value : Int) :
    (fitsSigned wide value).bind (fitsSigned narrow) = fitsSigned narrow value := by
  ext found
  have power : (2 : Int) ^ (narrow - 1) ≤ 2 ^ (wide - 1) := by
    exact_mod_cast Nat.pow_le_pow_right (by decide : 0 < 2) (Nat.sub_le_sub_right narrower 1)
  rw [Option.bind_eq_some_iff, fitsSigned_eq_some_iff]
  constructor
  · intro both
    obtain ⟨middle, first, second⟩ := both
    obtain ⟨_, rfl⟩ := fitsSigned_eq_some_iff.mp first
    exact fitsSigned_eq_some_iff.mp second
  · intro inside
    refine ⟨value, ?_, fitsSigned_eq_some_iff.mpr inside⟩
    exact fitsSigned_eq_some_iff.mpr ⟨⟨by omega, by omega⟩, rfl⟩

/-- An integer below zero is no `u64` as a float either. -/
theorem wholeF64AsU64_ofInt {value : Int} (negative : value < 0) (small : value.natAbs < 2 ^ 64) :
    wholeF64AsU64 (.ofInt value) = none := by
  rw [wholeF64AsU64]
  cases read : (Binary64.ofInt value).whole with
  | none => rfl
  | some found =>
      obtain ⟨magnitude, least, rfl⟩ := Binary64.whole_ofInt (Int.ne_of_lt negative) small read
      have positive : 0 < magnitude := Nat.lt_of_lt_of_le (Nat.two_pow_pos _) least
      rw [if_pos negative, Option.bind_some]
      exact fitsUnsigned_eq_none (by omega)

/-- An integer past the `i64`s is none as a float either. -/
theorem wholeF64AsI64_ofInt {value : Nat} (large : 2 ^ 63 ≤ value) (small : value < 2 ^ 64) :
    wholeF64AsI64 (.ofInt value) = none := by
  rw [wholeF64AsI64]
  cases read : (Binary64.ofInt (value : Int)).whole with
  | none => rfl
  | some found =>
      obtain ⟨magnitude, least, rfl⟩ :=
        Binary64.whole_ofInt (by omega) (by simpa using small) read
      have top : 63 ≤ value.log2 := (Nat.le_log2 (by omega)).mpr large
      have power : 2 ^ 63 ≤ magnitude := Nat.le_trans (Nat.pow_le_pow_right (by decide) top) least
      rw [if_neg (by omega), Option.bind_some]
      apply fitsSigned_eq_none
      exact_mod_cast power

@[simp]
theorem trim_toString_int (value : Int) :
    trim (toString value).toList = (toString value).toList := by
  apply trim_eq_self
  intro char member
  cases mem_toString_int member with
  | inl minus =>
      rw [minus]
      decide
  | inr digit => exact isWhitespace_of_isDigit digit

@[simp] theorem parseDigits_minus (text : Text) : parseDigits ('-' :: text) = none := by
  have notDigit : ('-' :: text).all Char.isDigit = false := rfl
  rw [parseDigits, notDigit, if_neg fun both => Bool.false_ne_true both.2]

@[simp]
theorem parseUnsigned_minus (bits : Nat) (text : Text) :
    parseUnsigned bits ('-' :: text) = none := by
  have read : parseUnsigned bits ('-' :: text) =
      (parseDigits ('-' :: text)).filter fun value => value < 2 ^ bits := rfl
  rw [read, parseDigits_minus]
  rfl

/-- The width decides whether a text is read, not what it is read as. -/
theorem parseSigned_unique {bits bits' : Nat} {text : Text} {first second : Int}
    (parsed : parseSigned bits text = some first) (parsed' : parseSigned bits' text = some second) :
    first = second := by
  rw [parseSigned_eq] at parsed parsed'
  have read := (Option.filter_eq_some_iff.mp parsed).1
  have read' := (Option.filter_eq_some_iff.mp parsed').1
  exact Option.some.inj (read.symm.trans read')

@[simp] theorem parseUnsignedText_toString (bits : Nat) (value : Int) :
    parseUnsignedText bits (toString value) = fitsUnsigned bits value := by
  rw [parseUnsignedText, trim_toString_int, toList_toString_int]
  by_cases negative : value < 0
  · rw [if_pos negative, fitsUnsigned_eq_none negative, List.singleton_append,
      parseUnsigned_minus, Option.map_none]
  · have digits : IsDigits (Nat.toDigits 10 value.natAbs) :=
      fun char member => isDigit_of_mem_toDigits member
    have read := (parseDigits_eq_some_iff.mp (parseDigits_toDigits value.natAbs)).2.2
    have same : (value.natAbs : Int) = value := by omega
    have fits : value.natAbs < 2 ^ bits ↔ 0 ≤ value ∧ value < 2 ^ bits := by
      rw [← Int.ofNat_lt, same, Nat.cast_pow, Nat.cast_two]
      constructor
      · intro below
        exact ⟨Int.not_lt.mp negative, below⟩
      · intro both
        exact both.2
    rw [if_neg negative, List.nil_append, parseUnsigned_of_isDigits Nat.toDigits_ne_nil digits,
      read, fitsUnsigned]
    by_cases below : value.natAbs < 2 ^ bits
    · rw [if_pos below, if_pos (fits.mp below), Option.map_some, same]
    · rw [if_neg below, if_neg fun both => below (fits.mpr both), Option.map_none]

@[simp] theorem parseSignedText_toString (bits : Nat) (value : Int) :
    parseSignedText bits (toString value) = fitsSigned bits value := by
  rw [parseSignedText, trim_toString_int, fitsSigned]
  by_cases inside : -2 ^ (bits - 1) ≤ value ∧ value < 2 ^ (bits - 1)
  · rw [if_pos inside, parseSigned_toString inside.1 inside.2]
  · rw [if_neg inside]
    cases parsed : parseSigned bits (toString value).toList with
    | none => rfl
    | some found =>
        have power : ((value.natAbs : Nat) : Int) < 2 ^ value.natAbs := by
          exact_mod_cast Nat.lt_two_pow_self
        have wide : parseSigned (value.natAbs + 1) (toString value).toList = some value := by
          apply parseSigned_toString
          · rw [Nat.add_sub_cancel]
            omega
          · rw [Nat.add_sub_cancel]
            omega
        rw [parseSigned_unique parsed wide] at parsed
        exact absurd (parseSigned_fits parsed) inside

@[simp] theorem toOption_orErr {α : Type} (col message : String) (found : Option α) :
    (orErr col message found).toOption = found := by
  cases found <;> rfl

variable (input : IntegerInput) (col : String)

@[simp]
theorem toOption_asU64 : (asU64 input.value col).toOption = fitsUnsigned 64 input.integer := by
  cases input with
  | text value => exact (toOption_orErr ..).trans (parseUnsignedText_toString 64 value)
  | posInt value =>
      have fits : fitsUnsigned 64 (value.toNat : Int) = some (value.toNat : Int) :=
        if_pos ⟨Int.natCast_nonneg _, by exact_mod_cast value.isLt⟩
      exact fits.symm
  | negInt value =>
      have least := @BitVec.le_two_mul_toInt 64 value
      have greatest := @BitVec.two_mul_toInt_lt 64 value
      have read : asU64 (IntegerInput.negInt value).value col =
          orErr col "not a valid unsigned integer" (((none : Option Int).orElse fun _ =>
            (some value.toInt).bind (fitsUnsigned 64)).orElse fun _ =>
              wholeF64AsU64 (.ofInt value.toInt)) := rfl
      rw [read, toOption_orErr, IntegerInput.integer]
      by_cases negative : value.toInt < 0
      · simp [fitsUnsigned_eq_none negative, wholeF64AsU64_ofInt negative (by omega)]
      · have fits : fitsUnsigned 64 value.toInt = some value.toInt := if_pos (by omega)
        simp [fits]

@[simp]
theorem fitsSigned_toInt (value : BitVec 64) : fitsSigned 64 value.toInt = some value.toInt :=
  if_pos ⟨BitVec.le_toInt value, BitVec.toInt_lt⟩

theorem fitsSigned_large {value : Nat} (large : 2 ^ 63 ≤ value) :
    fitsSigned 64 (value : Int) = none :=
  fitsSigned_eq_none (by exact_mod_cast large)

theorem asI64_posInt (value : BitVec 64) :
    asI64 (.number (.posInt value)) col =
      orErr col "not a valid integer" (((fitsSigned 64 value.toNat).orElse fun _ =>
        (some (value.toNat : Int)).bind (fitsSigned 64)).orElse fun _ =>
          wholeF64AsI64 (.ofInt value.toNat)) := by
  rw [asI64, asInteger, numberAsI64, Number.asI64, Number.asU64, Number.asF64]

@[simp] theorem asI64_negInt (value : BitVec 64) :
    asI64 (.number (.negInt value)) col = .ok value.toInt := by
  rw [asI64, asInteger, numberAsI64, Number.asI64, Option.orElse_some, Option.orElse_some, orErr]

@[simp]
theorem toOption_asI64 : (asI64 input.value col).toOption = fitsSigned 64 input.integer := by
  cases input with
  | text value => exact (toOption_orErr ..).trans (parseSignedText_toString 64 value)
  | posInt value =>
      rw [IntegerInput.value, asI64_posInt, toOption_orErr, IntegerInput.integer]
      by_cases small : value.toNat < 2 ^ 63
      · have fits : fitsSigned 64 (value.toNat : Int) = some (value.toNat : Int) :=
          if_pos (by omega)
        simp only [fits, Option.orElse_some]
      · have large : 2 ^ 63 ≤ value.toNat := Nat.le_of_not_lt small
        rw [fitsSigned_large large, Option.bind_some, Option.orElse_none, fitsSigned_large large,
          Option.orElse_none]
        exact wholeF64AsI64_ofInt large value.isLt
  | negInt value =>
      rw [IntegerInput.value, asI64_negInt, IntegerInput.integer, fitsSigned_toInt]
      rfl

@[simp]
theorem toOption_asU128 : (asU128 input.value col).toOption = fitsUnsigned 128 input.integer := by
  cases input with
  | text value => exact (toOption_orErr ..).trans (parseUnsignedText_toString 128 value)
  | posInt value =>
      have small := value.isLt
      have fits : fitsUnsigned 128 (value.toNat : Int) = some (value.toNat : Int) :=
        if_pos (by omega)
      exact fits.symm
  | negInt value => exact toOption_orErr ..

@[simp]
theorem toOption_asI128 : (asI128 input.value col).toOption = fitsSigned 128 input.integer := by
  cases input with
  | text value => exact (toOption_orErr ..).trans (parseSignedText_toString 128 value)
  | posInt value =>
      have small := value.isLt
      have fits : fitsSigned 128 (value.toNat : Int) = some (value.toNat : Int) :=
        if_pos (by omega)
      have read : asI128 (IntegerInput.posInt value).value col = orErr col "not a valid i128"
          ((fitsSigned 64 value.toNat).orElse fun _ => some (value.toNat : Int)) := rfl
      rw [read, toOption_orErr, IntegerInput.integer, fits, fitsSigned]
      split <;> rfl
  | negInt value =>
      have least := @BitVec.le_two_mul_toInt 64 value
      have greatest := @BitVec.two_mul_toInt_lt 64 value
      have fits : fitsSigned 128 value.toInt = some value.toInt := if_pos (by omega)
      exact fits.symm

/-- The integer columns with a JSON number form. -/
inductive IntegerType
  | uInt8 | uInt16 | uInt32 | uInt64 | uInt128
  | int8 | int16 | int32 | int64 | int128

namespace IntegerType

def name : IntegerType → String
  | uInt8 => "UInt8" | uInt16 => "UInt16" | uInt32 => "UInt32" | uInt64 => "UInt64"
  | uInt128 => "UInt128"
  | int8 => "Int8" | int16 => "Int16" | int32 => "Int32" | int64 => "Int64"
  | int128 => "Int128"

/-- The bytes of a cell. -/
def width : IntegerType → Nat
  | uInt8 | int8 => 1
  | uInt16 | int16 => 2
  | uInt32 | int32 => 4
  | uInt64 | int64 => 8
  | uInt128 | int128 => 16

def isSigned : IntegerType → Bool
  | uInt8 | uInt16 | uInt32 | uInt64 | uInt128 => false
  | int8 | int16 | int32 | int64 | int128 => true

/-- The native reader's type. -/
def columnType : IntegerType → ColumnType
  | uInt8 => .uInt8 | uInt16 => .uInt16 | uInt32 => .uInt32 | uInt64 => .uInt64
  | uInt128 => .uInt128
  | int8 => .int8 | int16 => .int16 | int32 => .int32 | int64 => .int64 | int128 => .int128

/-- The range of the type. -/
def InRange (type : IntegerType) (value : Int) : Prop :=
  if type.isSigned then
    -2 ^ (8 * type.width - 1) ≤ value ∧ value < 2 ^ (8 * type.width - 1)
  else
    0 ≤ value ∧ value < 2 ^ (8 * type.width)

/-- An integer in the range of the type. -/
def fits (type : IntegerType) (value : Int) : Option Int :=
  if type.isSigned then fitsSigned (8 * type.width) value
  else fitsUnsigned (8 * type.width) value

theorem fits_eq_some_iff {type : IntegerType} {value found : Int} :
    type.fits value = some found ↔ type.InRange value ∧ found = value := by
  rw [fits, InRange]
  by_cases signed : type.isSigned = true
  · rw [if_pos signed, if_pos signed, fitsSigned_eq_some_iff]
  · rw [if_neg signed, if_neg signed, fitsUnsigned_eq_some_iff]

end IntegerType

@[simp] theorem toOption_narrowed (width : Nat) (wide : Except DynamicError Int)
    (fits : Nat → Int → Option Int) (typeName : String) :
    (narrowed width wide fits col typeName).toOption =
      (wide.toOption.bind (fits (8 * width))).map (intLe width) := by
  cases wide with
  | error error => rfl
  | ok value =>
      show (orErr col (typeName ++ " value out of range") (fits (8 * width) value) >>= fun value =>
        pure (intLe width value)).toOption = (fits (8 * width) value).map (intLe width)
      cases fits (8 * width) value <;> rfl

@[simp] theorem toOption_intLe (width : Nat) (wide : Except DynamicError Int) :
    (do return intLe width (← wide) : Except DynamicError Bytes).toOption =
      wide.toOption.map (intLe width) := by
  cases wide <;> rfl

/-- A column writes the two's complement of an integer in its range, and nothing else. -/
theorem toOption_scalarCell (json : JsonText) (type : IntegerType) :
    (scalarCell json (ParsedType.parse type.name).info input.value col).toOption =
      (type.fits input.integer).map (intLe type.width) := by
  have unsigned (width : Nat) (narrower : 8 * width ≤ 64) (typeName : String) :
      (narrowed width (asU64 input.value col) fitsUnsigned col typeName).toOption =
        (fitsUnsigned (8 * width) input.integer).map (intLe width) := by
    rw [toOption_narrowed, toOption_asU64, fitsUnsigned_bind narrower]
  have signed (width : Nat) (narrower : 8 * width ≤ 64) (typeName : String) :
      (narrowed width (asI64 input.value col) fitsSigned col typeName).toOption =
        (fitsSigned (8 * width) input.integer).map (intLe width) := by
    rw [toOption_narrowed, toOption_asI64, fitsSigned_bind narrower]
  cases type with
  | uInt8 => exact unsigned 1 (by decide) "UInt8"
  | uInt16 => exact unsigned 2 (by decide) "UInt16"
  | uInt32 => exact unsigned 4 (by decide) "UInt32"
  | int8 => exact signed 1 (by decide) "Int8"
  | int16 => exact signed 2 (by decide) "Int16"
  | int32 => exact signed 4 (by decide) "Int32"
  | uInt64 =>
      have cell := toOption_intLe 8 (asU64 input.value col)
      rw [toOption_asU64] at cell
      exact cell
  | uInt128 =>
      have cell := toOption_intLe 16 (asU128 input.value col)
      rw [toOption_asU128] at cell
      exact cell
  | int64 =>
      have cell := toOption_intLe 8 (asI64 input.value col)
      rw [toOption_asI64] at cell
      exact cell
  | int128 =>
      have cell := toOption_intLe 16 (asI128 input.value col)
      rw [toOption_asI128] at cell
      exact cell

/-- A cell of a column that is not nullable is written as it is. -/
theorem encodeValue_of_some {json : JsonText} {info : TypeInfo} {value : Value} {col : String}
    {bytes : Bytes} (required : info.nullable = false) (present : value ≠ .null)
    (cell : (scalarCell json info value col).toOption = some bytes) :
    encodeValue json col (.plain info) value = ⟨bytes, .ok ()⟩ := by
  cases outcome : scalarCell json info value col with
  | error error =>
      rw [outcome] at cell
      cases cell
  | ok found =>
      rw [outcome] at cell
      cases cell
      rw [encodeValue]
      cases value <;> first
        | exact absurd rfl present
        | simp only [encodeFlagged, required, outcome]
          rfl

theorem encodeValue_of_none {json : JsonText} {info : TypeInfo} {value : Value} {col : String}
    (required : info.nullable = false) (present : value ≠ .null)
    (cell : (scalarCell json info value col).toOption = none) :
    ∃ error, encodeValue json col (.plain info) value = ⟨[], .error error⟩ := by
  cases outcome : scalarCell json info value col with
  | ok found =>
      rw [outcome] at cell
      cases cell
  | error error =>
      refine ⟨error, ?_⟩
      rw [encodeValue]
      cases value <;> first
        | exact absurd rfl present
        | simp only [encodeFlagged, required, outcome]
          rfl

theorem IntegerInput.value_ne_null : input.value ≠ .null := by
  cases input <;> exact fun same => nomatch same

theorem IntegerType.plain (type : IntegerType) :
    ParsedType.parse type.name = .plain (ParsedType.parse type.name).info ∧
      (ParsedType.parse type.name).info.nullable = false := by
  cases type <;> exact ⟨rfl, rfl⟩

@[simp] theorem leNat_intLe (width : Nat) (value : Int) :
    leNat (intLe width value) = (BitVec.ofInt (8 * width) value).toNat := by
  rw [intLe, scalarBytes, leNat_natLe_of_lt]
  rw [← two_pow_eight_mul]
  exact (BitVec.ofInt (8 * width) value).isLt

theorem toString_leNat_intLe {width : Nat} {value : Int} (least : 0 ≤ value)
    (greatest : value < 2 ^ (8 * width)) :
    toString (leNat (intLe width value)) = toString value := by
  obtain ⟨number, rfl⟩ := Int.eq_ofNat_of_zero_le least
  have small : number < 2 ^ (8 * width) := by exact_mod_cast greatest
  have read : leNat (intLe width (number : Int)) = number := by
    rw [leNat_intLe, BitVec.ofInt_natCast, BitVec.toNat_ofNat, Nat.mod_eq_of_lt small]
  rw [read]
  rfl

theorem signedText_intLe {width : Nat} (positive : 0 < width) {value : Int}
    (least : -2 ^ (8 * width - 1) ≤ value) (greatest : value < 2 ^ (8 * width - 1)) :
    signedText (intLe width value) = toString value := by
  rw [signedText, leNat_intLe, length_intLe, BitVec.ofNat_toNat, BitVec.setWidth_eq,
    BitVec.toInt_ofInt_eq_self (by omega) least greatest]

theorem rowbinaryToJson_intLe {type : IntegerType} {value : Int} (inside : type.InRange value) :
    rowbinaryToJson (intLe type.width value) type.columnType = utf8 (toString value) := by
  have unsigned {width : Nat} {columnType : ColumnType}
      (renderer : rowbinaryToJsonInner columnType =
        renderFixed width fun raw => utf8 (toString (leNat raw)))
      (range : 0 ≤ value ∧ value < 2 ^ (8 * width)) :
      rowbinaryToJson (intLe width value) columnType = utf8 (toString value) := by
    rw [rowbinaryToJson_fixed renderer (length_intLe width value),
      toString_leNat_intLe range.1 range.2]
  have signed {width : Nat} (positive : 0 < width) {columnType : ColumnType}
      (renderer : rowbinaryToJsonInner columnType =
        renderFixed width fun raw => utf8 (signedText raw))
      (range : -2 ^ (8 * width - 1) ≤ value ∧ value < 2 ^ (8 * width - 1)) :
      rowbinaryToJson (intLe width value) columnType = utf8 (toString value) := by
    rw [rowbinaryToJson_fixed renderer (length_intLe width value),
      signedText_intLe positive range.1 range.2]
  cases type with
  | uInt8 | uInt16 | uInt32 | uInt64 | uInt128 => exact unsigned rfl inside
  | int8 | int16 | int32 | int64 | int128 => exact signed (by decide) rfl inside

/-- An integer is written to a column exactly when it is in its range, and what is written
is rendered as its decimal text. -/
structure SurvivesEncoding (json : JsonText) (col : String) (type : IntegerType)
    (input : IntegerInput) : Prop where
  accepted : (encodeValue json col (ParsedType.parse type.name) input.value).result.isOk = true ↔
    type.InRange input.integer
  rendered : type.InRange input.integer →
    rowbinaryToJson (encodeValue json col (ParsedType.parse type.name) input.value).written
      type.columnType = utf8 (toString input.integer)

theorem survivesEncoding (json : JsonText) (type : IntegerType) :
    SurvivesEncoding json col type input := by
  obtain ⟨plain, required⟩ := type.plain
  have cell := toOption_scalarCell input col json type
  cases fitted : type.fits input.integer with
  | none =>
      rw [fitted] at cell
      obtain ⟨error, failed⟩ := encodeValue_of_none required input.value_ne_null cell
      have outside : ¬ type.InRange input.integer := by
        intro inside
        rw [IntegerType.fits_eq_some_iff.mpr ⟨inside, rfl⟩] at fitted
        cases fitted
      rw [← plain] at failed
      constructor
      · rw [failed]
        exact ⟨fun ok => absurd ok Bool.false_ne_true, fun inside => absurd inside outside⟩
      · intro inside
        exact absurd inside outside
  | some found =>
      obtain ⟨inside, rfl⟩ := IntegerType.fits_eq_some_iff.mp fitted
      rw [fitted] at cell
      have encoded := encodeValue_of_some required input.value_ne_null cell
      rw [← plain] at encoded
      constructor
      · rw [encoded]
        exact ⟨fun _ => inside, fun _ => rfl⟩
      · intro _
        rw [encoded]
        exact rowbinaryToJson_intLe inside

/-- An integer's low byte, and then the rest of it. -/
theorem intLe_succ (width : Nat) (value : Int) :
    intLe (width + 1) value = UInt8.ofNat (value % 256).toNat :: intLe width (value / 256) := by
  have modulus (width : Nat) : ((2 ^ (8 * width) : Nat) : Int) = 256 ^ width := by
    rw [two_pow_eight_mul, Nat.cast_pow]
    rfl
  have positive : (0 : Int) < 256 ^ width := Int.pow_pos (by decide)
  obtain ⟨whole, same⟩ := Int.eq_ofNat_of_zero_le
    (Int.emod_nonneg value (Int.ne_of_gt (Int.mul_pos (by decide : (0 : Int) < 256) positive)))
  have low : ((whole % 256 : Nat) : Int) = value % 256 := by
    rw [Int.natCast_mod, ← same]
    exact Int.emod_emod_of_dvd value (Int.dvd_mul_right 256 _)
  have high : ((whole / 256 : Nat) : Int) = value / 256 % 256 ^ width := by
    rw [Int.natCast_ediv, ← same, Int.emod_def, Int.mul_assoc]
    rw [show ((256 : Nat) : Int) = 256 from rfl, Int.sub_mul_ediv_left _ _ (by decide),
      Int.emod_def, Int.ediv_ediv_of_nonneg (by decide)]
  have byte : UInt8.ofNat whole = UInt8.ofNat (value % 256).toNat := by
    apply UInt8.toNat.inj
    rw [← low, Int.toNat_natCast, UInt8.toNat_ofNat', UInt8.toNat_ofNat', Nat.mod_mod]
  rw [intLe, intLe, scalarBytes, scalarBytes, BitVec.toNat_ofInt, BitVec.toNat_ofInt, modulus,
    modulus, pow_succ', same, ← high, Int.toNat_natCast, Int.toNat_natCast, natLe, byte]

/-- The bytes past a range that holds the integer repeat its sign. -/
theorem intLe_append (narrow wide : Nat) {value : Int} (least : -256 ^ narrow ≤ value)
    (greatest : value < 256 ^ narrow) :
    intLe (narrow + wide) value =
      intLe narrow value ++ List.replicate wide (if value < 0 then 0xFF else 0) := by
  induction narrow generalizing value with
  | zero =>
      have sign : value = 0 ∨ value = -1 := by omega
      rw [Nat.zero_add]
      have nothing : intLe 0 value = [] := rfl
      rw [nothing, List.nil_append]
      induction wide with
      | zero => exact nothing
      | succ wide ih =>
          have rest : value / 256 = value := by omega
          rw [intLe_succ, rest, ih, List.replicate_succ]
          cases sign with
          | inl zero =>
              subst zero
              rfl
          | inr minus =>
              subst minus
              rfl
  | succ narrow ih =>
      have sign : value / 256 < 0 ↔ value < 0 := by omega
      rw [Nat.succ_add, intLe_succ, intLe_succ, ih (by omega) (by omega), List.cons_append]
      simp only [sign]

theorem i128ToI256Le_eq {value : Int} (least : -2 ^ 127 ≤ value) (greatest : value < 2 ^ 127) :
    i128ToI256Le value = intLe 32 value :=
  (intLe_append 16 16 (by omega) (by omega)).symm

theorem u128ToU256Le_eq {value : Int} (least : 0 ≤ value) (greatest : value < 2 ^ 128) :
    u128ToU256Le value = intLe 32 value := by
  have extended := @intLe_append 16 16 value (by omega) (by omega)
  rw [if_neg (Int.not_lt.mpr least)] at extended
  exact extended.symm

/-- Thirty-two hexadecimal digits in the groups of a UUID. -/
def hyphenated (digits : Text) : Text :=
  digits.take 8 ++ '-' :: (digits.drop 8).take 4 ++ '-' :: (digits.drop 12).take 4 ++
    '-' :: (digits.drop 16).take 4 ++ '-' :: digits.drop 20

/-- The digits of a UUID, the leading one first. -/
structure UuidDigits where
  digits : List (Fin 16)
  sized : digits.length = 32

/-- A digit in lower case. -/
def lowerHex (digit : Fin 16) : Char := Nat.digitChar digit.val

/-- The canonical text, in lower case. -/
def UuidDigits.text (uuid : UuidDigits) : String :=
  String.ofList (hyphenated (uuid.digits.map lowerHex))

@[simp]
theorem hexDigit_lowerHex (digit : Fin 16) : hexDigit (lowerHex digit) = some digit.val := by
  revert digit
  decide

theorem filterMap_hyphenated (digits : Text) :
    (hyphenated digits).filterMap hexDigit = digits.filterMap hexDigit := by
  have skipped (rest : Text) : ('-' :: rest).filterMap hexDigit = rest.filterMap hexDigit := rfl
  have pieces : digits = digits.take 8 ++ (digits.drop 8).take 4 ++ (digits.drop 12).take 4 ++
      (digits.drop 16).take 4 ++ digits.drop 20 := by
    simp only [← List.take_add, List.take_append_drop]
  conv => rhs; rw [pieces]
  simp only [hyphenated, List.filterMap_append, skipped]

@[simp] theorem digitsNumber_append (radix : Nat) (front : List Nat) (last : Nat) :
    digitsNumber radix (front ++ [last]) = digitsNumber radix front * radix + last :=
  List.foldl_concat ..

theorem digitsNumber_lt (digits : List (Fin 16)) :
    digitsNumber 16 (digits.map Fin.val) < 16 ^ digits.length := by
  induction digits using List.reverseRecOn with
  | nil => decide
  | append_singleton front last ih =>
      have small := last.isLt
      rw [List.map_append, List.map_singleton, digitsNumber_append, List.length_append,
        List.length_singleton, pow_succ]
      omega

/-- Digits are the text of their number, padded to their length. -/
theorem toList_hexText {digits : List (Fin 16)} (present : digits ≠ []) :
    (hexText digits.length (digitsNumber 16 (digits.map Fin.val))).toList =
      digits.map lowerHex := by
  rw [hexText, String.toList_ofList]
  induction digits using List.reverseRecOn with
  | nil => exact absurd rfl present
  | append_singleton front last ih =>
      have shown := Nat.toDigits_of_lt_base last.isLt
      rw [List.map_append, List.map_singleton, digitsNumber_append, List.map_append,
        List.map_singleton, List.length_append, List.length_singleton]
      by_cases alone : front = []
      · subst alone
        have zero : digitsNumber 16 (([] : List (Fin 16)).map Fin.val) * 16 + last.val = last.val :=
          Nat.zero_add _
        rw [zero, shown]
        rfl
      · have padded := ih alone
        by_cases zero : digitsNumber 16 (front.map Fin.val) = 0
        · -- The zeros before the last digit are padding.
          rw [zero, Nat.toDigits_zero, List.length_singleton, ← List.replicate_succ',
            Nat.sub_add_cancel (List.length_pos_iff.mpr alone)] at padded
          rw [zero, Nat.zero_mul, Nat.zero_add, shown, List.length_singleton,
            Nat.add_sub_cancel, padded]
          rfl
        · rw [Nat.mul_comm, ← Nat.toDigits_append_toDigits (by decide) (Nat.pos_of_ne_zero zero)
            last.isLt, shown, List.length_append, List.length_singleton, Nat.add_sub_add_right,
            ← List.append_assoc, padded]
          rfl

theorem toList_hexText_leNat {digits : List (Fin 16)} (sized : digits.length = 16) :
    (hexText 16 (leNat (natLe 8 (digitsNumber 16 (digits.map Fin.val))))).toList =
      digits.map lowerHex := by
  have small := digitsNumber_lt digits
  rw [sized] at small
  have present : digits ≠ [] := by
    intro empty
    rw [empty] at sized
    cases sized
  have shown := toList_hexText present
  rw [sized] at shown
  rw [leNat_natLe_of_lt small, shown]

/-- The bytes a canonical text is written as. -/
def UuidDigits.bytes (uuid : UuidDigits) : Bytes :=
  natLe 8 (digitsNumber 16 ((uuid.digits.take 16).map Fin.val)) ++
    natLe 8 (digitsNumber 16 ((uuid.digits.drop 16).map Fin.val))

@[simp] theorem uuidBytes_text (json : JsonText) (uuid : UuidDigits) (col : String) :
    uuidBytes json (.string uuid.text) col = .ok uuid.bytes := by
  have read : (valueToStr json (.string uuid.text)).toList.filterMap hexDigit =
      uuid.digits.map Fin.val := by
    rw [valueToStr, UuidDigits.text, String.toList_ofList, filterMap_hyphenated, List.filterMap_map]
    have each : hexDigit ∘ lowerHex = fun digit : Fin 16 => some digit.val :=
      funext hexDigit_lowerHex
    rw [each, ← List.filterMap_eq_map]
    rfl
  rw [uuidBytes, read, if_neg]
  · rw [UuidDigits.bytes, List.map_take, List.map_drop]
  · rw [List.length_map, uuid.sized]
    exact fun different => different rfl

@[simp] theorem uuidText_bytes (uuid : UuidDigits) : uuidText uuid.bytes = uuid.text := by
  have front : uuid.bytes.take 8 = natLe 8 (digitsNumber 16 ((uuid.digits.take 16).map Fin.val)) :=
    List.take_left' (length_natLe ..)
  have back : uuid.bytes.drop 8 = natLe 8 (digitsNumber 16 ((uuid.digits.drop 16).map Fin.val)) :=
    List.drop_left' (length_natLe ..)
  have high : (uuid.digits.take 16).length = 16 := by
    rw [List.length_take, uuid.sized]
    rfl
  have low : (uuid.digits.drop 16).length = 16 := by
    rw [List.length_drop, uuid.sized]
  have digits : (hexText 16 (leNat (uuid.bytes.take 8)) ++
      hexText 16 (leNat (uuid.bytes.drop 8))).toList = uuid.digits.map lowerHex := by
    rw [front, back, String.toList_append, toList_hexText_leNat high, toList_hexText_leNat low,
      ← List.map_append, List.take_append_drop]
  rw [uuidText, digits, UuidDigits.text, hyphenated]

theorem encodeValue_int256 (json : JsonText) (least : -2 ^ 127 ≤ input.integer)
    (greatest : input.integer < 2 ^ 127) :
    encodeValue json col (ParsedType.parse "Int256") input.value =
      ⟨intLe 32 input.integer, .ok ()⟩ := by
  have wide := toOption_asI128 input col
  rw [fitsSigned_eq_some_iff.mpr ⟨⟨least, greatest⟩, rfl⟩] at wide
  apply encodeValue_of_some rfl input.value_ne_null
  have cell : (do return i128ToI256Le (← asI128 input.value col) :
      Except DynamicError Bytes).toOption = (asI128 input.value col).toOption.map i128ToI256Le := by
    cases asI128 input.value col <;> rfl
  rw [wide, Option.map_some, i128ToI256Le_eq least greatest] at cell
  exact cell

theorem encodeValue_uInt256 (json : JsonText) (least : 0 ≤ input.integer)
    (greatest : input.integer < 2 ^ 128) :
    encodeValue json col (ParsedType.parse "UInt256") input.value =
      ⟨intLe 32 input.integer, .ok ()⟩ := by
  have wide := toOption_asU128 input col
  rw [fitsUnsigned_eq_some_iff.mpr ⟨⟨least, greatest⟩, rfl⟩] at wide
  apply encodeValue_of_some rfl input.value_ne_null
  have cell : (do return u128ToU256Le (← asU128 input.value col) :
      Except DynamicError Bytes).toOption = (asU128 input.value col).toOption.map u128ToU256Le := by
    cases asU128 input.value col <;> rfl
  rw [wide, Option.map_some, u128ToU256Le_eq least greatest] at cell
  exact cell

theorem encodeValue_uuid (json : JsonText) (uuid : UuidDigits) :
    encodeValue json col (ParsedType.parse "UUID") (.string uuid.text) = ⟨uuid.bytes, .ok ()⟩ := by
  apply encodeValue_of_some rfl
  · exact fun same => nomatch same
  · have cell := congrArg Except.toOption (uuidBytes_text json uuid col)
    exact cell

@[simp] theorem UuidDigits.length_bytes (uuid : UuidDigits) : uuid.bytes.length = 16 := by
  rw [bytes, List.length_append, length_natLe, length_natLe]

theorem rowbinaryToJson_uuid (uuid : UuidDigits) :
    rowbinaryToJson uuid.bytes .uuid = quotedText uuid.text := by
  rw [rowbinaryToJson_fixed rfl uuid.length_bytes, uuidText_bytes]

/-- What the dynamic encoder writes of a scalar is the scalar. -/
structure ScalarsSurvive (json : JsonText) (col : String) : Prop where
  integer : ∀ type input, SurvivesEncoding json col type input
  int256 : ∀ input : IntegerInput, -2 ^ 127 ≤ input.integer → input.integer < 2 ^ 127 →
    encodeValue json col (ParsedType.parse "Int256") input.value =
      ⟨intLe 32 input.integer, .ok ()⟩
  uInt256 : ∀ input : IntegerInput, 0 ≤ input.integer → input.integer < 2 ^ 128 →
    encodeValue json col (ParsedType.parse "UInt256") input.value =
      ⟨intLe 32 input.integer, .ok ()⟩
  uuid : ∀ uuid : UuidDigits, ∃ bytes,
    encodeValue json col (ParsedType.parse "UUID") (.string uuid.text) = ⟨bytes, .ok ()⟩ ∧
      bytes.length = 16 ∧ rowbinaryToJson bytes .uuid = quotedText uuid.text

theorem scalarsSurvive (json : JsonText) (col : String) : ScalarsSurvive json col where
  integer type input := survivesEncoding input col json type
  int256 input := encodeValue_int256 input col json
  uInt256 input := encodeValue_uInt256 input col json
  uuid uuid :=
    ⟨uuid.bytes, encodeValue_uuid col json uuid, uuid.length_bytes, rowbinaryToJson_uuid uuid⟩

end DfeClickhouse.Dynamic
