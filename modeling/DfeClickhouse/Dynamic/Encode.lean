import DfeClickhouse.Dynamic.Coercion
import DfeClickhouse.Library.Writer
import DfeClickhouse.Native.Io

/-!
# The dynamic encoder

`DynamicRow::encode_into` writes a JSON object as `RowBinary` cells, one for each
column.  A value that cannot be encoded fails the row; what was written before it
stays in the buffer.
-/

namespace DfeClickhouse.Dynamic

open Library
open Native (putString encodeVarUint)

/-- The key a root-level JSON array is stored under. -/
def jsonArrayWrapperKey : String := "_values"

/-- A resolved column of a dynamic insert. -/
structure ColumnDef where
  name : String
  ty : ParsedType
  /-- Default kind from `system.columns`. -/
  defaultKind : String := ""
  /-- Whether the server has a default and the column may be left out. -/
  hasDefault : Bool := false

/-- A required column. -/
def ColumnDef.new (name typeString : String) : ColumnDef :=
  { name := name, ty := .parse typeString }

@[simp] theorem ColumnDef.new_name (name typeString : String) :
    (ColumnDef.new name typeString).name = name := rfl

@[simp] theorem ColumnDef.new_ty (name typeString : String) :
    (ColumnDef.new name typeString).ty = .parse typeString := rfl

/-- A column with its default kind, left out of inserts when there is one. -/
def ColumnDef.withDefaultKind (name typeString defaultKind : String) : ColumnDef :=
  { ColumnDef.new name typeString with
    defaultKind := defaultKind
    hasDefault := !defaultKind.isEmpty }

/-- Appends to the block's buffer. -/
abbrev CellWriter := Library.Writer UInt8 DynamicError Unit

def unsupported (col : String) (info : TypeInfo) : DynamicError :=
  .unsupportedType col (String.ofList info.raw)

/-- The little-endian bytes of an integer in two's complement. -/
def intLe (width : Nat) (value : Int) : Bytes :=
  scalarBytes width (BitVec.ofInt (8 * width) value)

/-- Sign-extend 128 bits to 256. -/
def i128ToI256Le (value : Int) : Bytes :=
  intLe 16 value ++ List.replicate 16 (if value < 0 then 0xFF else 0)

/-- Zero-extend 128 bits to 256. -/
def u128ToU256Le (value : Int) : Bytes :=
  intLe 16 value ++ List.replicate 16 0

/-- The backing width of a decimal, told by its precision. -/
def decimalTagForPrecision (precision : Nat) : TypeTag :=
  if precision ≤ 9 then .decimal32
  else if precision ≤ 18 then .decimal64
  else if precision ≤ 38 then .decimal128
  else .decimal256

/-- The tag a type is encoded by: a bare `Decimal(P, S)` has none of its own. -/
def encodingTag (info : TypeInfo) : TypeTag :=
  if info.base = "Decimal".toList then decimalTagForPrecision (info.precision.getD 38)
  else info.tag

/-- A text padded to the width of a fixed string; a longer one fails. -/
def fixedStringBytes (width : Nat) (bytes : Bytes) (col : String) : Except DynamicError Bytes :=
  if width < bytes.length then
    encErr col ("FixedString(" ++ toString width ++ ") value out of range: " ++
      toString bytes.length ++ " bytes")
  else
    .ok (bytes ++ List.replicate (width - bytes.length) 0)

/-- An integer of a column, narrowed to its width. -/
def narrowed (width : Nat) (wide : Except DynamicError Int) (fits : Nat → Int → Option Int)
    (col typeName : String) : Except DynamicError Bytes := do
  let value ← wide
  let value ← narrow (fits (8 * width)) value col typeName
  return intLe width value

/-- An integer that must fit, with an error text of its own. -/
def checked (width : Nat) (wide : Except DynamicError Int) (fits : Nat → Int → Option Int)
    (col message : String) : Except DynamicError Bytes := do
  let value ← wide
  let value ← orErr col message (fits (8 * width) value)
  return intLe width value

theorem checked_ok_iff {width : Nat} {value : Int} {col message : String} {bytes : Bytes} :
    checked width (.ok value) fitsSigned col message = .ok bytes ↔
      (-2 ^ (8 * width - 1) ≤ value ∧ value < 2 ^ (8 * width - 1)) ∧
        bytes = intLe width value := by
  simp only [checked, bind, Except.bind, fitsSigned]
  by_cases fits : -2 ^ (8 * width - 1) ≤ value ∧ value < 2 ^ (8 * width - 1)
  · rw [if_pos fits, and_iff_right fits, eq_comm]
    exact Except.ok.injEq _ _ |>.to_iff
  · rw [if_neg fits]
    exact iff_of_false (fun same => nomatch same) fun both => fits both.1

/-- The JSON text of a value. -/
def jsonText (json : JsonText) : Value → String
  | .null => "null"
  | .bool value => boolText value
  | .number number => number.text json
  | other => json.compound other

/-- Wrap a root-level array into an object. -/
def wrapRootArray (json : JsonText) (array : Value) : Bytes :=
  utf8 "\x7b\"" ++ utf8 jsonArrayWrapperKey ++ utf8 "\":" ++ utf8 (jsonText json array) ++
    utf8 "\x7d"

/-- The document of a JSON column: missing and empty values are the empty object. -/
def jsonDocument (json : JsonText) : Value → Bytes
  | .null => utf8 "\x7b\x7d"
  | .string text => if text.isEmpty then utf8 "\x7b\x7d" else utf8 text
  | .array items => wrapRootArray json (.array items)
  | other => utf8 (jsonText json other)

def float32Bytes (value : Value) (col : String) : Except DynamicError Bytes := do
  let wide ← asF64 value col
  if Binary64.isInfinite32 wide.toBinary32 && wide.isFinite then
    encErr col "Float32 value out of range"
  else
    return scalarBytes 4 wide.toBinary32

/-- The cell of a value that is not NULL, for the types without a type below. -/
def scalarCell (json : JsonText) (info : TypeInfo) (value : Value) (col : String) :
    Except DynamicError Bytes :=
  let backing := decimalBackingI128 json value (info.scale.getD 0) col
  match encodingTag info with
  | .string => .ok (putString (utf8 (valueToStr json value)))
  | .fixedString => fixedStringBytes (info.fixedSize.getD 1) (utf8 (valueToStr json value)) col
  | .bool => do return [if ← asBool value col then 1 else 0]
  | .uInt8 => narrowed 1 (asU64 value col) fitsUnsigned col "UInt8"
  | .uInt16 => narrowed 2 (asU64 value col) fitsUnsigned col "UInt16"
  | .uInt32 => narrowed 4 (asU64 value col) fitsUnsigned col "UInt32"
  | .uInt64 => do return intLe 8 (← asU64 value col)
  | .uInt128 => do return intLe 16 (← asU128 value col)
  | .uInt256 => do return u128ToU256Le (← asU128 value col)
  | .int8 => narrowed 1 (asI64 value col) fitsSigned col "Int8"
  | .int16 => narrowed 2 (asI64 value col) fitsSigned col "Int16"
  | .enum8 =>
      checked 1 (enumDiscriminant value info.raw col) fitsSigned col "Enum8 value out of range"
  | .enum16 =>
      checked 2 (enumDiscriminant value info.raw col) fitsSigned col "Enum16 value out of range"
  | .int32 => narrowed 4 (asI64 value col) fitsSigned col "Int32"
  | .int64 => do return intLe 8 (← asI64 value col)
  | .int128 => do return intLe 16 (← asI128 value col)
  | .int256 => do return i128ToI256Le (← asI128 value col)
  | .float32 => float32Bytes value col
  | .float64 => do return scalarBytes 8 (← asF64 value col)
  | .date =>
      checked 2 (toEpochDays value col) fitsUnsigned col "Date out of range for UInt16 days"
  | .date32 => do return intLe 4 (← toEpochDays value col)
  | .dateTime =>
      checked 4 (toEpochSeconds value col) fitsUnsigned col
        "DateTime out of range for UInt32 seconds"
  | .dateTime64 => do
      return intLe 8 (← datetime64ToTicks value (info.precision.getD 3) col)
  | .decimal32 => checked 4 backing fitsSigned col "Decimal32 overflow"
  | .decimal64 => checked 8 backing fitsSigned col "Decimal64 overflow"
  | .decimal128 => do return intLe 16 (← backing)
  | .decimal256 => do return i128ToI256Le (← backing)
  | .uuid => uuidBytes json value col
  | .iPv4 => ipv4Bytes json value col
  | .iPv6 => ipv6Bytes json value col
  | .array => encErr col "Array without element type"
  | .map => encErr col "Map without key/value types"
  | .json => .ok (putString (jsonDocument json value))
  | .point | .variant | .dynamic | .unknown => .error (unsupported col info)

/-- The width of the zeros a missing decimal is written as. -/
def decimalDefaultWidth (precision : Nat) : Nat :=
  match decimalTagForPrecision precision with
  | .decimal32 => 4
  | .decimal64 => 8
  | .decimal256 => 32
  | _ => 16

/-- The zero value of a column that is not nullable and has no value. -/
def defaultCell (info : TypeInfo) (col : String) : Except DynamicError Bytes :=
  if info.base = "Decimal".toList then
    .ok (List.replicate (decimalDefaultWidth (info.precision.getD 38)) 0)
  else
    match info.tag with
    | .json => .ok (putString (utf8 "\x7b\x7d"))
    | .point | .variant | .dynamic | .unknown => .error (unsupported col info)
    | _ =>
        match ParsedType.fixedByteSize info with
        | some size => .ok (List.replicate size 0)
        | none => .ok (encodeVarUint 0)

def writeDefault (info : TypeInfo) (col : String) : CellWriter := do
  let bytes ← Writer.ofExcept (defaultCell info col)
  Writer.put bytes

/-- A value behind its null flag, where there is one. -/
def encodeFlagged (info : TypeInfo) (col : String) (value : Value)
    (typed : Value → CellWriter) : CellWriter :=
  match info.nullable, value with
  | true, .null => Writer.put [1]
  | true, value => do
      Writer.put [0]
      typed value
  | false, .null => writeDefault info col
  | false, value => typed value

/-- An array: its length, then its items. -/
def encodeArray (col : String) (item : Value → CellWriter) : Value → CellWriter
  | .array items => do
      Writer.put (encodeVarUint items.length)
      Writer.each item items
  | _ => Writer.ofExcept (encErr col "expected array")

/-- A map: the number of its entries, then each key and value.  Only a text key can
be written from a JSON object. -/
def encodeMap (col : String) (key : TypeInfo) (value : Value → CellWriter) :
    Value → CellWriter
  | .object entries =>
      if key.tag ≠ .string ∨ key.nullable then
        Writer.fail (unsupported col key)
      else do
        Writer.put (encodeVarUint entries.length)
        Writer.each (fun entry => do
          Writer.put (putString (utf8 entry.1))
          value entry.2) entries
  | _ => Writer.ofExcept (encErr col "expected object for Map")

/-- Write a value of a type. -/
def encodeValue (json : JsonText) (col : String) : ParsedType → Value → CellWriter
  | .plain info, value =>
      encodeFlagged info col value fun value => do
        let bytes ← Writer.ofExcept (scalarCell json info value col)
        Writer.put bytes
  | .array info element, value =>
      encodeFlagged info col value (encodeArray col (encodeValue json col element))
  | .map info key val, value =>
      encodeFlagged info col value (encodeMap col key.info (encodeValue json col val))

/-- A JSON object, the columns it is encoded against, and the raw text of one named
column. -/
structure DynamicRow where
  row : List (String × Value)
  columns : List ColumnDef
  raw : Option (String × Bytes) := none

/-- The raw text of a column, if it is the one written from raw text. -/
def DynamicRow.rawFor (dynamicRow : DynamicRow) (col : ColumnDef) : Option Bytes :=
  match dynamicRow.raw with
  | some (name, bytes) => if name = col.name then some bytes else none
  | none => none

/-- Write the cell of a column. -/
def DynamicRow.encodeColumn (json : JsonText) (dynamicRow : DynamicRow) (col : ColumnDef) :
    CellWriter :=
  match dynamicRow.rawFor col with
  | some bytes => do
      Writer.put (if col.ty.info.nullable then [0] else [])
      Writer.put (putString bytes)
  | none =>
      encodeValue json col.name col.ty ((dynamicRow.row.lookup col.name).getD .null)

/-- Append a row's cells. -/
def DynamicRow.encodeInto (json : JsonText) (dynamicRow : DynamicRow) : CellWriter :=
  Writer.each (dynamicRow.encodeColumn json) dynamicRow.columns

end DfeClickhouse.Dynamic
