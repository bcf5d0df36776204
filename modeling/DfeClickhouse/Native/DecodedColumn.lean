import DfeClickhouse.Native.ColumnType
import DfeClickhouse.Native.Io

/-!
# Decoded columns

The typed columns of a decoded block, their row counts and the scatter that
expands a sparsely serialised column.  Numbers are the bit patterns of their Rust
types, and 16 and 32 byte values the raw bytes.
-/

namespace DfeClickhouse.Native

open Library

/-- One column of a decoded block. -/
inductive DecodedColumn
  | uInt8 (values : List (BitVec 8))
  | uInt16 (values : List (BitVec 16))
  | uInt32 (values : List (BitVec 32))
  | uInt64 (values : List (BitVec 64))
  | int8 (values : List (BitVec 8))
  | int16 (values : List (BitVec 16))
  | int32 (values : List (BitVec 32))
  | int64 (values : List (BitVec 64))
  | int128 (values : List (BitVec 128))
  | uInt128 (values : List (BitVec 128))
  | int256 (values : List Bytes)
  | uInt256 (values : List Bytes)
  | float32 (values : List (BitVec 32))
  | float64 (values : List (BitVec 64))
  | decimal32 (precision scale : Nat) (values : List (BitVec 32))
  | decimal64 (precision scale : Nat) (values : List (BitVec 64))
  | decimal128 (precision scale : Nat) (values : List (BitVec 128))
  | decimal256 (precision scale : Nat) (values : List Bytes)
  | string (values : List Bytes)
  | json (values : List Bytes)
  | fixedString (width : Nat) (bytes : Bytes)
  | date (values : List (BitVec 16))
  | date32 (values : List (BitVec 32))
  | dateTime (values : List (BitVec 32))
  | dateTime64 (precision : Nat) (timezone : Option String) (values : List (BitVec 64))
  | uuid (values : List Bytes)
  | ipv4 (values : List (BitVec 32))
  | ipv6 (values : List Bytes)
  | nullable (mask : Bytes) (child : DecodedColumn)
  | array (offsets : List Nat) (child : DecodedColumn)
  | lowCardinality (dict indices : DecodedColumn) (isNullableInner : Bool)
  | tuple (fields : List DecodedColumn)
  | map (offsets : List Nat) (keys values : DecodedColumn)
  | unsupported (text : String)
  deriving Inhabited

namespace DecodedColumn

/-- The number of rows a column carries; a composite counts its outer rows. -/
def rowCount : DecodedColumn → Nat
  | uInt8 values | int8 values => values.length
  | uInt16 values | int16 values | date values => values.length
  | uInt32 values | int32 values | float32 values | date32 values | dateTime values
  | ipv4 values => values.length
  | uInt64 values | int64 values | float64 values => values.length
  | int128 values | uInt128 values => values.length
  | int256 values | uInt256 values | uuid values | ipv6 values | string values
  | json values => values.length
  | decimal32 _ _ values => values.length
  | decimal64 _ _ values => values.length
  | decimal128 _ _ values => values.length
  | decimal256 _ _ values => values.length
  | dateTime64 _ _ values => values.length
  | fixedString width bytes => if width = 0 then 0 else bytes.length / width
  | nullable mask _ => mask.length
  | array offsets _ => offsets.length
  | lowCardinality _ indices _ => indices.rowCount
  | tuple [] => 0
  | tuple (field :: _) => field.rowCount
  | map offsets _ _ => offsets.length
  | unsupported _ => 0

/-- A column's name in an error message. -/
def typeLabel : DecodedColumn → String
  | nullable .. => "a Nullable column"
  | array .. => "an Array column"
  | lowCardinality .. => "a LowCardinality column"
  | tuple _ => "a Tuple column"
  | map .. => "a Map column"
  | unsupported _ => "an unsupported column"
  | _ => "this column"

/-- Write each value to its position in a full-length column of defaults. -/
def scatterValues {α : Type} (values : List α) (positions : List Nat) (numRows : Nat)
    (default : α) : List α :=
  (values.zip positions).foldl (fun column (value, row) => column.set row value)
    (List.replicate numRows default)

/-- Overwrite `width` bytes of a buffer from a byte offset on. -/
def copyInto (buffer : Bytes) (offset : Nat) (slice : Bytes) : Bytes :=
  buffer.take offset ++ slice ++ buffer.drop (offset + slice.length)

/-- Scatter a sparsely serialised column back to its full length. -/
def expandSparse (column : DecodedColumn) (positions : List Nat) (numRows : Nat) :
    Except Error DecodedColumn :=
  if column.rowCount ≠ positions.length then
    .error (.badResponse ("native: sparse column has " ++ toString column.rowCount ++
      " values for " ++ toString positions.length ++ " positions"))
  else match positions.find? fun position => numRows ≤ position with
  | some past =>
      .error (.badResponse ("native: sparse position " ++ toString past ++
        " is past the block's " ++ toString numRows ++ " rows"))
  | none =>
      let scatter {α : Type} (values : List α) (default : α) :=
        scatterValues values positions numRows default
      match column with
      | uInt8 values => .ok (uInt8 (scatter values 0))
      | uInt16 values => .ok (uInt16 (scatter values 0))
      | uInt32 values => .ok (uInt32 (scatter values 0))
      | uInt64 values => .ok (uInt64 (scatter values 0))
      | int8 values => .ok (int8 (scatter values 0))
      | int16 values => .ok (int16 (scatter values 0))
      | int32 values => .ok (int32 (scatter values 0))
      | int64 values => .ok (int64 (scatter values 0))
      | int128 values => .ok (int128 (scatter values 0))
      | uInt128 values => .ok (uInt128 (scatter values 0))
      | int256 values => .ok (int256 (scatter values (List.replicate 32 0)))
      | uInt256 values => .ok (uInt256 (scatter values (List.replicate 32 0)))
      | float32 values => .ok (float32 (scatter values 0))
      | float64 values => .ok (float64 (scatter values 0))
      | string values => .ok (string (scatter values []))
      | json values => .ok (json (scatter values []))
      | date values => .ok (date (scatter values 0))
      | date32 values => .ok (date32 (scatter values 0))
      | dateTime values => .ok (dateTime (scatter values 0))
      | ipv4 values => .ok (ipv4 (scatter values 0))
      | uuid values => .ok (uuid (scatter values (List.replicate 16 0)))
      | ipv6 values => .ok (ipv6 (scatter values (List.replicate 16 0)))
      | decimal32 precision scale values => .ok (decimal32 precision scale (scatter values 0))
      | decimal64 precision scale values => .ok (decimal64 precision scale (scatter values 0))
      | decimal128 precision scale values => .ok (decimal128 precision scale (scatter values 0))
      | decimal256 precision scale values =>
          .ok (decimal256 precision scale (scatter values (List.replicate 32 0)))
      | dateTime64 precision timezone values =>
          .ok (dateTime64 precision timezone (scatter values 0))
      | fixedString width bytes =>
          if numRows * width < 2 ^ 64 then
            .ok (fixedString width (positions.zipIdx.foldl
              (fun out (row, index) =>
                copyInto out (row * width) ((bytes.drop (index * width)).take width))
              (List.replicate (numRows * width) 0)))
          else
            .error (.badResponse "native: sparse FixedString byte length overflows usize")
      | nullable .. | array .. | lowCardinality .. | tuple _ | map .. | unsupported _ =>
          .error (.badResponse ("native: " ++ column.typeLabel ++ " cannot be sparse-serialised"))

end DecodedColumn

end DfeClickhouse.Native
