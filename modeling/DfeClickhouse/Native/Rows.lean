import DfeClickhouse.Native.DecodedColumn

/-!
# Rows of decoded columns

What a decoded column says about one row: its `RowBinary` encoding, with offsets,
null masks and dictionary indices resolved.  This is the meaning against which the
readers and the encoder are compared.
-/

namespace DfeClickhouse.Native.DecodedColumn

open Library

/-- The dictionary index a row of an index column holds. -/
def index : DecodedColumn → Nat → Option Nat
  | uInt8 values, row => (values[row]?).map BitVec.toNat
  | uInt16 values, row => (values[row]?).map BitVec.toNat
  | uInt32 values, row => (values[row]?).map BitVec.toNat
  | uInt64 values, row => (values[row]?).map BitVec.toNat
  | _, _ => none

/-- The row a span of elements makes: their count and their encodings. -/
def spanCell (element : Nat → Option Bytes) (offsets : List Nat) (row : Nat) :
    Option Bytes := do
  let start ← (0 :: offsets)[row]?
  let stop ← offsets[row]?
  let cells ← (List.range' start (stop - start)).mapM element
  some (encodeVarUint (stop - start) ++ cells.flatten)

/-- The encodings of a key and its value, one after the other. -/
def pairCell (key value : Nat → Option Bytes) (row : Nat) : Option Bytes := do
  let keyCell ← key row
  let valueCell ← value row
  some (keyCell ++ valueCell)

mutual

/-- The `RowBinary` encoding of one row; `none` past the end and for columns
without typed values. -/
def cell : DecodedColumn → Nat → Option Bytes
  | uInt8 values, row | int8 values, row => (values[row]?).map (scalarBytes 1)
  | uInt16 values, row | int16 values, row | date values, row =>
      (values[row]?).map (scalarBytes 2)
  | uInt32 values, row | int32 values, row | float32 values, row | date32 values, row
  | dateTime values, row | ipv4 values, row => (values[row]?).map (scalarBytes 4)
  | uInt64 values, row | int64 values, row | float64 values, row =>
      (values[row]?).map (scalarBytes 8)
  | int128 values, row | uInt128 values, row => (values[row]?).map (scalarBytes 16)
  | decimal32 _ _ values, row => (values[row]?).map (scalarBytes 4)
  | decimal64 _ _ values, row => (values[row]?).map (scalarBytes 8)
  | decimal128 _ _ values, row => (values[row]?).map (scalarBytes 16)
  | dateTime64 _ _ values, row => (values[row]?).map (scalarBytes 8)
  | int256 values, row | uInt256 values, row | uuid values, row | ipv6 values, row =>
      values[row]?
  | decimal256 _ _ values, row => values[row]?
  | string values, row | json values, row => (values[row]?).map putString
  | fixedString width bytes, row =>
      if (row + 1) * width ≤ bytes.length then
        some ((bytes.drop (row * width)).take width)
      else
        none
  | nullable mask child, row =>
      match mask[row]? with
      | none => none
      | some flag => if flag ≠ 0 then some [1] else (cell child row).map (0 :: ·)
  | array offsets child, row => spanCell (fun element => cell child element) offsets row
  | lowCardinality dict indices isNullableInner, row =>
      match indices.index row with
      | none => none
      | some slot =>
          if isNullableInner then
            if slot = 0 then some [1] else (cell dict slot).map (0 :: ·)
          else
            cell dict slot
  | tuple fields, row => fieldCells fields row
  | map offsets keys values, row =>
      spanCell (pairCell (fun element => cell keys element) (fun element => cell values element))
        offsets row
  | unsupported _, _ => none

/-- The encodings of one row of all tuple fields, in field order. -/
def fieldCells : List DecodedColumn → Nat → Option Bytes
  | [], _ => some []
  | field :: fields, row => do
      let fieldCell ← cell field row
      let rest ← fieldCells fields row
      some (fieldCell ++ rest)

end

mutual

/-- Every dictionary index, at any nesting, is below the row count of its
dictionary or is the NULL index 0. -/
def IndicesResolve : DecodedColumn → Prop
  | nullable _ child => IndicesResolve child
  | array _ child => IndicesResolve child
  | lowCardinality dict indices isNullableInner =>
      IndicesResolve dict ∧ ∀ row slot, indices.index row = some slot →
        slot < dict.rowCount ∨ (isNullableInner = true ∧ slot = 0)
  | tuple fields => FieldsResolve fields
  | map _ keys values => IndicesResolve keys ∧ IndicesResolve values
  | _ => True

/-- Every dictionary index of all tuple fields resolves. -/
def FieldsResolve : List DecodedColumn → Prop
  | [] => True
  | field :: fields => IndicesResolve field ∧ FieldsResolve fields

end

end DfeClickhouse.Native.DecodedColumn
