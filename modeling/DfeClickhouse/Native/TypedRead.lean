import DfeClickhouse.Library.Utf8
import DfeClickhouse.Native.DecodedShape
import DfeClickhouse.Native.Rows

/-!
# Typed reads

A column of a decoded block, read as values of one Rust type.  A route reads the backing
of a wire type, and a block that was decoded has one value for every row, the one that is
in its cell.
-/

namespace DfeClickhouse.Native

open Library

/-- The Rust types a column reads as. -/
inductive Target
  | u8
  | u16
  | u32
  | u64
  | u128
  | i8
  | i16
  | i32
  | i64
  | i128
  | f32
  | f64
  /-- `[u8; 32]` -/
  | block32
  /-- `[u8; 16]` -/
  | block16
  | bool
  | string
  /-- `Vec<u8>` -/
  | bytes
  | option (inner : Target)

namespace Target

/-- Numbers are the bit patterns of their Rust types. -/
def Value : Target → Type
  | u8 | i8 => BitVec 8
  | u16 | i16 => BitVec 16
  | u32 | i32 | f32 => BitVec 32
  | u64 | i64 | f64 => BitVec 64
  | u128 | i128 => BitVec 128
  | block32 | block16 | bytes => Bytes
  | bool => Bool
  | string => String
  | option inner => Option inner.Value

end Target

def wrongType (name typeName expected : String) : Error :=
  .schemaMismatch ("native: column '" ++ name ++ "' is " ++ typeName ++
    ", which does not read as " ++ expected)

/-- The route of a type whose columns hold its values as they are. -/
def fromColumnBacking {α : Type} (label : String) (backing : DecodedColumn → Option (List α))
    (column : DecodedColumn) (name typeName : String) : Except Error (List α) :=
  match backing column with
  | some values => .ok values
  | none => .error (wrongType name typeName label)

/-- A `String` value as text. -/
def textValue (value : Bytes) : Except Error String :=
  match fromUtf8 value with
  | some text => .ok text
  | none => .error (.invalidUtf8Encoding (utf8ErrorText value))

namespace Target

/-- Convert every value of a column. -/
def fromColumn :
    (target : Target) → DecodedColumn → String → String → Except Error (List target.Value)
  | u8 => fromColumnBacking "UInt8" fun
      | .uInt8 values => some values
      | _ => none
  | u16 => fromColumnBacking "UInt16" fun
      | .uInt16 values | .date values => some values
      | _ => none
  | u32 => fromColumnBacking "UInt32" fun
      | .uInt32 values | .dateTime values | .ipv4 values => some values
      | _ => none
  | u64 => fromColumnBacking "UInt64" fun
      | .uInt64 values => some values
      | _ => none
  | u128 => fromColumnBacking "UInt128" fun
      | .uInt128 values => some values
      | _ => none
  | i8 => fromColumnBacking "Int8" fun
      | .int8 values => some values
      | _ => none
  | i16 => fromColumnBacking "Int16" fun
      | .int16 values => some values
      | _ => none
  | i32 => fromColumnBacking "Int32" fun
      | .int32 values | .date32 values | .decimal32 _ _ values => some values
      | _ => none
  | i64 => fromColumnBacking "Int64" fun
      | .int64 values | .dateTime64 _ _ values | .decimal64 _ _ values => some values
      | _ => none
  | i128 => fromColumnBacking "Int128" fun
      | .int128 values | .decimal128 _ _ values => some values
      | _ => none
  | f32 => fromColumnBacking "Float32" fun
      | .float32 values => some values
      | _ => none
  | f64 => fromColumnBacking "Float64" fun
      | .float64 values => some values
      | _ => none
  | block32 => fromColumnBacking "a 256-bit column" fun
      | .int256 values | .uInt256 values | .decimal256 _ _ values => some values
      | _ => none
  | block16 => fromColumnBacking "a 16-byte column" fun
      | .uuid values | .ipv6 values => some values
      | _ => none
  | bool => fun
      | .uInt8 values, _, _ => .ok (values.map fun byte => decide (byte ≠ 0))
      | _, name, typeName => .error (wrongType name typeName "Bool")
  | string => fun
      | .string values, _, _ | .json values, _, _ => values.mapM textValue
      | _, name, typeName => .error (wrongType name typeName "String")
  | bytes => fromColumnBacking "String" fun
      | .string values | .json values => some values
      | _ => none
  | option inner => fun
      | .nullable mask child, name, typeName => do
          let values ← inner.fromColumn child name typeName
          return (mask.zip values).map fun (isNull, value) =>
            if isNull = 0 then some value else none
      | _, name, typeName => .error (wrongType name typeName "a Nullable column")

/-- The value is the one a cell of a nullable column encodes. -/
def OptionEncodes {α : Type} (encodes : α → Bytes → Prop) : Option α → Bytes → Prop
  | none, cell => cell = [1]
  | some value, cell => ∃ rest, cell = 0 :: rest ∧ encodes value rest

/-- The value is the one a cell encodes.  Any non-zero byte is true. -/
def Encodes : (target : Target) → target.Value → Bytes → Prop
  | u8, value, cell | i8, value, cell => cell = scalarBytes 1 (value : BitVec 8)
  | u16, value, cell | i16, value, cell => cell = scalarBytes 2 (value : BitVec 16)
  | u32, value, cell | i32, value, cell | f32, value, cell =>
      cell = scalarBytes 4 (value : BitVec 32)
  | u64, value, cell | i64, value, cell | f64, value, cell =>
      cell = scalarBytes 8 (value : BitVec 64)
  | u128, value, cell | i128, value, cell => cell = scalarBytes 16 (value : BitVec 128)
  | block32, value, cell | block16, value, cell => cell = value
  | bool, value, cell => ∃ byte : BitVec 8, cell = scalarBytes 1 byte ∧ value = decide (byte ≠ 0)
  | string, value, cell => cell = putString (utf8 value)
  | bytes, value, cell => cell = putString value
  | option inner, value, cell => OptionEncodes inner.Encodes value cell

end Target

namespace DecodedBlock

/-- The position of a column in the schema. -/
def position (block : DecodedBlock) (name : String) : Option Nat :=
  block.schema.findIdx? fun entry => entry.1 = name

/-- The column announced under a name; `none` in a block without values. -/
def column (block : DecodedBlock) (name : String) : Option DecodedColumn :=
  (block.position name).bind (block.columns[·]?)

/-- Every value of a column.  A block without columns, and one without values, has
none. -/
def columnAs (target : Target) (block : DecodedBlock) (name : String) :
    Except Error (List target.Value) :=
  if block.schema.isEmpty then
    .ok []
  else match block.position name with
  | none => .error (.schemaMismatch ("native: block declares no column '" ++ name ++ "'"))
  | some index =>
      match block.columns[index]? with
      | some column => target.fromColumn column name (block.schema[index]?.getD ("", "")).2
      | none => .ok []

/-- The cells of a column, row by row. -/
def cells (block : DecodedBlock) (name : String) : List Bytes :=
  (List.range block.numRows).filterMap fun row => (block.column name).bind (·.cell row)

/-- A block as the client gets it: decoded, or of column headers alone. -/
def Received (block : DecodedBlock) : Prop :=
  (block.columns = [] ∧ block.numRows = 0) ∨
    ∃ numColumns numRows serverRevision input rest,
      decodeBlock numColumns numRows serverRevision input = .ok (block, rest)

end DecodedBlock

theorem Shape.rowCount_of_isFlat {colType : ColumnType} {count : Nat} {column : DecodedColumn}
    (shape : Shape colType count column) (flat : column.isFlat = true) :
      column.rowCount = count := by
  induction shape with
  | flat typed held rows => exact rows
  | simpleAggregateFunction inside ih => exact ih flat
  | _ => cases flat

theorem Shape.of_nullable {colType : ColumnType} {count : Nat} {mask : Bytes}
    {child : DecodedColumn}
    (shape : Shape colType count (.nullable mask child)) :
    mask.length = count ∧ ∃ inner, Shape inner count child := by
  generalize found : DecodedColumn.nullable mask child = column at shape
  induction shape with
  | flat typed held rows =>
      subst found
      cases held
  | nullable sized inside =>
      cases found
      exact ⟨sized, _, inside⟩
  | simpleAggregateFunction inside ih => exact ih found
  | _ => cases found

/-- One value for each of so many rows, related to what is in the row's cell. -/
def RowsRead {α : Type} (encodes : α → Bytes → Prop) (count : Nat) (cell : Nat → Option Bytes)
    (values : List α) : Prop :=
  values.length = count ∧ ∀ row value, values[row]? = some value →
    ∃ bytes, cell row = some bytes ∧ encodes value bytes

theorem RowsRead.forall₂ {α : Type} {encodes : α → Bytes → Prop} {count : Nat}
    {cell : Nat → Option Bytes} {values : List α} (read : RowsRead encodes count cell values) :
    List.Forall₂ encodes values ((List.range count).filterMap cell) := by
  induction count generalizing values with
  | zero =>
      obtain rfl := List.length_eq_zero_iff.mp read.1
      exact .nil
  | succ count ih =>
      obtain ⟨sized, each⟩ := read
      obtain ⟨front, last, rfl⟩ : ∃ front last, values = front ++ [last] := by
        rcases List.eq_nil_or_concat' values with rfl | ⟨front, last, rfl⟩
        · cases sized
        · exact ⟨front, last, rfl⟩
      have length : front.length = count := by simpa using sized
      obtain ⟨bytes, held, encoded⟩ := each count last (by simp [← length])
      have before : RowsRead encodes count cell front := by
        refine ⟨length, ?_⟩
        intro row value found
        have inside := (List.getElem?_eq_some_iff.mp found).1
        exact each row value (by rwa [List.getElem?_append_left inside])
      rw [List.range_succ, List.filterMap_append]
      exact List.rel_append (ih before) (by simpa [held] using encoded)

section Route

variable {α : Type} {column : DecodedColumn} {name typeName : String} {values : List α}

theorem fromColumnBacking_ok {label : String} {backing : DecodedColumn → Option (List α)}
    (read : fromColumnBacking label backing column name typeName = .ok values) :
    backing column = some values := by
  unfold fromColumnBacking at read
  split at read
  · cases read
    assumption
  · cases read

/-- A flat column has its values in its cells. -/
theorem rowsRead_of_flat {colType : ColumnType} {count : Nat} {encode : α → Bytes}
    (shape : Shape colType count column) (flat : column.isFlat = true)
    (counted : column.rowCount = values.length)
    (cells : ∀ row, column.cell row = (values[row]?).map encode) :
    RowsRead (fun value cell => cell = encode value) count column.cell values := by
  refine ⟨counted.symm.trans (shape.rowCount_of_isFlat flat), ?_⟩
  intro row value found
  exact ⟨encode value, by rw [cells, found]; rfl, rfl⟩

end Route

/-- Any non-zero byte is true. -/
theorem rowsRead_bool {colType : ColumnType} {count : Nat} {bits : List (BitVec 8)}
    (shape : Shape colType count (.uInt8 bits)) :
    RowsRead (fun value cell => ∃ byte : BitVec 8, cell = scalarBytes 1 byte ∧
        value = decide (byte ≠ 0)) count (DecodedColumn.uInt8 bits).cell
      (bits.map fun byte => decide (byte ≠ 0)) := by
  refine ⟨(List.length_map _).trans (shape.rowCount_of_isFlat rfl), ?_⟩
  intro row value found
  rw [List.getElem?_map, Option.map_eq_some_iff] at found
  obtain ⟨byte, held, rfl⟩ := found
  exact ⟨scalarBytes 1 byte, by simp [DecodedColumn.cell, held], byte, rfl, rfl⟩

theorem mapM_textValue {values : List Bytes} {texts : List String}
    (read : values.mapM textValue = .ok texts) : values = texts.map utf8 := by
  have each := Reader.mapM_ok_iff.mp read
  clear read
  induction each with
  | nil => rfl
  | @cons value text values texts first _ ih =>
      unfold textValue at first
      split at first
      · rename_i decoded
        cases first
        rw [List.map_cons, ih, utf8_of_fromUtf8 decoded, ← utf8_eq_encode]
      · cases first

theorem rowsRead_texts {colType : ColumnType} {count : Nat} {column : DecodedColumn}
    {texts : List String} (shape : Shape colType count column) (flat : column.isFlat = true)
    (counted : column.rowCount = (texts.map utf8).length)
    (cells : ∀ row, column.cell row = ((texts.map utf8)[row]?).map putString) :
    RowsRead (fun text cell => cell = putString (utf8 text)) count column.cell texts := by
  refine rowsRead_of_flat shape flat (counted.trans (List.length_map _)) fun row => ?_
  rw [cells, List.getElem?_map, Option.map_map]
  rfl

/-- A mask selects among the values of the child, which has one for every row. -/
theorem RowsRead.nullable {α : Type} {encodes : α → Bytes → Prop} {count : Nat}
    {child : DecodedColumn} {values : List α} (read : RowsRead encodes count child.cell values)
    {mask : Bytes} (sized : mask.length = count) :
    RowsRead (Target.OptionEncodes encodes) count (DecodedColumn.nullable mask child).cell
      ((mask.zip values).map fun (isNull, value) => if isNull = 0 then some value else none) := by
  obtain ⟨length, each⟩ := read
  refine ⟨by simp [sized, length], ?_⟩
  intro row value found
  rw [List.getElem?_map, Option.map_eq_some_iff] at found
  obtain ⟨⟨isNull, present⟩, pair, rfl⟩ := found
  obtain ⟨flag, held⟩ := List.getElem?_zip_eq_some.mp pair
  obtain ⟨bytes, inside, encoded⟩ := each row present held
  by_cases unset : isNull = 0
  · refine ⟨0 :: bytes, ?_, ?_⟩
    · simp [DecodedColumn.cell, flag, unset, inside]
    · simpa [unset, Target.OptionEncodes] using encoded
  · refine ⟨[1], ?_, ?_⟩
    · simp [DecodedColumn.cell, flag, unset]
    · simp [unset, Target.OptionEncodes]

/-- What is read from a decoded column is in its cells, row by row. -/
theorem rowsRead_fromColumn {target : Target} {colType : ColumnType} {count : Nat}
    {column : DecodedColumn} {name typeName : String} {values : List target.Value}
    (shape : Shape colType count column)
    (read : target.fromColumn column name typeName = .ok values) :
    RowsRead target.Encodes count column.cell values := by
  induction target generalizing colType column with
  | bool =>
      unfold Target.fromColumn at read
      split at read
      · cases read
        exact rowsRead_bool shape
      · cases read
  | string =>
      unfold Target.fromColumn at read
      split at read
      case h_3 => cases read
      all_goals
        obtain rfl := mapM_textValue read
        exact rowsRead_texts shape rfl rfl fun _ => rfl
  | option inner ih =>
      unfold Target.fromColumn at read
      split at read
      · obtain ⟨sized, innerType, inside⟩ := shape.of_nullable
        obtain ⟨children, converted, selected⟩ := Reader.ok_bind_iff.mp read
        cases selected
        exact (ih inside converted).nullable sized
      · cases read
  | block32 | block16 =>
      have found := fromColumnBacking_ok read
      split at found <;> cases found <;>
        exact @rowsRead_of_flat Bytes _ _ _ _ _ shape rfl rfl fun _ => Option.map_id'.symm
  | _ =>
      have found := fromColumnBacking_ok read
      split at found <;> cases found <;> exact rowsRead_of_flat shape rfl rfl fun _ => rfl

namespace DecodedBlock

/-- A decoded column has the shape its block prescribes. -/
theorem shape_of_column {block : DecodedBlock} {numColumns numRows serverRevision : Nat}
    {input rest : Bytes} (decoded : decodeBlock numColumns numRows serverRevision input =
      .ok (block, rest)) {index : Nat} {column : DecodedColumn}
    (found : block.columns[index]? = some column) :
    ∃ colType, Shape colType block.numRows column := by
  obtain ⟨counted, entries, _, columns, announced⟩ :=
    yields_decodeBlock numColumns numRows serverRevision _ _ _ decoded
  rw [columns, List.getElem?_map, Option.map_eq_some_iff] at found
  obtain ⟨entry, held, rfl⟩ := found
  obtain ⟨colType, _, shape⟩ := announced entry (List.mem_of_getElem? held)
  exact ⟨colType, counted ▸ shape⟩

theorem length_columns {block : DecodedBlock} {numColumns numRows serverRevision : Nat}
    {input rest : Bytes} (decoded : decodeBlock numColumns numRows serverRevision input =
      .ok (block, rest)) : block.columns.length = block.schema.length := by
  obtain ⟨_, entries, schema, columns, _⟩ :=
    yields_decodeBlock numColumns numRows serverRevision _ _ _ decoded
  rw [schema, columns, List.length_map, List.length_map]

/-- A block without columns has no values to read. -/
theorem cells_of_noColumns {block : DecodedBlock} (none : block.columns = []) (name : String) :
    block.cells name = [] := by
  simp [cells, column, none]

/-- The values of a column are in its cells: one for each row of the block, unless it
declares no columns. -/
theorem columnAs_cells {block : DecodedBlock} (received : block.Received) {target : Target}
    {name : String} {values : List target.Value} (read : block.columnAs target name = .ok values) :
    List.Forall₂ target.Encodes values (block.cells name) ∧
      values.length = if block.schema.isEmpty then 0 else block.numRows := by
  unfold columnAs at read
  split at read
  · rename_i undeclared
    cases read
    refine ⟨?_, by simp [undeclared]⟩
    have nowhere : block.position name = none := by
      simp [position, List.isEmpty_iff.mp undeclared]
    simp [cells, column, nowhere]
  · rename_i declared
    rw [if_neg declared]
    split at read
    · cases read
    · rename_i index placed
      split at read
      · rename_i column found
        rcases received with ⟨none, _⟩ | ⟨_, _, _, _, _, decoded⟩
        · rw [none] at found
          cases found
        · obtain ⟨colType, shape⟩ := shape_of_column decoded found
          have rows := rowsRead_fromColumn shape read
          refine ⟨?_, rows.1⟩
          have named : block.column name = some column := by
            rw [DecodedBlock.column, placed]
            exact found
          rw [cells, named]
          exact rows.forall₂
      · rename_i missing
        cases read
        rcases received with ⟨none, empty⟩ | ⟨_, _, _, _, _, decoded⟩
        · rw [cells_of_noColumns none, empty]
          exact ⟨.nil, rfl⟩
        · -- A decoded block has a column for every entry of its schema.
          have inside : index < block.schema.length := by
            obtain ⟨inside, _⟩ := List.findIdx?_eq_some_iff_getElem.mp placed
            exact inside
          rw [← length_columns decoded] at inside
          rw [List.getElem?_eq_getElem inside] at missing
          cases missing

end DecodedBlock

end DfeClickhouse.Native
