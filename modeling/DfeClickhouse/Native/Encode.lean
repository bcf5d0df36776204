import DfeClickhouse.Native.Columns

/-!
# The block encoder

`encode_columns` transposes rows of `RowBinary` cells into native columns.  A row
is first cut into cells by walking the column types over it; each column is then
written as its header, the serialisation prefixes of its whole type, and its data.
A position in a row buffer is the rest of the buffer from there on.
-/

namespace DfeClickhouse.Native

open Library

/-- The revision from which a column carries a custom-serialization header. -/
def customSerializationRevision : Nat := 54454

/-- The flag of a client block's `LowCardinality` column: its keys follow. -/
def hasAdditionalKeys : Nat := 2 ^ 9

/-- Column schema entry for a native INSERT block. -/
structure ColumnSchema where
  /-- Column name as declared to the server. -/
  name : String
  /-- Type name string sent on the wire. -/
  typeName : String
  /-- Parsed column type used for encoding decisions. -/
  colType : ColumnType

/-- The schema a list of `(name, type_name)` pairs declares. -/
def ColumnSchema.fromHeaders (headers : List (String × String)) :
    Except Error (List ColumnSchema) :=
  headers.mapM fun (name, typeName) =>
    match ColumnType.parse typeName with
    | some colType => .ok ⟨name, typeName, colType⟩
    | none => .error (.badResponse ("native INSERT: unsupported column type '" ++ typeName ++
        "' for column '" ++ name ++ "'"))

def rbTruncated : Error :=
  .badResponse ("native INSERT: RowBinary row data is truncated; " ++
    "does the row struct match the table schema?")

/-- The error for a type the writer has no arm for. -/
def unsupportedForInsert (colType : ColumnType) : Error :=
  .badResponse ("native INSERT: column type " ++ colType.debug ++
    " is not supported for INSERT")

/-- Read a varuint at the current position. -/
def rbReadVaruint : ByteReader Nat := fun data =>
  match getVarUint data with
  | .ok (value, used) => .ok (value, data.drop used)
  | .error .notEnoughData => .error rbTruncated
  | .error error => .error error

mutual

/-- Advance past one `RowBinary` value of a type. -/
def rbAdvance : ColumnType → ByteReader Unit
  | .string | .json | .newJson => do
      let len ← rbReadVaruint
      let _ ← Reader.take rbTruncated len
      pure ()
  | .nullable inner => do
      let flag ← Reader.take rbTruncated 1
      if flag = [0] then rbAdvance inner else pure ()
  | .lowCardinality inner => rbAdvance inner
  | .array inner => do
      let count ← rbReadVaruint
      let _ ← Reader.times (rbAdvance inner) count
      pure ()
  | .tuple fields => rbAdvanceFields fields
  | .map keyType valType => do
      let count ← rbReadVaruint
      let _ ← Reader.times (do
        rbAdvance keyType
        rbAdvance valType) count
      pure ()
  | colType =>
      match colType.fixedSize with
      | some size => do
          let _ ← Reader.take rbTruncated size
          pure ()
      | none => Reader.fail (unsupportedForInsert colType)

/-- Advance past one value of each field, in order. -/
def rbAdvanceFields : List ColumnType → ByteReader Unit
  | [] => pure ()
  | field :: fields => do
      rbAdvance field
      rbAdvanceFields fields

end

/-- The bytes of one value of a type. -/
def rbCell (colType : ColumnType) : ByteReader Bytes :=
  Reader.consumed (rbAdvance colType)

/-- The bytes of one value of each type, in order. -/
def rbCells (colTypes : List ColumnType) : ByteReader (List Bytes) :=
  Reader.each rbCell colTypes

/-- The default encoding that fills the value slot of a NULL row. -/
def rbWriteDefault : ColumnType → Bytes
  | .lowCardinality inner => rbWriteDefault inner
  | colType =>
      match colType.fixedSize with
      | some size => List.replicate size 0
      -- An empty string, also for the types that have no default of their own.
      | none => encodeVarUint 0

mutual

/-- The serialisation prefixes of a type's whole tree. -/
def writeColPrefixes : ColumnType → Bytes
  | .lowCardinality _ => natLe 8 1
  | .nullable inner | .array inner | .simpleAggregateFunction inner => writeColPrefixes inner
  | .tuple fields => writeFieldPrefixes fields
  | .map key value => writeColPrefixes key ++ writeColPrefixes value
  | _ => []

/-- The prefixes of all tuple fields, in order. -/
def writeFieldPrefixes : List ColumnType → Bytes
  | [] => []
  | field :: fields => writeColPrefixes field ++ writeFieldPrefixes fields

end

/-- Split a nullable cell into its flag and the bytes of its value slot. -/
def splitNullable (default : Bytes) : Bytes → Except Error (UInt8 × Bytes)
  | [] => .error rbTruncated
  | flag :: rest => .ok (flag, if flag = 0 then rest else default)

/-- Cumulative end-offsets of rows with the given element counts. -/
def cumulativeOffsets : Nat → List Nat → List Nat
  | _, [] => []
  | cum, count :: counts =>
      let cum := (cum + count) % 2 ^ 64
      cum :: cumulativeOffsets cum counts

/-- The dictionary of a `LowCardinality` column: its entries, and the index under
which each of them was first seen. -/
structure Dictionary where
  dict : List Bytes := []
  seen : List (Bytes × Nat) := []

/-- The key of a dictionary cell; `none` is NULL. -/
def dictionaryKey (isNullableInner : Bool) (value : Bytes) : Option Bytes :=
  if isNullableInner then
    match value with
    | [] => none
    | flag :: rest => if flag = 1 then none else some rest
  else
    some value

/-- The index of a key, which is entered if it is new. -/
def Dictionary.intern (dictionary : Dictionary) : Option Bytes →
    Except Error (Nat × Dictionary)
  | none => .ok (0, dictionary)
  | some key =>
      let next := dictionary.dict.length
      if next < 2 ^ 32 then
        match dictionary.seen.lookup key with
        | some index => .ok (index, dictionary)
        | none => .ok (next, ⟨dictionary.dict ++ [key], dictionary.seen ++ [(key, next)]⟩)
      else
        .error (.badResponse "native INSERT: LowCardinality dictionary exceeds u32 indices")

/-- The indices of all keys, and the dictionary after them. -/
def Dictionary.internAll (dictionary : Dictionary) : List (Option Bytes) →
    Except Error (List Nat × Dictionary)
  | [] => .ok ([], dictionary)
  | key :: keys => do
      let (index, dictionary) ← dictionary.intern key
      let (indices, dictionary) ← dictionary.internAll keys
      return (index :: indices, dictionary)

/-- The dictionary before the first row: slot 0 of a nullable one is the default
value, which stands for NULL. -/
def Dictionary.initial (isNullableInner : Bool) (dictType : ColumnType) : Dictionary :=
  if isNullableInner then
    ⟨[rbWriteDefault dictType], [(rbWriteDefault dictType, 0)]⟩
  else
    {}

/-- The narrowest index width, as its type code and bytes, for a dictionary. -/
def dictionaryIndexType (size : Nat) : Nat × Nat :=
  if size ≤ 0x100 then (0, 1)
  else if size ≤ 0x10000 then (1, 2)
  else (2, 4)

/-- A dictionary column; `writeDict` writes the entries of the dictionary. -/
def writeDictionary (isNullableInner : Bool) (dictType : ColumnType)
    (writeDict : List Bytes → Except Error Bytes) (values : List Bytes) :
    Except Error Bytes := do
  let (indices, dictionary) ← (Dictionary.initial isNullableInner dictType).internAll
    (values.map (dictionaryKey isNullableInner))
  let size := dictionary.dict.length
  let (indexType, width) := dictionaryIndexType size
  let entries ← writeDict dictionary.dict
  return natLe 8 (hasAdditionalKeys ||| indexType) ++ natLe 8 size ++ entries ++
    natLe 8 indices.length ++ indices.flatMap (natLe width)

/-- The element count and the elements of one array cell. -/
def arrayElements (inner : ColumnType) : ByteReader (List Bytes) := do
  let count ← rbReadVaruint
  Reader.times (rbCell inner) count

/-- The keys and values of one map cell. -/
def mapEntries (keyType valType : ColumnType) : ByteReader (List (Bytes × Bytes)) := do
  let count ← rbReadVaruint
  Reader.times (do
    let key ← rbCell keyType
    let value ← rbCell valType
    pure (key, value)) count

/-- Run a reader on every cell and keep the values; bytes past them are left. -/
def sliceCells {α : Type} (reader : ByteReader α) (values : List Bytes) :
    Except Error (List α) :=
  values.mapM fun value => do
    let (result, _) ← reader value
    return result

/-- The end-offsets of a column of lists. -/
def writeOffsets {α : Type} (rows : List (List α)) : Bytes :=
  (cumulativeOffsets 0 (rows.map List.length)).flatMap (natLe 8)

mutual

/-- The native data of a column from its `RowBinary` cells, one per row. -/
def writeColValues : ColumnType → List Bytes → Except Error Bytes
  | .nullable inner, values => do
      let slots ← values.mapM (splitNullable (rbWriteDefault inner))
      let payload ← writeColValues inner (slots.map Prod.snd)
      return slots.map Prod.fst ++ payload
  | .lowCardinality (.nullable inner), values =>
      writeDictionary true inner (writeColValues inner) values
  | .lowCardinality inner, values =>
      writeDictionary false inner (writeColValues inner) values
  | .array inner, values => do
      let rows ← sliceCells (arrayElements inner) values
      let payload ← writeColValues inner rows.flatten
      return writeOffsets rows ++ payload
  | .map keyType valType, values => do
      let rows ← sliceCells (mapEntries keyType valType) values
      let keys ← writeColValues keyType (rows.flatten.map Prod.fst)
      let vals ← writeColValues valType (rows.flatten.map Prod.snd)
      return writeOffsets rows ++ keys ++ vals
  | .tuple fields, values => do
      let rows ← sliceCells (rbCells fields) values
      writeFieldValues fields rows
  | .string, values | .json, values | .newJson, values => .ok values.flatten
  | colType, values =>
      if colType.fixedSize.isSome then .ok values.flatten
      else .error (unsupportedForInsert colType)

/-- The columns of tuple fields from the rows' remaining field cells. -/
def writeFieldValues : List ColumnType → List (List Bytes) → Except Error Bytes
  | [], _ => .ok []
  | field :: fields, rows => do
      let column ← writeColValues field (rows.map fun row => row.headD [])
      let columns ← writeFieldValues fields (rows.map List.tail)
      return column ++ columns

end

/-- Cut a row into the cells of its columns; nothing may be left of it. -/
def sliceRow (columns : List ColumnSchema) (row : Bytes) : Except Error (List Bytes) := do
  let (cells, rest) ← rbCells (columns.map ColumnSchema.colType) row
  if rest.isEmpty then
    return cells
  else
    throw (.badResponse ("native INSERT: row has " ++ toString rest.length ++
      " trailing RowBinary bytes after the " ++ toString columns.length ++
      " declared column(s)"))

/-- The type name a column is declared under: JSON is declared as String and cast
by the server. -/
def ColumnSchema.declaredType (column : ColumnSchema) : String :=
  match column.colType with
  | .newJson | .json => "String"
  | _ => column.typeName

/-- What precedes a column's data: its name and type and, for newer servers, the
flag of the default serialization. -/
def writeColumnHeader (revision : Nat) (column : ColumnSchema) : Bytes :=
  putString (utf8 column.name) ++ putString (utf8 column.declaredType) ++
    if revision ≥ customSerializationRevision then [0] else []

/-- All columns of a block from the rows' remaining cells. -/
def writeColumns (revision : Nat) : List ColumnSchema → List (List Bytes) →
    Except Error Bytes
  | [], _ => .ok []
  | column :: columns, rows => do
      let values ← writeColValues column.colType (rows.map fun row => row.headD [])
      let rest ← writeColumns revision columns (rows.map List.tail)
      return writeColumnHeader revision column ++ writeColPrefixes column.colType ++ values ++
        rest

/-- Encode `RowBinary` rows as the columns of a native block. -/
def encodeColumns (rows : List Bytes) (columns : List ColumnSchema) (revision : Nat) :
    Except Error Bytes :=
  if columns.isEmpty || rows.isEmpty then
    .ok []
  else do
    let cells ← rows.mapM (sliceRow columns)
    writeColumns revision columns cells

end DfeClickhouse.Native
