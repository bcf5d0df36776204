import DfeClickhouse.Native.Render
import DfeClickhouse.Native.TypeName

/-!
# The cell reader

`read_column_at` reads a native column and re-serialises every cell as
`RowBinary`.  The readers of composite types take the reader of the next nesting
level as an argument, and `readColumnLevels` closes the recursion over the number
of levels the depth guard still allows.
-/

namespace DfeClickhouse.Native

open Library

/-- Per-row `RowBinary` bytes of a column. -/
abbrev ColumnData := List Bytes

/-- Upper bound on the composite nesting the reader descends. -/
def maxReadDepth : Nat := 32

/-- Upper bound on the arms of a `Variant`. -/
def maxVariantTypes : Nat := 255

/-- Upper bound on the concrete types a `Dynamic` or JSON path may declare. -/
def maxWireTypes : Nat := 254

/-- Upper bound on the dynamic paths of one JSON column. -/
def maxJsonPaths : Nat := 2 ^ 16

/-- JSON serialization version carrying one JSON string per row. -/
def jsonSerializationString : Nat := 1

/-- Discriminator reserved for NULL. -/
def nullDiscriminator : Nat := 255

/-- The one supported discriminator serialization mode. -/
def variantModeBasic : Nat := 0

/-- Marker type name for values spilled out of a `Dynamic` type list. -/
def sharedVariant : String := "SharedVariant"

/-- Serialization version of a flattened `Dynamic` sub-column. -/
def dynamicFlattened : Nat := 3

/-- A reader of `count` rows of a column type at the next nesting level. -/
abbrev ColumnReader := ColumnType → Nat → ByteReader ColumnData

/-- `count` cells of `size` raw bytes. -/
def readFixedColumn (count size : Nat) : ByteReader ColumnData :=
  Reader.times (readExact size) count

/-- Wrap bytes as a `RowBinary` String cell. -/
def rowbinaryString (bytes : Bytes) : Bytes :=
  putString bytes

/-- `count` length-prefixed cells. -/
def readStringColumn (count : Nat) : ByteReader ColumnData :=
  Reader.times (do
    let bytes ← readString
    pure (rowbinaryString bytes)) count

/-- One nullable cell from its flag and the value slot beside it. -/
def nullableCell (flag : UInt8) (value : Bytes) : Bytes :=
  if flag ≠ 0 then [1] else 0 :: value

/-- Null flags, then a value for every row. -/
def readNullableColumn (nested : ColumnReader) (count : Nat) (inner : ColumnType) :
    ByteReader ColumnData := do
  let nullFlags ← readExact count
  let innerData ← nested inner count
  pure (nullFlags.zipWith nullableCell innerData)

/-- The dictionary type of a `LowCardinality` and whether slot 0 stands for NULL. -/
def dictionaryType : ColumnType → ColumnType × Bool
  | .nullable inner => (inner, true)
  | inner => (inner, false)

theorem dictionaryType_cases (inner : ColumnType) :
    (∃ type, inner = .nullable type ∧ dictionaryType inner = (type, true)) ∨
      dictionaryType inner = (inner, false) := by
  cases inner with
  | nullable type => exact .inl ⟨type, rfl, rfl⟩
  | _ => exact .inr rfl

/-- One little-endian index or discriminator of `width` bytes. -/
def readIndex (width : Nat) : ByteReader Nat :=
  if width = 1 ∨ width = 2 ∨ width = 4 ∨ width = 8 then do
    let bytes ← readExact width
    pure (leNat bytes)
  else
    Reader.fail (.badResponse ("native protocol: " ++ toString width ++
      "-byte index width is not a wire width"))

/-- The index width the low two flag bits select. -/
def indexBytes (indexType : Nat) : Except Error Nat :=
  match indexType with
  | 0 => .ok 1
  | 1 => .ok 2
  | 2 => .ok 4
  | 3 => .ok 8
  | other => .error (.badResponse ("native protocol: unknown LowCardinality index type " ++
      toString other))

/-- The cell an index selects from a dictionary. -/
def dictionaryCell (dict : ColumnData) (isNullableInner : Bool) (index : Nat) :
    Except Error Bytes :=
  let outOfRange : Error := .badResponse ("native protocol: LowCardinality index " ++
    toString index ++ " out of range (dict size " ++ toString dict.length ++ ")")
  if isNullableInner then
    if index = 0 then .ok [1]
    else match dict[index]? with
      | some value => .ok (0 :: value)
      | none => .error outOfRange
  else match dict[index]? with
    | some value => .ok value
    | none => .error outOfRange

/-- A per-block dictionary and the cells its indices select. -/
def readLowCardinalityColumn (nested : ColumnReader) (count : Nat) (inner : ColumnType) :
    ByteReader ColumnData := do
  let state ← readU64Le
  let indexType := state % 4
  let hasGlobalDict := state.testBit 8
  let hasAdditionalKeys := state.testBit 9
  let (dictType, isNullableInner) := dictionaryType inner
  Reader.require (hasGlobalDict = false)
    (.badResponse ("native protocol: LowCardinality global dictionary is not supported " ++
      "on the client-server path (only per-block additional keys)"))
  Reader.require (hasAdditionalKeys = true)
    (.badResponse ("native protocol: LowCardinality block set neither the " ++
      "additional-keys nor the global-dictionary flag"))
  let additionalKeysSize ← readU64Le
  let dict ← nested dictType additionalKeysSize
  let numIndices ← readU64Le
  Reader.require (numIndices = count)
    (.badResponse ("native protocol: LowCardinality index count " ++ toString numIndices ++
      " != row count " ++ toString count))
  let width ← Reader.ofExcept (indexBytes indexType)
  Reader.times (do
    let index ← readIndex width
    Reader.ofExcept (dictionaryCell dict isNullableInner index)) count

/-- `count` cumulative end-offsets. -/
def readOffsets (count : Nat) : ByteReader (List Nat) :=
  Reader.times readU64Le count

/-- Check one end-offset against its predecessor and the elements there are. -/
def checkedSpan (stop start available : Nat) (what : String) : Except Error Nat :=
  if stop < start ∨ stop > available then
    .error (.badResponse ("native protocol: " ++ what ++ " column offset " ++
      toString stop ++ " is outside " ++ toString start ++ "..=" ++ toString available))
  else
    .ok stop

/-- Cut element cells into rows of `varuint(count)` and that many elements. -/
def spanRows (what : String) (elements : ColumnData) : Nat → List Nat →
    Except Error ColumnData
  | _, [] => .ok []
  | start, stop :: offsets => do
      let stop ← checkedSpan stop start elements.length what
      let rows ← spanRows what elements stop offsets
      return (encodeVarUint (stop - start) ++
        ((elements.drop start).take (stop - start)).flatten) :: rows

/-- Cumulative offsets, then all elements as one column. -/
def readArrayColumn (nested : ColumnReader) (count : Nat) (inner : ColumnType) :
    ByteReader ColumnData := do
  let offsets ← readOffsets count
  let total := offsets.getLast?.getD 0
  let allValues ← nested inner total
  Reader.ofExcept (spanRows "Array" allValues 0 offsets)

/-- Append one field's cells to the rows built so far. -/
def appendCells (rows cells : ColumnData) : ColumnData :=
  rows.zipWith (· ++ ·) cells ++ rows.drop cells.length

/-- One columnar block per field, concatenated row by row. -/
def readTupleFields (nested : ColumnReader) (count : Nat) :
    List ColumnType → ColumnData → ByteReader ColumnData
  | [], rows => pure rows
  | field :: fields, rows => do
      let fieldData ← nested field count
      readTupleFields nested count fields (appendCells rows fieldData)

def readTupleColumn (nested : ColumnReader) (count : Nat) (fields : List ColumnType) :
    ByteReader ColumnData :=
  readTupleFields nested count fields (List.replicate count [])

/-- Cumulative offsets, then the key column, then the value column. -/
def readMapColumn (nested : ColumnReader) (count : Nat) (keyType valType : ColumnType) :
    ByteReader ColumnData := do
  let offsets ← readOffsets count
  let total := offsets.getLast?.getD 0
  let keys ← nested keyType total
  let vals ← nested valType total
  Reader.ofExcept (spanRows "Map" (keys.zipWith (· ++ ·) vals) 0 offsets)

/-- Read and check the `Variant` discriminator-serialization mode. -/
def readVariantMode : ByteReader Unit := do
  let mode ← readU64Le
  Reader.require (mode = variantModeBasic)
    (.badResponse ("native protocol: Variant discriminator serialization mode " ++
      toString mode ++ " is not supported (only basic, 0)"))

/-- Read every arm with as many rows as discriminators select it. -/
def readArms (nested : ColumnReader) (types : List ColumnType) (discriminators : List Nat) :
    ByteReader (List ColumnData) :=
  Reader.each (fun arm => nested arm.1 (discriminators.count arm.2)) types.zipIdx

/-- One arm of a discriminated column: its type, and whether its values are the
opaque spill that is consumed but never rendered. -/
structure Arm where
  colType : ColumnType
  shared : Bool

/-- One discriminated row: the rendered value, if it has one, and the arms'
cursors after it. -/
def discriminatedValue (arms : List Arm) (values : List ColumnData) (cursors : List Nat)
    (discriminator : Nat) : Option Bytes × List Nat :=
  match arms[discriminator]? with
  | none => (none, cursors)
  | some arm =>
      let cursor := cursors.getD discriminator 0
      let cursors := cursors.set discriminator (cursor + 1)
      if arm.shared then
        (none, cursors)
      else
        (some (cellToJson ((values.getD discriminator [])[cursor]?) arm.colType), cursors)

/-- The rows of a discriminated column, `null` where there is no value. -/
def discriminatedRows (arms : List Arm) (values : List ColumnData) :
    List Nat → List Nat → ColumnData
  | _, [] => []
  | cursors, discriminator :: rest =>
      let (text, cursors) := discriminatedValue arms values cursors discriminator
      rowbinaryString (text.getD (utf8 "null")) :: discriminatedRows arms values cursors rest

/-- The rows of a discriminated column from fresh cursors. -/
def renderDiscriminated (arms : List Arm) (values : List ColumnData)
    (discriminators : List Nat) : ColumnData :=
  discriminatedRows arms values (List.replicate arms.length 0) discriminators

/-- One byte of discriminator per row.  At 255, the NULL discriminator, there is
never an arm: `Variant` and `Dynamic` have at most 255 of them. -/
def readByteDiscriminators (count : Nat) : ByteReader (List Nat) := do
  let bytes ← readExact count
  pure (bytes.map UInt8.toNat)

def readVariantColumn (nested : ColumnReader) (count : Nat) (types : List ColumnType) :
    ByteReader ColumnData := do
  Reader.require (types.length ≤ maxVariantTypes)
    (.badResponse ("native protocol: Variant declares " ++ toString types.length ++
      " arms, above the " ++ toString maxVariantTypes ++ " cap"))
  let discriminators ← readByteDiscriminators count
  let typeValues ← readArms nested types discriminators
  pure (renderDiscriminated (types.map fun colType => ⟨colType, false⟩) typeValues
    discriminators)

/-- A count that must not exceed its cap. -/
def readCappedCount (cap : Nat) (what : String) : ByteReader Nat := do
  let count ← readVarUint
  Reader.require (count ≤ cap)
    (.badResponse ("native protocol: " ++ what ++ " count " ++ toString count ++
      " is above the " ++ toString cap ++ " cap"))
  pure count

/-- The column type a wire type name stands for. -/
def wireType (name : String) : Except Error ColumnType :=
  if name = sharedVariant then
    .ok .string
  else match ColumnType.parse name with
    | some colType => .ok colType
    | none =>
        .error (.badResponse ("native protocol: unsupported nested column type '" ++ name ++
          "'"))

/-- The type list a `Dynamic` column's data phase is read against. -/
structure DynamicHeader where
  typeNames : List String

/-- A declared type list with the implicit spill type, in the order the
discriminators index. -/
def sortedTypeNames (names : List String) : List String :=
  (names ++ [sharedVariant]).mergeSort fun first second => !(second < first)

/-- The type list, then the discriminator mode. -/
def readDynamicV1v2Prefix (hasMaxTypes : Bool) : ByteReader DynamicHeader := do
  if hasMaxTypes then
    let _ ← readVarUint
  let totalTypes ← readCappedCount maxWireTypes "Dynamic type"
  let typeNames ← Reader.times readUtf8String totalTypes
  readVariantMode
  pure ⟨sortedTypeNames typeNames⟩

/-- The arm a type name of a sorted list stands for. -/
def namedArm (name : String) : Except Error Arm := do
  let colType ← wireType name
  return ⟨colType, name = sharedVariant⟩

/-- The data half of a `Dynamic` column. -/
def readDynamicV1v2Body (nested : ColumnReader) (count : Nat) (header : DynamicHeader) :
    ByteReader ColumnData := do
  let arms ← Reader.ofExcept (header.typeNames.mapM namedArm)
  let discriminators ← readByteDiscriminators count
  let typeValues ← readArms nested (arms.map Arm.colType) discriminators
  pure (renderDiscriminated arms typeValues discriminators)

/-- A flattened type list, without the spill type. -/
def readFlatWireTypes : ByteReader (List ColumnType) := do
  let count ← readCappedCount maxVariantTypes "Dynamic type"
  Reader.times (do
    let name ← readUtf8String
    Reader.ofExcept (wireType name)) count

/-- Discriminator width for `slots` concrete types plus NULL. -/
def indexWidth (slots : Nat) : Nat :=
  if slots ≤ 255 then 1
  else if slots ≤ 65535 then 2
  else if slots < 2 ^ 32 then 4
  else 8

def readDynamicFlattenedColumn (nested : ColumnReader) (count : Nat) :
    ByteReader ColumnData := do
  let colTypes ← readFlatWireTypes
  let discriminators ← Reader.times (readIndex (indexWidth colTypes.length)) count
  let typeValues ← readArms nested colTypes discriminators
  pure (renderDiscriminated (colTypes.map fun colType => ⟨colType, false⟩) typeValues
    discriminators)

/-- A standalone `Dynamic` column with its prefix inline. -/
def readDynamicColumn (nested : ColumnReader) (count : Nat) : ByteReader ColumnData := do
  let version ← readU64Le
  match version with
  | 1 =>
      let header ← readDynamicV1v2Prefix true
      readDynamicV1v2Body nested count header
  | 2 =>
      let header ← readDynamicV1v2Prefix false
      readDynamicV1v2Body nested count header
  | 3 => readDynamicFlattenedColumn nested count
  | _ =>
      Reader.fail (.badResponse ("native protocol: unsupported Dynamic serialization " ++
        "version: " ++ toString version))

/-- One dynamic path of a JSON column with everything read for it. -/
structure PathColumn where
  name : String
  arms : List Arm
  discriminators : List Nat
  values : List ColumnData

/-- The members a row contributes, path by path, and the cursors after the row. -/
def pathMembers (row : Nat) : List PathColumn → List (List Nat) → List Bytes × List (List Nat)
  | path :: paths, cursors :: rest =>
      let (text, cursors) := discriminatedValue path.arms path.values cursors
        (path.discriminators.getD row 0)
      let (members, rest) := pathMembers row paths rest
      match text with
      | some text =>
          ((jsonQuoteBytes (utf8 path.name) ++ utf8 ":" ++ text) :: members, cursors :: rest)
      | none => (members, cursors :: rest)
  | _, cursors => ([], cursors)

/-- The object documents of the rows from `row` on. -/
def objectRows (paths : List PathColumn) : Nat → Nat → List (List Nat) → ColumnData
  | 0, _, _ => []
  | count + 1, row, cursors =>
      let (members, cursors) := pathMembers row paths cursors
      rowbinaryString (bracketed "\x7b" "\x7d" members) ::
        objectRows paths count (row + 1) cursors

/-- One object document per row. -/
def renderObjects (paths : List PathColumn) (count : Nat) : ColumnData :=
  objectRows paths count 0 (paths.map fun path => List.replicate path.arms.length 0)

/-- The sorted arms of one path of the version 2 object format. -/
def readPathArms (pathName : String) : ByteReader (List Arm) := do
  let dynVersion ← readU64Le
  if dynVersion = 1 then
    let _ ← readVarUint
  else
    Reader.require (dynVersion = 2)
      (.badResponse ("native protocol: unexpected Dynamic version " ++ toString dynVersion ++
        " in JSON v2 path \"" ++ pathName ++ "\""))
  let numTypes ← readCappedCount maxWireTypes "Dynamic type"
  let typeNames ← Reader.times readUtf8String numTypes
  readVariantMode
  Reader.ofExcept ((sortedTypeNames typeNames).mapM namedArm)

/-- The discriminators and arm columns of one path. -/
def readPathValues (nested : ColumnReader) (readDiscriminators : ByteReader (List Nat))
    (path : String × List Arm) : ByteReader PathColumn := do
  let discriminators ← readDiscriminators
  let values ← readArms nested (path.2.map Arm.colType) discriminators
  pure ⟨path.1, path.2, discriminators, values⟩

/-- The version 2 object format, with its shared data consumed at the end. -/
def readJsonObjectV2Column (nested : ColumnReader) (count : Nat) : ByteReader ColumnData := do
  let numPaths ← readCappedCount maxJsonPaths "JSON dynamic path"
  let pathNames ← Reader.times readUtf8String numPaths
  let pathArms ← Reader.each readPathArms pathNames
  let paths ← Reader.each (readPathValues nested (readByteDiscriminators count))
    (pathNames.zip pathArms)
  let sharedOffsets ← readOffsets count
  let spilled := sharedOffsets.getLast?.getD 0
  let _ ← nested .string spilled
  let _ ← nested .string spilled
  pure (renderObjects paths count)

/-- The flattened object format, which has no shared data. -/
def readJsonObjectFlattenedColumn (nested : ColumnReader) (count : Nat) :
    ByteReader ColumnData := do
  let numPaths ← readCappedCount maxJsonPaths "JSON dynamic path"
  let pathNames ← Reader.times readUtf8String numPaths
  let pathTypes ← Reader.times (do
    let dynVersion ← readU64Le
    Reader.require (dynVersion = dynamicFlattened)
      (.badResponse ("native protocol: unexpected Dynamic version " ++ toString dynVersion ++
        " in a JSON v3 path"))
    readFlatWireTypes) numPaths
  let paths ← Reader.each (fun path : String × List Arm =>
    readPathValues nested (Reader.times (readIndex (indexWidth path.2.length)) count) path)
    (pathNames.zip (pathTypes.map fun types => types.map fun colType => ⟨colType, false⟩))
  pure (renderObjects paths count)

/-- The payload of a JSON column, after its version word. -/
def readJsonBody (nested : ColumnReader) (count version : Nat) : ByteReader ColumnData :=
  if version = jsonSerializationString then readStringColumn count
  else if version = 2 then readJsonObjectV2Column nested count
  else if version = 3 then readJsonObjectFlattenedColumn nested count
  else Reader.fail (.badResponse ("native protocol: unsupported JSON serialization version: " ++
    toString version))

def readJsonColumn (nested : ColumnReader) (count : Nat) : ByteReader ColumnData := do
  let version ← readU64Le
  readJsonBody nested count version

/-- One level of the reader; `nested` reads at the next one. -/
def readColumnStep (nested : ColumnReader) (colType : ColumnType) (count : Nat) :
    ByteReader ColumnData :=
  match colType with
  | .point => do
      let xColumn ← readFixedColumn count 8
      let yColumn ← readFixedColumn count 8
      pure (xColumn.zipWith (· ++ ·) yColumn)
  | .string | .json => readStringColumn count
  | .fixedString size => readFixedColumn count size
  | .nullable inner => readNullableColumn nested count inner
  | .lowCardinality inner => readLowCardinalityColumn nested count inner
  | .simpleAggregateFunction inner => nested inner count
  | .array inner => readArrayColumn nested count inner
  | .tuple fields => readTupleColumn nested count fields
  | .map keyType valType => readMapColumn nested count keyType valType
  | .variant types => readVariantColumn nested count types
  | .newJson => readJsonColumn nested count
  | .dynamic => readDynamicColumn nested count
  | scalar =>
      match scalar.fixedSize with
      | some size => readFixedColumn count size
      | none => Reader.fail (.badResponse ("native protocol: " ++ scalar.debug ++
          " has no fixed wire width"))

/-- The reader with `levels` nesting levels left.  Only the outermost level, at
depth zero, reads nothing for a column without rows. -/
def readColumnLevels : Nat → ColumnReader
  | 0, _, _ => Reader.fail (.badResponse ("native protocol: column type nesting exceeds " ++
      toString maxReadDepth ++ " levels"))
  | levels + 1, colType, count =>
      if levels = maxReadDepth ∧ count = 0 then
        pure []
      else
        readColumnStep (readColumnLevels levels) colType count

/-- Read `count` rows of a column as `RowBinary` cells, at a nesting depth. -/
def readColumnAt (colType : ColumnType) (count depth : Nat) : ByteReader ColumnData :=
  readColumnLevels (maxReadDepth + 1 - depth) colType count

/-- The data phase alone, from the outermost level. -/
def readColumnData (colType : ColumnType) (count : Nat) : ByteReader ColumnData :=
  readColumnAt colType count 0

end DfeClickhouse.Native
