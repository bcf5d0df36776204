import DfeClickhouse.Native.Columns
import DfeClickhouse.Native.DecodedColumn
import DfeClickhouse.Native.Encode
import DfeClickhouse.Native.Sparse

/-!
# The block decoder

`decode_block` reads the columns of a native block into typed columns.  The
serialisation prefixes of a whole column come first; the type lists of `Dynamic`
columns found there are queued and taken back, in the same order, by the data
phase.  As in the cell reader, a composite type takes the decoder of the next
nesting level as an argument.
-/

namespace DfeClickhouse.Native

open Library

/-- Upper bound on the composite nesting the decoder descends. -/
def maxDecodeDepth : Nat := 32

/-- Hard cap on the rows a block may declare. -/
def maxBlockRows : Nat := 2 ^ 28

/-- Hard cap on the columns a block may declare. -/
def maxBlockColumns : Nat := 2 ^ 16

/-- Reject a length a server declared but cannot back with payload. -/
def refused (what : String) (got cap : Nat) : Error :=
  .badResponse ("native: block declares " ++ toString got ++ " " ++ what ++ ", above the " ++
    toString cap ++ " cap")

def nestingExceeded : Error :=
  .badResponse ("native: column type nesting exceeds " ++ toString maxDecodeDepth ++ " levels")

/-- `count * width` bytes at once, unless that overflows a `usize`. -/
def readBulk (overflow : String) (count width : Nat) : ByteReader Bytes := do
  Reader.require (count * width < 2 ^ 64) (.badResponse overflow)
  readExact (count * width)

/-- `count` little-endian scalars of `width` bytes. -/
def readLeColumn (width count : Nat) : ByteReader (List (BitVec (8 * width))) := do
  let raw ← readBulk "native: numeric column byte length overflows usize" count width
  pure ((chunksExact width raw).map (scalarOfBytes width))

/-- `count` raw 32-byte values. -/
def readU256Column (count : Nat) : ByteReader (List Bytes) := do
  let raw ← readBulk "native: 256-bit column byte length overflows usize" count 32
  pure (chunksExact 32 raw)

/-- `count` bytes as 8-bit patterns. -/
def readByteColumn (count : Nat) : ByteReader (List (BitVec 8)) := do
  let raw ← readExact count
  pure (raw.map UInt8.toBitVec)

/-- The error for an offset below its predecessor. -/
def offsetsStepBack (what : String) : Error :=
  .badResponse ("native: " ++ what ++ " column offsets are not monotonically increasing")

/-- Cumulative end-offsets, none below its predecessor. -/
def readMonotoneOffsets (what : String) : Nat → Nat → ByteReader (List Nat)
  | 0, _ => pure []
  | count + 1, prev => do
      let stop ← readU64Le
      Reader.require (prev ≤ stop) (offsetsStepBack what)
      let offsets ← readMonotoneOffsets what count stop
      pure (stop :: offsets)

/-- A step of the prefix walk; `nested` walks a child one level down. -/
def decodePrefixesStep (nested : ColumnType → ByteReader (List DynamicHeader))
    (colType : ColumnType) : ByteReader (List DynamicHeader) :=
  match colType with
  | .lowCardinality _ => do
      let _ ← readU64Le
      pure []
  | .variant types => do
      readVariantMode
      let headers ← Reader.each nested types
      pure headers.flatten
  | .nullable inner | .array inner | .simpleAggregateFunction inner => nested inner
  | .tuple fields => do
      let headers ← Reader.each nested fields
      pure headers.flatten
  | .map key value => do
      let keyHeaders ← nested key
      let valueHeaders ← nested value
      pure (keyHeaders ++ valueHeaders)
  | .dynamic => do
      let version ← readU64Le
      Reader.require (version = 1 ∨ version = 2)
        (.badResponse ("native: unsupported Dynamic serialization version: " ++
          toString version))
      let header ← readDynamicV1v2Prefix (version = 1)
      pure [header]
  | _ => pure []

/-- The prefix walk with `levels` nesting levels left. -/
def decodePrefixesLevels : Nat → ColumnType → ByteReader (List DynamicHeader)
  | 0, _ => Reader.fail nestingExceeded
  | levels + 1, colType => decodePrefixesStep (decodePrefixesLevels levels) colType

/-- Consume the serialisation prefixes of a column and return the `Dynamic` type
lists found there. -/
def decodePrefixes (colType : ColumnType) : ByteReader (List DynamicHeader) :=
  decodePrefixesLevels (maxDecodeDepth + 1) colType

mutual

/-- The zero-row shape of a type. -/
def emptyColumn : ColumnType → DecodedColumn
  | .uInt8 => .uInt8 []
  | .int8 | .enum8 => .int8 []
  | .uInt16 => .uInt16 []
  | .int16 | .enum16 => .int16 []
  | .uInt32 => .uInt32 []
  | .int32 => .int32 []
  | .uInt64 => .uInt64 []
  | .int64 => .int64 []
  | .int128 => .int128 []
  | .uInt128 => .uInt128 []
  | .int256 => .int256 []
  | .uInt256 => .uInt256 []
  | .float32 => .float32 []
  | .float64 => .float64 []
  | .decimal32 precision scale => .decimal32 precision scale []
  | .decimal64 precision scale => .decimal64 precision scale []
  | .decimal128 precision scale => .decimal128 precision scale []
  | .decimal256 precision scale => .decimal256 precision scale []
  | .string => .string []
  | .json | .newJson | .variant _ | .dynamic => .json []
  | .fixedString width => .fixedString width []
  | .date => .date []
  | .date32 => .date32 []
  | .dateTime => .dateTime []
  | .dateTime64 precision timezone => .dateTime64 precision timezone []
  | .uuid => .uuid []
  | .iPv4 => .ipv4 []
  | .iPv6 => .ipv6 []
  | .nullable inner => .nullable [] (emptyColumn inner)
  | .array inner => .array [] (emptyColumn inner)
  | .map key value => .map [] (emptyColumn key) (emptyColumn value)
  | .tuple fields => .tuple (emptyColumns fields)
  | .lowCardinality (.nullable inner) => .lowCardinality (emptyColumn inner) (.uInt8 []) true
  | .lowCardinality inner => .lowCardinality (emptyColumn inner) (.uInt8 []) false
  | .simpleAggregateFunction inner => emptyColumn inner
  | .bFloat16 => .unsupported ColumnType.bFloat16.debug
  | .time => .unsupported ColumnType.time.debug
  | .time64 => .unsupported ColumnType.time64.debug
  | .point => .unsupported ColumnType.point.debug

/-- The zero-row shapes of tuple fields. -/
def emptyColumns : List ColumnType → List DecodedColumn
  | [] => []
  | field :: fields => emptyColumn field :: emptyColumns fields

end

/-- Strip the length prefix from a cell, leaving the document bytes. -/
def unwrapJsonCell (cell : Bytes) : Except Error Bytes := do
  let (len, header) ← getVarUint cell
  if header + len ≤ cell.length then
    return (cell.drop header).take len
  else
    throw (.badResponse "native: JSON cell length runs past the cell")

def unwrapJsonCells (cells : ColumnData) : Except Error (List Bytes) :=
  cells.mapM unwrapJsonCell

/-- A decoder of `count` rows that takes `Dynamic` type lists from a queue and
returns what is left of it. -/
abbrev ColumnDecoder :=
  ColumnType → Nat → List DynamicHeader → ByteReader (DecodedColumn × List DynamicHeader)

/-- The decoded index column of the width the low two flag bits select. -/
def decodeIndices (indexType count : Nat) : ByteReader DecodedColumn :=
  match indexType with
  | 0 => do
      let values ← readByteColumn count
      pure (.uInt8 values)
  | 1 => do
      let values ← readLeColumn 2 count
      pure (.uInt16 values)
  | 2 => do
      let values ← readLeColumn 4 count
      pure (.uInt32 values)
  | 3 => do
      let values ← readLeColumn 8 count
      pure (.uInt64 values)
  | other => Reader.fail (.badResponse ("native: LowCardinality index type " ++ toString other ++
      " is not valid (expected 0..=3)"))

/-- A per-block dictionary and one index per row.  The version word was consumed
with the prefixes. -/
def decodeLowCardinality (nested : ColumnDecoder) (inner : ColumnType) (count : Nat)
    (headers : List DynamicHeader) : ByteReader (DecodedColumn × List DynamicHeader) := do
  let flags ← readU64Le
  let indexType := flags % 4
  let hasGlobalDict := flags.testBit 8
  let hasAdditionalKeys := flags.testBit 9
  let (dictType, isNullableInner) := dictionaryType inner
  Reader.require (hasGlobalDict = false)
    (.badResponse ("native: LowCardinality global dictionary is not supported on the " ++
      "client-server path (only per-block additional keys)"))
  Reader.require (hasAdditionalKeys = true)
    (.badResponse ("native: LowCardinality block set neither the additional-keys nor the " ++
      "global-dictionary flag"))
  let additionalKeysSize ← readU64Le
  let (combined, headers) ← nested dictType additionalKeysSize headers
  let numIndices ← readU64Le
  Reader.require (numIndices = count)
    (.badResponse ("native: LowCardinality index count " ++ toString numIndices ++
      " != row count " ++ toString count))
  let indices ← decodeIndices indexType count
  pure (.lowCardinality combined indices isNullableInner, headers)

/-- The fields of a tuple, one after the other. -/
def decodeFields (nested : ColumnDecoder) (count : Nat) :
    List ColumnType → List DynamicHeader →
      ByteReader (List DecodedColumn × List DynamicHeader)
  | [], headers => pure ([], headers)
  | field :: fields, headers => do
      let (column, headers) ← nested field count headers
      let (columns, headers) ← decodeFields nested count fields headers
      pure (column :: columns, headers)

/-- Decode the leaf types: no child column and no queued type list. -/
def decodeLeaf (colType : ColumnType) (count : Nat) : ByteReader DecodedColumn :=
  match colType with
  | .uInt8 => DecodedColumn.uInt8 <$> readByteColumn count
  | .int8 | .enum8 => DecodedColumn.int8 <$> readByteColumn count
  | .uInt16 => DecodedColumn.uInt16 <$> readLeColumn 2 count
  | .int16 | .enum16 => DecodedColumn.int16 <$> readLeColumn 2 count
  | .uInt32 => DecodedColumn.uInt32 <$> readLeColumn 4 count
  | .int32 => DecodedColumn.int32 <$> readLeColumn 4 count
  | .uInt64 => DecodedColumn.uInt64 <$> readLeColumn 8 count
  | .int64 => DecodedColumn.int64 <$> readLeColumn 8 count
  | .int128 => DecodedColumn.int128 <$> readLeColumn 16 count
  | .uInt128 => DecodedColumn.uInt128 <$> readLeColumn 16 count
  | .int256 => DecodedColumn.int256 <$> readU256Column count
  | .uInt256 => DecodedColumn.uInt256 <$> readU256Column count
  | .float32 => DecodedColumn.float32 <$> readLeColumn 4 count
  | .float64 => DecodedColumn.float64 <$> readLeColumn 8 count
  | .decimal32 precision scale => DecodedColumn.decimal32 precision scale <$> readLeColumn 4 count
  | .decimal64 precision scale => DecodedColumn.decimal64 precision scale <$> readLeColumn 8 count
  | .decimal128 precision scale =>
      DecodedColumn.decimal128 precision scale <$> readLeColumn 16 count
  | .decimal256 precision scale => DecodedColumn.decimal256 precision scale <$> readU256Column count
  | .string => DecodedColumn.string <$> Reader.times readString count
  | .json => DecodedColumn.json <$> Reader.times readString count
  | .fixedString width =>
      DecodedColumn.fixedString width <$> readBulk "native: FixedString block overflow" count width
  | .date => DecodedColumn.date <$> readLeColumn 2 count
  | .date32 => DecodedColumn.date32 <$> readLeColumn 4 count
  | .dateTime => DecodedColumn.dateTime <$> readLeColumn 4 count
  | .dateTime64 precision timezone =>
      DecodedColumn.dateTime64 precision timezone <$> readLeColumn 8 count
  | .uuid => DecodedColumn.uuid <$> Reader.times (readExact 16) count
  | .iPv4 => DecodedColumn.ipv4 <$> readLeColumn 4 count
  | .iPv6 => DecodedColumn.ipv6 <$> Reader.times (readExact 16) count
  -- No typed variant: the cells are read so the stream stays aligned.
  | other => do
      let _ ← readColumnData other count
      pure (.unsupported other.debug)

/-- One level of the data phase at nesting `depth`. -/
def decodeColumnStep (nested : ColumnDecoder) (depth : Nat) (colType : ColumnType)
    (count : Nat) (headers : List DynamicHeader) :
    ByteReader (DecodedColumn × List DynamicHeader) :=
  match colType with
  | .nullable inner => do
      let mask ← readExact count
      let (child, headers) ← nested inner count headers
      pure (.nullable mask child, headers)
  | .array inner => do
      let offsets ← readMonotoneOffsets "Array" count 0
      let total := offsets.getLast?.getD 0
      let (child, headers) ← nested inner total headers
      pure (.array offsets child, headers)
  | .tuple fields => do
      let (columns, headers) ← decodeFields nested count fields headers
      pure (.tuple columns, headers)
  | .map keyType valType => do
      let offsets ← readMonotoneOffsets "Map" count 0
      let total := offsets.getLast?.getD 0
      let (keys, headers) ← nested keyType total headers
      let (values, headers) ← nested valType total headers
      pure (.map offsets keys values, headers)
  | .lowCardinality inner => decodeLowCardinality nested inner count headers
  | .simpleAggregateFunction inner => nested inner count headers
  | .newJson => do
      let version ← readU64Le
      if version = jsonSerializationString then do
        let documents ← Reader.times readString count
        pure (.json documents, headers)
      else do
        let cells ← readJsonBody (fun colType count => readColumnAt colType count 1) count version
        let documents ← Reader.ofExcept (unwrapJsonCells cells)
        pure (.json documents, headers)
  | .variant types => do
      let cells ← readColumnData (.variant types) count
      let documents ← Reader.ofExcept (unwrapJsonCells cells)
      pure (.json documents, headers)
  | .dynamic =>
      match headers with
      | [] => Reader.fail (.badResponse "native: Dynamic column has no serialisation prefix")
      | header :: headers => do
          let cells ← readDynamicV1v2Body
            (fun colType count => readColumnAt colType count (depth + 2)) count header
          let documents ← Reader.ofExcept (unwrapJsonCells cells)
          pure (.json documents, headers)
  | leaf => do
      let column ← decodeLeaf leaf count
      pure (column, headers)

/-- The data phase with `levels` nesting levels left.  Only the outermost level
reads nothing for a column without rows. -/
def decodeColumnLevels : Nat → ColumnDecoder
  | 0, _, _, _ => Reader.fail nestingExceeded
  | levels + 1, colType, count, headers =>
      if levels = maxDecodeDepth ∧ count = 0 then
        pure (emptyColumn colType, headers)
      else
        decodeColumnStep (decodeColumnLevels levels) (maxDecodeDepth - levels) colType count
          headers

/-- Decode `count` rows of a column at a nesting depth. -/
def decodeColumn (colType : ColumnType) (count depth : Nat) (headers : List DynamicHeader) :
    ByteReader (DecodedColumn × List DynamicHeader) :=
  decodeColumnLevels (maxDecodeDepth + 1 - depth) colType count headers

/-- A decoded block: its columns, the announced names and types, and the rows. -/
structure DecodedBlock where
  columns : List DecodedColumn
  schema : List (String × String)
  numRows : Nat

/-- Read a column's custom-serialization header: whether it is sparse. -/
def readSerializationKind (name : String) : ByteReader Bool := do
  let unsupported (kind : String) : ByteReader Bool :=
    Reader.fail (.badResponse ("native: column '" ++ name ++ "' uses " ++ kind ++
      " serialization -- only default and sparse are supported"))
  let flag ← readU8
  if flag = 0 then
    pure false
  else if flag = 1 then do
    let kind ← readU8
    if kind = 0 then pure false
    else if kind = 1 then pure true
    else if kind = 2 then unsupported "Detached"
    else if kind = 3 then unsupported "Detached over Sparse"
    else if kind = 4 then unsupported "Replicated"
    else if kind = 5 then do
      let numKinds ← readVarUint
      Reader.require (numKinds ≤ maxBlockColumns)
        (refused "serialization kinds" numKinds maxBlockColumns)
      let _ ← Reader.times readU8 numKinds
      unsupported "a combination"
    else
      Reader.fail (.badResponse ("native: column '" ++ name ++
        "' announced serialization kind " ++ toString kind.toNat ++
        ", which this decoder does not know"))
  else
    Reader.fail (.badResponse ("native: column '" ++ name ++
      "' has custom-serialization flag " ++ toString flag.toNat ++
      " -- the server writes a bool here"))

/-- The payload of one column of a block. -/
def decodeColumnPayload (colType : ColumnType) (numRows : Nat) (sparse : Bool) :
    ByteReader DecodedColumn := do
  let headers ← if numRows > 0 then decodePrefixes colType else pure []
  if sparse ∧ numRows > 0 then do
    let (positions, _) ← readSparseOffsets numRows {}
    let (dense, _) ← decodeColumn colType positions.length 0 headers
    Reader.ofExcept (dense.expandSparse positions numRows)
  else do
    let (column, _) ← decodeColumn colType numRows 0 headers
    pure column

/-- One column of a block: its name and type name, the custom-serialization header
and the payload. -/
def decodeBlockColumn (numRows serverRevision : Nat) :
    ByteReader ((String × String) × DecodedColumn) := do
  let name ← readUtf8String
  let typeName ← readUtf8String
  let sparse ←
    if serverRevision ≥ customSerializationRevision then readSerializationKind name
    else pure false
  match ColumnType.parse typeName with
  | none => Reader.fail (.badResponse ("native: server announced unknown column type '" ++
      typeName ++ "' for column '" ++ name ++ "'"))
  | some colType => do
      let column ← decodeColumnPayload colType numRows sparse
      pure ((name, typeName), column)

/-- Read one block body, after its column and row counts. -/
def decodeBlock (numColumns numRows serverRevision : Nat) : ByteReader DecodedBlock := do
  Reader.require (numColumns ≤ maxBlockColumns) (refused "columns" numColumns maxBlockColumns)
  Reader.require (numRows ≤ maxBlockRows) (refused "rows" numRows maxBlockRows)
  let entries ← Reader.times (decodeBlockColumn numRows serverRevision) numColumns
  pure ⟨entries.map Prod.snd, entries.map Prod.fst, numRows⟩

end DfeClickhouse.Native
