import DfeClickhouse.Library.Incremental
import DfeClickhouse.Native.Decode

/-!
# The decoders read incrementally

Every reader of the native format, down to the whole block, takes from a longer input
what it takes from a shorter one.
-/

namespace DfeClickhouse.Native

open Library Reader

theorem extend_readFrom {eof : Error} {decoder : VarUintDecoder} {input rest : Bytes} {value : Nat}
    (read : decoder.readFrom eof input = .ok (value, rest)) (more : Bytes) :
    decoder.readFrom eof (input ++ more) = .ok (value, rest ++ more) := by
  induction input generalizing decoder with
  | nil => cases read
  | cons octet input ih =>
      rw [VarUintDecoder.readFrom] at read
      rw [List.cons_append, VarUintDecoder.readFrom]
      cases pushed : decoder.push octet with
      | error error =>
          rw [pushed] at read
          cases read
      | ok result =>
          obtain ⟨decoder, found⟩ := result
          rw [pushed] at read
          cases found with
          | some value =>
              cases read
              rfl
          | none => exact ih read

instance (eof : Error) (decoder : VarUintDecoder) : Incremental (decoder.readFrom eof) where
  extend read more := extend_readFrom read more

instance : Incremental readVarUint := by
  unfold readVarUint
  infer_instance

instance (len : Nat) : Incremental (readExact len) := by
  unfold readExact
  infer_instance

instance : Incremental readU8 := by
  unfold readU8
  infer_instance

instance : Incremental readU64Le := by
  unfold readU64Le
  infer_instance

instance : Incremental readString := by
  unfold readString
  infer_instance

instance : Incremental readUtf8String := by
  unfold readUtf8String
  have each : ∀ bytes : Bytes, Incremental (match fromUtf8 bytes with
      | some text => (pure text : ByteReader String)
      | none => Reader.fail (.badResponse ("native protocol: invalid utf8: " ++
          utf8ErrorText bytes))) := by
    intro bytes
    split <;> infer_instance
  infer_instance

instance (count size : Nat) : Incremental (readFixedColumn count size) := by
  unfold readFixedColumn
  infer_instance

instance (count : Nat) : Incremental (readStringColumn count) := by
  unfold readStringColumn
  infer_instance

instance (width : Nat) : Incremental (readIndex width) := by
  unfold readIndex
  infer_instance

instance (count : Nat) : Incremental (readOffsets count) := by
  unfold readOffsets
  infer_instance

instance : Incremental readVariantMode := by
  unfold readVariantMode
  infer_instance

instance (count : Nat) : Incremental (readByteDiscriminators count) := by
  unfold readByteDiscriminators
  infer_instance

instance (cap : Nat) (what : String) : Incremental (readCappedCount cap what) := by
  unfold readCappedCount
  infer_instance

instance (hasMaxTypes : Bool) : Incremental (readDynamicV1v2Prefix hasMaxTypes) := by
  unfold readDynamicV1v2Prefix
  infer_instance

instance : Incremental readFlatWireTypes := by
  unfold readFlatWireTypes
  infer_instance

instance (pathName : String) : Incremental (readPathArms pathName) := by
  unfold readPathArms
  infer_instance

section Nested

variable (nested : ColumnReader) [∀ colType count, Incremental (nested colType count)]

instance (count : Nat) (inner : ColumnType) :
    Incremental (readNullableColumn nested count inner) := by
  unfold readNullableColumn
  infer_instance

instance (count : Nat) (inner : ColumnType) :
    Incremental (readLowCardinalityColumn nested count inner) := by
  unfold readLowCardinalityColumn
  obtain ⟨dictType, isNullableInner⟩ := dictionaryType inner
  refine .andThen fun state => .andThen fun _ => .andThen fun _ => ?_
  infer_instance

instance (count : Nat) (inner : ColumnType) :
    Incremental (readArrayColumn nested count inner) := by
  unfold readArrayColumn
  infer_instance

instance (count : Nat) (fields : List ColumnType) (rows : ColumnData) :
    Incremental (readTupleFields nested count fields rows) := by
  induction fields generalizing rows with
  | nil => exact Incremental.pure rows
  | cons field fields ih =>
      rw [readTupleFields]
      infer_instance

instance (count : Nat) (fields : List ColumnType) :
    Incremental (readTupleColumn nested count fields) := by
  unfold readTupleColumn
  infer_instance

instance (count : Nat) (keyType valType : ColumnType) :
    Incremental (readMapColumn nested count keyType valType) := by
  unfold readMapColumn
  infer_instance

instance (types : List ColumnType) (discriminators : List Nat) :
    Incremental (readArms nested types discriminators) := by
  unfold readArms
  infer_instance

instance (count : Nat) (types : List ColumnType) :
    Incremental (readVariantColumn nested count types) := by
  unfold readVariantColumn
  infer_instance

instance (count : Nat) (header : DynamicHeader) :
    Incremental (readDynamicV1v2Body nested count header) := by
  unfold readDynamicV1v2Body
  infer_instance

instance (count : Nat) : Incremental (readDynamicFlattenedColumn nested count) := by
  unfold readDynamicFlattenedColumn
  infer_instance

instance (readDiscriminators : ByteReader (List Nat)) [Incremental readDiscriminators]
    (path : String × List Arm) :
    Incremental (readPathValues nested readDiscriminators path) := by
  unfold readPathValues
  infer_instance

instance (count : Nat) : Incremental (readJsonObjectV2Column nested count) := by
  unfold readJsonObjectV2Column
  infer_instance

instance (count : Nat) : Incremental (readJsonObjectFlattenedColumn nested count) := by
  unfold readJsonObjectFlattenedColumn
  infer_instance

instance (count version : Nat) : Incremental (readJsonBody nested count version) := by
  unfold readJsonBody
  infer_instance

instance (count : Nat) : Incremental (readJsonColumn nested count) := by
  unfold readJsonColumn
  infer_instance

instance (count : Nat) : Incremental (readDynamicColumn nested count) := by
  unfold readDynamicColumn
  have each : ∀ version : Nat, Incremental (match version with
      | 1 => do
          let header ← readDynamicV1v2Prefix true
          readDynamicV1v2Body nested count header
      | 2 => do
          let header ← readDynamicV1v2Prefix false
          readDynamicV1v2Body nested count header
      | 3 => readDynamicFlattenedColumn nested count
      | _ =>
          Reader.fail (.badResponse ("native protocol: unsupported Dynamic serialization " ++
            "version: " ++ toString version))) := by
    intro version
    split <;> infer_instance
  infer_instance

instance (colType : ColumnType) (count : Nat) :
    Incremental (readColumnStep nested colType count) := by
  unfold readColumnStep
  split
  case h_14 =>
    split <;> infer_instance
  all_goals infer_instance

end Nested

instance (levels : Nat) (colType : ColumnType) (count : Nat) :
    Incremental (readColumnLevels levels colType count) := by
  induction levels generalizing colType count with
  | zero => exact Incremental.fail _
  | succ levels ih =>
      rw [readColumnLevels]
      infer_instance

instance (colType : ColumnType) (count depth : Nat) :
    Incremental (readColumnAt colType count depth) := by
  unfold readColumnAt
  infer_instance

instance (colType : ColumnType) (count : Nat) : Incremental (readColumnData colType count) := by
  unfold readColumnData
  infer_instance

instance (overflow : String) (count width : Nat) :
    Incremental (readBulk overflow count width) := by
  unfold readBulk
  infer_instance

instance incremental_readLeColumn (width count : Nat) :
    Incremental (readLeColumn width count) := by
  unfold readLeColumn
  infer_instance

instance (count : Nat) : Incremental (readU256Column count) := by
  unfold readU256Column
  infer_instance

instance (count : Nat) : Incremental (readByteColumn count) := by
  unfold readByteColumn
  infer_instance

instance (what : String) (count prev : Nat) :
    Incremental (readMonotoneOffsets what count prev) := by
  induction count generalizing prev with
  | zero => exact Incremental.pure []
  | succ count ih =>
      rw [readMonotoneOffsets]
      infer_instance

instance (levels : Nat) (colType : ColumnType) :
    Incremental (decodePrefixesLevels levels colType) := by
  induction levels generalizing colType with
  | zero => exact Incremental.fail _
  | succ levels ih =>
      rw [decodePrefixesLevels]
      unfold decodePrefixesStep
      split <;> infer_instance

instance (colType : ColumnType) : Incremental (decodePrefixes colType) := by
  unfold decodePrefixes
  infer_instance

instance (indexType count : Nat) : Incremental (decodeIndices indexType count) := by
  unfold decodeIndices
  split <;> infer_instance

instance (colType : ColumnType) (count : Nat) : Incremental (decodeLeaf colType count) := by
  unfold decodeLeaf
  split
  all_goals first
    | infer_instance
    | exact @Incremental.map _ _ _ _ _ _ (incremental_readLeColumn _ count)

section Nested

variable (nested : ColumnDecoder)
  [∀ colType count headers, Incremental (nested colType count headers)]

instance (inner : ColumnType) (count : Nat) (headers : List DynamicHeader) :
    Incremental (decodeLowCardinality nested inner count headers) := by
  unfold decodeLowCardinality
  obtain ⟨dictType, isNullableInner⟩ := dictionaryType inner
  refine .andThen fun flags => .andThen fun _ => .andThen fun _ => .andThen fun size => ?_
  refine .andThen fun (combined, headers) => ?_
  infer_instance

instance (count : Nat) (fields : List ColumnType) (headers : List DynamicHeader) :
    Incremental (decodeFields nested count fields headers) := by
  induction fields generalizing headers with
  | nil => exact Incremental.pure _
  | cons field fields ih =>
      rw [decodeFields]
      infer_instance

instance (depth : Nat) (colType : ColumnType) (count : Nat) (headers : List DynamicHeader) :
    Incremental (decodeColumnStep nested depth colType count headers) := by
  unfold decodeColumnStep
  split
  all_goals first
    | infer_instance
    | split <;> infer_instance

end Nested

instance (levels : Nat) (colType : ColumnType) (count : Nat) (headers : List DynamicHeader) :
    Incremental (decodeColumnLevels levels colType count headers) := by
  induction levels generalizing colType count headers with
  | zero => exact Incremental.fail _
  | succ levels ih =>
      rw [decodeColumnLevels]
      infer_instance

instance (colType : ColumnType) (count depth : Nat) (headers : List DynamicHeader) :
    Incremental (decodeColumn colType count depth headers) := by
  unfold decodeColumn
  infer_instance

/-- Groups that were read within some room are read within more. -/
theorem readSparseGroups_within {numRows groups position : Nat} {after : Bool} {input rest : Bytes}
    {result : List Nat × SparseDeserializeState}
    (read : readSparseGroups numRows groups position after input = .ok (result, rest))
    (extra : Nat) :
    readSparseGroups numRows (groups + extra) position after input = .ok (result, rest) := by
  induction groups generalizing position after input rest result with
  | zero => cases read
  | succ groups ih =>
      rw [Nat.add_right_comm, readSparseGroups]
      rw [readSparseGroups] at read
      obtain ⟨groupSize, middle, size, read⟩ := bind_ok_iff.mp read
      rw [bind_of_ok size]
      dsimp only at read ⊢
      generalize (position + if groupSize.testBit 62 then groupSize - endOfGranuleFlag
        else groupSize) % 2 ^ 64 = position at read ⊢
      by_cases last : groupSize.testBit 62
      · rw [if_pos last] at read ⊢
        exact read
      · rw [if_neg last] at read ⊢
        by_cases inside : position < numRows
        · rw [if_pos inside] at read ⊢
          obtain ⟨⟨offsets, state⟩, later, tail, read⟩ := bind_ok_iff.mp read
          rw [bind_of_ok (ih tail)]
          exact read
        · rw [if_neg inside] at read ⊢
          exact ih read

instance (numRows groups position : Nat) (after : Bool) :
    Incremental (readSparseGroups numRows groups position after) := by
  induction groups generalizing position after with
  | zero => exact Incremental.fail _
  | succ groups ih =>
      rw [readSparseGroups]
      infer_instance

/-- The room for the groups grows with the input. -/
theorem extend_readSparseOffsets {numRows : Nat} {input rest : Bytes}
    {result : List Nat × SparseDeserializeState}
    (read : readSparseOffsets numRows {} input = .ok (result, rest)) (more : Bytes) :
    readSparseOffsets numRows {} (input ++ more) = .ok (result, rest ++ more) := by
  have room : (input ++ more).length + 1 = input.length + 1 + more.length := by
    rw [List.length_append]
    omega
  change readSparseGroups numRows ((input ++ more).length + 1) 0 false (input ++ more) = _
  rw [room]
  have read : readSparseGroups numRows (input.length + 1) 0 false input = .ok (result, rest) := read
  exact readSparseGroups_within (Incremental.extend read more) more.length

instance (numRows : Nat) : Incremental (readSparseOffsets numRows {}) where
  extend read more := extend_readSparseOffsets read more

instance (name : String) : Incremental (readSerializationKind name) := by
  unfold readSerializationKind
  infer_instance

instance (colType : ColumnType) (numRows : Nat) (sparse : Bool) :
    Incremental (decodeColumnPayload colType numRows sparse) := by
  unfold decodeColumnPayload
  infer_instance

instance (numRows serverRevision : Nat) :
    Incremental (decodeBlockColumn numRows serverRevision) := by
  unfold decodeBlockColumn
  refine .andThen fun name => .andThen fun typeName => ?_
  cases ColumnType.parse typeName with
  | none =>
      dsimp only
      split <;> infer_instance
  | some colType =>
      dsimp only
      split <;> infer_instance

instance (numColumns numRows serverRevision : Nat) :
    Incremental (decodeBlock numColumns numRows serverRevision) := by
  unfold decodeBlock
  infer_instance

end DfeClickhouse.Native
