import DfeClickhouse.Native.BlockRoundTrip
import DfeClickhouse.Native.Incremental
import DfeClickhouse.Tcp.QueryPacket

/-!
# A Native body over HTTP

The body is a run of blocks with no terminator: it ends where the first byte of the next
block's info would be.
-/

namespace DfeClickhouse.Unified

open Library Native Native.RowValue Tcp

/-- A variable-length integer, or none where the stream has ended. -/
def readVarUintOrEof : ByteReader (Option Nat)
  | [] => .ok (none, [])
  | first :: rest =>
      match VarUintDecoder.push {} first with
      | .error error => .error error
      | .ok (_, some value) => .ok (some value, rest)
      | .ok (decoder, none) => (some <$> decoder.readFrom unexpectedEof) rest

def blockInfoError (what : String) (found expected : Nat) : Error :=
  .badResponse ("native over http: block info " ++ what ++ " " ++ toString found ++
    " (expected " ++ toString expected ++ ")")

/-- The block info after its first field id. -/
def finishBlockInfo : ByteReader Unit := do
  let _isOverflows ← readU8
  let field2 ← readVarUint
  Reader.require (field2 = 2) (blockInfoError "field id" field2 2)
  let _bucketNum ← readExact 4
  let terminator ← readVarUint
  Reader.require (terminator = 0) (blockInfoError "terminator" terminator 0)

/-- What follows the first field id of a block. -/
def readBlockAfter (field1 : Nat) : ByteReader DecodedBlock := do
  Reader.require (field1 = 1) (blockInfoError "field id" field1 1)
  finishBlockInfo
  let numColumns ← readVarUint
  let numRows ← readVarUint
  decodeBlock numColumns numRows tcpProtocolVersion

/-- One round of the loop: the next block, or the end of the stream. -/
def readNextBlock : ByteReader (Option DecodedBlock) := do
  match ← readVarUintOrEof with
  | none => return none
  | some field1 => some <$> readBlockAfter field1

/-- The blocks of a body.  Every round but the last takes a byte at least. -/
def decodeNativeStream (body : Bytes) : Except Error (List DecodedBlock) :=
  match Reader.untilNone unexpectedEof readNextBlock body with
  | .ok (blocks, _) => .ok blocks
  | .error error => .error error

/-- A block from its first byte, where there is one. -/
def readBlock : ByteReader DecodedBlock := do
  let field1 ← readVarUint
  readBlockAfter field1

theorem readVarUintOrEof_eq : readVarUintOrEof = Reader.unlessEnd readVarUint := by
  funext input
  cases input with
  | nil => rfl
  | cons first rest =>
      rw [Reader.unlessEnd, Reader.map_run, readVarUintOrEof, readVarUint,
        VarUintDecoder.readFrom]
      cases VarUintDecoder.push {} first with
      | error error => rfl
      | ok result =>
          obtain ⟨decoder, found⟩ := result
          cases found with
          | some value => rfl
          | none =>
              dsimp only
              rw [Reader.map_run]

/-- The probe takes nothing that the block would miss. -/
theorem readNextBlock_eq : readNextBlock = Reader.unlessEnd readBlock := by
  funext input
  rw [readNextBlock, readVarUintOrEof_eq]
  cases input with
  | nil => rfl
  | cons first rest =>
      rw [Reader.unlessEnd, Reader.bind_run, Reader.unlessEnd, Reader.map_run, Reader.map_run,
        readBlock, Reader.bind_run]
      cases readVarUint (first :: rest) with
      | error error => rfl
      | ok result =>
          obtain ⟨field1, behind⟩ := result
          dsimp only
          rw [Reader.map_run]

instance : Reader.Incremental finishBlockInfo := by
  unfold finishBlockInfo
  infer_instance

instance (field1 : Nat) : Reader.Incremental (readBlockAfter field1) := by
  unfold readBlockAfter
  infer_instance

instance : Reader.Incremental readBlock := by
  unfold readBlock
  infer_instance

/-- The info section before a block: two fields, each behind its id, and a zero. -/
structure BlockInfo where
  isOverflows : UInt8
  bucketNum : UInt32

def BlockInfo.bytes (info : BlockInfo) : Bytes :=
  encodeVarUint 1 ++ [info.isOverflows] ++ encodeVarUint 2 ++ natLe 4 info.bucketNum.toNat ++
    encodeVarUint 0

/-- A block with a column and a row at least, of types that round trip and within the
caps of the wire. -/
structure NativeBlock where
  info : BlockInfo
  columns : List ColumnSchema
  records : List (List RowValue)
  someColumns : columns ≠ []
  someRows : records ≠ []
  caps : ∀ column ∈ columns, column.WithinCaps
  roundTrips : ∀ column ∈ columns, column.colType.roundTrips = true
  columnCap : columns.length ≤ Native.maxBlockColumns
  rowCap : records.length ≤ Native.maxBlockRows
  typed : ∀ record ∈ records, List.Forall₂ HasType (columns.map ColumnSchema.colType) record
  fits : FieldColumnsFit (columns.map ColumnSchema.colType)
    (records.map fun record => record.map rowBinary)

namespace NativeBlock

/-- The bytes of a block whose columns were encoded. -/
def frame (block : NativeBlock) (encoded : Bytes) : Bytes :=
  block.info.bytes ++ encodeVarUint block.columns.length ++
    encodeVarUint block.records.length ++ encoded

/-- The bytes of a block at the advertised revision. -/
def encode (block : NativeBlock) : Except Error Bytes :=
  match encodeColumns (block.records.map rowBinaries) block.columns tcpProtocolVersion with
  | .ok encoded => .ok (block.frame encoded)
  | .error error => .error error

/-- The decoded block has the schema, the row count and the cells of the given one. -/
structure DecodesTo (block : NativeBlock) (decoded : DecodedBlock) : Prop where
  schema : decoded.schema = block.columns.map fun column => (column.name, column.typeName)
  numRows : decoded.numRows = block.records.length
  numColumns : decoded.columns.length = block.columns.length
  cells : ∀ (index row : Nat) (value : RowValue),
    (block.records[row]?).bind (·[index]?) = some value →
      ∃ column : DecodedColumn, decoded.columns[index]? = some column ∧
        column.cell row = some value.rowBinary

end NativeBlock

theorem reads_finishBlockInfo (info : BlockInfo) :
    Reader.Reads finishBlockInfo ([info.isOverflows] ++ encodeVarUint 2 ++
      natLe 4 info.bucketNum.toNat ++ encodeVarUint 0) () := by
  have terminator : Reader.Reads (do
      let terminator ← readVarUint
      Reader.require (terminator = 0) (blockInfoError "terminator" terminator 0))
      (encodeVarUint 0 ++ []) () := by
    apply (reads_readVarUint (by decide)).bind
    exact Reader.Reads.require rfl _
  have bucket : Reader.Reads (do
      let _bucketNum ← readExact 4
      let terminator ← readVarUint
      Reader.require (terminator = 0) (blockInfoError "terminator" terminator 0))
      (natLe 4 info.bucketNum.toNat ++ (encodeVarUint 0 ++ [])) () :=
    (reads_readExact (length_natLe 4 info.bucketNum.toNat)).bind terminator
  rw [List.append_assoc, List.append_assoc]
  apply (reads_readU8 info.isOverflows).bind
  apply (reads_readVarUint (by decide)).bind
  apply Reader.Reads.require_bind rfl
  simpa using bucket

/-- A frame is read as its columns are. -/
theorem NativeBlock.reads_frame {block : NativeBlock} {encoded : Bytes} {decoded : DecodedBlock}
    (reads : Reader.Reads
      (decodeBlock block.columns.length block.records.length tcpProtocolVersion) encoded decoded) :
    Reader.Reads readBlock (block.frame encoded) decoded := by
  have smallColumns : block.columns.length < 2 ^ 64 :=
    Nat.lt_of_le_of_lt block.columnCap (by decide)
  have smallRows : block.records.length < 2 ^ 64 :=
    Nat.lt_of_le_of_lt block.rowCap (by decide)
  have body : Reader.Reads (readBlockAfter 1)
      (([block.info.isOverflows] ++ encodeVarUint 2 ++ natLe 4 block.info.bucketNum.toNat ++
        encodeVarUint 0) ++ (encodeVarUint block.columns.length ++
          (encodeVarUint block.records.length ++ encoded))) decoded := by
    apply Reader.Reads.require_bind rfl
    apply (reads_finishBlockInfo block.info).bind
    apply (reads_readVarUint smallColumns).bind
    apply (reads_readVarUint smallRows).bind
    exact reads
  have whole : block.frame encoded = encodeVarUint 1 ++
      (([block.info.isOverflows] ++ encodeVarUint 2 ++ natLe 4 block.info.bucketNum.toNat ++
        encodeVarUint 0) ++ (encodeVarUint block.columns.length ++
          (encodeVarUint block.records.length ++ encoded))) := by
    simp only [frame, BlockInfo.bytes, List.append_assoc]
  rw [whole]
  exact (reads_readVarUint (by decide)).bind body

/-- A block is read back from its frame, whatever follows. -/
theorem NativeBlock.reads_readBlock {block : NativeBlock} {encoded : Bytes}
    (succeeded : encodeColumns (block.records.map rowBinaries) block.columns tcpProtocolVersion =
      .ok encoded)
    (bounded : encoded.length < addressSpace) :
    ∃ decoded, Reader.Reads readBlock (block.frame encoded) decoded ∧
      block.DecodesTo decoded := by
  obtain ⟨decoded, read, schema, numRows, numColumns, cells⟩ :=
    @decodeBlock_of_roundTrips _ _ _ block.someColumns block.someRows block.caps block.roundTrips
      block.columnCap block.rowCap block.typed block.fits encoded [] succeeded
        (by simpa using bounded)
  rw [List.append_nil] at read
  exact ⟨decoded, NativeBlock.reads_frame (Reader.Incremental.reads read),
    ⟨schema, numRows, numColumns, cells⟩⟩

theorem NativeBlock.frame_ne_nil (block : NativeBlock) (encoded : Bytes) :
    block.frame encoded ≠ [] := by
  simp [frame, BlockInfo.bytes, encodeVarUint_ne_nil]

/-- Every block is encoded into a frame that is read back. -/
theorem frames_of_blocks (blocks : List NativeBlock)
    (bounded : ∀ block ∈ blocks, ∀ frame, block.encode = .ok frame →
      frame.length < addressSpace) :
    ∃ frames, blocks.mapM NativeBlock.encode = .ok frames ∧
      (∀ frame ∈ frames, frame ≠ []) ∧
      ∃ decoded, List.Forall₂ (Reader.Reads readBlock) frames decoded ∧
        List.Forall₂ NativeBlock.DecodesTo blocks decoded := by
  induction blocks with
  | nil => exact ⟨[], rfl, by simp, [], .nil, .nil⟩
  | cons block blocks ih =>
      obtain ⟨frames, succeeded, nonempty, decoded, reads, agree⟩ :=
        ih fun block member => bounded block (by simp [member])
      obtain ⟨encoded, encodes⟩ := encodeColumns_ok tcpProtocolVersion block.someColumns
        block.someRows block.caps block.roundTrips block.rowCap block.typed block.fits
      have first : block.encode = .ok (block.frame encoded) := by
        rw [NativeBlock.encode, encodes]
      have small : encoded.length < addressSpace := by
        have := bounded block (by simp) _ first
        rw [NativeBlock.frame, List.length_append] at this
        omega
      obtain ⟨head, readsHead, agreesHead⟩ := block.reads_readBlock encodes small
      refine ⟨block.frame encoded :: frames, ?_, ?_, head :: decoded, .cons readsHead reads,
        .cons agreesHead agree⟩
      · rw [List.mapM_cons, first, succeeded]
        rfl
      · intro frame member
        cases member with
        | head => exact block.frame_ne_nil encoded
        | tail _ member => exact nonempty frame member

/-- A body of blocks is decoded into those blocks in order, and a body that is cut
inside a block is an error. -/
theorem decodeNativeStream_framed (blocks : List NativeBlock)
    (bounded : ∀ block ∈ blocks, ∀ frame, block.encode = .ok frame →
      frame.length < addressSpace) :
    ∃ frames, blocks.mapM NativeBlock.encode = .ok frames ∧
      (∃ decoded, decodeNativeStream frames.flatten = .ok decoded ∧
        List.Forall₂ NativeBlock.DecodesTo blocks decoded) ∧
      ∀ cut, cut <+: frames.flatten → (∀ count, cut ≠ (frames.take count).flatten) →
        ∃ error, decodeNativeStream cut = .error error := by
  obtain ⟨frames, succeeded, nonempty, decoded, reads, agree⟩ := frames_of_blocks blocks bounded
  refine ⟨frames, succeeded, ⟨decoded, ?_, agree⟩, ?_⟩
  · rw [decodeNativeStream, readNextBlock_eq, Reader.untilNone_frames reads nonempty]
  · intro cut inside apart
    have rejected : ∃ error,
        Reader.untilNone unexpectedEof (Reader.unlessEnd readBlock) cut = .error error :=
      Reader.untilNone_cut_error reads inside apart
    obtain ⟨error, failed⟩ := rejected
    refine ⟨error, ?_⟩
    rw [decodeNativeStream, readNextBlock_eq, failed]

/-- One block of two tagged rows. -/
def tagBlock : NativeBlock where
  info := ⟨0, 0xffffffff⟩
  columns := tagColumns
  records := tagRecords
  someColumns := by simp [tagColumns]
  someRows := by simp [tagRecords]
  caps := withinCaps_tagColumns
  roundTrips := by
    simp [tagColumns, ColumnType.roundTrips, ColumnType.isPlain, ColumnType.fixedSize]
  columnCap := by decide
  rowCap := by decide
  typed := hasType_tagRecords
  fits := fits_tagRecords

theorem encode_tagBlock : ∃ behind, tagBlock.encode = .ok (1 :: behind) ∧ behind.length = 121 :=
  ⟨_, rfl, rfl⟩

theorem decodeNativeStream_framed_tags :
    ∃ frame, tagBlock.encode = .ok frame ∧
      (∃ first second, decodeNativeStream (frame ++ frame) = .ok [first, second]) ∧
      ∃ error, decodeNativeStream [1] = .error error := by
  obtain ⟨behind, encoded, sized⟩ := encode_tagBlock
  have bounded : ∀ block ∈ [tagBlock, tagBlock], ∀ frame, block.encode = .ok frame →
      frame.length < addressSpace := by
    intro block member other succeeded
    simp only [List.mem_cons, List.not_mem_nil, or_false, or_self] at member
    subst member
    obtain rfl := Except.ok.inj (encoded.symm.trans succeeded)
    rw [List.length_cons, sized]
    decide
  obtain ⟨frames, succeeded, ⟨decoded, read, agree⟩, cuts⟩ :=
    decodeNativeStream_framed [tagBlock, tagBlock] bounded
  have two : frames = [1 :: behind, 1 :: behind] := by
    simp only [List.mapM_cons, List.mapM_nil, encoded] at succeeded
    exact (Except.ok.inj succeeded).symm
  subst two
  refine ⟨1 :: behind, encoded, ?_, ?_⟩
  · obtain ⟨first, others, _, rest, rfl⟩ := List.forall₂_cons_left_iff.mp agree
    obtain ⟨second, last, _, ended, rfl⟩ := List.forall₂_cons_left_iff.mp rest
    obtain rfl := List.forall₂_nil_left_iff.mp ended
    refine ⟨first, second, ?_⟩
    simpa using read
  · apply cuts [1]
    · exact ⟨behind ++ (1 :: behind), by simp⟩
    · intro count same
      have lengths := congrArg List.length same
      match count with
      | 0 => cases same
      | 1 => simp [sized] at lengths
      | count + 2 => simp [sized] at lengths

end DfeClickhouse.Unified
