import DfeClickhouse.Native.Incremental
import DfeClickhouse.Tcp.SchemaBlock
import DfeClickhouse.Tcp.Sentinel

/-!
# Reading server packets

The decoders of what a server sends once a connection is open, and the loop of the reader
task.  A field that came with a revision is on the wire when both sides have it.
-/

namespace DfeClickhouse.Tcp

open Library Native

/-- The ids of server packets this client handles. -/
inductive ServerPacketId
  | hello
  | data
  | exception
  | progress
  | pong
  | endOfStream
  | profileInfo
  | totals
  | extremes
  | log
  | tableColumns
  | profileEvents
  | timezoneUpdate
  deriving DecidableEq

namespace ServerPacketId

def fromU64 : Nat → Except Error ServerPacketId
  | 0 => .ok hello
  | 1 => .ok data
  | 2 => .ok exception
  | 3 => .ok progress
  | 4 => .ok pong
  | 5 => .ok endOfStream
  | 6 => .ok profileInfo
  | 7 => .ok totals
  | 8 => .ok extremes
  | 10 => .ok log
  | 11 => .ok tableColumns
  | 14 => .ok profileEvents
  | 17 => .ok timezoneUpdate
  | other => .error (.badResponse ("tcp: unknown server packet id " ++ toString other))

/-- The id on the wire. -/
def code : ServerPacketId → Nat
  | hello => 0
  | data => 1
  | exception => 2
  | progress => 3
  | pong => 4
  | endOfStream => 5
  | profileInfo => 6
  | totals => 7
  | extremes => 8
  | log => 10
  | tableColumns => 11
  | profileEvents => 14
  | timezoneUpdate => 17

@[simp] theorem fromU64_code (id : ServerPacketId) : fromU64 id.code = .ok id := by
  cases id <;> rfl

theorem code_lt (id : ServerPacketId) : id.code < 2 ^ 64 := by
  cases id <;> decide

/-- The name of an id, as it is shown for debugging. -/
def label : ServerPacketId → String
  | hello => "Hello"
  | data => "Data"
  | exception => "Exception"
  | progress => "Progress"
  | pong => "Pong"
  | endOfStream => "EndOfStream"
  | profileInfo => "ProfileInfo"
  | totals => "Totals"
  | extremes => "Extremes"
  | log => "Log"
  | tableColumns => "TableColumns"
  | profileEvents => "ProfileEvents"
  | timezoneUpdate => "TimezoneUpdate"

end ServerPacketId

def minRevisionWithTotalRowsInProgress : Nat := 51554
def minRevisionWithClientWriteInfo : Nat := 54420
def minProtocolVersionWithServerQueryTimeInProgress : Nat := 54460
def minProtocolVersionWithTotalBytesInProgress : Nat := 54463
def minRevisionWithRowsBeforeAggregation : Nat := 54469

/-- Read a field that is there since a revision, or leave a default. -/
def readSinceOr {α : Type} (effective gate : Nat) : α → ByteReader α → ByteReader α :=
  Reader.onlyIfOr (gate ≤ effective)

/-- A little-endian `i32`. -/
def readI32Le : ByteReader Int := do
  let bytes ← readExact 4
  return (BitVec.ofNat 32 (leNat bytes)).toInt

/-- Read an Exception frame.  The flag at its end is obsolete. -/
def readException : ByteReader Exception := do
  let code ← readI32Le
  let name ← readUtf8String
  let message ← readUtf8String
  let stackTrace ← readUtf8String
  let _obsoleteHasNested ← readU8
  return {
    code
    name
    message
    stackTrace := truncateOnCharBoundary stackTrace exceptionStackTraceCap }

structure Progress where
  rowsRead : Nat
  bytesRead : Nat
  totalRowsToRead : Nat
  writtenRows : Nat
  writtenBytes : Nat

def readWritten : ByteReader (Nat × Nat) := do
  let writtenRows ← readVarUint
  let writtenBytes ← readVarUint
  return (writtenRows, writtenBytes)

/-- Read a Progress packet; the fields stand in the server's order, not in the order of
their revisions. -/
def readProgress (serverRevision : UInt64) : ByteReader Progress := do
  let effective := effectiveRevision serverRevision
  let rowsRead ← readVarUint
  let bytesRead ← readVarUint
  let totalRowsToRead ← readSinceOr effective minRevisionWithTotalRowsInProgress 0 readVarUint
  readSince effective minProtocolVersionWithTotalBytesInProgress (skip readVarUint)
  let written ← readSinceOr effective minRevisionWithClientWriteInfo (0, 0) readWritten
  readSince effective minProtocolVersionWithServerQueryTimeInProgress (skip readVarUint)
  return {
    rowsRead
    bytesRead
    totalRowsToRead
    writtenRows := written.1
    writtenBytes := written.2 }

structure ProfileInfo where
  rows : Nat
  blocks : Nat
  bytes : Nat
  appliedLimit : Bool
  rowsBeforeLimit : Nat

def readProfileInfo (serverRevision : UInt64) : ByteReader ProfileInfo := do
  let rows ← readVarUint
  let blocks ← readVarUint
  let bytes ← readVarUint
  let appliedLimit ← readU8
  let rowsBeforeLimit ← readVarUint
  let _calculatedRowsBeforeLimit ← readU8
  readSince (effectiveRevision serverRevision) minRevisionWithRowsBeforeAggregation do
    skip readU8
    skip readVarUint
  return { rows, blocks, bytes, appliedLimit := appliedLimit ≠ 0, rowsBeforeLimit }

structure TableColumns where
  externalTableName : String
  columnsDefinition : String

def readTableColumns : ByteReader TableColumns := do
  let externalTableName ← readUtf8String
  let columnsDefinition ← readUtf8String
  return { externalTableName, columnsDefinition }

def blockInfoRefused (what : String) (found : Nat) (expected : String) : Error :=
  .badResponse ("native: block info " ++ what ++ " " ++ toString found ++
    " (expected " ++ expected ++ ")")

/-- Read a block's info section, whose field ids are fixed. -/
def readBlockInfo : ByteReader Unit := do
  let field1 ← readVarUint
  Reader.require (field1 = 1) (blockInfoRefused "field id" field1 "1 = is_overflows")
  let _isOverflows ← readU8
  let field2 ← readVarUint
  Reader.require (field2 = 2) (blockInfoRefused "field id" field2 "2 = bucket_num")
  let _bucketNum ← readI32Le
  let terminator ← readVarUint
  Reader.require (terminator = 0) (blockInfoRefused "terminator" terminator "0")

/-- What comes before the columns of a block. -/
structure DataBlockHeader where
  tableName : Option String
  numColumns : Nat
  numRows : Nat

/-- Read what comes before the columns of a block, the counts last. -/
def readDataBlockHeader (serverRevision : UInt64) : ByteReader DataBlockHeader := do
  let tableName ← readSinceOr serverRevision.toNat minRevisionWithTemporaryTables none
    (some <$> readUtf8String)
  readSince serverRevision.toNat minRevisionWithBlockInfo readBlockInfo
  let numColumns ← readVarUint
  Reader.require (numColumns ≤ maxBlockColumns)
    (.badResponse ("tcp: block header declares " ++ toString numColumns ++
      " columns, above the " ++ toString maxBlockColumns ++ " cap"))
  let numRows ← readVarUint
  return { tableName, numColumns, numRows }

/-- Read a block of telemetry, which is dropped: a string where a table name would be,
and a block. -/
def consumeTelemetryBlock (serverRevision : UInt64) : ByteReader Unit := do
  let header ← readDataBlockHeader serverRevision
  if header.numRows = 0 then
    skip (readEmptyDataBlockSchema header.numColumns serverRevision.toNat)
  else
    skip (decodeBlock header.numColumns header.numRows serverRevision.toNat)

/-- A packet with everything the client takes from it. -/
inductive ReceivedPacket
  | data (tableName : Option String) (numColumns numRows : Nat) (columns : List (String × String))
  | dataBlock (block : DecodedBlock)
  | exception (exc : Exception)
  | progress (progress : Progress)
  | profileInfo (info : ProfileInfo)
  | pong
  | endOfStream
  | log
  | tableColumns (columns : TableColumns)
  | profileEvents
  | timezoneUpdate (timezone : String)

/-- The part of a packet that the actor looks at. -/
def ReceivedPacket.packet : ReceivedPacket → ServerPacket
  | data _ _ numRows columns => .data numRows columns
  | dataBlock block => .dataBlock block
  | exception exc => .exception exc
  | progress _ => .progress
  | profileInfo _ => .profileInfo
  | pong => .pong
  | endOfStream => .endOfStream
  | log => .log
  | tableColumns _ => .tableColumns
  | profileEvents => .profileEvents
  | timezoneUpdate timezone => .timezoneUpdate timezone

/-- The rest of a Data, Totals or Extremes packet. -/
def readDataPacket (serverRevision : UInt64) : ByteReader ReceivedPacket := do
  let header ← readDataBlockHeader serverRevision
  if header.numRows = 0 then
    let columns ← readEmptyDataBlockSchema header.numColumns serverRevision.toNat
    return .data header.tableName header.numColumns header.numRows columns
  else
    let block ← decodeBlock header.numColumns header.numRows serverRevision.toNat
    return .dataBlock block

/-- The rest of a packet behind its id. -/
def readPacketBody (serverRevision : UInt64) : ServerPacketId → ByteReader ReceivedPacket
  | .data | .totals | .extremes => readDataPacket serverRevision
  | .exception => .exception <$> readException
  | .progress => .progress <$> readProgress serverRevision
  | .profileInfo => .profileInfo <$> readProfileInfo serverRevision
  | .pong => pure .pong
  | .endOfStream => pure .endOfStream
  | .log => do
      consumeTelemetryBlock serverRevision
      return .log
  | .tableColumns => .tableColumns <$> readTableColumns
  | .profileEvents => do
      consumeTelemetryBlock serverRevision
      return .profileEvents
  | .timezoneUpdate => .timezoneUpdate <$> readUtf8String
  | .hello =>
      Reader.fail (.badResponse ("tcp: unexpected server packet " ++ ServerPacketId.hello.label ++
        " mid-stream"))

/-- Read one packet. -/
def readPacket (serverRevision : UInt64) : ByteReader ReceivedPacket := do
  let packetType ← readVarUint
  let id ← Reader.ofExcept (ServerPacketId.fromU64 packetType)
  readPacketBody serverRevision id

/-- What one round of the reader task hands to the actor. -/
def ReaderMessage.ofRead : Except Error ReceivedPacket → ReaderMessage
  | .ok received => .packet received.packet
  | .error failure => .error failure

/-- What the reader task hands to the actor in so many rounds of its loop.  The first
error is the last message. -/
def readerLoop (serverRevision : UInt64) (rounds : Nat) (input : Bytes) : List ReaderMessage :=
  (Reader.rounds (readPacket serverRevision) rounds input).map ReaderMessage.ofRead

instance : Reader.Incremental readI32Le := by
  unfold readI32Le
  infer_instance

instance {α : Type} (reader : ByteReader α) [Reader.Incremental reader] :
    Reader.Incremental (skip reader) := by
  unfold skip
  infer_instance

instance (effective gate : Nat) (reader : ByteReader Unit) [Reader.Incremental reader] :
    Reader.Incremental (readSince effective gate reader) := by
  unfold readSince
  infer_instance

instance {α : Type} (effective gate : Nat) (absent : α) (reader : ByteReader α)
    [Reader.Incremental reader] :
      Reader.Incremental (readSinceOr effective gate absent reader) := by
  unfold readSinceOr
  infer_instance

instance : Reader.Incremental readException := by
  unfold readException
  infer_instance

instance : Reader.Incremental readWritten := by
  unfold readWritten
  infer_instance

instance (serverRevision : UInt64) : Reader.Incremental (readProgress serverRevision) := by
  unfold readProgress
  infer_instance

instance (serverRevision : UInt64) : Reader.Incremental (readProfileInfo serverRevision) := by
  unfold readProfileInfo
  infer_instance

instance : Reader.Incremental readTableColumns := by
  unfold readTableColumns
  infer_instance

instance : Reader.Incremental readBlockInfo := by
  unfold readBlockInfo
  infer_instance

instance (serverRevision : UInt64) : Reader.Incremental (readDataBlockHeader serverRevision) := by
  unfold readDataBlockHeader
  infer_instance

instance (serverRevision : Nat) : Reader.Incremental (readSchemaColumn serverRevision) := by
  unfold readSchemaColumn
  infer_instance

instance (numColumns serverRevision : Nat) :
    Reader.Incremental (readEmptyDataBlockSchema numColumns serverRevision) := by
  unfold readEmptyDataBlockSchema
  infer_instance

instance (serverRevision : UInt64) : Reader.Incremental (consumeTelemetryBlock serverRevision) := by
  unfold consumeTelemetryBlock
  infer_instance

instance (serverRevision : UInt64) : Reader.Incremental (readDataPacket serverRevision) := by
  unfold readDataPacket
  infer_instance

instance (serverRevision : UInt64) (id : ServerPacketId) :
    Reader.Incremental (readPacketBody serverRevision id) := by
  cases id <;> unfold readPacketBody <;> infer_instance

instance (serverRevision : UInt64) : Reader.Incremental (readPacket serverRevision) := by
  unfold readPacket
  infer_instance

end DfeClickhouse.Tcp
