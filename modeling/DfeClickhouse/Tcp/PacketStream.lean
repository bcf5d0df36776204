import DfeClickhouse.Tcp.PacketReader
import DfeClickhouse.Unified.NativeStream

/-!
# The stream of server packets

What a server of any revision writes, and that the client reads it packet by packet.  A
server leaves out the fields that one of the two sides does not have, so both look at the
lower of the two revisions.
-/

namespace DfeClickhouse.Tcp

open Library Native

/-- A text within the cap of a wire string. -/
structure WireText where
  text : String
  bounded : (utf8 text).length ≤ maxStringSize

def WireText.bytes (text : WireText) : Bytes :=
  putString (utf8 text.text)

/-- The bytes of a field that came with a revision. -/
def since (serverRevision : UInt64) (gate : Nat) (field : Bytes) : Bytes :=
  if gate ≤ effectiveRevision serverRevision then field else []

/-- The value of a field that came with a revision. -/
def valueSince {α : Type} (serverRevision : UInt64) (gate : Nat) (absent value : α) : α :=
  if gate ≤ effectiveRevision serverRevision then value else absent

def numberBytes (value : UInt64) : Bytes :=
  encodeVarUint value.toNat

structure SentException where
  code : BitVec 32
  name : WireText
  message : WireText
  stackTrace : WireText
  hasNested : UInt8

namespace SentException

def bytes (exc : SentException) : Bytes :=
  [natLe 4 exc.code.toNat, exc.name.bytes, exc.message.bytes, exc.stackTrace.bytes,
    [exc.hasNested]].flatten

def received (exc : SentException) : Exception where
  code := exc.code.toInt
  name := exc.name.text
  message := exc.message.text
  stackTrace := truncateOnCharBoundary exc.stackTrace.text exceptionStackTraceCap

end SentException

structure SentProgress where
  rowsRead : UInt64
  bytesRead : UInt64
  totalRowsToRead : UInt64
  totalBytesToRead : UInt64
  writtenRows : UInt64
  writtenBytes : UInt64
  elapsedNs : UInt64

namespace SentProgress

def bytes (serverRevision : UInt64) (progress : SentProgress) : Bytes :=
  [numberBytes progress.rowsRead, numberBytes progress.bytesRead,
    since serverRevision minRevisionWithTotalRowsInProgress (numberBytes progress.totalRowsToRead),
    since serverRevision minProtocolVersionWithTotalBytesInProgress
      (numberBytes progress.totalBytesToRead),
    since serverRevision minRevisionWithClientWriteInfo
      [numberBytes progress.writtenRows, numberBytes progress.writtenBytes].flatten,
    since serverRevision minProtocolVersionWithServerQueryTimeInProgress
      (numberBytes progress.elapsedNs)].flatten

def received (serverRevision : UInt64) (progress : SentProgress) : Progress :=
  let written := valueSince serverRevision minRevisionWithClientWriteInfo (0, 0)
    (progress.writtenRows.toNat, progress.writtenBytes.toNat)
  { rowsRead := progress.rowsRead.toNat
    bytesRead := progress.bytesRead.toNat
    totalRowsToRead := valueSince serverRevision minRevisionWithTotalRowsInProgress 0
      progress.totalRowsToRead.toNat
    writtenRows := written.1
    writtenBytes := written.2 }

end SentProgress

structure SentProfileInfo where
  rows : UInt64
  blocks : UInt64
  bytesRead : UInt64
  appliedLimit : UInt8
  rowsBeforeLimit : UInt64
  calculatedRowsBeforeLimit : UInt8
  appliedAggregation : UInt8
  rowsBeforeAggregation : UInt64

namespace SentProfileInfo

def bytes (serverRevision : UInt64) (info : SentProfileInfo) : Bytes :=
  [numberBytes info.rows, numberBytes info.blocks, numberBytes info.bytesRead, [info.appliedLimit],
    numberBytes info.rowsBeforeLimit, [info.calculatedRowsBeforeLimit],
    since serverRevision minRevisionWithRowsBeforeAggregation
      [[info.appliedAggregation], numberBytes info.rowsBeforeAggregation].flatten].flatten

def received (info : SentProfileInfo) : ProfileInfo where
  rows := info.rows.toNat
  blocks := info.blocks.toNat
  bytes := info.bytesRead.toNat
  appliedLimit := info.appliedLimit ≠ 0
  rowsBeforeLimit := info.rowsBeforeLimit.toNat

end SentProfileInfo

/-- The columns of a block at a revision: their headers alone, or with rows that the
block decoder reads. -/
inductive SentColumns (serverRevision : UInt64)
  | headers (columns : List (WireText × WireText)) (capped : columns.length ≤ maxBlockColumns)
  | rows (numColumns numRows : Nat) (capped : numColumns ≤ maxBlockColumns) (present : numRows ≠ 0)
      (body : Bytes) (block : DecodedBlock)
      (decodes : Reader.Reads (decodeBlock numColumns numRows serverRevision.toNat) body block)

namespace SentColumns

variable {serverRevision : UInt64}

def numColumns : SentColumns serverRevision → Nat
  | headers columns _ => columns.length
  | rows numColumns _ _ _ _ _ _ => numColumns

def numRows : SentColumns serverRevision → Nat
  | headers _ _ => 0
  | rows _ numRows _ _ _ _ _ => numRows

/-- A column without rows: its name, its type and the flag of the default serialization. -/
def headerBytes (serverRevision : UInt64) (column : WireText × WireText) : Bytes :=
  [column.1.bytes, column.2.bytes, since serverRevision customSerializationRevision [0]].flatten

def body : SentColumns serverRevision → Bytes
  | headers columns _ => (columns.map (headerBytes serverRevision)).flatten
  | rows _ _ _ _ body _ _ => body

end SentColumns

structure SentBlock (serverRevision : UInt64) where
  /-- The table, or the tag of telemetry. -/
  tableName : WireText
  info : Unified.BlockInfo
  columns : SentColumns serverRevision

namespace SentBlock

variable {serverRevision : UInt64}

def bytes (block : SentBlock serverRevision) : Bytes :=
  [since serverRevision minRevisionWithTemporaryTables block.tableName.bytes,
    since serverRevision minRevisionWithBlockInfo block.info.bytes,
    encodeVarUint block.columns.numColumns, encodeVarUint block.columns.numRows,
    block.columns.body].flatten

def header (block : SentBlock serverRevision) : DataBlockHeader where
  tableName := valueSince serverRevision minRevisionWithTemporaryTables none
    (some block.tableName.text)
  numColumns := block.columns.numColumns
  numRows := block.columns.numRows

def received (block : SentBlock serverRevision) : ReceivedPacket :=
  match block.columns with
  | .headers columns _ =>
      .data block.header.tableName columns.length 0
        (columns.map fun column => (column.1.text, column.2.text))
  | .rows _ _ _ _ _ decoded _ => .dataBlock decoded

end SentBlock

/-- The packets of a result: its rows, and those of WITH TOTALS and of extremes. -/
inductive ResultKind
  | data
  | totals
  | extremes

def ResultKind.id : ResultKind → ServerPacketId
  | data => .data
  | totals => .totals
  | extremes => .extremes

/-- A packet of a server of a revision. -/
inductive SentPacket (serverRevision : UInt64)
  | result (kind : ResultKind) (block : SentBlock serverRevision)
  | exception (exc : SentException)
  | progress (counts : SentProgress)
  | profileInfo (info : SentProfileInfo)
  | pong
  | endOfStream
  | log (block : SentBlock serverRevision)
  | tableColumns (externalTableName columnsDefinition : WireText)
  | profileEvents (block : SentBlock serverRevision)
  | timezoneUpdate (timezone : WireText)

namespace SentPacket

variable {serverRevision : UInt64}

def id : SentPacket serverRevision → ServerPacketId
  | result kind _ => kind.id
  | exception _ => .exception
  | progress _ => .progress
  | profileInfo _ => .profileInfo
  | pong => .pong
  | endOfStream => .endOfStream
  | log _ => .log
  | tableColumns _ _ => .tableColumns
  | profileEvents _ => .profileEvents
  | timezoneUpdate _ => .timezoneUpdate

def body : SentPacket serverRevision → Bytes
  | result _ block | log block | profileEvents block => block.bytes
  | exception exc => exc.bytes
  | progress counts => counts.bytes serverRevision
  | profileInfo info => info.bytes serverRevision
  | pong | endOfStream => []
  | tableColumns externalTableName columnsDefinition =>
      [externalTableName.bytes, columnsDefinition.bytes].flatten
  | timezoneUpdate timezone => timezone.bytes

def bytes (packet : SentPacket serverRevision) : Bytes :=
  encodeVarUint packet.id.code ++ packet.body

/-- What the client takes from a packet. -/
def received : SentPacket serverRevision → ReceivedPacket
  | result _ block => block.received
  | exception exc => .exception exc.received
  | progress counts => .progress (counts.received serverRevision)
  | profileInfo info => .profileInfo info.received
  | pong => .pong
  | endOfStream => .endOfStream
  | log _ => .log
  | tableColumns externalTableName columnsDefinition =>
      .tableColumns ⟨externalTableName.text, columnsDefinition.text⟩
  | profileEvents _ => .profileEvents
  | timezoneUpdate timezone => .timezoneUpdate timezone.text

end SentPacket

theorem reads_number (value : UInt64) :
    Reader.Reads readVarUint (numberBytes value) value.toNat :=
  reads_readVarUint value.toNat_lt

theorem reads_text (text : WireText) : Reader.Reads readUtf8String text.bytes text.text :=
  reads_readUtf8String text.bounded

theorem reads_skip {α : Type} {reader : ByteReader α} {used : Bytes} {value : α}
    (reads : Reader.Reads reader used value) : Reader.Reads (skip reader) used () :=
  @Reader.Reads.bind_pure _ _ _ _ _ (fun _ => ()) _ _ reads

theorem reads_readI32Le (value : BitVec 32) :
    Reader.Reads readI32Le (natLe 4 value.toNat) value.toInt := by
  have read : Reader.Reads readI32Le (natLe 4 value.toNat)
      (BitVec.ofNat 32 (leNat (natLe 4 value.toNat))).toInt :=
    (reads_readExact (length_natLe 4 value.toNat)).bind_pure
  rwa [leNat_natLe_of_lt value.isLt, BitVec.ofNat_toNat, BitVec.setWidth_eq] at read

/-- A field that both sides gate on the lower revision. -/
theorem reads_since {serverRevision : UInt64} {gate : Nat} {reader : ByteReader Unit}
    {field : Bytes}
    (reads : Reader.Reads reader field ()) :
    Reader.Reads (readSince (effectiveRevision serverRevision) gate reader)
      (since serverRevision gate field) () :=
  .onlyIf Iff.rfl reads

theorem reads_sinceOr {α : Type} {serverRevision : UInt64} {gate : Nat} {reader : ByteReader α}
    {field : Bytes} {value absent : α} (reads : Reader.Reads reader field value) :
    Reader.Reads (readSinceOr (effectiveRevision serverRevision) gate absent reader)
      (since serverRevision gate field) (valueSince serverRevision gate absent value) :=
  .onlyIfOr Iff.rfl reads

/-- The header of a block looks at the revision of the server alone, which is the same for
a gate this client has. -/
theorem reads_sinceRaw {serverRevision : UInt64} {gate : Nat} (old : gate ≤ tcpProtocolVersion)
    {reader : ByteReader Unit} {field : Bytes} (reads : Reader.Reads reader field ()) :
    Reader.Reads (readSince serverRevision.toNat gate reader)
      (since serverRevision gate field) () :=
  .onlyIf (gate_iff old serverRevision).symm reads

theorem reads_sinceOrRaw {α : Type} {serverRevision : UInt64} {gate : Nat}
    (old : gate ≤ tcpProtocolVersion) {reader : ByteReader α} {field : Bytes} {value absent : α}
    (reads : Reader.Reads reader field value) :
    Reader.Reads (readSinceOr serverRevision.toNat gate absent reader)
      (since serverRevision gate field) (valueSince serverRevision gate absent value) :=
  .onlyIfOr (gate_iff old serverRevision).symm reads

theorem reads_readException (exc : SentException) :
    Reader.Reads readException exc.bytes exc.received := by
  apply (reads_readI32Le exc.code).bind
  apply (reads_text exc.name).bind
  apply (reads_text exc.message).bind
  apply (reads_text exc.stackTrace).bind
  apply (reads_readU8 exc.hasNested).bind
  exact Reader.Reads.pure _

theorem reads_readProgress (serverRevision : UInt64) (progress : SentProgress) :
    Reader.Reads (readProgress serverRevision) (progress.bytes serverRevision)
      (progress.received serverRevision) := by
  have written : Reader.Reads readWritten
      [numberBytes progress.writtenRows, numberBytes progress.writtenBytes].flatten
      (progress.writtenRows.toNat, progress.writtenBytes.toNat) := by
    apply (reads_number progress.writtenRows).bind
    apply (reads_number progress.writtenBytes).bind
    exact Reader.Reads.pure _
  apply (reads_number progress.rowsRead).bind
  apply (reads_number progress.bytesRead).bind
  apply (reads_sinceOr (reads_number progress.totalRowsToRead)).bind
  apply (reads_since (reads_skip (reads_number progress.totalBytesToRead))).bind
  apply (reads_sinceOr written).bind
  apply (reads_since (reads_skip (reads_number progress.elapsedNs))).bind
  exact Reader.Reads.pure _

theorem reads_readProfileInfo (serverRevision : UInt64) (info : SentProfileInfo) :
    Reader.Reads (readProfileInfo serverRevision) (info.bytes serverRevision) info.received := by
  have aggregation : Reader.Reads (do
      skip readU8
      skip readVarUint)
      [[info.appliedAggregation], numberBytes info.rowsBeforeAggregation].flatten () := by
    apply (reads_skip (reads_readU8 info.appliedAggregation)).bind
    rw [List.flatten_singleton]
    exact reads_skip (reads_number info.rowsBeforeAggregation)
  apply (reads_number info.rows).bind
  apply (reads_number info.blocks).bind
  apply (reads_number info.bytesRead).bind
  apply (reads_readU8 info.appliedLimit).bind
  apply (reads_number info.rowsBeforeLimit).bind
  apply (reads_readU8 info.calculatedRowsBeforeLimit).bind
  apply (reads_since aggregation).bind
  exact Reader.Reads.pure _

theorem reads_readBlockInfo (info : Unified.BlockInfo) :
    Reader.Reads readBlockInfo info.bytes () := by
  have bucket : Reader.Reads readI32Le (natLe 4 info.bucketNum.toNat)
      info.bucketNum.toBitVec.toInt :=
    reads_readI32Le info.bucketNum.toBitVec
  simp only [Unified.BlockInfo.bytes, List.append_assoc]
  apply (reads_readVarUint (by decide)).bind
  apply Reader.Reads.require_bind rfl
  apply (reads_readU8 info.isOverflows).bind
  apply (reads_readVarUint (by decide)).bind
  apply Reader.Reads.require_bind rfl
  apply bucket.bind
  rw [← List.append_nil (encodeVarUint 0)]
  apply (reads_readVarUint (by decide)).bind
  exact Reader.Reads.require rfl _

/-- The block decoder reads no block past its caps. -/
theorem numRows_le_of_reads {numColumns numRows revision : Nat} {body : Bytes}
    {block : DecodedBlock}
    (decodes : Reader.Reads (decodeBlock numColumns numRows revision) body block) :
    numRows ≤ maxBlockRows := by
  by_contra many
  have read := decodes []
  rw [decodeBlock, Reader.require_of_not many] at read
  obtain ⟨_, _, _, failed⟩ := Reader.bind_ok_iff.mp read
  obtain ⟨_, _, impossible, _⟩ := Reader.bind_ok_iff.mp failed
  cases impossible

namespace SentBlock

variable {serverRevision : UInt64}

theorem numColumns_le (columns : SentColumns serverRevision) :
    columns.numColumns ≤ maxBlockColumns := by
  cases columns with
  | headers columns capped => exact capped
  | rows numColumns numRows capped present body block decodes => exact capped

theorem numRows_lt (columns : SentColumns serverRevision) : columns.numRows < 2 ^ 64 := by
  cases columns with
  | headers columns capped => exact Nat.two_pow_pos 64
  | rows numColumns numRows capped present body block decodes =>
      exact Nat.lt_of_le_of_lt (numRows_le_of_reads decodes) (by decide)

/-- The header is read, and the columns are next. -/
theorem reads_header_bind {α : Type} (block : SentBlock serverRevision)
    {next : DataBlockHeader → ByteReader α} {value : α}
    (body : Reader.Reads (next block.header) block.columns.body value) :
    Reader.Reads (readDataBlockHeader serverRevision >>= next) block.bytes value := by
  have columnCap := numColumns_le block.columns
  have header : Reader.Reads (readDataBlockHeader serverRevision)
      [since serverRevision minRevisionWithTemporaryTables block.tableName.bytes,
        since serverRevision minRevisionWithBlockInfo block.info.bytes,
        encodeVarUint block.columns.numColumns, encodeVarUint block.columns.numRows].flatten
      block.header := by
    apply (reads_sinceOrRaw (by decide) ((reads_text block.tableName).map some)).bind
    apply (reads_sinceRaw (by decide) (reads_readBlockInfo block.info)).bind
    apply (reads_readVarUint (Nat.lt_of_le_of_lt columnCap (by decide))).bind
    apply Reader.Reads.require_bind columnCap
    apply (reads_readVarUint (numRows_lt block.columns)).bind
    exact Reader.Reads.pure _
  have whole := header.bind body
  simpa [bytes] using whole

theorem reads_schemaColumn (column : WireText × WireText) :
    Reader.Reads (readSchemaColumn serverRevision.toNat)
      (SentColumns.headerBytes serverRevision column) (column.1.text, column.2.text) := by
  apply (reads_text column.1).bind
  apply (reads_text column.2).bind
  rw [List.flatten_singleton, since]
  have same : customSerializationRevision ≤ effectiveRevision serverRevision ↔
      serverRevision.toNat ≥ customSerializationRevision :=
    (gate_iff (by decide) serverRevision).symm
  by_cases flagged : customSerializationRevision ≤ effectiveRevision serverRevision
  · rw [if_pos flagged]
    simp only [if_pos (same.mp flagged)]
    intro rest
    rfl
  · rw [if_neg flagged]
    simp only [if_neg fun newer => flagged (same.mpr newer)]
    exact Reader.Reads.pure _

/-- The columns of a block without rows. -/
theorem reads_readEmptyDataBlockSchema {columns : List (WireText × WireText)}
    (capped : columns.length ≤ maxBlockColumns) :
    Reader.Reads (readEmptyDataBlockSchema columns.length serverRevision.toNat)
      (columns.map (SentColumns.headerBytes serverRevision)).flatten
      (columns.map fun column => (column.1.text, column.2.text)) := by
  rw [readEmptyDataBlockSchema_eq capped]
  exact Reader.Reads.times_map fun column _ => reads_schemaColumn column

theorem reads_readDataPacket (block : SentBlock serverRevision) :
    Reader.Reads (readDataPacket serverRevision) block.bytes block.received := by
  apply block.reads_header_bind
  obtain ⟨tableName, info, columns⟩ := block
  cases columns with
  | headers columns capped =>
      exact (reads_readEmptyDataBlockSchema capped).bind_pure
  | rows numColumns numRows capped present body decoded decodes =>
      split
      · exact absurd ‹_› present
      · exact decodes.bind_pure

theorem reads_consumeTelemetryBlock (block : SentBlock serverRevision) :
    Reader.Reads (consumeTelemetryBlock serverRevision) block.bytes () := by
  apply block.reads_header_bind
  obtain ⟨tableName, info, columns⟩ := block
  cases columns with
  | headers columns capped =>
      exact reads_skip (reads_readEmptyDataBlockSchema capped)
  | rows numColumns numRows capped present body decoded decodes =>
      split
      · exact absurd ‹_› present
      · exact reads_skip decodes

end SentBlock

namespace SentPacket

variable {serverRevision : UInt64}

theorem reads_readPacketBody (packet : SentPacket serverRevision) :
    Reader.Reads (readPacketBody serverRevision packet.id) packet.body packet.received := by
  cases packet with
  | result kind block =>
      cases kind with
      | data => exact block.reads_readDataPacket
      | totals => exact block.reads_readDataPacket
      | extremes => exact block.reads_readDataPacket
  | exception exc => exact (reads_readException exc).map _
  | progress counts => exact (reads_readProgress serverRevision counts).map _
  | profileInfo info => exact (reads_readProfileInfo serverRevision info).map _
  | pong => exact Reader.Reads.pure _
  | endOfStream => exact Reader.Reads.pure _
  | log block => exact block.reads_consumeTelemetryBlock.bind_pure
  | tableColumns externalTableName columnsDefinition =>
      have columns : Reader.Reads readTableColumns
          [externalTableName.bytes, columnsDefinition.bytes].flatten
          ⟨externalTableName.text, columnsDefinition.text⟩ := by
        apply (reads_text externalTableName).bind
        apply (reads_text columnsDefinition).bind
        exact Reader.Reads.pure _
      exact columns.map _
  | profileEvents block => exact block.reads_consumeTelemetryBlock.bind_pure
  | timezoneUpdate timezone => exact (reads_text timezone).map _

theorem reads_readPacket (packet : SentPacket serverRevision) :
    Reader.Reads (readPacket serverRevision) packet.bytes packet.received := by
  apply (reads_readVarUint packet.id.code_lt).bind
  rw [ServerPacketId.fromU64_code]
  exact packet.reads_readPacketBody

/-- The message of the reader task for a packet. -/
def message (packet : SentPacket serverRevision) : ReaderMessage :=
  .packet packet.received.packet

end SentPacket

/-- The bytes of packets that are sent one after the other. -/
def streamBytes {serverRevision : UInt64} (packets : List (SentPacket serverRevision)) : Bytes :=
  (packets.map SentPacket.bytes).flatten

section Stream

variable {serverRevision : UInt64}

@[simp, grind =] theorem streamBytes_append (packets packets' : List (SentPacket serverRevision)) :
    streamBytes (packets ++ packets') = streamBytes packets ++ streamBytes packets' := by
  simp [streamBytes]

theorem streamBytes_mono {packets packets' : List (SentPacket serverRevision)}
    (before : packets <+: packets') : streamBytes packets <+: streamBytes packets' := by
  obtain ⟨after, rfl⟩ := before
  exact ⟨streamBytes after, (streamBytes_append packets after).symm⟩

theorem forall₂_reads_readPacket (packets : List (SentPacket serverRevision)) :
    List.Forall₂ (Reader.Reads (readPacket serverRevision)) (packets.map SentPacket.bytes)
      (packets.map SentPacket.received) := by
  rw [List.forall₂_map_left_iff, List.forall₂_map_right_iff, List.forall₂_same]
  exact fun packet _ => packet.reads_readPacket

theorem readPacket_nil : ∃ error, readPacket serverRevision [] = .error error :=
  ⟨_, rfl⟩

/-- The bytes of the stream that arrive before the connection is gone hold so many whole
packets, and a part of the next one. -/
def WholePackets (packets : List (SentPacket serverRevision)) (cut : Bytes) (count : Nat) : Prop :=
  count ≤ packets.length ∧
    ∀ more ≤ packets.length, streamBytes (packets.take more) <+: cut ↔ more ≤ count

/-- A cut of a stream is its whole packets and a part on which the reader fails. -/
theorem exists_wholePackets {packets : List (SentPacket serverRevision)} {cut : Bytes}
    (inside : cut <+: streamBytes packets) :
    ∃ count part error, WholePackets packets cut count ∧
      cut = streamBytes (packets.take count) ++ part ∧
      readPacket serverRevision part = .error error := by
  have each := forall₂_reads_readPacket packets
  obtain ⟨count, part, error, within, parted, failed⟩ :=
    Reader.exists_part_of_cut each readPacket_nil inside
  rw [List.length_map] at within
  rw [← List.map_take] at parted
  refine ⟨count, part, error, ⟨within, ?_⟩, parted, failed⟩
  intro more bounded
  constructor
  · intro whole
    apply Reader.le_of_failed each failed (by rwa [List.length_map])
    rw [← List.map_take, ← List.map_take, ← parted]
    exact whole
  · intro fewer
    have start : packets.take more <+: packets.take count := by
      rw [← Nat.min_eq_left fewer, ← List.take_take]
      exact List.take_prefix _ _
    exact (streamBytes_mono start).trans ⟨part, parted.symm⟩

/-- Whole packets and a part on which the reader fails, round by round. -/
theorem readerLoop_packets (packets : List (SentPacket serverRevision)) {part : Bytes}
    {error : Error}
    (failed : readPacket serverRevision part = .error error) (rounds : Nat) :
    readerLoop serverRevision rounds (streamBytes packets ++ part) =
      (packets.map SentPacket.message ++ [ReaderMessage.error error]).take rounds := by
  rw [readerLoop, streamBytes,
    Reader.rounds_frames (forall₂_reads_readPacket packets) failed rounds,
    List.map_take, List.map_append, List.map_map, List.map_map]
  rfl

/-- Wherever the connection breaks, the reader hands on the packets that arrived whole, and
then one error: a cut packet is never taken for another one. -/
theorem readerLoop_cut (packets : List (SentPacket serverRevision)) {cut : Bytes}
    (inside : cut <+: streamBytes packets) :
    ∃ count error, WholePackets packets cut count ∧ ∀ rounds,
      readerLoop serverRevision rounds cut =
        ((packets.take count).map SentPacket.message ++
          [ReaderMessage.error error]).take rounds := by
  obtain ⟨count, part, error, whole, parted, failed⟩ := exists_wholePackets inside
  refine ⟨count, error, whole, ?_⟩
  intro rounds
  rw [parted]
  exact readerLoop_packets _ failed rounds

end Stream

theorem bounded_utc : (utf8 "UTC").length ≤ maxStringSize :=
  Nat.le_of_ble_eq_true rfl

def timezoneStream : List (SentPacket 54459) :=
  [.pong, .timezoneUpdate ⟨"UTC", bounded_utc⟩]

/-- The connection breaks inside the second packet. -/
theorem readerLoop_cut_timezone :
    ∃ count error, WholePackets timezoneStream [4, 17, 3, 85] count ∧ ∀ rounds,
      readerLoop 54459 rounds [4, 17, 3, 85] =
        ((timezoneStream.take count).map SentPacket.message ++
          [ReaderMessage.error error]).take rounds :=
  readerLoop_cut timezoneStream ⟨[84, 67], rfl⟩

end DfeClickhouse.Tcp
