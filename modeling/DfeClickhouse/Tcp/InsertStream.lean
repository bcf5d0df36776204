import DfeClickhouse.Tcp.PacketStream
import DfeClickhouse.Tcp.Sentinel

/-!
# An INSERT as the server reads it

The bytes of the packets that the actor writes, a reader of them, and what it takes from the
bytes of a whole INSERT session: the statement, the blocks that were acknowledged to their
senders, and the end of input behind them.
-/

namespace DfeClickhouse.Tcp

open Library Native

/-- A text in memory, which is shorter than any that does not fit the wire. -/
structure HeldText where
  text : String
  bounded : (utf8 text).length < 2 ^ 64

namespace HeldText

def bytes (held : HeldText) : ByteString := ⟨utf8 held.text, held.bounded⟩

def pairBytes (pair : HeldText × HeldText) : ByteString × ByteString :=
  (pair.1.bytes, pair.2.bytes)

def pairText (pair : HeldText × HeldText) : String × String :=
  (pair.1.text, pair.2.text)

end HeldText

/-- A query of the actor, as it is in memory. -/
structure HeldQuery where
  queryId : HeldText
  query : HeldText
  extraSettings : List (HeldText × HeldText)
  params : List (HeldText × HeldText)

namespace HeldQuery

def value (held : HeldQuery) : Query where
  queryId := held.queryId.text
  query := held.query.text
  extraSettings := held.extraSettings.map HeldText.pairText
  params := held.params.map HeldText.pairText

def write (held : HeldQuery) (serverRevision : UInt64) (quotaKey : ByteString) : ByteWriter Unit :=
  sendQuery serverRevision held.queryId.bytes held.query.bytes
    (held.extraSettings.map HeldText.pairBytes) (held.params.map HeldText.pairBytes)
    (clientInfoFor serverRevision quotaKey held.queryId.bytes)

end HeldQuery

def clientPacketIdCancel : Nat := 3
def clientPacketIdPing : Nat := 4

/-- What a packet of the actor is on the wire. -/
inductive Puts (serverRevision : UInt64) (quotaKey : ByteString) : ClientPacket → Bytes → Prop
  | query (held : HeldQuery) {bytes : Bytes}
      (writes : Writer.Writes (held.write serverRevision quotaKey) bytes) :
      Puts serverRevision quotaKey (.query held.value) bytes
  | emptyBlock : Puts serverRevision quotaKey .emptyBlock (sendEmptyBlock serverRevision)
  | dataBlock (columnBytes : Bytes) (numColumns numRows : Nat) :
      Puts serverRevision quotaKey (.dataBlock columnBytes numColumns numRows)
        (sendDataBlock serverRevision "" columnBytes numColumns numRows)
  | cancel : Puts serverRevision quotaKey .cancel (encodeVarUint clientPacketIdCancel)
  | ping : Puts serverRevision quotaKey .ping (encodeVarUint clientPacketIdPing)

/-- What a server takes from a packet. -/
inductive ClientMessage
  | query (taken : ReceivedQuery)
  | endOfInput
  | block (block : DecodedBlock)
  | cancel
  | ping

/-- The id of a packet, which stays in front of it. -/
def peekVarUint : ByteReader Nat := fun input =>
  (readVarUint input).map fun (id, _) => (id, input)

def unexpectedPacket : Error := .badResponse "unexpected packet from client"

/-- A Data packet: a block, or the end of input, which has no columns and no rows. -/
def readClientData (effective : Nat) : ByteReader ClientMessage := do
  skip readVarUint
  readSince effective minRevisionWithTemporaryTables (skip readText)
  readSince effective minRevisionWithBlockInfo readBlockInfo
  let numColumns ← readVarUint
  let numRows ← readVarUint
  if numColumns = 0 ∧ numRows = 0 then
    return .endOfInput
  else
    .block <$> decodeBlock numColumns numRows effective

def readClientPacket (effective : Nat) : ByteReader ClientMessage := do
  let id ← peekVarUint
  if id = clientPacketIdQuery.toNat then
    .query <$> readQuery effective
  else if id = clientPacketIdData then
    readClientData effective
  else if id = clientPacketIdCancel then do
    skip readVarUint
    return .cancel
  else if id = clientPacketIdPing then do
    skip readVarUint
    return .ping
  else
    Reader.fail unexpectedPacket

/-- A block of an INSERT, or the end of its input. -/
def readInputBlock (effective : Nat) : ByteReader (Option DecodedBlock) := do
  match ← readClientPacket effective with
  | .block block => return some block
  | .endOfInput => return none
  | _ => Reader.fail unexpectedPacket

/-- A whole INSERT: the statement, the end of its external tables, and its blocks. -/
def readInsert (effective : Nat) : ByteReader (ReceivedQuery × List DecodedBlock) := do
  let statement ← readClientPacket effective
  let tables ← readClientPacket effective
  match statement, tables with
  | .query taken, .endOfInput => do
      let blocks ← Reader.untilNone unexpectedEof (readInputBlock effective)
      return (taken, blocks)
  | _, _ => Reader.fail unexpectedPacket

/-- The names and values of some entries, as bytes. -/
def textEntries (entries : List (String × String)) : List (Bytes × Bytes) :=
  entries.map fun entry => (utf8 entry.1, utf8 entry.2)

/-- The query is taken as it was given. -/
structure Query.TakenAs (given : Query) (taken : ReceivedQuery) : Prop where
  queryId : taken.queryId = utf8 given.queryId
  query : taken.query = utf8 given.query
  settings : taken.settings.map NamedEntry.bytes = textEntries given.extraSettings
  params : taken.params.map NamedEntry.bytes = textEntries given.params

/-- Every setting and every parameter has a name. -/
structure Query.AllNamed (given : Query) : Prop where
  settings : ∀ setting ∈ given.extraSettings, setting.1 ≠ ""
  params : ∀ param ∈ given.params, param.1 ≠ ""

/-- The bytes of a Data packet are those of a block at a revision, within memory. -/
structure EncodedAs (serverRevision : UInt64) (columnBytes : Bytes) (numColumns numRows : Nat)
    (block : Unified.NativeBlock) : Prop where
  encodes : encodeColumns (block.records.map RowValue.rowBinaries) block.columns
    serverRevision.toNat = .ok columnBytes
  numColumns : numColumns = block.columns.length
  numRows : numRows = block.records.length
  bounded : columnBytes.length < addressSpace

/-- A packet stands for a message. -/
inductive Conveys (serverRevision : UInt64) : ClientPacket → ClientMessage → Prop
  | query {query : Query} {taken : ReceivedQuery} (same : query.TakenAs taken) :
      Conveys serverRevision (.query query) (.query taken)
  | endOfInput : Conveys serverRevision .emptyBlock .endOfInput
  | block {columnBytes : Bytes} {numColumns numRows : Nat} {block : Unified.NativeBlock}
      {decoded : DecodedBlock}
      (encoded : EncodedAs serverRevision columnBytes numColumns numRows block)
      (same : block.DecodesTo decoded) :
      Conveys serverRevision (.dataBlock columnBytes numColumns numRows) (.block decoded)
  | cancel : Conveys serverRevision .cancel .cancel
  | ping : Conveys serverRevision .ping .ping

/-- What a caller has to see to: names that are not empty, and blocks that were encoded. -/
def Readable (serverRevision : UInt64) : ClientPacket → Prop
  | .query query => query.AllNamed
  | .dataBlock columnBytes numColumns numRows =>
      ∃ block, EncodedAs serverRevision columnBytes numColumns numRows block
  | .emptyBlock | .cancel | .ping => True

section Columns

variable {revision revision' : Nat}

/-- Only the gate of custom serialization looks at the revision. -/
theorem writeColumns_congr (alike : customSerializationRevision ≤ revision ↔
    customSerializationRevision ≤ revision') (columns : List ColumnSchema)
    (rows : List (List Bytes)) :
    writeColumns revision columns rows = writeColumns revision' columns rows := by
  have header (column : ColumnSchema) :
      writeColumnHeader revision column = writeColumnHeader revision' column := by
    rw [writeColumnHeader, writeColumnHeader]
    exact congrArg _ (if_congr alike rfl rfl)
  induction columns generalizing rows with
  | nil => rfl
  | cons column columns ih => rw [writeColumns, writeColumns, ih, header]

theorem encodeColumns_congr (alike : customSerializationRevision ≤ revision ↔
    customSerializationRevision ≤ revision') (rows : List Bytes) (columns : List ColumnSchema) :
    encodeColumns rows columns revision = encodeColumns rows columns revision' := by
  unfold encodeColumns
  simp only [writeColumns_congr alike]

end Columns

/-- A reader that looks at the id first reads the packet from its front. -/
theorem reads_peek {α : Type} {next : Nat → ByteReader α} {id : Nat} (small : id < 2 ^ 64)
    {behind : Bytes} {value : α}
    (reads : Reader.Reads (next id) (encodeVarUint id ++ behind) value) :
    Reader.Reads (peekVarUint >>= next) (encodeVarUint id ++ behind) value := by
  intro rest
  have peeked : peekVarUint (encodeVarUint id ++ behind ++ rest) =
      .ok (id, encodeVarUint id ++ behind ++ rest) := by
    rw [peekVarUint, List.append_assoc, reads_readVarUint small (behind ++ rest)]
    rfl
  rw [Reader.bind_of_ok peeked]
  exact reads rest

section Packets

variable {serverRevision : UInt64}

theorem blockInfo_eq : blockInfo = Unified.BlockInfo.bytes ⟨0, 0xffffffff⟩ := rfl

/-- The header of a Data packet is behind its id. -/
theorem reads_readClientData {columnBytes : Bytes} {numColumns numRows : Nat}
    (smallColumns : numColumns < 2 ^ 64) (smallRows : numRows < 2 ^ 64) {message : ClientMessage}
    (body : Reader.Reads (if numColumns = 0 ∧ numRows = 0 then pure .endOfInput
      else .block <$> decodeBlock numColumns numRows (effectiveRevision serverRevision))
      columnBytes message) :
    Reader.Reads (readClientData (effectiveRevision serverRevision))
      (sendDataBlock serverRevision "" columnBytes numColumns numRows) message := by
  have table : Reader.Reads readText (putString (utf8 "")) (utf8 "") :=
    reads_readText ⟨utf8 "", by decide +kernel⟩
  simp only [sendDataBlock, dataHeader, List.append_assoc]
  apply (reads_skip (reads_readVarUint (by decide))).bind
  apply (Reader.Reads.onlyIf (gate_iff (by decide) serverRevision) (reads_skip table)).bind
  apply (Reader.Reads.onlyIf (gate_iff (by decide) serverRevision) ?_).bind
  · apply (reads_readVarUint smallColumns).bind
    apply (reads_readVarUint smallRows).bind
    exact body
  · rw [blockInfo_eq]
    exact reads_readBlockInfo _

theorem reads_endOfInput :
    Reader.Reads (readClientPacket (effectiveRevision serverRevision))
      (sendEmptyBlock serverRevision) .endOfInput := by
  have data : Reader.Reads (readClientData (effectiveRevision serverRevision))
      (sendEmptyBlock serverRevision) .endOfInput := by
    apply reads_readClientData (by decide) (by decide)
    exact Reader.Reads.pure _
  unfold sendEmptyBlock sendDataBlock dataHeader at data ⊢
  simp only [List.append_assoc] at data ⊢
  exact reads_peek (by decide) data

theorem reads_block {columnBytes : Bytes} {numColumns numRows : Nat} {block : Unified.NativeBlock}
    (encoded : EncodedAs serverRevision columnBytes numColumns numRows block) :
    ∃ decoded, block.DecodesTo decoded ∧
      Reader.Reads (readClientPacket (effectiveRevision serverRevision))
        (sendDataBlock serverRevision "" columnBytes numColumns numRows) (.block decoded) := by
  obtain ⟨encodes, rfl, rfl, bounded⟩ := encoded
  rw [encodeColumns_congr (gate_iff (by decide) serverRevision)] at encodes
  obtain ⟨decoded, read, schema, numRows, numColumns, cells⟩ :=
    @decodeBlock_of_roundTrips _ _ _ block.someColumns block.someRows block.caps block.roundTrips
      block.columnCap block.rowCap block.typed block.fits columnBytes [] encodes
      (by rwa [List.append_nil])
  refine ⟨decoded, ⟨schema, numRows, numColumns, cells⟩, ?_⟩
  rw [List.append_nil] at read
  have some : ¬ (block.columns.length = 0 ∧ block.records.length = 0) := by
    rintro ⟨none, -⟩
    exact block.someColumns (List.length_eq_zero_iff.mp none)
  have data : Reader.Reads (readClientData (effectiveRevision serverRevision))
      (sendDataBlock serverRevision "" columnBytes block.columns.length block.records.length)
      (.block decoded) := by
    apply reads_readClientData (Nat.lt_of_le_of_lt block.columnCap (by decide))
      (Nat.lt_of_le_of_lt block.rowCap (by decide))
    rw [if_neg some]
    exact (Reader.Incremental.reads read).map _
  unfold sendDataBlock dataHeader at data ⊢
  simp only [List.append_assoc] at data ⊢
  exact reads_peek (by decide) data

theorem utf8_ne_nil {text : String} (named : text ≠ "") : utf8 text ≠ [] := by
  intro none
  have same : fromUtf8 (utf8 text) = fromUtf8 (utf8 "") := congrArg fromUtf8 none
  rw [fromUtf8_utf8, fromUtf8_utf8] at same
  exact named (Option.some.inj same)

theorem named_pairBytes {entries : List (HeldText × HeldText)}
    (named : ∀ entry ∈ entries.map HeldText.pairText, entry.1 ≠ "") :
    Named (entries.map HeldText.pairBytes) := by
  intro entry member
  obtain ⟨pair, held, rfl⟩ := List.mem_map.mp member
  exact utf8_ne_nil (named _ (List.mem_map_of_mem held))

@[simp] theorem entryBytes_pairBytes (entries : List (HeldText × HeldText)) :
    (entries.map HeldText.pairBytes).map entryBytes =
      textEntries (entries.map HeldText.pairText) := by
  rw [textEntries, List.map_map, List.map_map]
  rfl

theorem reads_query {quotaKey : ByteString} {held : HeldQuery} (named : held.value.AllNamed)
    {bytes : Bytes} (writes : Writer.Writes (held.write serverRevision quotaKey) bytes) :
    ∃ taken, held.value.TakenAs taken ∧
      Reader.Reads (readClientPacket (effectiveRevision serverRevision)) bytes (.query taken) := by
  have settingsNamed := named_pairBytes named.settings
  have paramsNamed := named_pairBytes named.params
  have reads := readBack_query serverRevision held.queryId.bytes held.query.bytes _ settingsNamed
    paramsNamed bytes writes
  refine ⟨⟨held.queryId.bytes.bytes, held.query.bytes.bytes, received _ settingsNamed,
    received _ paramsNamed⟩, ⟨rfl, rfl, ?_, ?_⟩, ?_⟩
  · exact (map_bytes_received settingsNamed).trans (entryBytes_pairBytes _)
  · exact (map_bytes_received paramsNamed).trans (entryBytes_pairBytes _)
  · obtain ⟨_, behind, first, -, rfl⟩ := Writer.writes_unit_bind_iff.mp writes
    rw [Writer.writes_put_iff.mp first] at reads ⊢
    exact reads_peek (by decide) (reads.map ClientMessage.query)

/-- A readable packet is read as what it stands for. -/
theorem reads_packet {quotaKey : ByteString} {packet : ClientPacket} {bytes : Bytes}
    (puts : Puts serverRevision quotaKey packet bytes) (readable : Readable serverRevision packet) :
    ∃ message, Conveys serverRevision packet message ∧
      Reader.Reads (readClientPacket (effectiveRevision serverRevision)) bytes message := by
  cases puts with
  | query held writes =>
      obtain ⟨taken, same, reads⟩ := reads_query readable writes
      exact ⟨_, .query same, reads⟩
  | emptyBlock => exact ⟨_, .endOfInput, reads_endOfInput⟩
  | dataBlock columnBytes numColumns numRows =>
      obtain ⟨block, encoded⟩ := readable
      obtain ⟨decoded, same, reads⟩ := reads_block encoded
      exact ⟨_, .block encoded same, reads⟩
  | cancel =>
      have id : Reader.Reads readVarUint (encodeVarUint clientPacketIdCancel) _ :=
        reads_readVarUint (by decide)
      refine ⟨_, .cancel, ?_⟩
      rw [← List.append_nil (encodeVarUint _)] at id ⊢
      exact reads_peek (by decide) (reads_skip id).bind_pure
  | ping =>
      have id : Reader.Reads readVarUint (encodeVarUint clientPacketIdPing) _ :=
        reads_readVarUint (by decide)
      refine ⟨_, .ping, ?_⟩
      rw [← List.append_nil (encodeVarUint _)] at id ⊢
      exact reads_peek (by decide) (reads_skip id).bind_pure

/-- Packets in any order are told apart, and each is read as what it stands for. -/
theorem reads_clientPackets {quotaKey : ByteString} {packets : List ClientPacket}
    {chunks : List Bytes} (wire : List.Forall₂ (Puts serverRevision quotaKey) packets chunks)
    (readable : ∀ packet ∈ packets, Readable serverRevision packet) :
    ∃ messages, List.Forall₂ (Conveys serverRevision) packets messages ∧
      Reader.Reads (Reader.times (readClientPacket (effectiveRevision serverRevision))
        packets.length) chunks.flatten messages := by
  have each : ∃ messages, List.Forall₂ (Conveys serverRevision) packets messages ∧
      List.Forall₂ (Reader.Reads (readClientPacket (effectiveRevision serverRevision))) chunks
        messages := by
    induction wire with
    | nil => exact ⟨[], .nil, .nil⟩
    | cons first _ ih =>
        obtain ⟨message, conveys, reads⟩ := reads_packet first (readable _ List.mem_cons_self)
        obtain ⟨messages, others, rest⟩ := ih fun packet member =>
          readable packet (List.mem_cons_of_mem _ member)
        exact ⟨message :: messages, .cons conveys others, .cons reads rest⟩
  obtain ⟨messages, conveys, reads⟩ := each
  refine ⟨messages, conveys, ?_⟩
  rw [conveys.length_eq]
  exact Reader.Reads.times reads

end Packets

namespace Entry

/-- The block of a send that was answered without an error. -/
def acknowledged? : Entry → Option (Bytes × Nat × Nat)
  | .handled (.sendInsertBlock columnBytes numColumns numRows) _ (.answered (.ok ())) =>
      some (columnBytes, numColumns, numRows)
  | _ => none

end Entry

namespace FinishedInsert

/-- The blocks whose senders were told that they are on their way. -/
def acknowledged (session : FinishedInsert) : List (Bytes × Nat × Nat) :=
  session.sends.filterMap Entry.acknowledged?

/-- All the session puts on the wire. -/
def packets (session : FinishedInsert) : List ClientPacket :=
  session.entries.flatMap Entry.packets

def blockPacket (block : Bytes × Nat × Nat) : ClientPacket :=
  .dataBlock block.1 block.2.1 block.2.2

end FinishedInsert

/-- Over the sends of a session that is still open behind them, the acknowledged blocks are on
the wire and nothing else, and none is past the cap. -/
theorem sends_packets {sends : List Entry} {actor after : Actor}
    (onlySends : ∀ entry ∈ sends, entry.IsSend) (runs : Script.Runs Actor.Step actor sends after)
    (isOpen : after.state = .insertActive) :
    actor.state = .insertActive ∧ sends.flatMap Entry.packets =
      (sends.filterMap Entry.acknowledged?).map FinishedInsert.blockPacket := by
  induction sends generalizing actor with
  | nil =>
      cases runs
      exact ⟨isOpen, rfl⟩
  | cons entry sends ih =>
      obtain ⟨next, stepped, runs⟩ := runs
      obtain ⟨nextOpen, rest⟩ := ih
        (fun other member => onlySends other (List.mem_cons_of_mem _ member)) runs
      cases entry with
      | poisoned =>
          cases stepped
          exact ⟨nextOpen, rest⟩
      | handled cmd events reply =>
          obtain ⟨columnBytes, numColumns, numRows, rfl⟩ := onlySends _ List.mem_cons_self
          obtain ⟨answer, rfl, outcome, _⟩ := Actor.handle_send stepped
          rw [List.flatMap_cons, rest, Entry.packets]
          generalize written events = packets at outcome ⊢
          cases outcome with
          | sent same =>
              rw [same] at nextOpen
              exact ⟨nextOpen, rfl⟩
          | ended error closed =>
              rw [closed] at nextOpen
              cases nextOpen
          | overCap error past => exact ⟨nextOpen, rfl⟩

theorem packets_eq {session : FinishedInsert} {actor after : Actor}
    (runs : Script.Runs Actor.Step actor session.entries after) :
    session.packets = [.query session.query, .emptyBlock] ++
      session.acknowledged.map FinishedInsert.blockPacket ++ [.emptyBlock] := by
  obtain ⟨opened, began, runs⟩ := runs
  obtain ⟨before, sent, last, finished, ended⟩ := Script.runs_append_iff.mp runs
  obtain ⟨isOpen, ending⟩ := FinishedInsert.ends finished
  obtain ⟨_, blocks⟩ := sends_packets session.onlySends sent isOpen
  rw [FinishedInsert.packets, FinishedInsert.entries, List.flatMap_cons, List.flatMap_append,
    blocks, List.flatMap_singleton, Entry.packets, Entry.packets, ending,
    (Actor.handle_begin began).1]
  rfl

section Received

variable {serverRevision : UInt64} {quotaKey : ByteString}

theorem sendDataBlock_ne_nil (columnBytes : Bytes) (numColumns numRows : Nat) :
    sendDataBlock serverRevision "" columnBytes numColumns numRows ≠ [] := by
  simp [sendDataBlock, dataHeader, encodeVarUint_ne_nil]

theorem reads_inputBlock {chunk : Bytes} {block : DecodedBlock}
    (reads : Reader.Reads (readClientPacket (effectiveRevision serverRevision)) chunk
      (.block block)) :
    Reader.Reads (readInputBlock (effectiveRevision serverRevision)) chunk (some block) := by
  intro rest
  rw [readInputBlock, Reader.bind_of_ok (reads rest)]
  rfl

theorem reads_inputEnd : Reader.Reads (readInputBlock (effectiveRevision serverRevision))
    (sendEmptyBlock serverRevision) none := by
  intro rest
  rw [readInputBlock, Reader.bind_of_ok (reads_endOfInput rest)]
  rfl

/-- Blocks on the wire and the end of input behind them. -/
theorem exists_blocks {blocks : List (Bytes × Nat × Nat)} {natives : List Unified.NativeBlock}
    (encoded : List.Forall₂ (fun block native =>
      EncodedAs serverRevision block.1 block.2.1 block.2.2 native) blocks natives)
    {chunks : List Bytes} (wire : List.Forall₂ (Puts serverRevision quotaKey)
      (blocks.map FinishedInsert.blockPacket ++ [.emptyBlock]) chunks) :
    ∃ front decoded, chunks = front ++ [sendEmptyBlock serverRevision] ∧
      (∀ chunk ∈ front, chunk ≠ []) ∧
      List.Forall₂ Unified.NativeBlock.DecodesTo natives decoded ∧
      List.Forall₂ (fun chunk block => Reader.Reads
        (readInputBlock (effectiveRevision serverRevision)) chunk (some block)) front decoded := by
  induction encoded generalizing chunks with
  | nil =>
      cases wire with
      | cons puts ended =>
          cases puts
          cases ended
          exact ⟨[], [], rfl, List.forall_mem_nil _, .nil, .nil⟩
  | cons first _ ih =>
      cases wire with
      | cons puts others =>
          cases puts
          obtain ⟨front, decoded, rfl, nonempty, same, reads⟩ := ih others
          obtain ⟨block, decodes, read⟩ := reads_block first
          exact ⟨_ :: front, block :: decoded, rfl,
            List.forall_mem_cons.mpr ⟨sendDataBlock_ne_nil _ _ _, nonempty⟩,
            .cons decodes same, .cons (reads_inputBlock read) reads⟩

/-- A query, the blocks behind it and the end of input are read as one INSERT. -/
theorem readInsert_of_wire {query : Query} (named : query.AllNamed)
    {blocks : List (Bytes × Nat × Nat)} {natives : List Unified.NativeBlock}
    (encoded : List.Forall₂ (fun block native =>
      EncodedAs serverRevision block.1 block.2.1 block.2.2 native) blocks natives)
    {chunks : List Bytes} (wire : List.Forall₂ (Puts serverRevision quotaKey)
      ([.query query, .emptyBlock] ++ blocks.map FinishedInsert.blockPacket ++
        [.emptyBlock]) chunks) :
    ∃ taken decoded, readInsert (effectiveRevision serverRevision) chunks.flatten =
        .ok ((taken, decoded), []) ∧
      query.TakenAs taken ∧ List.Forall₂ Unified.NativeBlock.DecodesTo natives decoded := by
  cases wire with
  | @cons _ statement _ _ asks wire =>
      cases wire with
      | cons tables wire =>
          cases tables
          obtain ⟨front, decoded, rfl, nonempty, same, blocks⟩ := exists_blocks encoded wire
          obtain ⟨message, conveys, reads⟩ := reads_packet asks named
          cases conveys with
          | @query _ taken given =>
              refine ⟨taken, decoded, ?_, given, same⟩
              have rest : Reader.untilNone unexpectedEof
                  (readInputBlock (effectiveRevision serverRevision))
                  (front ++ [sendEmptyBlock serverRevision]).flatten = .ok (decoded, []) := by
                rw [List.flatten_concat, ← List.append_nil (_ ++ _)]
                exact Reader.reads_untilNone blocks nonempty reads_inputEnd []
              rw [List.flatten_cons, List.flatten_cons, readInsert, Reader.bind_of_ok (reads _),
                Reader.bind_of_ok (reads_endOfInput _)]
              dsimp only
              rw [Reader.bind_of_ok rest]
              rfl

/-- From the bytes of a finished INSERT, the server takes the statement as it was given and
the blocks that were acknowledged, in their order and with the rows they were encoded from, and
leaves nothing. -/
theorem insert_received {session : FinishedInsert} {actor after : Actor}
    (runs : Script.Runs Actor.Step actor session.entries after) (named : session.query.AllNamed)
    {natives : List Unified.NativeBlock} (encoded : List.Forall₂ (fun block native =>
      EncodedAs serverRevision block.1 block.2.1 block.2.2 native) session.acknowledged natives)
    {chunks : List Bytes}
    (wire : List.Forall₂ (Puts serverRevision quotaKey) session.packets chunks) :
    ∃ taken decoded, readInsert (effectiveRevision serverRevision) chunks.flatten =
        .ok ((taken, decoded), []) ∧
      session.query.TakenAs taken ∧
      List.Forall₂ Unified.NativeBlock.DecodesTo natives decoded := by
  rw [packets_eq runs] at wire
  exact readInsert_of_wire named encoded wire

end Received

/-- The statement of a session, as it is in memory. -/
def insertStatement : HeldQuery where
  queryId := ⟨"", by decide +kernel⟩
  query := ⟨"INSERT INTO t VALUES", by decide +kernel⟩
  extraSettings := []
  params := []

theorem puts_insertStatement : ∃ bytes,
    Puts 54473 emptyString (.query insertStatement.value) bytes :=
  ⟨_, .query insertStatement ⟨rfl, (), rfl⟩⟩

theorem runs_oneBlock_tags : ∃ body,
    encodeColumns (Unified.tagBlock.records.map RowValue.rowBinaries)
      Unified.tagBlock.columns 54473 = .ok body ∧ body.length = 112 ∧
    Script.Runs Actor.Step {} (oneBlock body 2 2).entries {} :=
  ⟨_, rfl, rfl, _, rfl, _, rfl, _, rfl, rfl⟩

theorem allNamed_insertStatement : insertStatement.value.AllNamed :=
  ⟨List.forall_mem_nil _, List.forall_mem_nil _⟩

theorem reads_clientPackets_ping : ∃ statement messages,
    Puts 54473 emptyString (.query insertStatement.value) statement ∧
    List.Forall₂ (Conveys 54473) [.ping, .query insertStatement.value, .emptyBlock] messages ∧
    Reader.Reads (Reader.times (readClientPacket (effectiveRevision 54473)) 3)
      [encodeVarUint clientPacketIdPing, statement, sendEmptyBlock 54473].flatten messages := by
  obtain ⟨statement, asks⟩ := puts_insertStatement
  have readable : ∀ packet ∈ [.ping, .query insertStatement.value, .emptyBlock],
      Readable 54473 packet := by
    intro packet member
    simp only [List.mem_cons, List.not_mem_nil, or_false] at member
    obtain rfl | rfl | rfl := member
    · trivial
    · exact allNamed_insertStatement
    · trivial
  obtain ⟨messages, conveys, reads⟩ :=
    reads_clientPackets (.cons .ping (.cons asks (.cons .emptyBlock .nil))) readable
  exact ⟨statement, messages, asks, conveys, reads⟩

theorem insert_received_tags : ∃ statement body taken block,
    readInsert (effectiveRevision 54473) [statement, sendEmptyBlock 54473,
      sendDataBlock 54473 "" body 2 2, sendEmptyBlock 54473].flatten = .ok ((taken, [block]), []) ∧
    insertStatement.value.TakenAs taken ∧ Unified.tagBlock.DecodesTo block := by
  obtain ⟨statement, asks⟩ := puts_insertStatement
  obtain ⟨body, encodes, sized, runs⟩ := runs_oneBlock_tags
  have encoded : List.Forall₂ (fun block native =>
      EncodedAs 54473 block.1 block.2.1 block.2.2 native) (oneBlock body 2 2).acknowledged
      [Unified.tagBlock] :=
    .cons ⟨encodes, rfl, rfl, by rw [sized]; decide⟩ .nil
  obtain ⟨taken, decoded, reads, given, same⟩ :=
    insert_received runs allNamed_insertStatement encoded
    (.cons asks (.cons .emptyBlock (.cons (.dataBlock body 2 2) (.cons .emptyBlock .nil))))
  cases same with
  | cons block none =>
      cases none
      exact ⟨statement, body, taken, _, reads, given, block⟩

end DfeClickhouse.Tcp
