import DfeClickhouse.Library.ReadBack
import DfeClickhouse.Native.Io

/-!
# The Query packet

The writer of a Query packet, with the fields each server revision expects, and a
positional reader of it.  A list of settings or parameters ends with an empty name.
-/

namespace DfeClickhouse.Tcp

open Library Native

def minRevisionWithClientInfo : Nat := 54032
def minRevisionWithQuotaKeyInClientInfo : Nat := 54060
def minRevisionWithVersionPatch : Nat := 54401
def minRevisionWithSettingsSerializedAsStrings : Nat := 54429
def minRevisionWithInterserverSecret : Nat := 54441
def minRevisionWithOpentelemetry : Nat := 54442
def minProtocolVersionWithDistributedDepth : Nat := 54448
def minProtocolVersionWithInitialQueryStartTime : Nat := 54449
def minProtocolVersionWithParallelReplicas : Nat := 54453
def minProtocolVersionWithParameters : Nat := 54459
def minProtocolVersionWithInterserverExternallyGrantedRoles : Nat := 54472

/-- The revision this client advertises. -/
def tcpProtocolVersion : Nat := 54473

/-- The revision both sides speak. -/
def effectiveRevision (serverRevision : UInt64) : Nat :=
  min serverRevision.toNat tcpProtocolVersion

/-- A gate up to the advertised revision may look at either revision. -/
theorem gate_iff {gate : Nat} (old : gate ≤ tcpProtocolVersion) (serverRevision : UInt64) :
    gate ≤ serverRevision.toNat ↔ gate ≤ effectiveRevision serverRevision := by
  rw [effectiveRevision, Nat.le_min]
  constructor
  · intro reached
    exact ⟨reached, old⟩
  · intro reached
    exact reached.1

/-- A writer to the wire. -/
abbrev ByteWriter := Library.Writer UInt8 Error

def writeU8 (value : UInt8) : ByteWriter Unit := Writer.put [value]

def writeI64Le (value : UInt64) : ByteWriter Unit := Writer.put (natLe 8 value.toNat)

def writeVarUint (value : UInt64) : ByteWriter Unit := Writer.put (encodeVarUint value.toNat)

def writeString (value : ByteString) : ByteWriter Unit := Writer.put (putString value.bytes)

/-- Write a field that servers read since a revision. -/
def writeSince (serverRevision : UInt64) (gate : Nat) : ByteWriter Unit → ByteWriter Unit :=
  Writer.onlyIf (gate ≤ serverRevision.toNat)

/-- No bytes at all. -/
def emptyString : ByteString := ⟨[], by decide⟩

/-- The block of a Query packet that names the client. -/
structure ClientInfo where
  queryKind : UInt8
  initialUser : ByteString
  initialQueryId : ByteString
  initialAddress : ByteString
  osUser : ByteString
  clientHostname : ByteString
  clientName : ByteString
  clientVersionMajor : UInt64
  clientVersionMinor : UInt64
  clientVersionPatch : UInt64
  clientRevision : UInt64
  interface : UInt8
  quotaKey : ByteString
  distributedDepth : UInt64

namespace ClientInfo

def queryKindInitialQuery : UInt8 := 1

def interfaceTypeTcp : UInt8 := 1

/-- The client information of a query the client starts. -/
def forInitialQuery (clientName : ByteString)
    (clientVersionMajor clientVersionMinor clientRevision : UInt64) (quotaKey : ByteString) :
    ClientInfo where
  queryKind := queryKindInitialQuery
  initialUser := emptyString
  initialQueryId := emptyString
  initialAddress := ⟨utf8 "[::ffff:127.0.0.1]:0", by decide +kernel⟩
  osUser := emptyString
  clientHostname := emptyString
  clientName := clientName
  clientVersionMajor := clientVersionMajor
  clientVersionMinor := clientVersionMinor
  clientVersionPatch := 0
  clientRevision := clientRevision
  interface := interfaceTypeTcp
  quotaKey := quotaKey
  distributedDepth := 0

/-- Write the block, as far as the server's revision has its fields. -/
def writeTo (info : ClientInfo) (serverRevision : UInt64) : ByteWriter Unit := do
  writeU8 info.queryKind
  writeString info.initialUser
  writeString info.initialQueryId
  writeString info.initialAddress
  writeSince serverRevision minProtocolVersionWithInitialQueryStartTime (writeI64Le 0)
  writeU8 info.interface
  writeString info.osUser
  writeString info.clientHostname
  writeString info.clientName
  writeVarUint info.clientVersionMajor
  writeVarUint info.clientVersionMinor
  writeVarUint info.clientRevision
  writeSince serverRevision minRevisionWithQuotaKeyInClientInfo (writeString info.quotaKey)
  writeSince serverRevision minProtocolVersionWithDistributedDepth
    (writeVarUint info.distributedDepth)
  writeSince serverRevision minRevisionWithVersionPatch (writeVarUint info.clientVersionPatch)
  writeSince serverRevision minRevisionWithOpentelemetry (writeU8 0)
  writeSince serverRevision minProtocolVersionWithParallelReplicas do
    writeVarUint 0
    writeVarUint 0
    writeVarUint 0

end ClientInfo

def clientName : ByteString := ⟨utf8 "ClickHouse rust-client", by decide +kernel⟩

/-- The version of the package, which the build hands to the source. -/
def clientVersionMajor : UInt64 := 0

def clientVersionMinor : UInt64 := 1

/-- The client information of one query of a connection. -/
def clientInfoFor (serverRevision : UInt64) (quotaKey queryId : ByteString) : ClientInfo :=
  { ClientInfo.forInitialQuery clientName clientVersionMajor clientVersionMinor serverRevision
      quotaKey with
    initialQueryId := queryId }

/-- A name, its flags and its value. -/
def writeEntry (flags : UInt64) (entry : ByteString × ByteString) : ByteWriter Unit := do
  writeString entry.1
  writeVarUint flags
  writeString entry.2

def clientPacketIdQuery : UInt64 := 1

def queryProcessingStageComplete : UInt64 := 2

def settingFlagCustom : UInt64 := 2

/-- The settings, which an old server does not take. -/
def writeSettingEntries (serverRevision : UInt64) (extraSettings : List (ByteString × ByteString)) :
    ByteWriter Unit :=
  if minRevisionWithSettingsSerializedAsStrings ≤ serverRevision.toNat then
    Writer.each (writeEntry 0) extraSettings
  else if extraSettings.isEmpty then
    pure ()
  else
    Writer.fail (.other (.foreign ("tcp: cannot send query settings to server older than " ++
      "20.1.2.4 (revision 54429); upgrade the server or drop the settings")))

/-- The settings, and the empty name that ends them whether or not there are any. -/
def writeSettings (serverRevision : UInt64) (extraSettings : List (ByteString × ByteString)) :
    ByteWriter Unit := do
  writeSettingEntries serverRevision extraSettings
  writeString emptyString

/-- The parameters, which an old server does not take. -/
def writeParams (serverRevision : UInt64) (params : List (ByteString × ByteString)) :
    ByteWriter Unit :=
  if minProtocolVersionWithParameters ≤ serverRevision.toNat then do
    Writer.each (writeEntry settingFlagCustom) params
    writeString emptyString
  else if params.isEmpty then
    pure ()
  else
    Writer.fail (.other (.foreign ("tcp: server revision predates bound query parameters " ++
      "(revision 54459); upgrade the server or inline the values")))

/-- Write a Query packet. -/
def sendQuery (serverRevision : UInt64) (queryId query : ByteString)
    (extraSettings params : List (ByteString × ByteString)) (clientInfo : ClientInfo) :
    ByteWriter Unit := do
  writeVarUint clientPacketIdQuery
  writeString queryId
  writeSince serverRevision minRevisionWithClientInfo (clientInfo.writeTo serverRevision)
  writeSettings serverRevision extraSettings
  Writer.onlyIf (minProtocolVersionWithInterserverExternallyGrantedRoles ≤
    effectiveRevision serverRevision) (writeString emptyString)
  writeSince serverRevision minRevisionWithInterserverSecret (writeString emptyString)
  writeVarUint queryProcessingStageComplete
  writeVarUint 0
  writeString query
  writeParams serverRevision params

/-- A string of any length. -/
def readText : ByteReader Bytes := do
  let len ← readVarUint
  readExact len

/-- Read a field and leave it. -/
def skip {α : Type} (reader : ByteReader α) : ByteReader Unit := do
  let _ ← reader
  return ()

/-- Read a field that is there since a revision. -/
def readSince (effective gate : Nat) : ByteReader Unit → ByteReader Unit :=
  Reader.onlyIf (gate ≤ effective)

/-- A setting or a parameter of a packet. -/
structure NamedEntry where
  name : Bytes
  value : Bytes
  /-- An empty name ends the list. -/
  named : name ≠ []

def readEntry : ByteReader (Option NamedEntry) := do
  let name ← readText
  if unnamed : name = [] then
    return none
  else
    skip readVarUint
    let value ← readText
    return some { name, value, named := unnamed }

def readEntries : ByteReader (List NamedEntry) :=
  Reader.untilNone unexpectedEof readEntry

def readClientInfo (effective : Nat) : ByteReader Unit := do
  skip readU8
  skip readText
  skip readText
  skip readText
  readSince effective minProtocolVersionWithInitialQueryStartTime (skip readU64Le)
  skip readU8
  skip readText
  skip readText
  skip readText
  skip readVarUint
  skip readVarUint
  skip readVarUint
  readSince effective minRevisionWithQuotaKeyInClientInfo (skip readText)
  readSince effective minProtocolVersionWithDistributedDepth (skip readVarUint)
  readSince effective minRevisionWithVersionPatch (skip readVarUint)
  readSince effective minRevisionWithOpentelemetry (skip readU8)
  readSince effective minProtocolVersionWithParallelReplicas do
    skip readVarUint
    skip readVarUint
    skip readVarUint

/-- What a server takes from a Query packet. -/
structure ReceivedQuery where
  queryId : Bytes
  query : Bytes
  settings : List NamedEntry
  params : List NamedEntry

/-- Parameters are there since a revision. -/
def readParams (effective : Nat) : ByteReader (List NamedEntry) :=
  if minProtocolVersionWithParameters ≤ effective then readEntries else pure []

/-- Read a Query packet field by field. -/
def readQuery (effective : Nat) : ByteReader ReceivedQuery := do
  skip readVarUint
  let queryId ← readText
  readSince effective minRevisionWithClientInfo (readClientInfo effective)
  let settings ← readEntries
  readSince effective minProtocolVersionWithInterserverExternallyGrantedRoles (skip readText)
  readSince effective minRevisionWithInterserverSecret (skip readText)
  skip readVarUint
  skip readVarUint
  let query ← readText
  let params ← readParams effective
  return { queryId, query, settings, params }

theorem reads_readText (value : ByteString) :
    Reader.Reads readText (putString value.bytes) value.bytes := by
  apply (reads_readVarUint value.bounded).bind
  exact reads_readExact rfl

theorem readBack_skip {α : Type} {writer : ByteWriter Unit} {reader : ByteReader α} {value : α}
    (field : ReadBack writer reader value) : ReadBack writer (skip reader) () :=
  @ReadBack.bind_pure _ _ _ _ _ _ _ value (fun _ => ()) field

theorem readBack_string (value : ByteString) :
    ReadBack (writeString value) readText value.bytes :=
  .put (reads_readText value)

theorem readBack_varUint (value : UInt64) :
    ReadBack (writeVarUint value) readVarUint value.toNat :=
  .put (reads_readVarUint value.toNat_lt)

theorem readBack_u8 (value : UInt8) : ReadBack (writeU8 value) readU8 value :=
  .put (reads_readU8 value)

theorem readBack_i64 (value : UInt64) : ReadBack (writeI64Le value) readU64Le value.toNat :=
  .put (reads_readU64Le value.toNat_lt)

theorem readBack_since {serverRevision : UInt64} {gate : Nat} (old : gate ≤ tcpProtocolVersion)
    {writer : ByteWriter Unit} {reader : ByteReader Unit} (field : ReadBack writer reader ()) :
    ReadBack (writeSince serverRevision gate writer)
      (readSince (effectiveRevision serverRevision) gate reader) () :=
  .onlyIf (gate_iff old serverRevision) field

theorem readBack_clientInfo (info : ClientInfo) (serverRevision : UInt64) :
    ReadBack (info.writeTo serverRevision)
      (readClientInfo (effectiveRevision serverRevision)) () := by
  apply (readBack_skip (readBack_u8 _)).bind
  apply (readBack_skip (readBack_string _)).bind
  apply (readBack_skip (readBack_string _)).bind
  apply (readBack_skip (readBack_string _)).bind
  apply (readBack_since (by decide) (readBack_skip (readBack_i64 _))).bind
  apply (readBack_skip (readBack_u8 _)).bind
  apply (readBack_skip (readBack_string _)).bind
  apply (readBack_skip (readBack_string _)).bind
  apply (readBack_skip (readBack_string _)).bind
  apply (readBack_skip (readBack_varUint _)).bind
  apply (readBack_skip (readBack_varUint _)).bind
  apply (readBack_skip (readBack_varUint _)).bind
  apply (readBack_since (by decide) (readBack_skip (readBack_string _))).bind
  apply (readBack_since (by decide) (readBack_skip (readBack_varUint _))).bind
  apply (readBack_since (by decide) (readBack_skip (readBack_varUint _))).bind
  apply (readBack_since (by decide) (readBack_skip (readBack_u8 _))).bind
  apply readBack_since (by decide)
  apply (readBack_skip (readBack_varUint _)).bind
  apply (readBack_skip (readBack_varUint _)).bind
  exact readBack_skip (readBack_varUint _)

/-- Every entry has a name. -/
def Named (entries : List (ByteString × ByteString)) : Prop :=
  ∀ entry ∈ entries, entry.1.bytes ≠ []

theorem Named.tail {entry : ByteString × ByteString} {entries : List (ByteString × ByteString)}
    (named : Named (entry :: entries)) : Named entries := by
  intro other member
  exact named other (List.mem_cons_of_mem _ member)

/-- The entries as they are received. -/
def received : (entries : List (ByteString × ByteString)) → Named entries → List NamedEntry
  | [], _ => []
  | entry :: entries, named =>
      ⟨entry.1.bytes, entry.2.bytes, named entry List.mem_cons_self⟩ ::
        received entries named.tail

theorem readBack_entry (flags : UInt64) (entry : ByteString × ByteString)
    (named : entry.1.bytes ≠ []) :
    ReadBack (writeEntry flags entry) readEntry
      (some ⟨entry.1.bytes, entry.2.bytes, named⟩) := by
  apply (readBack_string entry.1).bind
  rw [dif_neg named]
  apply (readBack_skip (readBack_varUint flags)).bind
  exact (readBack_string entry.2).bind_pure

theorem readBack_mark : ReadBack (writeString emptyString) readEntry none := by
  intro tokens writes
  have reads := readBack_string emptyString tokens writes
  intro rest
  unfold readEntry
  have unnamed : emptyString.bytes = [] := rfl
  rw [Reader.bind_of_ok (reads rest), dif_pos unnamed]
  rfl

theorem readBack_entries (flags : UInt64) {entries : List (ByteString × ByteString)}
    (named : Named entries) :
    ReadBack (Writer.each (writeEntry flags) entries >>= fun _ => writeString emptyString)
      readEntries (received entries named) := by
  apply ReadBack.untilNone ?_ ?_ readBack_mark
  · induction entries with
    | nil => exact .nil
    | cons entry entries ih =>
        apply List.Forall₂.cons
        · exact readBack_entry flags entry (named entry List.mem_cons_self)
        · exact ih named.tail
  · intro entry writes
    obtain ⟨first, second, name, -, empty⟩ := Writer.writes_unit_bind_iff.mp writes
    rw [Writer.writes_put_iff.mp name] at empty
    exact encodeVarUint_ne_nil _ (List.append_eq_nil_iff.mp
      (List.append_eq_nil_iff.mp empty.symm).1).1

theorem readBack_settings (serverRevision : UInt64) {settings : List (ByteString × ByteString)}
    (named : Named settings) :
    ReadBack (writeSettings serverRevision settings) readEntries (received settings named) := by
  unfold writeSettings writeSettingEntries
  split
  · exact readBack_entries 0 named
  · cases settings with
    | nil => exact readBack_entries 0 named
    | cons setting settings =>
        intro tokens writes
        obtain ⟨_, _, failed, -⟩ := Writer.writes_unit_bind_iff.mp writes
        exact absurd failed Writer.not_writes_fail

theorem readBack_params (serverRevision : UInt64) {params : List (ByteString × ByteString)}
    (named : Named params) :
    ReadBack (writeParams serverRevision params) (readParams (effectiveRevision serverRevision))
      (received params named) := by
  have alike : minProtocolVersionWithParameters ≤ serverRevision.toNat ↔ _ :=
    gate_iff (by decide) serverRevision
  unfold writeParams readParams
  by_cases gate : minProtocolVersionWithParameters ≤ serverRevision.toNat
  · rw [if_pos gate, if_pos (alike.mp gate)]
    exact readBack_entries settingFlagCustom named
  · rw [if_neg gate, if_neg fun present => gate (alike.mpr present)]
    cases params with
    | nil => exact .pure []
    | cons param params => exact .fail

theorem readBack_query (serverRevision : UInt64) (queryId query : ByteString)
    {settings params : List (ByteString × ByteString)} (info : ClientInfo)
    (settingsNamed : Named settings) (paramsNamed : Named params) :
    ReadBack (sendQuery serverRevision queryId query settings params info)
      (readQuery (effectiveRevision serverRevision))
      ⟨queryId.bytes, query.bytes, received settings settingsNamed,
        received params paramsNamed⟩ := by
  apply (readBack_skip (readBack_varUint _)).bind
  apply (readBack_string queryId).bind
  apply (readBack_since (by decide) (readBack_clientInfo info serverRevision)).bind
  apply (readBack_settings serverRevision settingsNamed).bind
  apply (ReadBack.onlyIf Iff.rfl (readBack_skip (readBack_string emptyString))).bind
  apply (readBack_since (by decide) (readBack_skip (readBack_string emptyString))).bind
  apply (readBack_skip (readBack_varUint _)).bind
  apply (readBack_skip (readBack_varUint _)).bind
  apply (readBack_string query).bind
  exact (readBack_params serverRevision paramsNamed).bind_pure

/-- The bytes of a name and of its value. -/
def entryBytes (entry : ByteString × ByteString) : Bytes × Bytes :=
  (entry.1.bytes, entry.2.bytes)

def NamedEntry.bytes (entry : NamedEntry) : Bytes × Bytes :=
  (entry.name, entry.value)

/-- The reader recovers the query from the bytes and stops at their end. -/
def QueryRecovered (serverRevision : UInt64) (queryId query : ByteString)
    (settings params : List (ByteString × ByteString)) (bytes : Bytes) : Prop :=
  ∃ taken, readQuery (effectiveRevision serverRevision) bytes = .ok (taken, []) ∧
    taken.queryId = queryId.bytes ∧ taken.query = query.bytes ∧
    taken.settings.map NamedEntry.bytes = settings.map entryBytes ∧
    taken.params.map NamedEntry.bytes = params.map entryBytes

theorem map_bytes_received {entries : List (ByteString × ByteString)} (named : Named entries) :
    (received entries named).map NamedEntry.bytes = entries.map entryBytes := by
  induction entries with
  | nil => rfl
  | cons entry entries ih =>
      rw [received, List.map_cons, List.map_cons, ih]
      rfl

/-- Entries with the bytes of named ones are named. -/
theorem named_of_map_bytes {taken : List NamedEntry} {entries : List (ByteString × ByteString)}
    (same : taken.map NamedEntry.bytes = entries.map entryBytes) : Named entries := by
  intro entry member
  have found : entryBytes entry ∈ taken.map NamedEntry.bytes := by
    rw [same]
    exact List.mem_map_of_mem member
  obtain ⟨other, -, bytes⟩ := List.mem_map.mp found
  have name : other.name = entry.1.bytes := congrArg Prod.fst bytes
  rw [← name]
  exact other.named

/-- A query is read back as it was given exactly if no name of a setting or of a
parameter is empty. -/
theorem queryRecovered_iff {serverRevision : UInt64} {queryId query : ByteString}
    {settings params : List (ByteString × ByteString)} {info : ClientInfo} {bytes : Bytes}
    (sent : Writer.Writes (sendQuery serverRevision queryId query settings params info) bytes) :
    QueryRecovered serverRevision queryId query settings params bytes ↔
      (∀ setting ∈ settings, setting.1.bytes ≠ []) ∧ ∀ param ∈ params, param.1.bytes ≠ [] := by
  constructor
  · rintro ⟨taken, -, -, -, sameSettings, sameParams⟩
    exact ⟨named_of_map_bytes sameSettings, named_of_map_bytes sameParams⟩
  · rintro ⟨settingsNamed, paramsNamed⟩
    have reads := readBack_query serverRevision queryId query info settingsNamed paramsNamed
      bytes sent []
    rw [List.append_nil] at reads
    exact ⟨_, reads, rfl, rfl, map_bytes_received settingsNamed, map_bytes_received paramsNamed⟩

/-- `SELECT 1` as a statement, with a setting and a parameter. -/
def selectBytes : ByteString := ⟨utf8 "SELECT 1", by decide +kernel⟩

def nameBytes : ByteString := ⟨utf8 "n", by decide +kernel⟩

theorem queryRecovered_iff_select :
    QueryRecovered 54473 emptyString selectBytes [(nameBytes, emptyString)]
        [(nameBytes, nameBytes)]
        (sendQuery 54473 emptyString selectBytes [(nameBytes, emptyString)]
          [(nameBytes, nameBytes)] (clientInfoFor 54473 emptyString emptyString)).written := by
  have sent : Writer.Writes (sendQuery 54473 emptyString selectBytes [(nameBytes, emptyString)]
      [(nameBytes, nameBytes)] (clientInfoFor 54473 emptyString emptyString)) _ :=
    ⟨rfl, (), rfl⟩
  refine (queryRecovered_iff sent).mpr ⟨?_, ?_⟩
  · intro setting member
    rw [List.mem_singleton.mp member]
    decide +kernel
  · intro param member
    rw [List.mem_singleton.mp member]
    decide +kernel

/-- A setting without a name is sent all the same, and is not read back. -/
theorem queryRecovered_fails_unnamed :
    ∃ bytes, Writer.Writes (sendQuery 54473 emptyString selectBytes [(emptyString, nameBytes)] []
        (clientInfoFor 54473 emptyString emptyString)) bytes ∧
      ¬ QueryRecovered 54473 emptyString selectBytes [(emptyString, nameBytes)] [] bytes := by
  refine ⟨_, ⟨rfl, (), rfl⟩, ?_⟩
  rintro ⟨taken, -, -, -, settings, -⟩
  exact named_of_map_bytes settings (emptyString, nameBytes) List.mem_cons_self rfl

end DfeClickhouse.Tcp
