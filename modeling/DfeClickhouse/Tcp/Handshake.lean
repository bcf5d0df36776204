import DfeClickhouse.Library.Duplex
import DfeClickhouse.Tcp.PacketStream

/-!
# The handshake

The client says Hello, reads the Hello of the server, and sends an addendum to a server
that reads one.  Both sides know the other's revision then, and every later field goes by
the lower one.
-/

namespace DfeClickhouse.Tcp

open Library Native

def minRevisionWithServerTimezone : Nat := 54058
def minRevisionWithServerDisplayName : Nat := 54372
def minProtocolVersionWithAddendum : Nat := 54458
def minProtocolVersionWithPasswordComplexityRules : Nat := 54461
def minRevisionWithInterserverSecretV2 : Nat := 54462
def minProtocolVersionWithChunkedPackets : Nat := 54470
def minRevisionWithVersionedParallelReplicasProtocol : Nat := 54471

/-- Hard cap on the rules a server may declare in its Hello. -/
def maxPasswordComplexityRules : Nat := 256

structure HandshakeConfig where
  database : ByteString
  user : ByteString
  password : ByteString
  quotaKey : ByteString

/-- The defaults of a server. -/
def HandshakeConfig.default : HandshakeConfig where
  database := ⟨utf8 "default", by decide +kernel⟩
  user := ⟨utf8 "default", by decide +kernel⟩
  password := emptyString
  quotaKey := emptyString

structure ServerHello where
  serverName : String
  version : Nat × Nat × Nat
  /-- The revision of the server, before negotiation. -/
  revision : Nat
  timezone : Option String
  displayName : Option String

def clientPacketIdHello : UInt64 := 0

def sendHello (database user password : ByteString) : ByteWriter Unit := do
  writeVarUint clientPacketIdHello
  writeString clientName
  writeVarUint clientVersionMajor
  writeVarUint clientVersionMinor
  writeVarUint (UInt64.ofNat tcpProtocolVersion)
  writeString database
  writeString user
  writeString password

/-- The answer to an offer of chunked framing. -/
def notchunked : ByteString := ⟨utf8 "notchunked", by decide +kernel⟩

/-- Write what a server reads after its Hello, of which an old one reads nothing. -/
def sendAddendum (serverRevision : Nat) (quotaKey : ByteString) : ByteWriter Unit := do
  let effective := min serverRevision tcpProtocolVersion
  Writer.onlyIf (minProtocolVersionWithAddendum ≤ effective) (writeString quotaKey)
  Writer.onlyIf (minProtocolVersionWithChunkedPackets ≤ effective) do
    writeString notchunked
    writeString notchunked
  Writer.onlyIf (minRevisionWithVersionedParallelReplicasProtocol ≤ effective) (writeVarUint 0)

def rulesRefused (rules : Nat) : Error :=
  .badResponse ("tcp: server declared " ++ toString rules ++
    " password-complexity rules, over the " ++ toString maxPasswordComplexityRules ++ " cap")

/-- The two directions of the framing, or a pattern and its message. -/
def skipStringPair : ByteReader Unit := do
  skip readUtf8String
  skip readUtf8String

/-- The rules of a Hello are read and left. -/
def readRules : ByteReader Unit := do
  let rules ← readVarUint
  Reader.require (rules ≤ maxPasswordComplexityRules) (rulesRefused rules)
  skip (Reader.times skipStringPair rules)

/-- The fields of a Hello that are kept, in the server's order, and those between them. -/
def readHelloFields : ByteReader ServerHello := do
  let serverName ← readUtf8String
  let major ← readVarUint
  let minor ← readVarUint
  let revision ← readVarUint
  let effective := min revision tcpProtocolVersion
  readSince effective minRevisionWithVersionedParallelReplicasProtocol (skip readVarUint)
  let timezone ← readSinceOr effective minRevisionWithServerTimezone none (some <$> readUtf8String)
  let displayName ← readSinceOr effective minRevisionWithServerDisplayName none
    (some <$> readUtf8String)
  let patch ← readSinceOr effective minRevisionWithVersionPatch 0 readVarUint
  readSince effective minProtocolVersionWithChunkedPackets skipStringPair
  return { serverName, version := (major, minor, patch), revision, timezone, displayName }

/-- The rest of a Hello packet behind its id. -/
def readHelloBody : ByteReader ServerHello := do
  let hello ← readHelloFields
  let effective := min hello.revision tcpProtocolVersion
  readSince effective minProtocolVersionWithPasswordComplexityRules readRules
  readSince effective minRevisionWithInterserverSecretV2 (skip (readExact 8))
  return hello

/-- Read the Hello of the server, or the Exception it sends in its place. -/
def readHello : ByteReader ServerHello := do
  let packetType ← readVarUint
  let id ← Reader.ofExcept (ServerPacketId.fromU64 packetType)
  match id with
  | .hello => readHelloBody
  | .exception => do
      let exc ← readException
      Reader.fail exc.intoError
  | other => Reader.fail (.badResponse ("tcp: unexpected packet during handshake: " ++ other.label))

/-- The client's side of the handshake. -/
def handshake (cfg : HandshakeConfig) : Duplex UInt8 Error ServerHello := do
  Duplex.ofWriter (sendHello cfg.database cfg.user cfg.password)
  let hello ← Duplex.ofReader readHello
  Duplex.ofWriter (sendAddendum hello.revision cfg.quotaKey)
  return hello

structure SentHello where
  serverName : WireText
  major : UInt64
  minor : UInt64
  revision : UInt64
  parallelReplicasVersion : UInt64
  timezone : WireText
  displayName : WireText
  patch : UInt64
  /-- The framing it offers to send and to read. -/
  framing : WireText × WireText
  rules : List (WireText × WireText)
  nonce : Bytes
  rules_lt : rules.length < 2 ^ 64
  nonce_length : nonce.length = 8

namespace SentHello

def pairBytes (pair : WireText × WireText) : Bytes :=
  [pair.1.bytes, pair.2.bytes].flatten

def rulesBytes (sent : SentHello) : Bytes :=
  [encodeVarUint sent.rules.length, (sent.rules.map pairBytes).flatten].flatten

def fieldBytes (sent : SentHello) : Bytes :=
  [sent.serverName.bytes, numberBytes sent.major, numberBytes sent.minor, numberBytes sent.revision,
    since sent.revision minRevisionWithVersionedParallelReplicasProtocol
      (numberBytes sent.parallelReplicasVersion),
    since sent.revision minRevisionWithServerTimezone sent.timezone.bytes,
    since sent.revision minRevisionWithServerDisplayName sent.displayName.bytes,
    since sent.revision minRevisionWithVersionPatch (numberBytes sent.patch),
    since sent.revision minProtocolVersionWithChunkedPackets (pairBytes sent.framing)].flatten

def bytes (sent : SentHello) : Bytes :=
  [sent.fieldBytes,
    since sent.revision minProtocolVersionWithPasswordComplexityRules sent.rulesBytes,
    since sent.revision minRevisionWithInterserverSecretV2 sent.nonce].flatten

/-- What the client takes from a Hello. -/
def received (sent : SentHello) : ServerHello where
  serverName := sent.serverName.text
  version := (sent.major.toNat, sent.minor.toNat,
    valueSince sent.revision minRevisionWithVersionPatch 0 sent.patch.toNat)
  revision := sent.revision.toNat
  timezone := valueSince sent.revision minRevisionWithServerTimezone none (some sent.timezone.text)
  displayName := valueSince sent.revision minRevisionWithServerDisplayName none
    (some sent.displayName.text)

/-- The rules it declares, where there are any, stay under the client's cap. -/
def Accepted (sent : SentHello) : Prop :=
  minProtocolVersionWithPasswordComplexityRules ≤ effectiveRevision sent.revision →
    sent.rules.length ≤ maxPasswordComplexityRules

instance (sent : SentHello) : Decidable sent.Accepted :=
  inferInstanceAs (Decidable (_ → _))

end SentHello

/-- What a server knows of a client after the handshake. -/
structure Session where
  clientName : Bytes
  version : Nat × Nat
  revision : Nat
  database : Bytes
  user : Bytes
  password : Bytes
  quotaKey : Option Bytes
  framing : Option (Bytes × Bytes)
  parallelReplicasVersion : Option Nat

namespace HandshakeConfig

/-- What a server of a revision is to know of the client. -/
def session (cfg : HandshakeConfig) (serverRevision : UInt64) : Session where
  clientName := clientName.bytes
  version := (clientVersionMajor.toNat, clientVersionMinor.toNat)
  revision := tcpProtocolVersion
  database := cfg.database.bytes
  user := cfg.user.bytes
  password := cfg.password.bytes
  quotaKey := valueSince serverRevision minProtocolVersionWithAddendum none
    (some cfg.quotaKey.bytes)
  framing := valueSince serverRevision minProtocolVersionWithChunkedPackets none
    (some (notchunked.bytes, notchunked.bytes))
  parallelReplicasVersion := valueSince serverRevision
    minRevisionWithVersionedParallelReplicasProtocol none (some 0)

def helloBytes (cfg : HandshakeConfig) : Bytes :=
  (sendHello cfg.database cfg.user cfg.password).written

def addendumBytes (cfg : HandshakeConfig) (serverRevision : Nat) : Bytes :=
  (sendAddendum serverRevision cfg.quotaKey).written

end HandshakeConfig

theorem reads_skipStringPair (pair : WireText × WireText) :
    Reader.Reads skipStringPair (SentHello.pairBytes pair) () := by
  apply (reads_skip (reads_text pair.1)).bind
  rw [List.flatten_singleton]
  exact reads_skip (reads_text pair.2)

namespace SentHello

theorem reads_readRules (sent : SentHello)
    (capped : sent.rules.length ≤ maxPasswordComplexityRules) :
    Reader.Reads readRules sent.rulesBytes () := by
  apply (reads_readVarUint sent.rules_lt).bind
  apply Reader.Reads.require_bind capped
  rw [List.flatten_singleton]
  exact reads_skip (Reader.Reads.times_map fun pair _ => reads_skipStringPair pair)

theorem readRules_refused (sent : SentHello)
    (many : ¬ sent.rules.length ≤ maxPasswordComplexityRules) (rest : Bytes) :
    readRules (sent.rulesBytes ++ rest) = .error (rulesRefused sent.rules.length) := by
  rw [rulesBytes, List.flatten_cons, List.append_assoc, readRules,
    Reader.bind_of_ok (reads_readVarUint sent.rules_lt _), Reader.require_of_not many]
  rfl

theorem reads_readHelloFields (sent : SentHello) :
    Reader.Reads readHelloFields sent.fieldBytes sent.received := by
  apply (reads_text sent.serverName).bind
  apply (reads_number sent.major).bind
  apply (reads_number sent.minor).bind
  apply (reads_number sent.revision).bind
  apply (reads_since (reads_skip (reads_number sent.parallelReplicasVersion))).bind
  apply (reads_sinceOr ((reads_text sent.timezone).map some)).bind
  apply (reads_sinceOr ((reads_text sent.displayName).map some)).bind
  apply (reads_sinceOr (reads_number sent.patch)).bind
  apply (reads_since (reads_skipStringPair sent.framing)).bind
  exact Reader.Reads.pure _

theorem reads_readHelloBody (sent : SentHello) (accepted : sent.Accepted) :
    Reader.Reads readHelloBody sent.bytes sent.received := by
  apply sent.reads_readHelloFields.bind
  have rules : Reader.Reads (readSince (effectiveRevision sent.revision)
      minProtocolVersionWithPasswordComplexityRules readRules)
      (since sent.revision minProtocolVersionWithPasswordComplexityRules sent.rulesBytes) () := by
    unfold readSince Reader.onlyIf since
    by_cases declared : minProtocolVersionWithPasswordComplexityRules ≤
      effectiveRevision sent.revision
    · rw [if_pos declared, if_pos declared]
      exact sent.reads_readRules (accepted declared)
    · rw [if_neg declared, if_neg declared]
      exact Reader.Reads.pure ()
  apply rules.bind
  apply (reads_since (reads_skip (reads_readExact sent.nonce_length))).bind
  exact Reader.Reads.pure _

/-- Too many rules are refused before any of them is read. -/
theorem readHelloBody_refused (sent : SentHello) (refused : ¬ sent.Accepted) (rest : Bytes) :
    readHelloBody (sent.bytes ++ rest) = .error (rulesRefused sent.rules.length) := by
  obtain ⟨declared, many⟩ := Classical.not_imp.mp refused
  rw [bytes, List.flatten_cons, List.append_assoc, readHelloBody,
    Reader.bind_of_ok (sent.reads_readHelloFields _), List.flatten_cons, List.append_assoc]
  have gated : readSince (min sent.received.revision tcpProtocolVersion)
      minProtocolVersionWithPasswordComplexityRules readRules = readRules := if_pos declared
  rw [gated, since, if_pos declared]
  exact Reader.bind_of_error (sent.readRules_refused many _)

end SentHello

/-- What a server answers to a Hello. -/
inductive ServerReply
  | hello (sent : SentHello)
  | exception (exc : SentException)

namespace ServerReply

def bytes : ServerReply → Bytes
  | hello sent => encodeVarUint ServerPacketId.hello.code ++ sent.bytes
  | exception exc => encodeVarUint ServerPacketId.exception.code ++ exc.bytes

/-- What the client makes of an answer. -/
def outcome : ServerReply → Except Error ServerHello
  | hello sent =>
      if sent.Accepted then .ok sent.received else .error (rulesRefused sent.rules.length)
  | exception exc => .error exc.received.intoError

end ServerReply

/-- The whole answer is read as its outcome says. -/
@[simp] theorem readHello_reply (reply : ServerReply) (later : Bytes) :
    readHello (reply.bytes ++ later) = reply.outcome.map (·, later) := by
  cases reply with
  | hello sent =>
      rw [ServerReply.bytes, List.append_assoc, readHello,
        Reader.bind_of_ok (reads_readVarUint ServerPacketId.hello.code_lt _), ServerReply.outcome]
      by_cases accepted : sent.Accepted
      · rw [if_pos accepted]
        exact sent.reads_readHelloBody accepted later
      · rw [if_neg accepted]
        exact sent.readHelloBody_refused accepted later
  | exception exc =>
      rw [ServerReply.bytes, List.append_assoc, readHello,
        Reader.bind_of_ok (reads_readVarUint ServerPacketId.exception.code_lt _)]
      show (readException >>= fun exc => Reader.fail exc.intoError) (exc.bytes ++ later) = _
      rw [Reader.bind_of_ok (reads_readException exc later)]
      rfl

instance : Reader.Incremental skipStringPair := by
  unfold skipStringPair
  infer_instance

instance : Reader.Incremental readRules := by
  unfold readRules
  infer_instance

instance : Reader.Incremental readHelloFields := by
  unfold readHelloFields
  infer_instance

instance : Reader.Incremental readHelloBody := by
  unfold readHelloBody
  infer_instance

instance : Reader.Incremental readHello := by
  unfold readHello
  refine .andThen fun packetType => .andThen fun id => ?_
  cases id <;> infer_instance

/-- An answer that is cut is an error. -/
theorem readHello_cut {reply : ServerReply} {cut : Bytes} (inside : cut <+: reply.bytes)
    (short : cut ≠ reply.bytes) : ∃ error, readHello cut = .error error := by
  cases read : readHello cut with
  | error error => exact ⟨error, rfl⟩
  | ok result =>
      obtain ⟨hello, rest⟩ := result
      obtain ⟨more, split⟩ := inside
      have whole := readHello_reply reply []
      cases answered : reply.outcome with
      | error error =>
          have extended := Reader.Incremental.extend read more
          rw [← List.append_nil (cut ++ more), split, whole, answered] at extended
          cases extended
      | ok hello' =>
          rw [answered] at whole
          rw [← List.append_nil reply.bytes] at split
          obtain ⟨front, behind, _⟩ := Reader.Incremental.front_of_ok whole read split
          have ended : rest = [] := (List.append_eq_nil_iff.mp behind.symm).1
          rw [ended, List.append_nil] at front
          exact absurd front short

theorem succeeds_sendHello (cfg : HandshakeConfig) :
    Writer.Writes (sendHello cfg.database cfg.user cfg.password) cfg.helloBytes :=
  ⟨rfl, (), rfl⟩

theorem succeeds_sendAddendum (cfg : HandshakeConfig) (serverRevision : Nat) :
    Writer.Writes (sendAddendum serverRevision cfg.quotaKey)
      (cfg.addendumBytes serverRevision) := by
  refine ⟨rfl, (), ?_⟩
  unfold sendAddendum Writer.onlyIf
  dsimp only
  split <;> split <;> split <;> rfl

theorem handshake_run (cfg : HandshakeConfig) (input : Bytes) :
    handshake cfg input =
      match readHello input with
      | .ok (hello, rest) => ⟨cfg.helloBytes ++ cfg.addendumBytes hello.revision, .ok (hello, rest)⟩
      | .error error => ⟨cfg.helloBytes, .error error⟩ := by
  have hello := Duplex.Exchanges.ofWriter (succeeds_sendHello cfg)
  rw [handshake, ← List.nil_append input, hello.bind_run, List.nil_append]
  cases read : readHello input with
  | error error =>
      have failed : Duplex.ofReader readHello input = ⟨[], .error error⟩ := by
        rw [Duplex.ofReader, read]
      rw [Duplex.bind_of_error failed, Duplex.Outcome.after, List.append_nil]
  | ok result =>
      obtain ⟨answer, rest⟩ := result
      have addendum := Duplex.Exchanges.ofWriter (succeeds_sendAddendum cfg answer.revision)
      rw [Duplex.bind_run, Duplex.ofReader, read]
      dsimp only
      rw [← List.nil_append rest, addendum.bind_run]
      simp [Duplex.Outcome.after, pure]

/-- A connection that breaks before the answer is whole gets an error, and no addendum. -/
theorem handshake_cut (cfg : HandshakeConfig) (reply : ServerReply) {cut : Bytes}
    (inside : cut <+: reply.bytes) (short : cut ≠ reply.bytes) :
    ∃ error, handshake cfg cut = ⟨cfg.helloBytes, .error error⟩ := by
  obtain ⟨error, failed⟩ := readHello_cut inside short
  exact ⟨error, by rw [handshake_run, failed]⟩

/-- The answer to a wrong password. -/
def wrongPassword : ServerReply :=
  .exception ⟨516#32, ⟨"", Nat.zero_le _⟩, ⟨"", Nat.zero_le _⟩, ⟨"", Nat.zero_le _⟩, 0⟩

theorem handshake_cut_wrongPassword :
    ∃ error, handshake .default [2, 4, 2] = ⟨HandshakeConfig.default.helloBytes, .error error⟩ :=
  handshake_cut .default wrongPassword ⟨[0, 0, 0, 0, 0, 0], rfl⟩ (by decide)

end DfeClickhouse.Tcp
