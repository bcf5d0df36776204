import DfeClickhouse.Tcp.Cursor
import DfeClickhouse.Tcp.Exchange
import DfeClickhouse.Tcp.PacketStream

/-!
# A SELECT from the server's bytes to its blocks

The reader task hands the packets of the connection to the actor, the actor those of a
streaming SELECT to its cursor.  What the cursor collects is what the server sent for the
query, wherever the connection breaks.
-/

namespace DfeClickhouse.Tcp

open Library Native Script

namespace Event

/-- The message of the reader task that an event is. -/
def message? : Event → Option ReaderMessage
  | .received message => some message
  | _ => none

end Event

/-- The messages of the reader task that a command has taken. -/
def messages (events : List Event) : List ReaderMessage :=
  events.filterMap Event.message?

/-- The block of a message. -/
def ReaderMessage.block? : ReaderMessage → Option DecodedBlock
  | .packet received => received.block?
  | .error _ => none

@[simp] theorem filterMap_messages (events : List Event) :
    (messages events).filterMap ReaderMessage.block? = events.filterMap Event.block? := by
  have each : Event.block? = fun event => event.message?.bind ReaderMessage.block? := by
    funext event
    cases event with
    | received message => cases message <;> rfl
    | _ => rfl
  rw [messages, List.filterMap_filterMap, ← each]

namespace SentPacket

variable {serverRevision : UInt64}

/-- Only the EndOfStream is taken for one. -/
theorem eq_endOfStream {packet : SentPacket serverRevision}
    (same : packet.message = .packet .endOfStream) : packet = .endOfStream := by
  cases packet with
  | endOfStream => rfl
  | result kind block =>
      obtain ⟨tableName, info, columns⟩ := block
      cases columns <;> cases same
  | _ => cases same

/-- The block of a packet, as the client reads it. -/
def block? (packet : SentPacket serverRevision) : Option DecodedBlock :=
  packet.received.packet.block?

/-- Whether a packet is the last of an answer to a query. -/
def isEnd (packet : SentPacket serverRevision) : Bool :=
  Request.query.isEnd packet.received.packet

end SentPacket

section Delivered

variable {serverRevision : UInt64} {sent : List (SentPacket serverRevision)} {cut : Bytes}

/-- A message of a packet that the reader hands on is that of a packet which arrived whole,
behind all the packets before it. -/
theorem exists_of_delivered (inside : cut <+: streamBytes sent) {rounds : Nat}
    {handed : List ReaderMessage} {packet : ServerPacket}
    (delivered : handed ++ [.packet packet] <+: readerLoop serverRevision rounds cut) :
    ∃ front last after, sent = front ++ last :: after ∧ front.map SentPacket.message = handed ∧
      last.message = .packet packet ∧ streamBytes (front ++ [last]) <+: cut := by
  obtain ⟨count, part, error, ⟨within, arrived⟩, parted, failed⟩ := exists_wholePackets inside
  rw [parted, readerLoop_packets _ failed] at delivered
  have packets : handed ++ [.packet packet] <+: (sent.take count).map SentPacket.message := by
    rcases List.prefix_concat_iff.mp (delivered.trans (List.take_prefix _ _)) with all | packets
    · have last := congrArg List.getLast? all
      simp at last
    · exact packets
  obtain ⟨taken, short, same⟩ := List.prefix_map_iff.mp packets
  obtain ⟨front, single, rfl, named, ended⟩ := List.append_eq_map_iff.mp same
  obtain ⟨last, rfl, last_message⟩ := List.map_eq_singleton_iff.mp ended
  have whole : sent.take (front ++ [last]).length = front ++ [last] :=
    (List.prefix_iff_eq_take.mp (short.trans (List.take_prefix _ _))).symm
  have bounded : (front ++ [last]).length ≤ count :=
    short.length_le.trans (List.length_take_le _ _)
  obtain ⟨after, split⟩ := short.trans (List.take_prefix _ _)
  refine ⟨front, last, after, ?_, named, last_message, ?_⟩
  · rw [← split, List.append_assoc, List.singleton_append]
  · rw [← whole]
    exact (arrived _ (bounded.trans within)).mpr bounded

end Delivered

namespace Actor

variable {actor : Actor}

/-- A result is the blocks of a complete stream. -/
theorem completes_of_fetched {query : Query} {events : List Event}
    (taken : actor.TakesStream query events) {dropped : Bool} {blocks : List DecodedBlock}
    (fetched : TcpRawCursor.fetchBlocks { rx := actor.streamReceiver query events dropped } [] =
      some (.ok blocks)) : actor.Completes events blocks := by
  unfold streamReceiver at fetched
  rcases taken with waits | ⟨⟨frames, after⟩, ran⟩
  · rw [waits] at fetched
    exact absurd fetched (TcpRawCursor.fetchBlocks_ne_ok (framesSoFar_short query events) blocks)
  · rw [ran] at fetched
    rcases (ensures_stream query).of_done ran with ⟨before, rfl, free, ended⟩ | ⟨absent, short⟩
    · dsimp only at ended fetched
      rw [ended, fetchBlocks_handed] at fetched
      cases fetched
      exact ⟨before, [], rfl, free, rfl⟩
    · exact absurd fetched (TcpRawCursor.fetchBlocks_ne_ok absent blocks)

/-- A message that leaves the stream open is that of a packet that does not end an
answer. -/
theorem isEnd_of_free {events : List Event} (free : Free actor.endsStream events)
    {packet : ServerPacket} (member : .packet packet ∈ messages events) :
    Request.query.isEnd packet = false := by
  obtain ⟨event, present, found⟩ := List.mem_filterMap.mp member
  have open_ := free event present
  cases event with
  | received message =>
      cases found
      cases packet <;> first | rfl | cases open_
  | _ => cases found

/-- Where the cursor collects blocks with a result, the server has sent an answer to the
query up to its EndOfStream, all of it arrived, and the blocks are those of the answer. -/
theorem fetchBlocks_sent {serverRevision : UInt64}
    {earlier packets : List (SentPacket serverRevision)}
    {cut : Bytes} (inside : cut <+: streamBytes (earlier ++ packets)) {rounds : Nat}
    {query : Query} {events : List Event} (taken : actor.TakesStream query events)
    (delivered : earlier.map SentPacket.message ++ messages events <+:
      readerLoop serverRevision rounds cut)
    {dropped : Bool} {blocks : List DecodedBlock}
    (fetched : TcpRawCursor.fetchBlocks { rx := actor.streamReceiver query events dropped } [] =
      some (.ok blocks)) :
    ∃ answer after, packets = answer ++ .endOfStream :: after ∧
      (∀ packet ∈ answer, packet.isEnd = false) ∧
      streamBytes (earlier ++ answer ++ [.endOfStream]) <+: cut ∧
      blocks = answer.filterMap SentPacket.block? := by
  obtain ⟨before, rest, rfl, free, rfl⟩ := completes_of_fetched taken fetched
  have front : (earlier.map SentPacket.message ++ messages before) ++
      [.packet .endOfStream] <+: readerLoop serverRevision rounds cut := by
    refine List.IsPrefix.trans ⟨messages rest, ?_⟩ delivered
    simp [messages, Event.message?, List.filterMap_cons]
  obtain ⟨sent, last, after, split, named, ended, whole⟩ := exists_of_delivered inside front
  obtain rfl := SentPacket.eq_endOfStream ended
  obtain ⟨earlier', answer, rfl, same, answered⟩ := List.map_eq_append_iff.mp named
  have lengths : earlier'.length = earlier.length := by
    simpa using congrArg List.length same
  rw [List.append_assoc] at split
  obtain ⟨rfl, packets_eq⟩ := List.append_inj split lengths.symm
  refine ⟨answer, after, packets_eq, ?_, whole, ?_⟩
  · intro packet member
    apply isEnd_of_free free
    rw [← answered]
    exact List.mem_map_of_mem member
  · rw [← filterMap_messages, ← answered, List.filterMap_map]
    rfl

theorem bounded_one : (utf8 "1").length ≤ maxStringSize :=
  Nat.le_of_ble_eq_true rfl

theorem bounded_uInt8 : (utf8 "UInt8").length ≤ maxStringSize :=
  Nat.le_of_ble_eq_true rfl

theorem bounded_empty : (utf8 "").length ≤ maxStringSize :=
  Nat.zero_le _

theorem oneColumn_capped :
    [((⟨"1", bounded_one⟩, ⟨"UInt8", bounded_uInt8⟩) : WireText × WireText)].length ≤
      maxBlockColumns :=
  Nat.le_of_ble_eq_true rfl

/-- The schema block of `SELECT 1`. -/
def oneHeader : SentBlock 54459 where
  tableName := ⟨"", bounded_empty⟩
  info := ⟨0, 0⟩
  columns := .headers [(⟨"1", bounded_one⟩, ⟨"UInt8", bounded_uInt8⟩)] oneColumn_capped

/-- The schema block and the end of the answer. -/
def oneAnswer : List (SentPacket 54459) :=
  [.result .data oneHeader, .endOfStream]

/-- What the actor meets while it takes that answer. -/
def oneEvents : List Event :=
  [.wrote (.query selectOne), .wrote .emptyBlock, .received (.packet (.data 0 [("1", "UInt8")])),
    .sent, .received (.packet .endOfStream), .sent]

/-- The answer to an earlier Ping comes first. -/
theorem fetchBlocks_sent_one :
    ∃ answer after, oneAnswer = answer ++ .endOfStream :: after ∧
      (∀ packet ∈ answer, packet.isEnd = false) ∧
      streamBytes ([.pong] ++ answer ++ [.endOfStream]) <+: streamBytes (.pong :: oneAnswer) ∧
      [DecodedBlock.mk [] [("1", "UInt8")] 0] = answer.filterMap SentPacket.block? := by
  have taken : Actor.TakesStream {} selectOne oneEvents := .inr ⟨_, rfl⟩
  have delivered : [(.pong : SentPacket 54459)].map SentPacket.message ++ messages oneEvents <+:
      readerLoop 54459 3 (streamBytes (.pong :: oneAnswer)) := by
    obtain ⟨error, failed⟩ := @readPacket_nil 54459
    have run := readerLoop_packets (.pong :: oneAnswer) failed 3
    rw [List.append_nil] at run
    rw [run]
    exact List.prefix_refl _
  have fetched : TcpRawCursor.fetchBlocks
      { rx := Actor.streamReceiver {} selectOne oneEvents false } [] =
        some (.ok [DecodedBlock.mk [] [("1", "UInt8")] 0]) := by
    have frames : Actor.streamReceiver {} selectOne oneEvents false =
        { frames := handed (oneEvents.take 4) ++ [.ok .endOfStream], closed := true } := rfl
    rw [frames, fetchBlocks_handed]
    rfl
  exact fetchBlocks_sent (List.prefix_refl _) taken delivered fetched

end Actor

end DfeClickhouse.Tcp
