import DfeClickhouse.Tcp.InsertSession
import DfeClickhouse.Tcp.QueryPacket

/-!
# The end of input

A Data packet without columns, rows and column bytes tells the server that an INSERT is
over.  `FinishInsert` writes it; a block that a caller sends is written the same way, with
the counts the caller gives.
-/

namespace DfeClickhouse.Tcp

open Library Native

def minRevisionWithTemporaryTables : Nat := 50264
def minRevisionWithBlockInfo : Nat := 51903

/-- `Data` among the ids of client packets. -/
def clientPacketIdData : Nat := 2

/-- The block info: not an overflow, and no bucket. -/
def blockInfo : Bytes :=
  encodeVarUint 1 ++ [0] ++ encodeVarUint 2 ++ natLe 4 (BitVec.ofInt 32 (-1)).toNat ++
    encodeVarUint 0

/-- What comes before the counts of a Data packet. -/
def dataHeader (serverRevision : UInt64) (tableName : String) : Bytes :=
  encodeVarUint clientPacketIdData ++
    (if minRevisionWithTemporaryTables ≤ serverRevision.toNat then putString (utf8 tableName)
      else []) ++
    (if minRevisionWithBlockInfo ≤ serverRevision.toNat then blockInfo else [])

def sendDataBlock (serverRevision : UInt64) (tableName : String) (columnBytes : Bytes)
    (numColumns numRows : Nat) : Bytes :=
  dataHeader serverRevision tableName ++ encodeVarUint numColumns ++ encodeVarUint numRows ++
    columnBytes

/-- The sentinel. -/
def sendEmptyBlock (serverRevision : UInt64) : Bytes :=
  sendDataBlock serverRevision "" [] 0 0

/-- The bytes of a Data packet of the actor. -/
def ClientPacket.dataBytes (serverRevision : UInt64) : ClientPacket → Option Bytes
  | .emptyBlock => some (sendEmptyBlock serverRevision)
  | .dataBlock columnBytes numColumns numRows =>
      some (sendDataBlock serverRevision "" columnBytes numColumns numRows)
  | _ => none

/-- The packet is the sentinel, byte by byte. -/
def ClientPacket.isSentinel (serverRevision : UInt64) (packet : ClientPacket) : Bool :=
  packet.dataBytes serverRevision == some (sendEmptyBlock serverRevision)

/-- Only zero is encoded with a zero byte in front. -/
theorem encodeVarUint_append_eq_zero_cons {value : Nat} {rest tail : Bytes} :
    encodeVarUint value ++ rest = 0 :: tail ↔ value = 0 ∧ rest = tail := by
  constructor
  · intro same
    rw [encodeVarUint, varUintMaxBytes, encodeVarUintGroups] at same
    by_cases more : value / 128 > 0
    · rw [if_pos more, List.cons_append] at same
      have first := congrArg UInt8.toNat (List.cons.inj same).1
      rw [UInt8.toNat_ofNat'] at first
      have zero : (0 : UInt8).toNat = 0 := rfl
      omega
    · rw [if_neg more, List.singleton_append] at same
      obtain ⟨first, rest⟩ := List.cons.inj same
      have first := congrArg UInt8.toNat first
      rw [UInt8.toNat_ofNat'] at first
      have zero : (0 : UInt8).toNat = 0 := rfl
      exact ⟨by omega, rest⟩
  · intro both
    rw [both.1, both.2]
    rfl

/-- At every revision, a block is the sentinel exactly when it has no columns, no rows and
no bytes. -/
theorem isSentinel_dataBlock_iff (serverRevision : UInt64) (columnBytes : Bytes)
    (numColumns numRows : Nat) :
    (ClientPacket.dataBlock columnBytes numColumns numRows).isSentinel serverRevision = true ↔
      columnBytes = [] ∧ numColumns = 0 ∧ numRows = 0 := by
  have counts : ClientPacket.isSentinel serverRevision
      (.dataBlock columnBytes numColumns numRows) = true ↔
        encodeVarUint numColumns ++ (encodeVarUint numRows ++ columnBytes) = [0, 0] := by
    rw [ClientPacket.isSentinel, ClientPacket.dataBytes, beq_iff_eq, Option.some_inj,
      sendEmptyBlock, sendDataBlock, sendDataBlock, List.append_assoc, List.append_assoc,
      List.append_assoc, List.append_assoc, List.append_cancel_left_eq]
    rfl
  rw [counts, encodeVarUint_append_eq_zero_cons, encodeVarUint_append_eq_zero_cons]
  constructor
  · intro same
    exact ⟨same.2.2, same.1, same.2.1⟩
  · intro empty
    exact ⟨empty.2.1, empty.2.2, empty.1⟩

@[simp] theorem isSentinel_emptyBlock (serverRevision : UInt64) :
    ClientPacket.emptyBlock.isSentinel serverRevision = true :=
  beq_self_eq_true _

namespace Entry

/-- The packets an entry of a run puts on the wire. -/
def packets : Entry → List ClientPacket
  | .poisoned => []
  | .handled _ events _ => written events

/-- What may stand between the opening of a session and its end. -/
def IsSend : Entry → Prop
  | .poisoned => True
  | .handled cmd _ _ => ∃ columnBytes numColumns numRows,
      cmd = .sendInsertBlock columnBytes numColumns numRows

/-- A block without columns, rows and bytes is sent. -/
def SendsEmptyBlock : Entry → Prop
  | .handled (.sendInsertBlock columnBytes numColumns numRows) _ _ =>
      columnBytes = [] ∧ numColumns = 0 ∧ numRows = 0
  | _ => False

end Entry

/-- An INSERT that was opened and finished, with any blocks sent in between.  The finish was
answered without an error, or its sentinel is on the wire whatever was answered. -/
structure FinishedInsert where
  query : Query
  columns : List (String × String)
  opening : List Event
  sends : List Entry
  ending : List Event
  reply : Reply
  onlySends : ∀ entry ∈ sends, entry.IsSend
  finished : reply = .answered (.ok ()) ∨ .emptyBlock ∈ written ending

namespace FinishedInsert

/-- The commands of the session with their answers, for the actor's run. -/
def entries (session : FinishedInsert) : List Entry :=
  .handled (.beginInsert session.query) session.opening (.opened (.ok session.columns)) ::
    (session.sends ++ [.handled .finishInsert session.ending session.reply])

/-- The packets of the blocks that were sent. -/
def blocks (session : FinishedInsert) : List ClientPacket :=
  session.sends.flatMap Entry.packets

/-- No block is the sentinel: the server sees one behind that of the query, and it is the
one that `FinishInsert` writes. -/
structure SentinelAtEnd (serverRevision : UInt64) (session : FinishedInsert) : Prop where
  opening : written session.opening = [.query session.query, .emptyBlock]
  blocks : ∀ packet ∈ session.blocks, packet.isSentinel serverRevision = false
  ending : written session.ending = [.emptyBlock]
  once : (session.blocks ++ written session.ending).countP
    (ClientPacket.isSentinel serverRevision) = 1

end FinishedInsert

/-- The finish found the INSERT open and wrote one sentinel. -/
theorem FinishedInsert.ends {session : FinishedInsert} {actor after : Actor}
    (ran : actor.Step (.handled .finishInsert session.ending session.reply) after) :
    actor.state = .insertActive ∧ written session.ending = [.emptyBlock] := by
  apply (Actor.handle_finish_cases ran).resolve_right
  rintro ⟨nothing, error, failed⟩
  cases session.finished with
  | inl answered =>
      rw [failed] at answered
      cases answered
  | inr wrote =>
      rw [nothing] at wrote
      cases wrote

/-- What a send leaves behind when the INSERT is still open after it: it was open before,
and the block is on the wire or was past the cap. -/
theorem Actor.step_send {actor after : Actor} {columnBytes : Bytes} {numColumns numRows : Nat}
    {events : List Event} {reply : Reply}
    (stepped : actor.Step
      (.handled (.sendInsertBlock columnBytes numColumns numRows) events reply) after)
    (isOpen : after.state = .insertActive) :
    actor.state = .insertActive ∧
      (written events = [.dataBlock columnBytes numColumns numRows] ∨
        written events = [] ∧ columnBytes ≠ []) := by
  obtain ⟨answer, _, outcome, _⟩ := Actor.handle_send stepped
  generalize written events = packets at outcome ⊢
  cases outcome with
  | sent same =>
      rw [same] at isOpen
      exact ⟨isOpen, .inl rfl⟩
  | ended error closed =>
      rw [closed] at isOpen
      cases isOpen
  | overCap error past =>
      refine ⟨isOpen, .inr ⟨rfl, ?_⟩⟩
      rintro rfl
      exact absurd past (Nat.not_lt_zero _)

/-- Over the sends of a session that is still open behind them, some packet is the sentinel
exactly when some block sent is empty. -/
theorem sends_sentinel_iff (serverRevision : UInt64) {sends : List Entry} {actor after : Actor}
    (onlySends : ∀ entry ∈ sends, entry.IsSend) (runs : Script.Runs Actor.Step actor sends after)
    (isOpen : after.state = .insertActive) :
    actor.state = .insertActive ∧
      ((∀ packet ∈ sends.flatMap Entry.packets, packet.isSentinel serverRevision = false) ↔
        ∀ entry ∈ sends, ¬ entry.SendsEmptyBlock) := by
  induction sends generalizing actor with
  | nil =>
      cases runs
      simp [isOpen]
  | cons entry sends ih =>
      obtain ⟨next, stepped, runs⟩ := runs
      obtain ⟨nextOpen, rest⟩ := ih
        (fun other member => onlySends other (List.mem_cons_of_mem _ member)) runs
      rw [List.flatMap_cons, List.forall_mem_append, List.forall_mem_cons, rest]
      cases entry with
      | poisoned =>
          cases stepped
          exact ⟨nextOpen, by simp [Entry.packets, Entry.SendsEmptyBlock]⟩
      | handled cmd events reply =>
          obtain ⟨columnBytes, numColumns, numRows, rfl⟩ := onlySends _ List.mem_cons_self
          obtain ⟨wasOpen, onWire⟩ := Actor.step_send stepped nextOpen
          refine ⟨wasOpen, and_congr_left fun _ => ?_⟩
          rw [Entry.packets, Entry.SendsEmptyBlock]
          cases onWire with
          | inl sent =>
              rw [sent, List.forall_mem_singleton, ← Bool.not_eq_true,
                isSentinel_dataBlock_iff]
          | inr refused =>
              rw [refused.1]
              simp [refused.2]

/-- In every finished session, the server sees one sentinel, at the end, exactly when no
block was sent without columns, rows and bytes. -/
theorem sentinelAtEnd_iff {session : FinishedInsert} {actor after : Actor}
    (runs : Script.Runs Actor.Step actor session.entries after) (serverRevision : UInt64) :
    session.SentinelAtEnd serverRevision ↔
      ∀ entry ∈ session.sends, ¬ entry.SendsEmptyBlock := by
  obtain ⟨opened, began, runs⟩ := runs
  obtain ⟨before, sent, last, finished, ended⟩ := Script.runs_append_iff.mp runs
  obtain ⟨isOpen, ending⟩ := FinishedInsert.ends finished
  obtain ⟨_, blocks⟩ := sends_sentinel_iff serverRevision session.onlySends sent isOpen
  rw [← blocks]
  constructor
  · intro atEnd
    exact atEnd.blocks
  · intro apart
    refine ⟨(Actor.handle_begin began).1, apart, ending, ?_⟩
    have none : session.blocks.countP (ClientPacket.isSentinel serverRevision) = 0 := by
      rw [List.countP_eq_zero]
      intro packet member
      rw [apart packet member]
      exact Bool.false_ne_true
    rw [List.countP_append, none, ending, List.countP_singleton, isSentinel_emptyBlock]
    rfl

/-- A session that sends one block. -/
def oneBlock (columnBytes : Bytes) (numColumns numRows : Nat) : FinishedInsert where
  query := { queryId := "", query := "INSERT INTO t VALUES" }
  columns := [("a", "UInt8")]
  opening := [.wrote (.query { queryId := "", query := "INSERT INTO t VALUES" }),
    .wrote .emptyBlock, .received (.packet (.data 0 [("a", "UInt8")]))]
  sends := [.handled (.sendInsertBlock columnBytes numColumns numRows)
    [.empty, .wrote (.dataBlock columnBytes numColumns numRows)] (.answered (.ok ()))]
  ending := [.wrote .emptyBlock, .received (.packet .endOfStream)]
  reply := .answered (.ok ())
  onlySends := by
    intro entry member
    rw [List.mem_singleton.mp member]
    exact ⟨_, _, _, rfl⟩
  finished := .inl rfl

theorem runs_oneBlock_row :
    Script.Runs Actor.Step {} (oneBlock [1, 97] 1 1).entries {} :=
  ⟨_, rfl, _, rfl, _, rfl, rfl⟩

theorem runs_oneBlock_empty :
    Script.Runs Actor.Step {} (oneBlock [] 0 0).entries {} :=
  ⟨_, rfl, _, rfl, _, rfl, rfl⟩

theorem sentinelAtEnd_iff_row :
    (oneBlock [1, 97] 1 1).SentinelAtEnd 54473 ↔
      ∀ entry ∈ (oneBlock [1, 97] 1 1).sends, ¬ entry.SendsEmptyBlock :=
  sentinelAtEnd_iff runs_oneBlock_row 54473

/-- A block without columns, rows and bytes is accepted, and is the sentinel. -/
theorem sentinelAtEnd_fails_empty :
    Script.Runs Actor.Step {} (oneBlock [] 0 0).entries {} ∧
      (oneBlock [] 0 0).blocks = [.dataBlock [] 0 0] ∧
      ¬ (oneBlock [] 0 0).SentinelAtEnd 54473 := by
  refine ⟨runs_oneBlock_empty, rfl, ?_⟩
  intro atEnd
  have apart := atEnd.blocks (.dataBlock [] 0 0) (List.mem_singleton.mpr rfl)
  rw [(isSentinel_dataBlock_iff 54473 [] 0 0).mpr ⟨rfl, rfl, rfl⟩] at apart
  cases apart

end DfeClickhouse.Tcp
