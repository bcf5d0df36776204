import DfeClickhouse.Tcp.SelectStream
import DfeClickhouse.Unified.Columns

/-!
# One result over both transports

The HTTP body is written at the revision the client advertises, the packets of the native
protocol at the revision of the server.  The blocks are the same, and so are the columns
that are read from them.
-/

namespace DfeClickhouse.Unified

open Library Native Native.RowValue Tcp

section Written

variable {columns : List ColumnSchema} {records : List (List RowValue)}

end Written

namespace NativeBlock

/-- The columns of the block, as a server of a revision writes them. -/
def encodeAt (block : NativeBlock) (revision : Nat) : Except Error Bytes :=
  encodeColumns (block.records.map rowBinaries) block.columns revision

/-- What the block is decoded to on either transport. -/
def ReadsAs (block : NativeBlock) (decoded : DecodedBlock) : Prop :=
  ∀ revision encoded, block.encodeAt revision = .ok encoded →
    Reader.Reads (decodeBlock block.columns.length block.records.length revision) encoded decoded

end NativeBlock

namespace NativeBlock

end NativeBlock

section Answers

variable {serverRevision : UInt64}

/-- The packet carries the rows of a block, at the revision of the server. -/
def Carries (packet : SentPacket serverRevision) (block : NativeBlock) : Prop :=
  ∃ kind tableName info capped present body decoded decodes,
    packet = .result kind ⟨tableName, info,
      .rows block.columns.length block.records.length capped present body decoded decodes⟩ ∧
    block.encodeAt serverRevision.toNat = .ok body

theorem Carries.block {packet : SentPacket serverRevision} {block : NativeBlock}
    (carries : Carries packet block) {decoded : DecodedBlock} (reads : block.ReadsAs decoded) :
    packet.block? = some decoded := by
  obtain ⟨kind, tableName, info, capped, present, body, carried, decodes, rfl, encoded⟩ := carries
  have same := (decodes []).symm.trans (reads _ _ encoded [])
  cases same
  rfl

end Answers

end DfeClickhouse.Unified
