import DfeClickhouse.Dynamic.SentBlocks
import DfeClickhouse.Dynamic.TypedCells
import DfeClickhouse.Native.WrittenCounts
import DfeClickhouse.Tcp.InsertStream

/-!
# The rows of a dynamic insert, as the server reads them

From the values of a write to the cells that a server of any revision decodes: encoded row by
row, held in blocks, transposed, framed, read and decoded column by column.
-/

namespace DfeClickhouse.Native

open Library RowValue

end DfeClickhouse.Native

namespace DfeClickhouse.Unified.NativeBlock

open Library Native Native.RowValue

variable {block : NativeBlock} {decoded : DecodedBlock}

end DfeClickhouse.Unified.NativeBlock

namespace DfeClickhouse.Dynamic

open Library Native Native.RowValue
open Tcp (Actor ClientPacket Query Puts EncodedAs FinishedInsert readInsert effectiveRevision
  emptyString)

variable {env : Env} {columns : List ColumnDef} {native : List ColumnSchema}
  {serverRevision : UInt64}

variable {database table : String} {quotaKey : ByteString}

end DfeClickhouse.Dynamic
