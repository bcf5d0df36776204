import DfeClickhouse.Dynamic.CellBoundaries
import DfeClickhouse.Dynamic.CellFaults
import DfeClickhouse.Dynamic.Classify
import DfeClickhouse.Dynamic.Coercion
import DfeClickhouse.Dynamic.DateFaults
import DfeClickhouse.Dynamic.DecimalScaling
import DfeClickhouse.Dynamic.Encode
import DfeClickhouse.Dynamic.EnumLabels
import DfeClickhouse.Dynamic.EpochDays
import DfeClickhouse.Dynamic.Insert
import DfeClickhouse.Dynamic.InsertAccounting
import DfeClickhouse.Dynamic.InsertSteps
import DfeClickhouse.Dynamic.InsertedRows
import DfeClickhouse.Dynamic.JsonSetting
import DfeClickhouse.Dynamic.ParsedType
import DfeClickhouse.Dynamic.PostedRows
import DfeClickhouse.Dynamic.ReceivedRows
import DfeClickhouse.Dynamic.RowBlocks
import DfeClickhouse.Dynamic.RowBoundaries
import DfeClickhouse.Dynamic.RowErrors
import DfeClickhouse.Dynamic.RowFaults
import DfeClickhouse.Dynamic.ScalarText
import DfeClickhouse.Dynamic.SchemaCache
import DfeClickhouse.Dynamic.SchemaRecovery
import DfeClickhouse.Dynamic.SentBlocks
import DfeClickhouse.Dynamic.Timestamp
import DfeClickhouse.Dynamic.TimestampGrammar
import DfeClickhouse.Dynamic.TypeAgreement
import DfeClickhouse.Dynamic.TypeArguments
import DfeClickhouse.Dynamic.TypeFaults
import DfeClickhouse.Dynamic.TypeReading
import DfeClickhouse.Dynamic.TypeSyntax
import DfeClickhouse.Dynamic.TypedCells
import DfeClickhouse.Dynamic.Value
import DfeClickhouse.Error
import DfeClickhouse.Library.Base128
import DfeClickhouse.Library.Binary64
import DfeClickhouse.Library.Bytes
import DfeClickhouse.Library.Calendar
import DfeClickhouse.Library.DecimalLiteral
import DfeClickhouse.Library.DecimalText
import DfeClickhouse.Library.Duplex
import DfeClickhouse.Library.Faults
import DfeClickhouse.Library.Incremental
import DfeClickhouse.Library.JsonString
import DfeClickhouse.Library.JsonText
import DfeClickhouse.Library.Machine
import DfeClickhouse.Library.Method
import DfeClickhouse.Library.Numeral
import DfeClickhouse.Library.Postcondition
import DfeClickhouse.Library.ReadBack
import DfeClickhouse.Library.Reader
import DfeClickhouse.Library.Script
import DfeClickhouse.Library.Text
import DfeClickhouse.Library.TokenRun
import DfeClickhouse.Library.Utf8
import DfeClickhouse.Library.WholeFloat
import DfeClickhouse.Library.Writer
import DfeClickhouse.Native.BlockPrefix
import DfeClickhouse.Native.BlockRoundTrip
import DfeClickhouse.Native.CellValues
import DfeClickhouse.Native.ColumnKinds
import DfeClickhouse.Native.ColumnRoundTrip
import DfeClickhouse.Native.ColumnType
import DfeClickhouse.Native.Columns
import DfeClickhouse.Native.Decode
import DfeClickhouse.Native.DecodedColumn
import DfeClickhouse.Native.DecodedShape
import DfeClickhouse.Native.Dictionary
import DfeClickhouse.Native.Discriminated
import DfeClickhouse.Native.DynamicHeaders
import DfeClickhouse.Native.Encode
import DfeClickhouse.Native.GrownRead
import DfeClickhouse.Native.Incremental
import DfeClickhouse.Native.IndexBounds
import DfeClickhouse.Native.InnerVariant
import DfeClickhouse.Native.Io
import DfeClickhouse.Native.JsonQuoting
import DfeClickhouse.Native.JsonValidity
import DfeClickhouse.Native.NestedJson
import DfeClickhouse.Native.NullableDictionary
import DfeClickhouse.Native.OpenWrappers
import DfeClickhouse.Native.Placeholders
import DfeClickhouse.Native.ReaderAgreement
import DfeClickhouse.Native.Render
import DfeClickhouse.Native.RenderAgreement
import DfeClickhouse.Native.RepInvariant
import DfeClickhouse.Native.RowBinary
import DfeClickhouse.Native.Rows
import DfeClickhouse.Native.Sparse
import DfeClickhouse.Native.SparseOffsets
import DfeClickhouse.Native.SparseRoundTrip
import DfeClickhouse.Native.TypeName
import DfeClickhouse.Native.TypeNesting
import DfeClickhouse.Native.TypedRead
import DfeClickhouse.Native.WrittenCounts
import DfeClickhouse.ServerException
import DfeClickhouse.Tcp.Actor
import DfeClickhouse.Tcp.Client
import DfeClickhouse.Tcp.CrossTalk
import DfeClickhouse.Tcp.Cursor
import DfeClickhouse.Tcp.Exchange
import DfeClickhouse.Tcp.Failover
import DfeClickhouse.Tcp.Handshake
import DfeClickhouse.Tcp.InsertSession
import DfeClickhouse.Tcp.InsertState
import DfeClickhouse.Tcp.InsertStream
import DfeClickhouse.Tcp.Packet
import DfeClickhouse.Tcp.PacketReader
import DfeClickhouse.Tcp.PacketStream
import DfeClickhouse.Tcp.Pool
import DfeClickhouse.Tcp.QueryPacket
import DfeClickhouse.Tcp.Retry
import DfeClickhouse.Tcp.SchemaBlock
import DfeClickhouse.Tcp.SelectStream
import DfeClickhouse.Tcp.Sentinel
import DfeClickhouse.Tcp.Statement
import DfeClickhouse.Tls
import DfeClickhouse.Unified.Columns
import DfeClickhouse.Unified.NativeStream
import DfeClickhouse.Unified.SchemaFetch
import DfeClickhouse.Unified.Transports
import DfeClickhouse.Unified.VarUint
import DfeClickhouse.Worker
