import DfeClickhouse.Dynamic.RowBoundaries
import DfeClickhouse.Native.BlockRoundTrip

/-!
# Typed cells

What the encoder of a dynamic insert writes for a tight column is the cell of a value of the
column's native type: with canonical flags and counts, and in the width of that type.
-/

namespace DfeClickhouse.Dynamic

open Library Native Native.RowValue

/-- Some bytes are the cell of a value of a type. -/
def IsCell (columnType : ColumnType) (bytes : Bytes) : Prop :=
  ∃ value, HasType columnType value ∧ value.rowBinary = bytes

variable {columnType base : ColumnType} {bytes : Bytes}

variable {json : JsonText} {columns : List ColumnDef} {schema : List ColumnSchema}

/-- A row whose cells are those of typed values. -/
def Cells (json : JsonText) (columns : List ColumnDef) (row : DynamicRow)
    (record : List RowValue) : Prop :=
  List.Forall₂ (fun column value => Writer.Writes (row.encodeColumn json column) value.rowBinary)
    columns record

end DfeClickhouse.Dynamic
