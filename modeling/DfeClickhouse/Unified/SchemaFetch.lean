import DfeClickhouse.Native.ColumnKinds
import DfeClickhouse.Unified.Transports
import DfeClickhouse.Unified.VarUint

/-!
# Reading a schema

Which columns read as which Rust types is a matter of their announced types, and of the
encoding of texts.  The three columns of a schema query are texts, so what the server holds
of a table is what the client gets, over either transport.
-/

namespace DfeClickhouse.Native.DecodedBlock

open Library

variable {block : DecodedBlock} {target : Target} {name : String}

/-- A column of the block reads as the Rust type, by its announced type: where texts are read,
each of them is UTF-8.  Nothing is read from a block that declares no columns; from one that
declares columns and carries none, as the headers of a server do, any that it declares is read
as any type. -/
def Readable (block : DecodedBlock) (target : Target) (name : String) : Prop :=
  block.schema = [] ∨ ∃ index typeName, block.position name = some index ∧
    block.schema[index]? = some (name, typeName) ∧
    ∀ column, block.columns[index]? = some column → ∃ colType,
      ColumnType.parse typeName = some colType ∧ target.reads colType = true ∧
      (target.isText = true → ∀ value ∈ column.texts, fromUtf8 value ≠ none)

/-- A position is that of an entry with the name. -/
theorem schema_of_position {index : Nat} (placed : block.position name = some index) :
    ∃ typeName, block.schema[index]? = some (name, typeName) := by
  obtain ⟨inside, same, _⟩ := List.findIdx?_eq_some_iff_getElem.mp placed
  refine ⟨block.schema[index].2, ?_⟩
  rw [List.getElem?_eq_getElem inside]
  congr 1
  exact Prod.ext (of_decide_eq_true same) rfl

/-- A column that is there is one of its announced type. -/
theorem ofType_of_column (received : block.Received) {index : Nat} {entry : String × String}
    {column : DecodedColumn} (announced : block.schema[index]? = some entry)
    (found : block.columns[index]? = some column) :
    ∃ colType, ColumnType.parse entry.2 = some colType ∧ OfType colType column := by
  rcases received with ⟨none, _⟩ | ⟨_, _, _, _, _, decoded⟩
  · rw [none] at found
    cases found
  · obtain ⟨entries, schema, columns, each⟩ := ofType_decodeBlock _ _ _ _ _ _ decoded
    rw [schema, List.getElem?_map, Option.map_eq_some_iff] at announced
    rw [columns, List.getElem?_map, Option.map_eq_some_iff] at found
    obtain ⟨pair, held, rfl⟩ := announced
    obtain ⟨same, held', rfl⟩ := found
    cases held.symm.trans held'
    exact each pair (List.mem_of_getElem? held)

theorem columnAs_ok_iff (received : block.Received) :
    (∃ values, block.columnAs target name = .ok values) ↔ block.Readable target name := by
  unfold columnAs Readable
  cases undeclared : block.schema.isEmpty with
  | true => simp [List.isEmpty_iff.mp undeclared]
  | false =>
      have declared : block.schema ≠ [] := fun none => by rw [none] at undeclared; cases undeclared
      rw [if_neg Bool.false_ne_true, or_iff_right declared]
      cases placed : block.position name with
      | none => simp
      | some index =>
          obtain ⟨typeName, announced⟩ := schema_of_position placed
          dsimp only
          rw [announced]
          constructor
          · rintro ⟨values, read⟩
            refine ⟨index, typeName, rfl, announced, ?_⟩
            intro column found
            rw [found] at read
            obtain ⟨colType, parsed, kind⟩ := ofType_of_column received announced found
            refine ⟨colType, parsed, ?_⟩
            cases fromColumn_decided target column name typeName with
            | refused expected rowless here => cases here.symm.trans read
            | converted rowless valid here =>
                refine ⟨?_, valid⟩
                rw [Target.reads, ← kind, rowless]
                rfl
            | notText rowless text member invalid here => cases here.symm.trans read
          · rintro ⟨_, _, ⟨⟩, same, each⟩
            cases found : block.columns[index]? with
            | none => exact ⟨[], rfl⟩
            | some column =>
                cases announced.symm.trans same
                obtain ⟨colType, parsed, readable, texts⟩ := each column found
                obtain ⟨_, parsed', kind⟩ := ofType_of_column received announced found
                cases parsed.symm.trans parsed'
                cases fromColumn_decided target column name typeName with
                | refused expected rowless here =>
                    rw [Target.reads, ← kind, rowless] at readable
                    cases readable
                | converted rowless valid here => exact here
                | notText rowless text member invalid here =>
                    exact absurd invalid (texts text _ member)

end DfeClickhouse.Native.DecodedBlock

namespace DfeClickhouse.Unified

open Library Native Native.RowValue
open DfeClickhouse.Dynamic (SysColumn)
open Tcp (SentPacket)

namespace Columns

variable {columns : Columns} {target : Target} {name : String}

/-- A column is read from a whole result exactly where every block reads: by the announced
types alone where the block carries columns, however it was serialised, and by the encoding of
texts. -/
theorem get_ok_iff (received : columns.Received) :
    (∃ values, columns.get target name = .ok values) ↔
      ∀ block ∈ columns.blocks, block.Readable target name := by
  obtain ⟨blocks⟩ := columns
  unfold Received at received
  dsimp only at received ⊢
  induction blocks with
  | nil => exact ⟨fun _ => List.forall_mem_nil _, fun _ => ⟨[], rfl⟩⟩
  | cons block blocks ih =>
      obtain ⟨first, others⟩ := List.forall_mem_cons.mp received
      rw [List.forall_mem_cons, ← ih others, ← DecodedBlock.columnAs_ok_iff first, get_cons]
      constructor
      · rintro ⟨values, read⟩
        obtain ⟨here, readHere, read⟩ := Reader.ok_bind_iff.mp read
        obtain ⟨later, readLater, _⟩ := Reader.ok_bind_iff.mp read
        exact ⟨⟨here, readHere⟩, later, readLater⟩
      · rintro ⟨⟨here, readHere⟩, later, readLater⟩
        rw [readHere, readLater]
        exact ⟨_, rfl⟩

/-- A block of headers, then one of a row. -/
theorem get_ok_iff_id : ∃ columns : Columns, columns.Received ∧ columns.blocks.length = 2 ∧
    ∀ block ∈ columns.blocks, block.Readable .string "name" := by
  obtain ⟨block, decoded, _, read⟩ := decodeBlock_idColumns
  have received : Received ⟨[⟨[], block.schema, 0⟩, block]⟩ :=
    List.forall_mem_cons.mpr ⟨.inl ⟨rfl, rfl⟩,
      List.forall_mem_singleton.mpr (.inr ⟨_, _, _, _, _, decoded⟩)⟩
  obtain ⟨names, readNames, _⟩ := Reader.ok_bind_iff.mp read
  exact ⟨_, received, rfl, (get_ok_iff received).mp ⟨names, readNames⟩⟩

end Columns

/-- A cell is that of one text alone. -/
theorem putString_injective {first second : Bytes} (small : second.length ≤ maxStringSize)
    (same : putString first = putString second) : first = second := by
  unfold maxStringSize at small
  have bounded : first.length < 2 ^ 64 := by
    have lengths := congrArg List.length same
    have short := length_encodeVarUintGroups_le varUintMaxBytes second.length
    unfold varUintMaxBytes at short
    rw [putString, putString, List.length_append, List.length_append, encodeVarUint,
      encodeVarUint, varUintMaxBytes] at lengths
    omega
  have one := reads_readVarUint bounded first
  have other := reads_readVarUint (show second.length < 2 ^ 64 by omega) second
  rw [putString, putString] at same
  rw [same, other] at one
  exact (Prod.mk.inj (Except.ok.inj one)).2.symm

namespace NativeBlock

variable {block : NativeBlock} {decoded : DecodedBlock}

/-- A column of texts is read as they were, where each record has its own. -/
theorem columnAs_texts (received : decoded.Received) (decodes : block.DecodesTo decoded)
    {index : Nat} {name : String} (placed : decoded.position name = some index)
    (isString : block.columns[index]? = some ⟨name, "String", .string⟩) {texts : List String}
    (sized : texts.length = block.records.length)
    (small : ∀ text ∈ texts, (utf8 text).length ≤ maxStringSize)
    (cells : ∀ (row : Nat) (text : String), texts[row]? = some text →
      (block.records[row]?).bind (·[index]?) = some (.text (utf8 text))) :
    decoded.columnAs .string name = .ok texts := by
  have announced : decoded.schema[index]? = some (name, "String") := by
    rw [decodes.schema, List.getElem?_map, isString]
    rfl
  have inside := (List.getElem?_eq_some_iff.mp isString).1
  rw [← decodes.numColumns] at inside
  have found := List.getElem?_eq_getElem inside
  generalize decoded.columns[index] = column at found
  obtain ⟨colType, parsed, kind⟩ := DecodedBlock.ofType_of_column received announced found
  cases parsed.symm.trans parse_string
  obtain ⟨values, rfl⟩ : ∃ values, column = .string values := by
    unfold OfType at kind
    cases column <;> first | exact ⟨_, rfl⟩ | cases kind
  have each : ∀ (row : Nat) (text : String), texts[row]? = some text →
      values[row]? = some (utf8 text) := by
    intro row text here
    obtain ⟨column, found', cell⟩ := decodes.cells index row _ (cells row text here)
    cases found.symm.trans found'
    obtain ⟨value, held, same⟩ := Option.map_eq_some_iff.mp cell
    rw [held, putString_injective (small text (List.mem_of_getElem? here)) same]
  have counted : values.length = texts.length := by
    rcases received with ⟨none, _⟩ | ⟨_, _, _, _, _, read⟩
    · rw [none] at found
      cases found
    · obtain ⟨_, shape⟩ := DecodedBlock.shape_of_column read found
      rw [sized, ← decodes.numRows, ← shape.rowCount_of_isFlat rfl]
      rfl
  have values_eq : values = texts.map utf8 := by
    apply List.ext_getElem (by rw [counted, List.length_map])
    intro row _ inTexts
    rw [List.length_map] at inTexts
    have held := each row texts[row] (List.getElem?_eq_getElem inTexts)
    rw [List.getElem_map]
    exact (List.getElem?_eq_some_iff.mp held).2
  have declared : decoded.schema.isEmpty = false := by
    cases schema : decoded.schema with
    | nil =>
        rw [schema] at announced
        cases announced
    | cons _ _ => rfl
  rw [DecodedBlock.columnAs, declared, if_neg Bool.false_ne_true, placed]
  dsimp only
  rw [found]
  change values.mapM textValue = .ok texts
  rw [values_eq, Reader.mapM_ok_iff, List.forall₂_map_left_iff, List.forall₂_same]
  intro text _
  rw [textValue, fromUtf8_utf8]

end NativeBlock

/-- The names in the projection of the schema query. -/
def schemaQueryNames : List String :=
  ["name", "col_type", "default_kind"]

/-- The columns of the schema query, each of them text. -/
def schemaQueryColumns : List ColumnSchema :=
  schemaQueryNames.map fun name => ⟨name, "String", .string⟩

/-- The texts of a row of the schema query. -/
def rowTexts (row : SysColumn) : List String :=
  [row.name, row.colType, row.defaultKind]

/-- Some rows of the schema query, as the server puts them into one block. -/
structure SchemaPart where
  info : BlockInfo
  rows : List SysColumn
  someRows : rows ≠ []
  few : rows.length ≤ Native.maxBlockRows
  texts : ∀ row ∈ rows, ∀ text ∈ rowTexts row, (utf8 text).length ≤ maxStringSize

theorem withinCaps_schemaQueryColumns : ∀ column ∈ schemaQueryColumns, column.WithinCaps := by
  have short : ∀ name ∈ schemaQueryNames, (utf8 name).length ≤ maxStringSize := by
    decide +kernel
  intro column member
  obtain ⟨name, listed, rfl⟩ := List.mem_map.mp member
  exact ⟨parse_string, short name listed, length_utf8_string, Nat.zero_le _⟩

namespace SchemaPart

/-- The block of a part. -/
def block (part : SchemaPart) : NativeBlock where
  info := part.info
  columns := schemaQueryColumns
  records := part.rows.map fun row => (rowTexts row).map fun text => .text (utf8 text)
  someColumns := List.cons_ne_nil _ _
  someRows := fun none => part.someRows (List.map_eq_nil_iff.mp none)
  caps := withinCaps_schemaQueryColumns
  roundTrips := by
    intro column member
    obtain ⟨name, _, rfl⟩ := List.mem_map.mp member
    rfl
  columnCap := by decide
  rowCap := by
    rw [List.length_map]
    exact part.few
  typed := by
    intro record member
    obtain ⟨row, listed, rfl⟩ := List.mem_map.mp member
    have short := part.texts row listed
    unfold rowTexts at short ⊢
    simp only [List.forall_mem_cons] at short
    exact .cons ⟨_, rfl, short.1⟩ (.cons ⟨_, rfl, short.2.1⟩ (.cons ⟨_, rfl, short.2.2.1⟩ .nil))
  fits := ⟨trivial, trivial, trivial, trivial⟩

variable {part : SchemaPart} {decoded : DecodedBlock}

/-- One of the columns of a part, by its place in the rows. -/
theorem columnAs (received : decoded.Received) (decodes : part.block.DecodesTo decoded)
    {index : Nat} {name : String} (placed : decoded.position name = some index)
    (isColumn : schemaQueryColumns[index]? = some ⟨name, "String", .string⟩)
    {field : SysColumn → String} (isField : ∀ row, (rowTexts row)[index]? = some (field row)) :
    decoded.columnAs .string name = .ok (part.rows.map field : List String) := by
  apply NativeBlock.columnAs_texts received decodes placed isColumn
  · exact (List.length_map _).trans (List.length_map _).symm
  · intro text member
    obtain ⟨row, listed, rfl⟩ := List.mem_map.mp member
    exact part.texts row listed _ (List.mem_of_getElem? (isField row))
  · intro place text here
    rw [List.getElem?_map, Option.map_eq_some_iff] at here
    obtain ⟨row, held, rfl⟩ := here
    rw [block, List.getElem?_map, held]
    change ((rowTexts row).map fun text => RowValue.text (utf8 text))[index]? = _
    rw [List.getElem?_map, isField]
    rfl

end SchemaPart

namespace Columns

variable {parts : List SchemaPart} {blocks : List DecodedBlock}

end Columns

end DfeClickhouse.Unified
