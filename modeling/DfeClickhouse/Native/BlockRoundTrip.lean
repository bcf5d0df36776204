import DfeClickhouse.Native.ColumnRoundTrip
import DfeClickhouse.Native.ReaderAgreement

/-!
# Blocks read back

A block that `encode_columns` writes for typed rows is decoded by `decode_block`:
the decoder stops where the encoder stopped, announces the declared schema, and its
columns hold the rows the block stores.
-/

namespace DfeClickhouse.Native

open Library RowValue

/-! ## Prefixes -/

mutual

/-- The types the encoder writes columns for: the insertable ones, and those with a
JSON object in the place of a text. -/
def ColumnType.isWritable : ColumnType → Bool
  | .json | .newJson => true
  | .nullable inner => !inner.admitsNull && inner.isWritable
  | .lowCardinality inner => (dictionaryType inner).1.isPlain
  | .array inner => inner.isWritable
  | .tuple fields => !fields.isEmpty && ColumnType.areWritable fields
  | .map key value => key.isWritable && value.isWritable
  | colType => colType.isPlain

/-- Whether all types of a list are writable. -/
def ColumnType.areWritable : List ColumnType → Bool
  | [] => true
  | head :: tail => head.isWritable && ColumnType.areWritable tail

end

@[simp] theorem areWritable_iff {types : List ColumnType} :
    ColumnType.areWritable types = true ↔ ∀ type ∈ types, type.isWritable = true := by
  induction types with
  | nil => simp [ColumnType.areWritable]
  | cons head tail ih => simp [ColumnType.areWritable, ih]

theorem isWritable_of_plain {colType : ColumnType} (plain : colType.isPlain = true) :
    colType.isWritable = true := by
  cases colType <;> first | exact plain | cases plain

theorem isWritable_of_insertable {colType : ColumnType}
    (insertable : colType.isInsertable = true) : colType.isWritable = true := by
  induction colType using ColumnType.induction_forms with
  | fixed colType width fixed =>
      apply isWritable_of_plain
      cases colType <;> first | exact insertable | cases fixed
  | string | json => rfl
  | nullable inner ih =>
      simp only [ColumnType.isInsertable, Bool.and_eq_true] at insertable
      rw [ColumnType.isWritable, insertable.1, ih insertable.2]
      rfl
  | lowCardinality inner => exact insertable
  | array inner ih => exact ih insertable
  | map keyType valType keyIh valIh =>
      simp only [ColumnType.isInsertable, Bool.and_eq_true] at insertable
      rw [ColumnType.isWritable, keyIh insertable.1, valIh insertable.2]
      rfl
  | tuple types ih =>
      simp only [ColumnType.isInsertable, Bool.and_eq_true, areInsertable_iff] at insertable
      have all : ColumnType.areWritable types = true :=
        areWritable_iff.mpr fun type member => ih type member (insertable.2 type member)
      rw [ColumnType.isWritable, insertable.1, all]
      rfl
  | newJson | dynamic | point | simpleAggregateFunction | variant => cases insertable

theorem decodePrefixesStep_of_fixed (nested : ColumnType → ByteReader (List DynamicHeader))
    {colType : ColumnType} {width : Nat} (fixed : colType.fixedSize = some width) :
    decodePrefixesStep nested colType = pure [] := by
  cases colType <;> cases fixed <;> rfl

theorem writeColPrefixes_of_fixed {colType : ColumnType} {width : Nat}
    (fixed : colType.fixedSize = some width) : writeColPrefixes colType = [] := by
  cases colType <;> cases fixed <;> rfl

theorem reads_fieldPrefixes {nested : ColumnType → ByteReader (List DynamicHeader)}
    {types : List ColumnType}
    (each : ∀ type ∈ types, Reader.Reads (nested type) (writeColPrefixes type) []) :
    Reader.Reads (Reader.each nested types) (writeFieldPrefixes types)
      (types.map fun _ => []) := by
  induction types with
  | nil => exact Reader.Reads.pure []
  | cons type types ih =>
      rw [writeFieldPrefixes]
      apply (each type (by simp)).bind
      exact (ih fun type member => each type (by simp [member])).bind_pure

/-- The decoder's prefix walk consumes the prefixes the encoder hoists. -/
theorem reads_decodePrefixes {colType : ColumnType} (writable : colType.isWritable = true)
    {levels : Nat} (deep : colType.nesting < levels) :
    Reader.Reads (decodePrefixesLevels levels colType) (writeColPrefixes colType) [] := by
  induction colType using ColumnType.induction_forms generalizing levels with
  | fixed colType width fixed =>
      obtain ⟨levels, rfl⟩ : ∃ below, levels = below + 1 := ⟨levels - 1, by omega⟩
      rw [decodePrefixesLevels, decodePrefixesStep_of_fixed _ fixed,
        writeColPrefixes_of_fixed fixed]
      exact Reader.Reads.pure []
  | string | json | newJson =>
      obtain ⟨levels, rfl⟩ : ∃ below, levels = below + 1 := ⟨levels - 1, by omega⟩
      exact Reader.Reads.pure []
  | lowCardinality inner =>
      obtain ⟨levels, rfl⟩ : ∃ below, levels = below + 1 := ⟨levels - 1, by omega⟩
      have version : Reader.Reads readU64Le (natLe 8 1) 1 := reads_readU64Le (by decide)
      exact version.bind_pure
  | nullable inner ih =>
      obtain ⟨levels, rfl⟩ : ∃ below, levels = below + 1 := ⟨levels - 1, by omega⟩
      simp only [ColumnType.isWritable, Bool.and_eq_true] at writable
      rw [ColumnType.nesting] at deep
      have inside : inner.nesting < levels := by omega
      exact ih writable.2 inside
  | array inner ih =>
      obtain ⟨levels, rfl⟩ : ∃ below, levels = below + 1 := ⟨levels - 1, by omega⟩
      rw [ColumnType.nesting] at deep
      have inside : inner.nesting < levels := by omega
      exact ih writable inside
  | map keyType valType keyIh valIh =>
      obtain ⟨levels, rfl⟩ : ∃ below, levels = below + 1 := ⟨levels - 1, by omega⟩
      simp only [ColumnType.isWritable, Bool.and_eq_true] at writable
      rw [ColumnType.nesting] at deep
      have keyInside : keyType.nesting < levels := by omega
      have valInside : valType.nesting < levels := by omega
      apply (keyIh writable.1 keyInside).bind
      exact (valIh writable.2 valInside).bind_pure
  | tuple types ih =>
      obtain ⟨levels, rfl⟩ : ∃ below, levels = below + 1 := ⟨levels - 1, by omega⟩
      simp only [ColumnType.isWritable, Bool.and_eq_true, areWritable_iff] at writable
      rw [ColumnType.nesting] at deep
      have each : ∀ type ∈ types, Reader.Reads (decodePrefixesLevels levels type)
          (writeColPrefixes type) [] := by
        intro type member
        have inside : type.nesting < levels := by
          have := ColumnType.nesting_le_nestingList member
          omega
        exact ih type member (writable.2 type member) inside
      have headers : Reader.Reads (do
          let headers ← Reader.each (decodePrefixesLevels levels) types
          pure headers.flatten) (writeFieldPrefixes types)
          (types.map fun _ => ([] : List DynamicHeader)).flatten :=
        (reads_fieldPrefixes each).bind_pure
      have none : (types.map fun _ => ([] : List DynamicHeader)).flatten = [] := by simp
      rw [none] at headers
      exact headers
  | dynamic | point | simpleAggregateFunction | variant => cases writable

theorem areTyped_of_forall {types : List ColumnType}
    (each : ∀ type ∈ types, type.isTyped = true) : ColumnType.areTyped types = true := by
  induction types with
  | nil => rfl
  | cons head tail ih =>
      rw [ColumnType.areTyped, each head (by simp), ih fun type member =>
        each type (by simp [member])]
      rfl

theorem isTyped_of_plain {colType : ColumnType} (plain : colType.isPlain = true) :
    colType.isTyped = true := by
  cases colType <;> first | rfl | cases plain

/-- Every insertable type has a typed column. -/
theorem isTyped_of_insertable {colType : ColumnType}
    (insertable : colType.isInsertable = true) : colType.isTyped = true := by
  induction colType using ColumnType.induction_forms with
  | fixed colType width fixed =>
      have plain : colType.isPlain = true := by
        cases colType <;> first | exact insertable | cases fixed
      exact isTyped_of_plain plain
  | string | json => rfl
  | nullable inner ih =>
      simp only [ColumnType.isInsertable, Bool.and_eq_true] at insertable
      exact ih insertable.2
  | lowCardinality inner ih => exact ih (isInsertable_of_dictionaryType insertable)
  | array inner ih => exact ih insertable
  | map keyType valType keyIh valIh =>
      simp only [ColumnType.isInsertable, Bool.and_eq_true] at insertable
      rw [ColumnType.isTyped, keyIh insertable.1, valIh insertable.2]
      rfl
  | tuple types ih =>
      simp only [ColumnType.isInsertable, Bool.and_eq_true, areInsertable_iff] at insertable
      exact areTyped_of_forall fun type member => ih type member (insertable.2 type member)
  | newJson | dynamic | point | simpleAggregateFunction | variant => cases insertable

/-! ## Columns of a block -/

theorem readColumnAt_zero {count : Nat} (positive : 1 ≤ count) (colType : ColumnType) :
    readColumnAt colType count 0 =
      readColumnStep (readColumnLevels maxReadDepth) colType count := by
  rw [readColumnAt, Nat.sub_zero, readColumnLevels, if_neg]
  omega

/-- The payload of a column decodes to the values the block stores. -/
theorem decodeColumnPayload_ok {colType : ColumnType}
    (insertable : colType.isInsertable = true) (deep : colType.nesting ≤ maxReadDepth)
    {values : List RowValue} (typed : ∀ value ∈ values, HasType colType value)
    (positive : 1 ≤ values.length) (small : values.length < 2 ^ 64)
    (fits : SubcolumnsFit colType (values.map rowBinary)) {payload rest : Bytes}
    (written : writeColValues colType (values.map rowBinary) = .ok payload)
    (bounded : (payload ++ rest).length < addressSpace) :
    ∃ column, decodeColumnPayload colType values.length false
        (writeColPrefixes colType ++ (payload ++ rest)) = .ok (column, rest) ∧
      ∀ row value, values[row]? = some value →
        column.cell row = some (stored colType value).rowBinary := by
  have back := columnReadsBack insertable maxReadDepth values deep (Nat.le_refl _) typed small
    fits
  rw [written, ← readColumnAt_zero positive] at back
  have agree := columnsAgree_at (isTyped_of_insertable insertable) positive 0 []
  obtain ⟨⟨column, queue⟩, decoded, cells, _⟩ := agree.ok_of_left_ok bounded (back rest)
  refine ⟨column, ?_, fun row value held => ?_⟩
  · have prefixes : decodePrefixes colType (writeColPrefixes colType ++ (payload ++ rest)) =
        .ok ([], payload ++ rest) :=
      reads_decodePrefixes (isWritable_of_insertable insertable) (Nat.lt_succ_of_le deep)
        (payload ++ rest)
    have rows : values.length > 0 := positive
    rw [decodeColumnPayload, if_pos rows, Reader.bind_of_ok prefixes]
    simp only [Bool.false_eq_true, false_and, if_false]
    rw [Reader.bind_of_ok decoded]
    rfl
  · have inside : row < values.length := (List.getElem?_eq_some_iff.mp held).1
    rw [cells.2.2 row inside, List.getElem?_map, held]
    rfl

/-- The type a column is declared under on the wire. -/
def ColumnType.declared : ColumnType → ColumnType
  | .newJson | .json => .string
  | colType => colType

/-- A column whose name, type name and nesting stay under the caps of the codec. -/
structure ColumnSchema.WithinCaps (column : ColumnSchema) : Prop where
  parsed : ColumnType.parse column.typeName = some column.colType
  named : (utf8 column.name).length ≤ maxStringSize
  typed : (utf8 column.typeName).length ≤ maxStringSize
  nested : column.colType.nesting ≤ maxReadDepth

@[simp] theorem parse_string : ColumnType.parse "String" = some .string := rfl

theorem length_utf8_string : (utf8 "String").length ≤ maxStringSize := by
  have sized : (utf8 "String").length = 6 := rfl
  rw [sized]
  decide

/-- The declared type name is one the decoder knows. -/
theorem parse_declaredType {column : ColumnSchema} (caps : column.WithinCaps) :
    ColumnType.parse column.declaredType = some column.colType.declared ∧
      (utf8 column.declaredType).length ≤ maxStringSize := by
  obtain ⟨name, typeName, colType⟩ := column
  cases colType with
  | newJson | json => exact ⟨parse_string, length_utf8_string⟩
  | _ => exact ⟨caps.parsed, caps.typed⟩

theorem declared_cases (colType : ColumnType) :
    ((colType = .newJson ∨ colType = .json) ∧ colType.declared = .string) ∨
      colType.declared = colType := by
  cases colType with
  | newJson => exact .inl ⟨.inl rfl, rfl⟩
  | json => exact .inl ⟨.inr rfl, rfl⟩
  | _ => exact .inr rfl

/-- A column is written as its declared type says. -/
theorem decodeDeclaredPayload_ok {colType : ColumnType}
    (insertable : colType.declared.isInsertable = true) (deep : colType.nesting ≤ maxReadDepth)
    {values : List RowValue} (typed : ∀ value ∈ values, HasType colType value)
    (positive : 1 ≤ values.length) (small : values.length < 2 ^ 64)
    (fits : SubcolumnsFit colType (values.map rowBinary)) {payload rest : Bytes}
    (written : writeColValues colType (values.map rowBinary) = .ok payload)
    (bounded : (payload ++ rest).length < addressSpace) :
    ∃ column, decodeColumnPayload colType.declared values.length false
        (writeColPrefixes colType ++ (payload ++ rest)) = .ok (column, rest) ∧
      ∀ row value, values[row]? = some value →
        column.cell row = some (stored colType value).rowBinary := by
  rcases declared_cases colType with ⟨json, same⟩ | same
  · rw [same] at insertable ⊢
    rcases json with rfl | rfl
    · exact decodeColumnPayload_ok insertable deep typed positive small trivial written bounded
    · exact decodeColumnPayload_ok insertable deep typed positive small trivial written bounded
  · rw [same] at insertable ⊢
    exact decodeColumnPayload_ok insertable deep typed positive small fits written bounded

theorem reads_serializationFlag (revision : Nat) (name : String) :
    Reader.Reads
      (if revision ≥ customSerializationRevision then readSerializationKind name
        else pure false)
      (if revision ≥ customSerializationRevision then [0] else []) false := by
  split
  · exact (reads_readU8 0).bind (Reader.Reads.pure false)
  · exact Reader.Reads.pure false

/-- After the header the encoder writes, a column is decoded as its declared type. -/
theorem decodeBlockColumn_header {column : ColumnSchema} (caps : column.WithinCaps)
    (revision numRows : Nat) (input : Bytes) :
    decodeBlockColumn numRows revision (writeColumnHeader revision column ++ input) =
      (do
        let decoded ← decodeColumnPayload column.colType.declared numRows false
        pure ((column.name, column.declaredType), decoded)) input := by
  obtain ⟨parsed, capped⟩ := parse_declaredType caps
  simp only [writeColumnHeader, List.append_assoc]
  rw [decodeBlockColumn, Reader.bind_of_ok (reads_readUtf8String caps.named _),
    Reader.bind_of_ok (reads_readUtf8String capped _)]
  have flag := reads_serializationFlag revision column.name input
  by_cases newer : revision ≥ customSerializationRevision
  · simp only [if_pos newer] at flag ⊢
    rw [Reader.bind_of_ok flag]
    simp only [parsed]
  · simp only [if_neg newer] at flag ⊢
    rw [Reader.bind_of_ok flag]
    simp only [parsed]

theorem decodeBlockColumn_ok {column : ColumnSchema} (caps : column.WithinCaps)
    (insertable : column.colType.declared.isInsertable = true) {values : List RowValue}
    (typed : ∀ value ∈ values, HasType column.colType value)
    (positive : 1 ≤ values.length) (small : values.length < 2 ^ 64)
    (fits : SubcolumnsFit column.colType (values.map rowBinary)) (revision : Nat)
    {payload rest : Bytes}
    (written : writeColValues column.colType (values.map rowBinary) = .ok payload)
    (bounded : (payload ++ rest).length < addressSpace) :
    ∃ decoded, decodeBlockColumn values.length revision
        (writeColumnHeader revision column ++ writeColPrefixes column.colType ++ payload ++
          rest) = .ok (((column.name, column.declaredType), decoded), rest) ∧
      ∀ row value, values[row]? = some value →
        decoded.cell row = some (stored column.colType value).rowBinary := by
  obtain ⟨decoded, payloadRead, rows⟩ :=
    decodeDeclaredPayload_ok insertable caps.nested typed positive small fits written bounded
  refine ⟨decoded, ?_, rows⟩
  rw [List.append_assoc, List.append_assoc, decodeBlockColumn_header caps,
    Reader.bind_of_ok payloadRead]
  rfl

/-! ## Blocks -/

/-- The decoded columns hold, row by row, what a block of these types keeps of the
records. -/
def BlockKeeps (types : List ColumnType) (records : List (List RowValue))
    (columns : List DecodedColumn) : Prop :=
  columns.length = types.length ∧
    ∀ (index row : Nat) (type : ColumnType) (value : RowValue), types[index]? = some type →
      (records[row]?).bind (·[index]?) = some value →
      ∃ column : DecodedColumn, columns[index]? = some column ∧
        column.cell row = some (stored type value).rowBinary

theorem blockKeeps_cons {type : ColumnType} {types : List ColumnType}
    {records : List (List RowValue)} {column : DecodedColumn} {columns : List DecodedColumn}
    (first : ∀ row value, (records.map fun fields => fields.headD .null)[row]? = some value →
      column.cell row = some (stored type value).rowBinary)
    (rest : BlockKeeps types (records.map List.tail) columns) :
    BlockKeeps (type :: types) records (column :: columns) := by
  refine ⟨by simp [rest.1], fun index row held value atIndex atRow => ?_⟩
  obtain ⟨fields, record, atField⟩ := Option.bind_eq_some_iff.mp atRow
  cases index with
  | zero =>
      cases atIndex
      refine ⟨column, rfl, first row value ?_⟩
      obtain ⟨tail, rfl⟩ : ∃ tail, fields = value :: tail := by
        cases fields with
        | nil => cases atField
        | cons head tail => exact ⟨tail, by cases atField; rfl⟩
      simp [record]
  | succ index =>
      apply rest.2 index row held value atIndex
      simp [record, List.getElem?_tail, atField]

section Block

variable {columns : List ColumnSchema} {records : List (List RowValue)} {revision : Nat}

/-- Decoding the written columns one after the other. -/
theorem decodeColumns_ok (caps : ∀ column ∈ columns, column.WithinCaps)
    (insertable : ∀ column ∈ columns, column.colType.declared.isInsertable = true)
    (typed : ∀ record ∈ records,
      List.Forall₂ HasType (columns.map ColumnSchema.colType) record)
    (positive : 1 ≤ records.length) (small : records.length < 2 ^ 64)
    (fits : FieldColumnsFit (columns.map ColumnSchema.colType)
      (records.map fun record => record.map rowBinary)) {out rest : Bytes}
    (written : writeColumns revision columns (records.map fun record => record.map rowBinary) =
      .ok out)
    (bounded : (out ++ rest).length < addressSpace) :
    ∃ entries, Reader.times (decodeBlockColumn records.length revision) columns.length
        (out ++ rest) = .ok (entries, rest) ∧
      entries.map Prod.fst = columns.map (fun column => (column.name, column.declaredType)) ∧
      BlockKeeps (columns.map ColumnSchema.colType) records (entries.map Prod.snd) := by
  induction columns generalizing records out with
  | nil =>
      cases written
      exact ⟨[], rfl, rfl, rfl, by simp⟩
  | cons column columns ih =>
      rw [List.map_cons] at typed fits
      obtain ⟨heads, tails, columnTyped, restTyped⟩ := records_split typed
      rw [FieldColumnsFit, heads, tails] at fits
      rw [writeColumns, heads, tails] at written
      let values := records.map fun fields => fields.headD .null
      have sized : values.length = records.length := List.length_map _
      have restSized : (records.map List.tail).length = records.length := List.length_map _
      cases valuesWritten : writeColValues column.colType (values.map rowBinary) with
      | error error =>
          rw [valuesWritten] at written
          cases written
      | ok payload =>
          rw [valuesWritten] at written
          cases restWritten : writeColumns revision columns
              ((records.map List.tail).map fun record => record.map rowBinary) with
          | error error =>
              rw [restWritten] at written
              cases written
          | ok restOut =>
              rw [restWritten] at written
              cases written
              rw [List.append_assoc] at bounded ⊢
              have within : (payload ++ (restOut ++ rest)).length < addressSpace := by
                rw [List.length_append] at bounded ⊢
                rw [List.length_append] at bounded
                omega
              obtain ⟨decoded, columnRead, rows⟩ := decodeBlockColumn_ok (caps column (by simp))
                (insertable column (by simp)) columnTyped (sized ▸ positive) (sized ▸ small)
                fits.1 revision valuesWritten within
              have restWithin : (restOut ++ rest).length < addressSpace := by
                rw [List.length_append] at within
                omega
              obtain ⟨entries, restRead, schema, kept⟩ :=
                ih (fun other member => caps other (by simp [member]))
                  (fun other member => insertable other (by simp [member])) restTyped
                  (by omega) (by omega) fits.2 restWritten restWithin
              rw [sized] at columnRead
              rw [restSized] at restRead
              refine ⟨((column.name, column.declaredType), decoded) :: entries, ?_, ?_, ?_⟩
              · rw [List.length_cons, Reader.times, Reader.bind_of_ok columnRead,
                  Reader.bind_of_ok restRead]
                rfl
              · simp [schema]
              · exact blockKeeps_cons rows kept

/-- Cutting the rows gives the cells of their values. -/
theorem encodeColumns_eq_writeColumns (someColumns : columns ≠ []) (someRows : records ≠ [])
    (typed : ∀ record ∈ records,
      List.Forall₂ HasType (columns.map ColumnSchema.colType) record) :
    encodeColumns (records.map rowBinaries) columns revision =
      writeColumns revision columns (records.map fun record => record.map rowBinary) := by
  have sliced : (records.map rowBinaries).mapM (sliceRow columns) =
      .ok (records.map fun record => record.map rowBinary) := by
    rw [List.mapM_map]
    apply Reader.mapM_ok
    intro record member
    have cut := reads_rbCells (typed record member) []
    rw [List.append_nil] at cut
    change (rbCells (columns.map ColumnSchema.colType) (rowBinaries record) >>= _) = _
    rw [cut]
    rfl
  have filled : (columns.isEmpty || (records.map rowBinaries).isEmpty) = false := by
    simp [someColumns, someRows]
  rw [encodeColumns, filled, sliced]
  rfl

/-- A block written for typed rows decodes to what it keeps of them. -/
theorem decodeBlock_ok (someColumns : columns ≠ []) (someRows : records ≠ [])
    (caps : ∀ column ∈ columns, column.WithinCaps)
    (insertable : ∀ column ∈ columns, column.colType.declared.isInsertable = true)
    (columnCap : columns.length ≤ maxBlockColumns) (rowCap : records.length ≤ maxBlockRows)
    (typed : ∀ record ∈ records,
      List.Forall₂ HasType (columns.map ColumnSchema.colType) record)
    (fits : FieldColumnsFit (columns.map ColumnSchema.colType)
      (records.map fun record => record.map rowBinary)) {out suffix : Bytes}
    (encoded : encodeColumns (records.map rowBinaries) columns revision = .ok out)
    (bounded : (out ++ suffix).length < addressSpace) :
    ∃ block, decodeBlock columns.length records.length revision (out ++ suffix) =
        .ok (block, suffix) ∧
      block.schema = columns.map (fun column => (column.name, column.declaredType)) ∧
      block.numRows = records.length ∧
      BlockKeeps (columns.map ColumnSchema.colType) records block.columns := by
  rw [encodeColumns_eq_writeColumns someColumns someRows typed] at encoded
  have positive : 1 ≤ records.length := List.length_pos_iff.mpr someRows
  have small : records.length < 2 ^ 64 := by
    unfold maxBlockRows at rowCap
    omega
  obtain ⟨entries, read, schema, kept⟩ :=
    decodeColumns_ok caps insertable typed positive small fits encoded bounded
  refine ⟨⟨entries.map Prod.snd, entries.map Prod.fst, records.length⟩, ?_, schema, rfl, kept⟩
  rw [decodeBlock, Reader.require_of_holds columnCap, Reader.require_of_holds rowCap]
  simp only [pure_bind]
  rw [Reader.bind_of_ok read]
  rfl

end Block

/-! ## The round trip -/

mutual

/-- The types whose columns come back as they were written: plain types, arrays, maps
and tuples of any depth, and dictionaries and nullables of plain types.  The parser
builds no tuple without fields. -/
def ColumnType.roundTrips : ColumnType → Bool
  | .array inner => inner.roundTrips
  | .map key value => key.roundTrips && value.roundTrips
  | .tuple fields => !fields.isEmpty && ColumnType.allRoundTrip fields
  | .lowCardinality inner | .nullable inner => inner.isPlain
  | colType => colType.isPlain

/-- Whether all types of a list round trip. -/
def ColumnType.allRoundTrip : List ColumnType → Bool
  | [] => true
  | head :: tail => head.roundTrips && ColumnType.allRoundTrip tail

end

@[simp] theorem allRoundTrip_iff {types : List ColumnType} :
    ColumnType.allRoundTrip types = true ↔ ∀ type ∈ types, type.roundTrips = true := by
  induction types with
  | nil => simp [ColumnType.allRoundTrip]
  | cons head tail ih => simp [ColumnType.allRoundTrip, ih]

theorem nullTuples_eq_false {types : List ColumnType}
    (each : ∀ type ∈ types, type.nullsTuple = false) :
    ColumnType.nullTuples types = false := by
  induction types with
  | nil => rfl
  | cons head tail ih =>
      rw [ColumnType.nullTuples, each head (by simp), ih fun type member =>
        each type (by simp [member])]
      rfl

theorem plain_of_roundTrips {colType : ColumnType} {width : Nat}
    (fixed : colType.fixedSize = some width) (roundTrips : colType.roundTrips = true) :
    colType.isPlain = true := by
  cases colType <;> first | exact roundTrips | cases fixed

theorem admitsNull_of_plain {colType : ColumnType} (plain : colType.isPlain = true) :
    colType.admitsNull = false ∧ (ColumnType.nullable colType).nullsTuple = false ∧
      dictionaryType colType = (colType, false) := by
  cases colType <;> first | exact ⟨rfl, rfl, rfl⟩ | cases plain

/-- A type that round trips is insertable, and writing its columns never fails. -/
theorem isInsertable_of_roundTrips {colType : ColumnType}
    (roundTrips : colType.roundTrips = true) :
    colType.isInsertable = true ∧ colType.nullsTuple = false := by
  induction colType using ColumnType.induction_forms with
  | fixed colType width fixed =>
      have plain := plain_of_roundTrips fixed roundTrips
      refine ⟨isInsertable_of_plain plain, ?_⟩
      cases colType <;> first | rfl | cases fixed
  | string => exact ⟨rfl, rfl⟩
  | nullable inner =>
      have plain : inner.isPlain = true := roundTrips
      obtain ⟨direct, fails, _⟩ := admitsNull_of_plain plain
      exact ⟨by simp [ColumnType.isInsertable, direct, isInsertable_of_plain plain], fails⟩
  | lowCardinality inner =>
      have plain : inner.isPlain = true := roundTrips
      rw [ColumnType.isInsertable, (admitsNull_of_plain plain).2.2]
      exact ⟨plain, rfl⟩
  | array inner ih => exact ih roundTrips
  | map keyType valType keyIh valIh =>
      simp only [ColumnType.roundTrips, Bool.and_eq_true] at roundTrips
      have key := keyIh roundTrips.1
      have val := valIh roundTrips.2
      exact ⟨by simp [ColumnType.isInsertable, key.1, val.1],
        by simp [ColumnType.nullsTuple, key.2, val.2]⟩
  | tuple types ih =>
      simp only [ColumnType.roundTrips, Bool.and_eq_true, allRoundTrip_iff] at roundTrips
      have each := fun type member => ih type member (roundTrips.2 type member)
      constructor
      · rw [ColumnType.isInsertable, roundTrips.1, Bool.true_and, areInsertable_iff]
        exact fun type member => (each type member).1
      · exact nullTuples_eq_false fun type member => (each type member).2
  | json | newJson | dynamic | point | simpleAggregateFunction | variant => cases roundTrips

theorem storedFields_eq {types : List ColumnType} {fields : List RowValue}
    (typed : List.Forall₂ HasType types fields)
    (each : ∀ type ∈ types, ∀ value, HasType type value → stored type value = value) :
    storedFields types fields = fields := by
  induction typed with
  | nil => rfl
  | cons head _ ih =>
      rw [storedFields, each _ (by simp) _ head, ih fun type member => each type (by simp [member])]

/-- A block keeps the values of a type that round trips as they are. -/
theorem stored_of_roundTrips {colType : ColumnType} (roundTrips : colType.roundTrips = true)
    {value : RowValue} (typed : HasType colType value) : stored colType value = value := by
  induction colType using ColumnType.induction_forms generalizing value with
  | fixed colType width fixed => exact stored_of_fixed fixed value
  | string => rfl
  | nullable inner =>
      have plain : inner.isPlain = true := roundTrips
      rcases typed with rfl | ⟨held, rfl, _⟩
      · rfl
      · rw [stored, stored_of_leaf (isLeaf_of_plain plain)]
  | lowCardinality inner => exact stored_lowCardinality_of_leaf (isLeaf_of_plain roundTrips) typed
  | array inner ih =>
      obtain ⟨elements, rfl, _, each⟩ := typed
      rw [stored]
      have kept : elements.map (stored inner) = elements.map id :=
        List.map_congr_left fun element member => ih roundTrips (each element member)
      rw [kept, List.map_id]
  | map keyType valType keyIh valIh =>
      simp only [ColumnType.roundTrips, Bool.and_eq_true] at roundTrips
      obtain ⟨entries, rfl, _, each⟩ := typed
      rw [stored]
      have kept : (entries.map fun entry =>
          record [stored keyType entry.entryKey, stored valType entry.entryValue]) =
          entries.map id := by
        apply List.map_congr_left
        intro entry member
        obtain ⟨key, held, rfl, keyTyped, heldTyped⟩ := each entry member
        simp only [entryKey, entryValue, keyIh roundTrips.1 keyTyped,
          valIh roundTrips.2 heldTyped, id]
      rw [kept, List.map_id]
  | tuple types ih =>
      simp only [ColumnType.roundTrips, Bool.and_eq_true, allRoundTrip_iff] at roundTrips
      obtain ⟨fields, rfl, each⟩ := typed
      rw [stored, storedFields_eq (fieldsHaveType_iff.mp each) fun type member value =>
        ih type member (roundTrips.2 type member)]
  | json | newJson | dynamic | point | simpleAggregateFunction | variant => cases roundTrips

theorem declared_of_roundTrips {colType : ColumnType} (roundTrips : colType.roundTrips = true) :
    colType.declared = colType ∧ ∀ name typeName,
      (ColumnSchema.mk name typeName colType).declaredType = typeName := by
  cases colType <;> first | exact ⟨rfl, fun _ _ => rfl⟩ | cases roundTrips

/-- Writing columns of types that round trip succeeds. -/
theorem writeColumns_ok {columns : List ColumnSchema} {records : List (List RowValue)}
    (revision : Nat)
    (roundTrips : ∀ column ∈ columns, column.colType.roundTrips = true)
    (deep : ∀ column ∈ columns, column.colType.nesting ≤ maxReadDepth)
    (typed : ∀ record ∈ records,
      List.Forall₂ HasType (columns.map ColumnSchema.colType) record)
    (small : records.length < 2 ^ 64)
    (fits : FieldColumnsFit (columns.map ColumnSchema.colType)
      (records.map fun record => record.map rowBinary)) :
    ∃ out, writeColumns revision columns (records.map fun record => record.map rowBinary) =
      .ok out := by
  induction columns generalizing records with
  | nil => exact ⟨[], rfl⟩
  | cons column columns ih =>
      rw [List.map_cons] at typed fits
      obtain ⟨heads, tails, columnTyped, restTyped⟩ := records_split typed
      rw [FieldColumnsFit, heads, tails] at fits
      rw [writeColumns, heads, tails]
      obtain ⟨insertable, noFailure⟩ :=
        isInsertable_of_roundTrips (roundTrips column (by simp))
      have back := columnReadsBack insertable maxReadDepth _ (deep column (by simp))
        (Nat.le_refl _) columnTyped (by simpa using small) fits.1
      obtain ⟨restOut, restWritten⟩ := ih (fun other member => roundTrips other (by simp [member]))
        (fun other member => deep other (by simp [member])) restTyped (by simpa using small)
        fits.2
      rw [restWritten]
      generalize writeColValues column.colType _ = outcome at back
      cases outcome with
      | error error =>
          rw [noFailure] at back
          cases back
      | ok payload => exact ⟨_, rfl⟩

/-- Encoding rows of types that round trip succeeds. -/
theorem encodeColumns_ok {columns : List ColumnSchema} {records : List (List RowValue)}
    (revision : Nat) (someColumns : columns ≠ [])
    (someRows : records ≠ []) (caps : ∀ column ∈ columns, column.WithinCaps)
    (roundTrips : ∀ column ∈ columns, column.colType.roundTrips = true)
    (rowCap : records.length ≤ maxBlockRows)
    (typed : ∀ record ∈ records,
      List.Forall₂ HasType (columns.map ColumnSchema.colType) record)
    (fits : FieldColumnsFit (columns.map ColumnSchema.colType)
      (records.map fun record => record.map rowBinary)) :
    ∃ out, encodeColumns (records.map rowBinaries) columns revision = .ok out := by
  have small : records.length < 2 ^ 64 := by
    unfold maxBlockRows at rowCap
    omega
  obtain ⟨out, written⟩ := writeColumns_ok revision roundTrips
    (fun column member => (caps column member).nested) typed small fits
  refine ⟨out, ?_⟩
  rw [encodeColumns_eq_writeColumns someColumns someRows typed, written]

/-- A block keeps the schema, the row count and the cells of types that round trip. -/
theorem decodeBlock_of_roundTrips {columns : List ColumnSchema}
    {records : List (List RowValue)} {revision : Nat} (someColumns : columns ≠ [])
    (someRows : records ≠ []) (caps : ∀ column ∈ columns, column.WithinCaps)
    (roundTrips : ∀ column ∈ columns, column.colType.roundTrips = true)
    (columnCap : columns.length ≤ maxBlockColumns) (rowCap : records.length ≤ maxBlockRows)
    (typed : ∀ record ∈ records,
      List.Forall₂ HasType (columns.map ColumnSchema.colType) record)
    (fits : FieldColumnsFit (columns.map ColumnSchema.colType)
      (records.map fun record => record.map rowBinary)) {out suffix : Bytes}
    (encoded : encodeColumns (records.map rowBinaries) columns revision = .ok out)
    (bounded : (out ++ suffix).length < addressSpace) :
    ∃ block, decodeBlock columns.length records.length revision (out ++ suffix) =
        .ok (block, suffix) ∧
      block.schema = columns.map (fun column => (column.name, column.typeName)) ∧
      block.numRows = records.length ∧ block.columns.length = columns.length ∧
      ∀ (index row : Nat) (value : RowValue), (records[row]?).bind (·[index]?) = some value →
        ∃ column : DecodedColumn, block.columns[index]? = some column ∧
          column.cell row = some value.rowBinary := by
  have insertable : ∀ column ∈ columns, column.colType.declared.isInsertable = true := by
    intro column member
    rw [(declared_of_roundTrips (roundTrips column member)).1]
    exact (isInsertable_of_roundTrips (roundTrips column member)).1
  obtain ⟨block, decoded, schema, counted, sized, kept⟩ :=
    decodeBlock_ok someColumns someRows caps insertable columnCap rowCap typed fits encoded
      bounded
  refine ⟨block, decoded, ?_, counted, by simpa using sized, ?_⟩
  · rw [schema]
    apply List.map_congr_left
    intro column member
    rw [(declared_of_roundTrips (roundTrips column member)).2 column.name column.typeName]
  · intro index row value held
    obtain ⟨record, atRow, atIndex⟩ := Option.bind_eq_some_iff.mp held
    have recordTyped := typed record (List.mem_of_getElem? atRow)
    have inside : index < columns.length := by
      have := (List.getElem?_eq_some_iff.mp atIndex).1
      have := recordTyped.length_eq
      simp only [List.length_map] at this
      omega
    have atColumn : columns[index]? = some columns[index] := List.getElem?_eq_getElem inside
    have valueTyped : HasType columns[index].colType value := by
      obtain ⟨insideRecord, same⟩ := List.getElem?_eq_some_iff.mp atIndex
      have pointwise := List.forall₂_iff_get.mp recordTyped
      have := pointwise.2 index (by simpa using inside) insideRecord
      simpa [same] using this
    obtain ⟨column, found, cell⟩ := kept index row columns[index].colType value
      (by simp [atColumn]) held
    refine ⟨column, found, ?_⟩
    rw [cell, stored_of_roundTrips (roundTrips _ (List.getElem_mem inside)) valueTyped]

/-- Encoding rows of types that round trip succeeds, and decoding the block, whatever
follows it, consumes exactly the encoded bytes, reports the same schema and row count,
and holds the cells of the rows. -/
theorem decodeBlock_encodeColumns (columns : List ColumnSchema)
    (records : List (List RowValue)) (revision : Nat) (someColumns : columns ≠ [])
    (someRows : records ≠ []) (caps : ∀ column ∈ columns, column.WithinCaps)
    (roundTrips : ∀ column ∈ columns, column.colType.roundTrips = true)
    (columnCap : columns.length ≤ maxBlockColumns) (rowCap : records.length ≤ maxBlockRows)
    (typed : ∀ record ∈ records,
      List.Forall₂ HasType (columns.map ColumnSchema.colType) record)
    (fits : FieldColumnsFit (columns.map ColumnSchema.colType)
      (records.map fun record => record.map rowBinary)) :
    ∃ out, encodeColumns (records.map rowBinaries) columns revision = .ok out ∧
      ∀ suffix, (out ++ suffix).length < addressSpace →
        ∃ block, decodeBlock columns.length records.length revision (out ++ suffix) =
            .ok (block, suffix) ∧
          block.schema = columns.map (fun column => (column.name, column.typeName)) ∧
          block.numRows = records.length ∧ block.columns.length = columns.length ∧
          ∀ (index row : Nat) (value : RowValue), (records[row]?).bind (·[index]?) = some value →
            ∃ column : DecodedColumn, block.columns[index]? = some column ∧
              column.cell row = some value.rowBinary := by
  obtain ⟨out, encoded⟩ :=
    encodeColumns_ok revision someColumns someRows caps roundTrips rowCap typed fits
  refine ⟨out, encoded, fun suffix bounded => ?_⟩
  exact decodeBlock_of_roundTrips someColumns someRows caps roundTrips columnCap rowCap typed
    fits encoded bounded

/-- An array of dictionary strings beside a nullable byte. -/
def tagColumns : List ColumnSchema :=
  [⟨"tags", "Array(LowCardinality(String))", .array (.lowCardinality .string)⟩,
    ⟨"n", "Nullable(UInt8)", .nullable .uInt8⟩]

/-- Two rows: two tags without a number, and a number without tags. -/
def tagRecords : List (List RowValue) :=
  [[.list [.text [65], .text []], .null], [.list [], .present (.raw [7])]]

theorem withinCaps_tagColumns : ∀ column ∈ tagColumns, column.WithinCaps := by
  intro column member
  simp only [tagColumns, List.mem_cons, List.not_mem_nil, or_false] at member
  rcases member with rfl | rfl
  · exact ⟨rfl, Nat.le_of_ble_eq_true rfl, Nat.le_of_ble_eq_true rfl, by decide⟩
  · exact ⟨rfl, Nat.le_of_ble_eq_true rfl, Nat.le_of_ble_eq_true rfl, by decide⟩

theorem hasType_tagRecords : ∀ record ∈ tagRecords,
    List.Forall₂ HasType (tagColumns.map ColumnSchema.colType) record := by
  intro record member
  simp only [tagRecords, List.mem_cons, List.not_mem_nil, or_false] at member
  rcases member with rfl | rfl
  · refine .cons ⟨_, rfl, by decide, ?_⟩ (.cons (.inl rfl) .nil)
    intro element member
    simp only [List.mem_cons, List.not_mem_nil, or_false] at member
    rcases member with rfl | rfl
    · exact ⟨_, rfl, by decide⟩
    · exact ⟨_, rfl, by decide⟩
  · exact .cons ⟨_, rfl, by decide, by simp⟩ (.cons (.inr ⟨_, rfl, _, rfl, rfl⟩) .nil)

theorem fits_tagRecords : FieldColumnsFit (tagColumns.map ColumnSchema.colType)
    (tagRecords.map fun record => record.map rowBinary) := by
  refine ⟨fun rows sliced => ?_, fun slots split => ?_, trivial⟩
  · have cut : sliceCells (arrayElements (.lowCardinality .string)) [[2, 1, 65, 0], [0]] =
        .ok [[[1, 65], [0]], []] := rfl
    obtain rfl := Except.ok.inj (cut.symm.trans sliced)
    have entries : (dictionaryEntries .string [[1, 65], [0]]).length < 2 ^ 32 := by decide
    exact ⟨by decide, entries⟩
  · trivial

theorem decodeBlock_encodeColumns_tags :
    ∃ out, encodeColumns [[2, 1, 65, 0, 1], [0, 0, 7]] tagColumns 54454 = .ok out ∧
      ∃ block, decodeBlock 2 2 54454 (out ++ [9]) = .ok (block, [9]) ∧
        block.schema = [("tags", "Array(LowCardinality(String))"), ("n", "Nullable(UInt8)")] ∧
        ∃ column, block.columns[0]? = some column ∧ column.cell 0 = some [2, 1, 65, 0] := by
  have roundTrips : ∀ column ∈ tagColumns, column.colType.roundTrips = true := by
    simp [tagColumns, ColumnType.roundTrips, ColumnType.isPlain, ColumnType.fixedSize]
  obtain ⟨out, encoded, decodes⟩ := decodeBlock_encodeColumns tagColumns tagRecords 54454
    (by simp [tagColumns]) (by simp [tagRecords]) withinCaps_tagColumns roundTrips (by decide)
    (by decide) hasType_tagRecords fits_tagRecords
  have computed : ∃ out, encodeColumns [[2, 1, 65, 0, 1], [0, 0, 7]] tagColumns 54454 =
      .ok out ∧ out.length = 112 := ⟨_, rfl, rfl⟩
  obtain ⟨_, evaluated, sized⟩ := computed
  obtain rfl := Except.ok.inj (encoded.symm.trans evaluated)
  have bounded : (out ++ [9]).length < addressSpace := by
    rw [List.length_append, sized]
    decide
  obtain ⟨block, decoded, schema, _, _, cells⟩ := decodes [9] bounded
  exact ⟨out, evaluated, block, decoded, schema, cells 0 0 _ rfl⟩

end DfeClickhouse.Native
