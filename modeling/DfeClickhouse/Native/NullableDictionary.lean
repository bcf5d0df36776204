import DfeClickhouse.Native.BlockRoundTrip

/-!
# NULL in dictionary columns

The dictionary of a nullable column is seeded with the default value, which stands
for NULL, and real values are looked up among the same entries.  A value equal to the
default therefore comes back as NULL, and nothing else does.
-/

namespace DfeClickhouse.Native

open Library RowValue

/-- The fixed-width types the decoder only consumes. -/
theorem decodeColumnStep_untyped {colType : ColumnType} (leaf : colType.isLeaf = true)
    (untyped : colType.isTyped = false) (nested : ColumnDecoder) (depth count : Nat) :
    decodeColumnStep nested depth colType count [] = (do
      let _ ← readColumnData colType count
      pure (.unsupported colType.debug, [])) := by
  cases colType <;>
    first
    | cases untyped; done
    | cases leaf; done
    | simp only [decodeColumnStep, decodeLeaf, bind_assoc, pure_bind]

theorem reads_readColumnLevels_leaf {colType : ColumnType} (leaf : colType.isLeaf = true)
    {levels : Nat} (inner : levels < maxReadDepth) {entries : List RowValue}
    (typed : ∀ entry ∈ entries, HasType colType entry) :
    Reader.Reads (readColumnLevels (levels + 1) colType entries.length)
      (entries.map rowBinary).flatten (entries.map rowBinary) := by
  rw [readColumnLevels_succ inner]
  exact reads_leaf _ leaf typed

/-- The dictionary of a leaf type decodes to its entries, or to a column without values
when the decoder has no typed column for it. -/
theorem decodeDictionary_ok {colType : ColumnType} (leaf : colType.isLeaf = true)
    {entries : List RowValue} (typed : ∀ entry ∈ entries, HasType colType entry)
    (positive : 1 ≤ entries.length) {rest : Bytes}
    (bounded : ((entries.map rowBinary).flatten ++ rest).length < addressSpace) :
    ∃ dict, decodeColumnLevels maxDecodeDepth colType entries.length []
        ((entries.map rowBinary).flatten ++ rest) = .ok ((dict, []), rest) ∧
      ∀ slot, slot < entries.length →
        dict.cell slot = if colType.isTyped then (entries.map rowBinary)[slot]? else none := by
  have depth : (31 : Nat) < maxReadDepth := by decide
  cases isTyped : colType.isTyped with
  | true =>
      have agree : ColumnsAgree entries.length [] (readColumnLevels maxReadDepth colType
          entries.length) (decodeColumnLevels maxReadDepth colType entries.length []) :=
        nestedAgree_levels (Nat.le_refl _) colType entries.length [] isTyped
      obtain ⟨⟨dict, queue⟩, decoded, cells, same⟩ :=
        agree.ok_of_left_ok bounded (reads_readColumnLevels_leaf leaf depth typed rest)
      obtain rfl : queue = [] := same
      refine ⟨dict, decoded, fun slot inside => ?_⟩
      rw [cells.2.2 slot inside]
      rfl
  | false =>
      refine ⟨.unsupported colType.debug, ?_, fun _ _ => rfl⟩
      have step : decodeColumnLevels maxDecodeDepth colType entries.length [] =
          decodeColumnStep (decodeColumnLevels 31) 1 colType entries.length [] := rfl
      have read : readColumnData colType entries.length
          ((entries.map rowBinary).flatten ++ rest) = .ok (entries.map rowBinary, rest) := by
        rw [readColumnData, readColumnAt_zero positive]
        exact reads_leaf _ leaf typed rest
      rw [step, decodeColumnStep_untyped leaf isTyped, Reader.bind_of_ok read]
      rfl

/-- The indices of a dictionary column decode to its slots. -/
theorem decodeIndices_ok {indexType width : Nat} (selected : indexBytes indexType = .ok width)
    (valid : width = 1 ∨ width = 2 ∨ width = 4 ∨ width = 8) {slots : List Nat}
    (small : ∀ slot ∈ slots, slot < 256 ^ width) {rest : Bytes}
    (bounded : (slots.flatMap (natLe width) ++ rest).length < addressSpace) :
    ∃ indices, decodeIndices indexType slots.length (slots.flatMap (natLe width) ++ rest) =
        .ok (indices, rest) ∧ ∀ row, indices.index row = slots[row]? := by
  have read : Reader.Reads (Reader.times (readIndex width) slots.length)
      (slots.flatMap (natLe width)) slots := by
    have run : Reader.Reads (Reader.times (readIndex width) slots.length)
        (slots.map (natLe width)).flatten (slots.map id) :=
      Reader.Reads.times_map fun slot member => reads_readIndex valid (small slot member)
    rwa [List.map_id, ← List.flatMap_def] at run
  obtain ⟨indices, decoded, _, _, rows⟩ :=
    (agree_decodeIndices selected).ok_of_left_ok bounded (read rest)
  exact ⟨indices, decoded, rows⟩

/-- A nullable dictionary column decodes to its entries and slots. -/
theorem decodeLowCardinality_ok {type : ColumnType} (leaf : type.isLeaf = true)
    {values entries : List RowValue} {slots : List Nat}
    (layout : DictionaryLayout (.nullable type) values entries slots)
    (small : slots.length < 2 ^ 64) {rest : Bytes}
    (bounded : (dictionaryBytes (entries.map rowBinary) slots ++ rest).length < addressSpace) :
    ∃ dict indices, decodeLowCardinality (decodeColumnLevels maxDecodeDepth) (.nullable type)
        slots.length [] (dictionaryBytes (entries.map rowBinary) slots ++ rest) =
          .ok ((.lowCardinality dict indices true, []), rest) ∧
      (∀ slot, slot < entries.length →
        dict.cell slot = if type.isTyped then (entries.map rowBinary)[slot]? else none) ∧
      ∀ row, indices.index row = slots[row]? := by
  have positive : 1 ≤ entries.length := by
    have seeded := layout.seeded.length_le
    rw [List.length_map] at seeded
    exact seeded
  obtain ⟨indexType, width, chosen, bytes, valid, wide, code, noGlobal, additional, flags⟩ :=
    dictionaryIndexType_spec layout.bounded
  have slotsSmall : ∀ slot ∈ slots, slot < 256 ^ width := by
    intro slot member
    have := layout.inside slot member
    omega
  rw [dictionaryBytes, List.length_map, chosen] at bounded ⊢
  simp only [List.append_assoc] at bounded ⊢
  simp only [List.length_append, length_natLe] at bounded
  have indicesFit : (slots.flatMap (natLe width) ++ rest).length < addressSpace := by
    rw [List.length_append]
    omega
  have entriesFit : ((entries.map rowBinary).flatten ++
      (natLe 8 slots.length ++ (slots.flatMap (natLe width) ++ rest))).length <
        addressSpace := by
    simp only [List.length_append, length_natLe]
    omega
  obtain ⟨indices, indicesRead, rows⟩ := decodeIndices_ok bytes valid slotsSmall indicesFit
  obtain ⟨dict, dictRead, cells⟩ := decodeDictionary_ok leaf layout.typed positive entriesFit
  refine ⟨dict, indices, ?_, cells, rows⟩
  unfold decodeLowCardinality
  rw [Reader.bind_of_ok (reads_readU64Le flags _), code, noGlobal, additional]
  simp only [dictionaryType, Reader.require_of_holds, pure_bind]
  have size := layout.bounded
  rw [Reader.bind_of_ok (reads_readU64Le (by omega) _), Reader.bind_of_ok dictRead,
    Reader.bind_of_ok (reads_readU64Le small _), Reader.require_of_holds rfl]
  simp only [pure_bind]
  rw [Reader.bind_of_ok indicesRead]
  rfl

/-- The row of a value: its stored cell, as far as the decoder has a typed entry for it. -/
theorem cell_lowCardinality {type : ColumnType} {values entries : List RowValue}
    {slots : List Nat} (layout : DictionaryLayout (.nullable type) values entries slots)
    {dict indices : DecodedColumn}
    (cells : ∀ slot, slot < entries.length →
      dict.cell slot = if type.isTyped then (entries.map rowBinary)[slot]? else none)
    (rows : ∀ row, indices.index row = slots[row]?) {row : Nat} {value : RowValue}
    (held : values[row]? = some value) :
    (DecodedColumn.lowCardinality dict indices true).cell row =
      if (stored (.lowCardinality (.nullable type)) value).rowBinary = [1] then some [1]
      else if type.isTyped then
        some (stored (.lowCardinality (.nullable type)) value).rowBinary
      else none := by
  obtain ⟨inside, same⟩ := List.getElem?_eq_some_iff.mp held
  have insideSlots : row < slots.length := layout.selected.length_eq ▸ inside
  have selected := (List.forall₂_iff_get.mp layout.selected).2 row inside insideSlots
  simp only [List.get_eq_getElem, same] at selected
  have slot : slots[row]? = some slots[row] := List.getElem?_eq_getElem insideSlots
  rw [DecodedColumn.cell, rows, slot]
  simp only [if_true]
  generalize slots[row] = slot at selected
  by_cases null : slot = 0
  · subst null
    have kept : [1] = (stored (.lowCardinality (.nullable type)) value).rowBinary :=
      Except.ok.inj selected
    rw [if_pos rfl, if_pos kept.symm]
  · simp only [dictionaryCell, dictionaryType, if_true, if_neg null] at selected
    cases entry : (entries.map rowBinary)[slot]? with
    | none => simp [entry] at selected
    | some cell =>
        simp only [entry, Except.ok.injEq] at selected
        have insideEntries : slot < entries.length := by
          have := (List.getElem?_eq_some_iff.mp entry).1
          rwa [List.length_map] at this
        have distinct : (0 : UInt8) :: cell ≠ [1] := by
          intro flags
          cases flags
        rw [← selected, if_neg distinct, if_neg null, cells slot insideEntries, entry]
        split <;> rfl

/-- A row comes back exactly when it is NULL, or holds a value other than the default
that the decoder has a typed entry for. -/
theorem cell_lowCardinality_iff {type : ColumnType} {values entries : List RowValue}
    {slots : List Nat} (layout : DictionaryLayout (.nullable type) values entries slots)
    {dict indices : DecodedColumn}
    (cells : ∀ slot, slot < entries.length →
      dict.cell slot = if type.isTyped then (entries.map rowBinary)[slot]? else none)
    (rows : ∀ row, indices.index row = slots[row]?) {row : Nat} {value : RowValue}
    (typed : HasType (.nullable type) value) (held : values[row]? = some value) :
    (DecodedColumn.lowCardinality dict indices true).cell row = some value.rowBinary ↔
      ∀ content, value = .present content →
        content.rowBinary ≠ rbWriteDefault type ∧ type.isTyped = true := by
  rw [cell_lowCardinality layout cells rows held]
  rcases typed with rfl | ⟨content, rfl, _⟩
  · simp [stored, rowBinary]
  · have dictType : (dictionaryType (.nullable type)).1 = type := rfl
    by_cases isDefault : content.rowBinary = rbWriteDefault type
    · simp [stored, dictType, isDefault, rowBinary]
    · cases type.isTyped <;> simp [stored, dictType, isDefault, rowBinary]

section Block

variable {column : ColumnSchema} {type : ColumnType} {values : List RowValue}

/-- A block has few enough rows for every dictionary. -/
theorem length_dictionaryEntries_lt (rowCap : values.length ≤ maxBlockRows) :
    (dictionaryEntries (.nullable type) (values.map rowBinary)).length < 2 ^ 32 := by
  have distinct := (List.dedup_sublist
    ([rbWriteDefault type] ++
      ((values.map rowBinary).map (dictionaryKey true)).reduceOption)).length_le
  have keys := List.reduceOption_length_le ((values.map rowBinary).map (dictionaryKey true))
  rw [List.length_append, List.length_singleton] at distinct
  rw [List.length_map, List.length_map] at keys
  unfold maxBlockRows at rowCap
  refine Nat.lt_of_le_of_lt distinct ?_
  omega

theorem encodeColumns_singleton (dictionary : column.colType = .lowCardinality (.nullable type))
    (typed : ∀ value ∈ values, HasType (.nullable type) value) (someRows : values ≠ [])
    {entries : List RowValue} {slots : List Nat}
    (layout : DictionaryLayout (.nullable type) values entries slots) (revision : Nat) :
    encodeColumns (values.map rowBinary) [column] revision =
      .ok (writeColumnHeader revision column ++ natLe 8 1 ++
        dictionaryBytes (entries.map rowBinary) slots) := by
  have rows : values.map rowBinary = (values.map fun value => [value]).map rowBinaries := by
    rw [List.map_map]
    apply List.map_congr_left
    intro value _
    simp [rowBinaries]
  have recordsTyped : ∀ record ∈ values.map fun value => [value],
      List.Forall₂ HasType ([column].map ColumnSchema.colType) record := by
    intro record member
    obtain ⟨value, held, rfl⟩ := List.mem_map.mp member
    exact .cons (dictionary ▸ typed value held) .nil
  have cells : ((values.map fun value => [value]).map fun record => record.map rowBinary).map
      (fun row => row.headD []) = values.map rowBinary := by
    simp [Function.comp_def]
  rw [rows, encodeColumns_eq_writeColumns (by simp) (by simpa using someRows) recordsTyped,
    writeColumns, cells, dictionary, layout.written]
  simp [writeColumns, writeColPrefixes, bind, Except.bind, pure, Except.pure]

/-- Decoding a block of one nullable dictionary column. -/
theorem decodeBlock_singleton (caps : column.WithinCaps)
    (dictionary : column.colType = .lowCardinality (.nullable type))
    (leaf : type.isLeaf = true) (someRows : values ≠ [])
    (rowCap : values.length ≤ maxBlockRows) {entries : List RowValue} {slots : List Nat}
    (layout : DictionaryLayout (.nullable type) values entries slots) (revision : Nat)
    (bounded : (dictionaryBytes (entries.map rowBinary) slots).length < addressSpace) :
    ∃ dict indices, decodeBlock 1 values.length revision
        (writeColumnHeader revision column ++ natLe 8 1 ++
          dictionaryBytes (entries.map rowBinary) slots) =
          .ok (⟨[.lowCardinality dict indices true], [(column.name, column.declaredType)],
            values.length⟩, []) ∧
      (∀ slot, slot < entries.length →
        dict.cell slot = if type.isTyped then (entries.map rowBinary)[slot]? else none) ∧
      ∀ row, indices.index row = slots[row]? := by
  have sized := layout.selected.length_eq
  have positive : 1 ≤ values.length := List.length_pos_iff.mpr someRows
  have small : slots.length < 2 ^ 64 := by
    unfold maxBlockRows at rowCap
    omega
  rw [← List.append_nil (dictionaryBytes (entries.map rowBinary) slots)] at bounded ⊢
  obtain ⟨dict, indices, decoded, cells, rows⟩ :=
    decodeLowCardinality_ok leaf layout small bounded
  refine ⟨dict, indices, ?_, cells, rows⟩
  have declared : column.colType.declared = .lowCardinality (.nullable type) := by
    rw [dictionary]
    rfl
  have payload : decodeColumnPayload (.lowCardinality (.nullable type)) values.length false
      (natLe 8 1 ++ (dictionaryBytes (entries.map rowBinary) slots ++ [])) =
        .ok (.lowCardinality dict indices true, []) := by
    have version : decodePrefixes (.lowCardinality (.nullable type))
        (natLe 8 1 ++ (dictionaryBytes (entries.map rowBinary) slots ++ [])) =
          .ok ([], dictionaryBytes (entries.map rowBinary) slots ++ []) :=
      (reads_readU64Le (by decide)).bind_pure _
    have column : decodeColumn (.lowCardinality (.nullable type)) values.length 0 []
        (dictionaryBytes (entries.map rowBinary) slots ++ []) =
          .ok ((.lowCardinality dict indices true, []), []) := by
      rw [decodeColumn, Nat.sub_zero, decodeColumnLevels, if_neg (by omega), decodeColumnStep,
        sized]
      exact decoded
    have someRow : values.length > 0 := positive
    rw [decodeColumnPayload, if_pos someRow, Reader.bind_of_ok version]
    simp only [Bool.false_eq_true, false_and, if_false]
    rw [Reader.bind_of_ok column]
    rfl
  have entry : decodeBlockColumn values.length revision
      (writeColumnHeader revision column ++ natLe 8 1 ++
        (dictionaryBytes (entries.map rowBinary) slots ++ [])) =
        .ok (((column.name, column.declaredType), .lowCardinality dict indices true), []) := by
    rw [List.append_assoc, decodeBlockColumn_header caps, declared,
      Reader.bind_of_ok payload]
    rfl
  have columnCap : 1 ≤ maxBlockColumns := by decide
  rw [decodeBlock, Reader.require_of_holds columnCap, Reader.require_of_holds rowCap]
  simp only [pure_bind, Reader.times]
  rw [Reader.bind_of_ok (Reader.bind_of_ok entry)]
  rfl

end Block

/-- Decoding what the encoder wrote for a `LowCardinality(Nullable(T))` column gives
back the input rows exactly when no row holds the default value of `T`, and `T` has a
typed column or all rows are NULL. -/
theorem nullableDictionary_preserved_iff (column : ColumnSchema) (caps : column.WithinCaps)
    (type : ColumnType) (leaf : type.isLeaf = true)
    (dictionary : column.colType = .lowCardinality (.nullable type)) (values : List RowValue)
    (typed : ∀ value ∈ values, HasType (.nullable type) value) (someRows : values ≠ [])
    (rowCap : values.length ≤ maxBlockRows) (revision : Nat)
    (inMemory : ∀ out, encodeColumns (values.map rowBinary) [column] revision = .ok out →
      out.length < addressSpace) :
    (∃ out block decoded, encodeColumns (values.map rowBinary) [column] revision = .ok out ∧
      decodeBlock 1 values.length revision out = .ok (block, []) ∧
      block.columns = [decoded] ∧
      ∀ row value, values[row]? = some value → decoded.cell row = some value.rowBinary) ↔
    (∀ content, .present content ∈ values → content.rowBinary ≠ rbWriteDefault type) ∧
      (type.isTyped = true ∨ ∀ value ∈ values, value = .null) := by
  have dictLeaf : (dictionaryType (.nullable type)).1.isLeaf = true := leaf
  obtain ⟨entries, slots, layout⟩ :=
    exists_dictionaryLayout dictLeaf typed (length_dictionaryEntries_lt rowCap)
  have encoded := encodeColumns_singleton dictionary typed someRows layout revision
  have bounded : (dictionaryBytes (entries.map rowBinary) slots).length < addressSpace := by
    have whole := inMemory _ encoded
    rw [List.length_append] at whole
    omega
  obtain ⟨dict, indices, decoded, cells, rows⟩ :=
    decodeBlock_singleton caps dictionary leaf someRows rowCap layout revision bounded
  have row_iff {row : Nat} {value : RowValue} (held : values[row]? = some value) :=
    cell_lowCardinality_iff layout cells rows (typed value (List.mem_of_getElem? held)) held
  constructor
  · rintro ⟨out, block, back, encodes, decodes, single, preserved⟩
    obtain rfl := Except.ok.inj (encoded.symm.trans encodes)
    rw [decoded] at decodes
    cases decodes
    cases single
    have each : ∀ value ∈ values, ∀ content, value = .present content →
        content.rowBinary ≠ rbWriteDefault type ∧ type.isTyped = true := by
      intro value member
      obtain ⟨row, inside, rfl⟩ := List.getElem_of_mem member
      have held : values[row]? = some values[row] := List.getElem?_eq_getElem inside
      exact (row_iff held).mp (preserved row _ held)
    refine ⟨fun content member => (each _ member content rfl).1, ?_⟩
    by_cases isTyped : type.isTyped = true
    · exact .inl isTyped
    · refine .inr fun value member => ?_
      rcases typed value member with rfl | ⟨content, rfl, _⟩
      · rfl
      · exact absurd (each _ member content rfl).2 isTyped
  · rintro ⟨noDefault, typedOrNull⟩
    refine ⟨_, _, _, encoded, decoded, rfl, fun row value held => (row_iff held).mpr ?_⟩
    rintro content rfl
    have member := List.mem_of_getElem? held
    refine ⟨noDefault content member, typedOrNull.resolve_right fun allNull => ?_⟩
    cases allNull _ member

/-- A nullable dictionary of strings. -/
def labelColumn : ColumnSchema :=
  ⟨"label", "LowCardinality(Nullable(String))", .lowCardinality (.nullable .string)⟩

theorem withinCaps_labelColumn : labelColumn.WithinCaps :=
  ⟨rfl, Nat.le_of_ble_eq_true rfl, Nat.le_of_ble_eq_true rfl, by decide⟩

theorem nullableDictionary_preserved_label :
    ∃ out block decoded, encodeColumns [[1], [0, 1, 65]] [labelColumn] 54454 = .ok out ∧
      decodeBlock 1 2 54454 out = .ok (block, []) ∧ block.columns = [decoded] ∧
      ∀ row value, [RowValue.null, .present (.text [65])][row]? = some value →
        decoded.cell row = some value.rowBinary := by
  have typed : ∀ value ∈ [RowValue.null, .present (.text [65])],
      HasType (.nullable .string) value := by
    intro value member
    simp only [List.mem_cons, List.not_mem_nil, or_false] at member
    rcases member with rfl | rfl
    · exact .inl rfl
    · exact .inr ⟨_, rfl, _, rfl, by decide⟩
  have computed : ∃ out, encodeColumns [[1], [0, 1, 65]] [labelColumn] 54454 = .ok out ∧
      out.length = 77 := ⟨_, rfl, rfl⟩
  obtain ⟨out, evaluated, sized⟩ := computed
  refine (nullableDictionary_preserved_iff labelColumn withinCaps_labelColumn .string rfl rfl
    [.null, .present (.text [65])] typed (by simp) (by decide) 54454 ?_).mpr ⟨?_, .inl rfl⟩
  · intro other encoded
    obtain rfl := Except.ok.inj (evaluated.symm.trans encoded)
    rw [sized]
    decide
  · intro content member
    simp only [List.mem_cons, List.not_mem_nil, or_false, reduceCtorEq, false_or,
      RowValue.present.injEq] at member
    subst member
    decide

/-- One row that holds the empty string comes back as NULL. -/
theorem nullableDictionary_loses_default :
    ¬ ∃ out block decoded,
      encodeColumns [RowValue.rowBinary (.present (.text []))] [labelColumn] 54454 = .ok out ∧
      decodeBlock 1 1 54454 out = .ok (block, []) ∧ block.columns = [decoded] ∧
      ∀ row value, [RowValue.present (.text [])][row]? = some value →
        decoded.cell row = some value.rowBinary := by
  rintro ⟨out, block, decoded, encoded, decodes, single, preserved⟩
  have read : decodeBlock 1 1 54454 out = .ok (⟨[.lowCardinality (.string [[]]) (.uInt8 [0]) true],
      [("label", "LowCardinality(Nullable(String))")], 1⟩, []) := by
    cases encoded
    rfl
  rw [read] at decodes
  cases decodes
  cases single
  cases preserved 0 _ rfl

end DfeClickhouse.Native
