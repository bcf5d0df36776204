import DfeClickhouse.Library.Postcondition
import DfeClickhouse.Native.Columns
import DfeClickhouse.Native.RowBinary

/-!
# The cells of the cell reader

Every cell the reader returns is the canonical cell of a value of the column's type,
and there is one cell for every row.  Values of `Variant`, `Dynamic` and `JSON`
columns are length-prefixed texts, whatever the texts say.
-/

namespace DfeClickhouse.Native

open Library RowValue

mutual

/-- The values the cell reader produces for a column type. -/
def RowValue.ReadAs : ColumnType → RowValue → Prop
  | .string, value | .json, value => ∃ bytes, value = text bytes ∧ bytes.length ≤ maxStringSize
  | .newJson, value | .variant _, value | .dynamic, value => ∃ bytes, value = text bytes
  | .point, value => ∃ bytes, value = raw bytes ∧ bytes.length = 16
  | .nullable inner, value => value = null ∨ ∃ held, value = present held ∧ ReadAs inner held
  | .lowCardinality inner, value | .simpleAggregateFunction inner, value => ReadAs inner value
  | .array inner, value =>
      ∃ elements, value = list elements ∧ elements.length < 2 ^ 64 ∧
        ∀ element ∈ elements, ReadAs inner element
  | .map keyType valType, value =>
      ∃ entries, value = list entries ∧ entries.length < 2 ^ 64 ∧
        ∀ entry ∈ entries, ∃ key held, entry = record [key, held] ∧
          ReadAs keyType key ∧ ReadAs valType held
  | .tuple types, value => ∃ fields, value = record fields ∧ FieldsReadAs types fields
  | scalar, value => ∃ bytes, value = raw bytes ∧ scalar.fixedSize = some bytes.length

/-- The values the cell reader produces for the fields of a tuple. -/
def RowValue.FieldsReadAs : List ColumnType → List RowValue → Prop
  | [], fields => fields = []
  | type :: types, fields =>
      ∃ field rest, fields = field :: rest ∧ ReadAs type field ∧ FieldsReadAs types rest

end

theorem readAs_of_fixed {colType : ColumnType} {width : Nat}
    (fixed : colType.fixedSize = some width) {value : RowValue} :
    ReadAs colType value ↔ ∃ bytes, value = raw bytes ∧ bytes.length = width := by
  have scalar : ReadAs colType value ↔
      ∃ bytes, value = raw bytes ∧ colType.fixedSize = some bytes.length := by
    cases colType <;> first | cases fixed; done | rfl
  rw [scalar, fixed]
  simp only [Option.some.injEq, eq_comm]

/-- A byte string is the cell of a value the reader produces. -/
def IsCell (colType : ColumnType) (cell : Bytes) : Prop :=
  ∃ value, ReadAs colType value ∧ value.rowBinary = cell

/-- One cell of a type for every row. -/
def AreCells (colType : ColumnType) (count : Nat) (cells : ColumnData) : Prop :=
  cells.length = count ∧ ∀ cell ∈ cells, IsCell colType cell

/-- A reader of the next nesting level returns the cells it was asked for. -/
def NestedCells (nested : ColumnReader) : Prop :=
  ∀ colType count, Reader.Yields (nested colType count) (AreCells colType count)

theorem yields_readExact (len : Nat) :
    Reader.Yields (readExact len) fun bytes => bytes.length = len :=
  Reader.Yields.take unexpectedEof len

theorem yields_readU64Le : Reader.Yields readU64Le fun value => value < 2 ^ 64 := by
  refine (yields_readExact 8).bind fun bytes sized => Reader.Yields.pure ?_
  have small := leNat_lt bytes
  rw [sized] at small
  exact small

theorem yields_readString : Reader.Yields readString fun bytes => bytes.length ≤ maxStringSize := by
  refine Reader.Yields.after fun declared => ?_
  have capped : Reader.Yields (Reader.ofExcept (checkedStringLen declared) : ByteReader Nat)
      fun len => len ≤ maxStringSize := by
    apply Reader.Yields.ofExcept
    intro len accepted
    unfold checkedStringLen at accepted
    split at accepted
    · cases accepted
    · cases accepted
      omega
  refine capped.bind fun len small => (yields_readExact len).mono fun bytes sized => ?_
  omega

theorem yields_readFixedColumn {colType : ColumnType} {width : Nat}
    (fixed : colType.fixedSize = some width) (count : Nat) :
    Reader.Yields (readFixedColumn count width) (AreCells colType count) := by
  refine ((yields_readExact width).times count).mono fun cells ⟨counted, sized⟩ => ⟨counted, ?_⟩
  intro cell member
  exact ⟨raw cell, (readAs_of_fixed fixed).mpr ⟨cell, rfl, sized cell member⟩, rfl⟩

theorem yields_readStringColumn {colType : ColumnType}
    (strings : ∀ bytes, bytes.length ≤ maxStringSize → ReadAs colType (text bytes)) (count : Nat) :
    Reader.Yields (readStringColumn count) (AreCells colType count) := by
  have one : Reader.Yields (do
      let bytes ← readString
      pure (rowbinaryString bytes)) (IsCell colType) :=
    yields_readString.bind fun bytes capped =>
      Reader.Yields.pure ⟨text bytes, strings bytes capped, rfl⟩
  exact one.times count

theorem exists_of_mem_zipWith {α β γ : Type} {combine : α → β → γ} {first : List α}
    {second : List β} {result : γ} (member : result ∈ first.zipWith combine second) :
    ∃ left ∈ first, ∃ right ∈ second, combine left right = result := by
  rw [← List.map_uncurry_zip_eq_zipWith, List.mem_map] at member
  obtain ⟨⟨left, right⟩, paired, rfl⟩ := member
  exact ⟨left, (List.of_mem_zip paired).1, right, (List.of_mem_zip paired).2, rfl⟩

theorem yields_pointColumn (count : Nat) :
    Reader.Yields (do
      let xColumn ← readFixedColumn count 8
      let yColumn ← readFixedColumn count 8
      pure (xColumn.zipWith (· ++ ·) yColumn)) (AreCells .point count) := by
  have halves : Reader.Yields (readFixedColumn count 8) fun cells =>
      cells.length = count ∧ ∀ cell ∈ cells, cell.length = 8 := (yields_readExact 8).times count
  refine halves.bind fun xColumn ⟨xCounted, xSized⟩ =>
    halves.bind fun yColumn ⟨yCounted, ySized⟩ =>
      Reader.Yields.pure ⟨by simp [xCounted, yCounted], ?_⟩
  intro cell member
  obtain ⟨x, xMember, y, yMember, rfl⟩ := exists_of_mem_zipWith member
  refine ⟨raw (x ++ y), ⟨x ++ y, rfl, ?_⟩, rfl⟩
  rw [List.length_append, xSized x xMember, ySized y yMember]

section Composite

variable {nested : ColumnReader} {count : Nat}

theorem yields_readNullableColumn (cells : NestedCells nested) (inner : ColumnType) :
    Reader.Yields (readNullableColumn nested count inner) (AreCells (.nullable inner) count) := by
  refine (yields_readExact count).bind fun flags flagged =>
    (cells inner count).bind fun values ⟨counted, each⟩ =>
      Reader.Yields.pure ⟨by simp [flagged, counted], ?_⟩
  intro cell member
  obtain ⟨flag, _, value, valueMember, rfl⟩ := exists_of_mem_zipWith member
  unfold nullableCell
  split
  · exact ⟨null, .inl rfl, rfl⟩
  · obtain ⟨held, heldRead, rfl⟩ := each value valueMember
    exact ⟨present held, .inr ⟨held, rfl, heldRead⟩, rfl⟩

theorem isCell_dictionaryCell {inner : ColumnType} {dict : ColumnData} {index : Nat} {cell : Bytes}
    (entries : ∀ entry ∈ dict, IsCell (dictionaryType inner).1 entry)
    (selected : dictionaryCell dict (dictionaryType inner).2 index = .ok cell) :
    IsCell inner cell := by
  have found : ∀ entry, dict[index]? = some entry → IsCell (dictionaryType inner).1 entry :=
    fun entry held => entries entry (List.mem_of_getElem? held)
  rcases dictionaryType_cases inner with ⟨type, rfl, split⟩ | same
  · rw [split] at selected found
    simp only [dictionaryCell, if_true] at selected
    split at selected
    · cases selected
      exact ⟨null, .inl rfl, rfl⟩
    · split at selected
      · rename_i entry held
        cases selected
        obtain ⟨value, valueRead, rfl⟩ := found entry held
        exact ⟨present value, .inr ⟨value, rfl, valueRead⟩, rfl⟩
      · cases selected
  · rw [same] at selected found
    simp only [dictionaryCell, Bool.false_eq_true, if_false] at selected
    split at selected
    · rename_i entry held
      obtain rfl : entry = cell := Except.ok.inj selected
      exact found entry held
    · cases selected

theorem yields_readLowCardinalityColumn (cells : NestedCells nested) (inner : ColumnType) :
    Reader.Yields (readLowCardinalityColumn nested count inner)
      (AreCells (.lowCardinality inner) count) := by
  refine Reader.Yields.after fun state => Reader.Yields.after fun _ => Reader.Yields.after fun _ =>
    Reader.Yields.after fun size => ?_
  refine (cells (dictionaryType inner).1 size).bind fun dict ⟨_, entries⟩ => ?_
  refine Reader.Yields.after fun _ => Reader.Yields.after fun _ =>
    Reader.Yields.after fun width => ?_
  have one : Reader.Yields (do
      let index ← readIndex width
      Reader.ofExcept (dictionaryCell dict (dictionaryType inner).2 index))
      (IsCell (.lowCardinality inner)) := by
    refine Reader.Yields.after fun index => Reader.Yields.ofExcept fun cell selected => ?_
    have inside : IsCell inner cell := isCell_dictionaryCell entries selected
    exact inside
  exact one.times count

theorem yields_readOffsets (count : Nat) :
    Reader.Yields (readOffsets count) fun offsets =>
      offsets.length = count ∧ ∀ offset ∈ offsets, offset < 2 ^ 64 :=
  yields_readU64Le.times count

/-- A row of a span column is the count of some elements and their cells. -/
theorem spanRows_slices {what : String} {elements rows : ColumnData} {start : Nat}
    {offsets : List Nat} (small : ∀ offset ∈ offsets, offset < 2 ^ 64)
    (cut : spanRows what elements start offsets = .ok rows) :
    rows.length = offsets.length ∧ ∀ row ∈ rows, ∃ slice : List Bytes,
      slice.length < 2 ^ 64 ∧ (∀ element ∈ slice, element ∈ elements) ∧
        row = encodeVarUint slice.length ++ slice.flatten := by
  induction offsets generalizing start rows with
  | nil =>
      cases cut
      simp
  | cons stop offsets ih =>
      rw [spanRows] at cut
      obtain ⟨checked, inside, cut⟩ := Reader.ok_bind_iff.mp cut
      obtain ⟨later, laterCut, joined⟩ := Reader.ok_bind_iff.mp cut
      cases joined
      unfold checkedSpan at inside
      split at inside
      · cases inside
      · rename_i within
        obtain rfl : stop = checked := Except.ok.inj inside
        have laterRows := ih (fun offset member => small offset (by simp [member])) laterCut
        have stopSmall := small stop (by simp)
        refine ⟨by simp [laterRows.1], ?_⟩
        intro row member
        rcases List.mem_cons.mp member with rfl | member
        · have sliced : ((elements.drop start).take (stop - start)).length = stop - start := by
            rw [List.length_take, List.length_drop]
            omega
          refine ⟨(elements.drop start).take (stop - start), by omega, ?_, by rw [sliced]⟩
          intro element held
          exact List.mem_of_mem_drop (List.mem_of_mem_take held)
        · exact laterRows.2 row member

/-- Cells that are taken one after the other come from values. -/
theorem exists_values_of_cells {property : RowValue → Prop} {cells : List Bytes}
    (each : ∀ cell ∈ cells, ∃ value, property value ∧ value.rowBinary = cell) :
    ∃ values, values.length = cells.length ∧ (∀ value ∈ values, property value) ∧
      rowBinaries values = cells.flatten := by
  induction cells with
  | nil => exact ⟨[], rfl, by simp, rfl⟩
  | cons cell cells ih =>
      obtain ⟨value, holds, rfl⟩ := each cell (by simp)
      obtain ⟨values, counted, rest, joined⟩ := ih fun cell member => each cell (by simp [member])
      refine ⟨value :: values, by simp [counted], ?_,
        by rw [rowBinaries, joined, List.flatten_cons]⟩
      intro other member
      rcases List.mem_cons.mp member with rfl | member
      · exact holds
      · exact rest other member

/-- Rows cut from elements are cells of lists of the elements' values. -/
theorem areCells_spanRows {what : String} {colType : ColumnType} {property : RowValue → Prop}
    {elements rows : ColumnData} {offsets : List Nat} (counted : offsets.length = count)
    (small : ∀ offset ∈ offsets, offset < 2 ^ 64)
    (each : ∀ cell ∈ elements, ∃ value, property value ∧ value.rowBinary = cell)
    (lists : ∀ values : List RowValue, values.length < 2 ^ 64 → (∀ value ∈ values, property value) →
      ReadAs colType (list values))
    (cut : spanRows what elements 0 offsets = .ok rows) : AreCells colType count rows := by
  obtain ⟨sized, slices⟩ := spanRows_slices small cut
  refine ⟨by omega, ?_⟩
  intro row member
  obtain ⟨slice, short, inside, rfl⟩ := slices row member
  obtain ⟨values, valuesCounted, holds, joined⟩ :=
    exists_values_of_cells fun cell held => each cell (inside cell held)
  refine ⟨list values, lists values (by omega) holds, ?_⟩
  rw [rowBinary, joined, valuesCounted]

theorem yields_readArrayColumn (cells : NestedCells nested) (inner : ColumnType) :
    Reader.Yields (readArrayColumn nested count inner) (AreCells (.array inner) count) := by
  refine (yields_readOffsets count).bind fun offsets ⟨counted, small⟩ =>
    (cells inner _).bind fun values ⟨_, each⟩ => Reader.Yields.ofExcept fun rows cut => ?_
  refine areCells_spanRows counted small each ?_ cut
  intro elements short elementsRead
  exact ⟨elements, rfl, short, elementsRead⟩

theorem yields_readMapColumn (cells : NestedCells nested) (keyType valType : ColumnType) :
    Reader.Yields (readMapColumn nested count keyType valType)
      (AreCells (.map keyType valType) count) := by
  refine (yields_readOffsets count).bind fun offsets ⟨counted, small⟩ =>
    (cells keyType _).bind fun keys ⟨_, keysRead⟩ =>
      (cells valType _).bind fun vals ⟨_, valsRead⟩ =>
      Reader.Yields.ofExcept fun rows cut => ?_
  have pairs : ∀ cell ∈ keys.zipWith (· ++ ·) vals, ∃ value : RowValue,
      (∃ key held, value = record [key, held] ∧ ReadAs keyType key ∧ ReadAs valType held) ∧
        value.rowBinary = cell := by
    intro cell member
    obtain ⟨key, keyMember, held, heldMember, rfl⟩ := exists_of_mem_zipWith member
    obtain ⟨keyValue, keyRead, rfl⟩ := keysRead key keyMember
    obtain ⟨heldValue, heldRead, rfl⟩ := valsRead held heldMember
    exact ⟨record [keyValue, heldValue], ⟨keyValue, heldValue, rfl, keyRead, heldRead⟩,
      by simp [rowBinary, rowBinaries]⟩
  refine areCells_spanRows counted small pairs ?_ cut
  intro entries short entriesRead
  exact ⟨entries, rfl, short, entriesRead⟩

/-- Every row is continued by the cells of one value of every field. -/
theorem yields_readTupleFields (cells : NestedCells nested) (types : List ColumnType)
    {rows : ColumnData} (counted : rows.length = count) :
    Reader.Yields (readTupleFields nested count types rows)
      (List.Forall₂ (fun row result => ∃ fields, FieldsReadAs types fields ∧
        result = row ++ rowBinaries fields) rows) := by
  induction types generalizing rows with
  | nil =>
      apply Reader.Yields.pure
      apply List.forall₂_same.mpr
      intro row _
      exact ⟨[], rfl, (List.append_nil row).symm⟩
  | cons type types ih =>
      refine (cells type count).bind fun data ⟨dataCounted, each⟩ => ?_
      have appended : appendCells rows data = rows.zipWith (· ++ ·) data := by
        rw [appendCells, List.drop_eq_nil_of_le (by omega), List.append_nil]
      rw [appended]
      refine (ih (by simp [counted, dataCounted])).mono fun results later => ?_
      rw [List.forall₂_iff_get] at later ⊢
      obtain ⟨sized, later⟩ := later
      have same : rows.length = results.length := by
        simp only [List.length_zipWith] at sized
        omega
      refine ⟨same, fun row inside insideResult => ?_⟩
      have insideData : row < data.length := by omega
      obtain ⟨fields, fieldsRead, continued⟩ := later row (by simp; omega) insideResult
      obtain ⟨field, fieldRead, cut⟩ := each data[row] (List.getElem_mem insideData)
      refine ⟨field :: fields, ⟨field, fields, rfl, fieldRead, fieldsRead⟩, ?_⟩
      rw [continued, rowBinaries, cut]
      simp

theorem yields_readTupleColumn (cells : NestedCells nested) (types : List ColumnType) :
    Reader.Yields (readTupleColumn nested count types) (AreCells (.tuple types) count) := by
  refine (yields_readTupleFields cells types (List.length_replicate ..)).mono
    fun results joined => ⟨by simpa using joined.length_eq.symm, ?_⟩
  intro result member
  obtain ⟨row, inside, rfl⟩ := List.mem_iff_getElem.mp member
  rw [List.forall₂_iff_get] at joined
  have insideRows : row < (List.replicate count ([] : Bytes)).length := by omega
  obtain ⟨fields, fieldsRead, same⟩ := joined.2 row insideRows inside
  refine ⟨record fields, ⟨fields, rfl, fieldsRead⟩, ?_⟩
  rw [rowBinary]
  simpa using same.symm

/-- One length-prefixed text for every row. -/
def AreTexts (count : Nat) (cells : ColumnData) : Prop :=
  cells.length = count ∧ ∀ cell ∈ cells, ∃ bytes, cell = putString bytes

theorem AreTexts.cells {colType : ColumnType} {cells : ColumnData} (texts : AreTexts count cells)
    (any : ∀ bytes, ReadAs colType (text bytes)) : AreCells colType count cells := by
  refine ⟨texts.1, ?_⟩
  intro cell member
  obtain ⟨bytes, rfl⟩ := texts.2 cell member
  exact ⟨text bytes, any bytes, rfl⟩

theorem areTexts_discriminatedRows (arms : List Arm) (values : List ColumnData)
    (cursors discriminators : List Nat) :
    AreTexts discriminators.length (discriminatedRows arms values cursors discriminators) := by
  induction discriminators generalizing cursors with
  | nil => exact ⟨rfl, by simp [discriminatedRows]⟩
  | cons discriminator rest ih =>
      obtain ⟨counted, texts⟩ :=
        ih (discriminatedValue arms values cursors discriminator).2
      rw [discriminatedRows]
      refine ⟨by simp [counted], ?_⟩
      intro cell member
      rcases List.mem_cons.mp member with rfl | member
      · exact ⟨_, rfl⟩
      · exact texts cell member

theorem areTexts_objectRows (paths : List PathColumn) (count row : Nat)
    (cursors : List (List Nat)) : AreTexts count (objectRows paths count row cursors) := by
  induction count generalizing row cursors with
  | zero => exact ⟨rfl, by simp [objectRows]⟩
  | succ count ih =>
      obtain ⟨counted, texts⟩ := ih (row + 1) (pathMembers row paths cursors).2
      rw [objectRows]
      refine ⟨by simp [counted], ?_⟩
      intro cell member
      rcases List.mem_cons.mp member with rfl | member
      · exact ⟨_, rfl⟩
      · exact texts cell member

theorem yields_readByteDiscriminators (count : Nat) :
    Reader.Yields (readByteDiscriminators count) fun discriminators =>
      discriminators.length = count :=
  (yields_readExact count).bind fun bytes sized => Reader.Yields.pure (by simp [sized])

/-- Rendering as many rows as there are discriminators. -/
theorem yields_renderDiscriminated {arms : List Arm} {types : List ColumnType}
    {discriminators : List Nat} (counted : discriminators.length = count) :
    Reader.Yields (do
      let values ← readArms nested types discriminators
      pure (renderDiscriminated arms values discriminators)) (AreTexts count) := by
  refine Reader.Yields.after fun values => Reader.Yields.pure ?_
  rw [← counted]
  exact areTexts_discriminatedRows arms values _ discriminators

theorem yields_readVariantColumn (types : List ColumnType) :
    Reader.Yields (readVariantColumn nested count types) (AreTexts count) :=
  Reader.Yields.after fun _ => (yields_readByteDiscriminators count).bind fun _ counted =>
    yields_renderDiscriminated counted

theorem yields_readDynamicV1v2Body (header : DynamicHeader) :
    Reader.Yields (readDynamicV1v2Body nested count header) (AreTexts count) :=
  Reader.Yields.after fun _ => (yields_readByteDiscriminators count).bind fun _ counted =>
    yields_renderDiscriminated counted

theorem yields_readDynamicFlattenedColumn :
    Reader.Yields (readDynamicFlattenedColumn nested count) (AreTexts count) :=
  Reader.Yields.after fun types =>
    ((Reader.Yields.trivial (readIndex (indexWidth types.length))).times count).bind
      fun _ ⟨counted, _⟩ => yields_renderDiscriminated counted

theorem yields_readDynamicColumn :
    Reader.Yields (readDynamicColumn nested count) (AreTexts count) := by
  refine Reader.Yields.after fun version => ?_
  split
  · exact Reader.Yields.after fun header => yields_readDynamicV1v2Body header
  · exact Reader.Yields.after fun header => yields_readDynamicV1v2Body header
  · exact yields_readDynamicFlattenedColumn
  · exact Reader.Yields.fail _ _

theorem yields_readJsonObjectV2Column :
    Reader.Yields (readJsonObjectV2Column nested count) (AreTexts count) :=
  Reader.Yields.after fun _ => Reader.Yields.after fun _ => Reader.Yields.after fun _ =>
    Reader.Yields.after fun paths => Reader.Yields.after fun _ => Reader.Yields.after fun _ =>
      Reader.Yields.after fun _ => Reader.Yields.pure (areTexts_objectRows paths count 0 _)

theorem yields_readJsonObjectFlattenedColumn :
    Reader.Yields (readJsonObjectFlattenedColumn nested count) (AreTexts count) :=
  Reader.Yields.after fun _ => Reader.Yields.after fun _ => Reader.Yields.after fun _ =>
    Reader.Yields.after fun paths => Reader.Yields.pure (areTexts_objectRows paths count 0 _)

theorem yields_readJsonBody (version : Nat) :
    Reader.Yields (readJsonBody nested count version) (AreTexts count) := by
  unfold readJsonBody
  split
  · have one : Reader.Yields (do
        let bytes ← readString
        pure (rowbinaryString bytes)) fun cell => ∃ bytes, cell = putString bytes :=
      Reader.Yields.after fun bytes => Reader.Yields.pure ⟨bytes, rfl⟩
    exact one.times count
  · split
    · exact yields_readJsonObjectV2Column
    · split
      · exact yields_readJsonObjectFlattenedColumn
      · exact Reader.Yields.fail _ _

theorem yields_readColumnStep (cells : NestedCells nested) (colType : ColumnType) (count : Nat) :
    Reader.Yields (readColumnStep nested colType count) (AreCells colType count) := by
  cases colType with
  | point => exact yields_pointColumn count
  | string | json =>
      apply yields_readStringColumn
      intro bytes capped
      exact ⟨bytes, rfl, capped⟩
  | nullable inner => exact yields_readNullableColumn cells inner
  | lowCardinality inner => exact yields_readLowCardinalityColumn cells inner
  | simpleAggregateFunction inner => exact cells inner count
  | array inner => exact yields_readArrayColumn cells inner
  | tuple types => exact yields_readTupleColumn cells types
  | map keyType valType => exact yields_readMapColumn cells keyType valType
  | variant types =>
      exact (yields_readVariantColumn types).mono fun _ texts =>
        texts.cells fun bytes => ⟨bytes, rfl⟩
  | newJson =>
      exact Reader.Yields.after fun version => (yields_readJsonBody version).mono
        fun _ texts => texts.cells fun bytes => ⟨bytes, rfl⟩
  | dynamic =>
      exact yields_readDynamicColumn.mono fun _ texts => texts.cells fun bytes => ⟨bytes, rfl⟩
  | _ => exact yields_readFixedColumn rfl count

end Composite

/-- At every level the reader returns one cell of the type for every row. -/
theorem nestedCells_levels (levels : Nat) : NestedCells (readColumnLevels levels) := by
  induction levels with
  | zero =>
      intro colType count
      exact Reader.Yields.fail _ _
  | succ levels ih =>
      intro colType count
      rw [readColumnLevels]
      split
      · rename_i top
        apply Reader.Yields.pure
        exact ⟨top.2.symm, by simp⟩
      · exact yields_readColumnStep ih colType count

theorem yields_readColumnAt (colType : ColumnType) (count depth : Nat) :
    Reader.Yields (readColumnAt colType count depth) (AreCells colType count) :=
  nestedCells_levels (maxReadDepth + 1 - depth) colType count

end DfeClickhouse.Native
