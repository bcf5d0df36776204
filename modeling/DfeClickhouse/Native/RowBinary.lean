import DfeClickhouse.Native.Encode

/-!
# RowBinary values

A row value is what a `RowBinary` cell stands for, independently of how a block
stores it.  `rowBinary` is its canonical cell and `HasType` says which values a
column type has.  The encoder's walk over a row stops exactly at the ends of the
cells of typed values.
-/

namespace DfeClickhouse.Native

open Library

/-- A value of a column. -/
inductive RowValue
  /-- The bytes of a fixed-width value. -/
  | raw (bytes : Bytes)
  /-- The bytes of a length-prefixed value. -/
  | text (bytes : Bytes)
  | null
  | present (value : RowValue)
  /-- The elements of an array, or the entries of a map. -/
  | list (elements : List RowValue)
  /-- The fields of a tuple, or the key and value of a map entry. -/
  | record (fields : List RowValue)

namespace RowValue

/-- The elements of a list. -/
def elements : RowValue → List RowValue
  | list elements => elements
  | _ => []

/-- The fields of a record. -/
def fields : RowValue → List RowValue
  | record fields => fields
  | _ => []

/-- The key of a map entry. -/
def entryKey : RowValue → RowValue
  | record [key, _] => key
  | other => other

/-- The value of a map entry. -/
def entryValue : RowValue → RowValue
  | record [_, held] => held
  | other => other

/-- The value in the slot of a nullable row, where NULL leaves a default. -/
def heldOr (default : RowValue) : RowValue → RowValue
  | present held => held
  | _ => default

/-- The null flag of a nullable row. -/
def nullFlag : RowValue → UInt8
  | present _ => 0
  | _ => 1

mutual

/-- The canonical cell of a value. -/
def rowBinary : RowValue → Bytes
  | raw bytes => bytes
  | text bytes => putString bytes
  | null => [1]
  | present value => 0 :: rowBinary value
  | list elements => encodeVarUint elements.length ++ rowBinaries elements
  | record fields => rowBinaries fields

/-- The canonical cells of values, one after the other. -/
def rowBinaries : List RowValue → Bytes
  | [] => []
  | value :: values => rowBinary value ++ rowBinaries values

end

@[simp] theorem rowBinaries_eq_flatten (values : List RowValue) :
    rowBinaries values = (values.map rowBinary).flatten := by
  induction values with
  | nil => rfl
  | cons value values ih => rw [rowBinaries, ih, List.map_cons, List.flatten_cons]

mutual

/-- The values of a column type.  String sizes stay under the cap of the readers,
and element counts fit the wire's `u64`. -/
def HasType : ColumnType → RowValue → Prop
  | .string, value | .json, value | .newJson, value =>
      ∃ bytes, value = text bytes ∧ bytes.length ≤ maxStringSize
  | .nullable inner, value => value = null ∨ ∃ held, value = present held ∧ HasType inner held
  | .lowCardinality inner, value => HasType inner value
  | .array inner, value =>
      ∃ elements, value = list elements ∧ elements.length < 2 ^ 64 ∧
        ∀ element ∈ elements, HasType inner element
  | .map keyType valType, value =>
      ∃ entries, value = list entries ∧ entries.length < 2 ^ 64 ∧
        ∀ entry ∈ entries, ∃ key held, entry = record [key, held] ∧
          HasType keyType key ∧ HasType valType held
  | .tuple types, value => ∃ fields, value = record fields ∧ FieldsHaveType types fields
  | scalar, value => ∃ bytes, value = raw bytes ∧ scalar.fixedSize = some bytes.length

/-- The values of a tuple's fields. -/
def FieldsHaveType : List ColumnType → List RowValue → Prop
  | [], fields => fields = []
  | type :: types, fields =>
      ∃ field rest, fields = field :: rest ∧ HasType type field ∧ FieldsHaveType types rest

end

theorem hasType_of_fixed {colType : ColumnType} {width : Nat}
    (fixed : colType.fixedSize = some width) {value : RowValue} :
    HasType colType value ↔ ∃ bytes, value = raw bytes ∧ bytes.length = width := by
  have scalar : HasType colType value ↔
      ∃ bytes, value = raw bytes ∧ colType.fixedSize = some bytes.length := by
    cases colType <;> first | cases fixed; done | rfl
  rw [scalar, fixed]
  simp only [Option.some.injEq, eq_comm]

@[simp] theorem fieldsHaveType_iff {types : List ColumnType} {fields : List RowValue} :
    FieldsHaveType types fields ↔ List.Forall₂ HasType types fields := by
  induction types generalizing fields with
  | nil => simp [FieldsHaveType]
  | cons type types ih =>
      rw [FieldsHaveType, List.forall₂_cons_left_iff]
      constructor
      · rintro ⟨field, rest, rfl, head, tail⟩
        exact ⟨field, rest, head, ih.mp tail, rfl⟩
      · rintro ⟨field, rest, head, tail, rfl⟩
        exact ⟨field, rest, rfl, head, ih.mpr tail⟩

end RowValue

open RowValue

theorem reads_rbReadVaruint {value : Nat} (small : value < 2 ^ 64) :
    Reader.Reads rbReadVaruint (encodeVarUint value) value := by
  intro rest
  rw [rbReadVaruint, getVarUint_encodeVarUint small]
  simp

theorem rbAdvance_of_fixed {colType : ColumnType} {width : Nat}
    (fixed : colType.fixedSize = some width) :
    rbAdvance colType = (do
      let _ ← Reader.take rbTruncated width
      pure ()) := by
  cases colType <;> cases fixed <;> rfl

/-- A length-prefixed cell is passed at its end. -/
theorem reads_advanceText {bytes : Bytes} (small : bytes.length < 2 ^ 64) :
    Reader.Reads (do
      let len ← rbReadVaruint
      let _ ← Reader.take rbTruncated len
      pure ()) (putString bytes) () := by
  apply (reads_rbReadVaruint small).bind
  exact (Reader.Reads.take rbTruncated rfl).bind_pure

/-- Passing the cells of a list one by one. -/
theorem reads_advanceTimes {α : Type} {reader : ByteReader Unit} {cells : α → Bytes}
    {elements : List α}
    (each : ∀ element ∈ elements, Reader.Reads reader (cells element) ()) :
    Reader.Reads (do
      let _ ← Reader.times reader elements.length
      pure ()) (elements.map cells).flatten () := by
  have run : Reader.Reads (Reader.times reader elements.length) (elements.map cells).flatten
      (elements.map fun _ => ()) := Reader.Reads.times_map each
  exact run.bind_pure

theorem reads_rbAdvanceFields {types : List ColumnType} {fields : List RowValue}
    (each : ∀ type ∈ types, ∀ value, HasType type value →
      Reader.Reads (rbAdvance type) value.rowBinary ())
    (typed : List.Forall₂ HasType types fields) :
    Reader.Reads (rbAdvanceFields types) (rowBinaries fields) () := by
  induction typed with
  | nil => exact Reader.Reads.pure ()
  | @cons type field types fields head _ ih =>
      rw [rbAdvanceFields, rowBinaries]
      apply (each type (by simp) field head).bind
      exact ih fun type member => each type (by simp [member])

/-- The walk passes exactly the cell of a typed value. -/
theorem reads_rbAdvance {colType : ColumnType} {value : RowValue}
    (typed : HasType colType value) :
    Reader.Reads (rbAdvance colType) value.rowBinary () := by
  induction colType using ColumnType.induction_forms generalizing value with
  | fixed colType width fixed =>
      obtain ⟨bytes, rfl, sized⟩ := (hasType_of_fixed fixed).mp typed
      rw [rbAdvance_of_fixed fixed]
      exact (Reader.Reads.take rbTruncated sized).bind_pure
  | string | json | newJson =>
      obtain ⟨bytes, rfl, capped⟩ := typed
      apply reads_advanceText
      unfold maxStringSize at capped
      omega
  | nullable inner ih =>
      rcases typed with rfl | ⟨held, rfl, heldTyped⟩
      · have flag : Reader.Reads (Reader.take rbTruncated 1) [(1 : UInt8)] [1] :=
          Reader.Reads.take rbTruncated rfl
        exact flag.bind (Reader.Reads.pure ())
      · have flag : Reader.Reads (Reader.take rbTruncated 1) [(0 : UInt8)] [0] :=
          Reader.Reads.take rbTruncated rfl
        exact flag.bind (ih heldTyped)
  | lowCardinality inner ih => exact ih typed
  | array inner ih =>
      obtain ⟨elements, rfl, counted, elementsTyped⟩ := typed
      rw [rowBinary, rowBinaries_eq_flatten, rbAdvance]
      apply (reads_rbReadVaruint counted).bind
      exact reads_advanceTimes fun element member => ih (elementsTyped element member)
  | map keyType valType keyIh valIh =>
      obtain ⟨entries, rfl, counted, entriesTyped⟩ := typed
      rw [rowBinary, rowBinaries_eq_flatten, rbAdvance]
      apply (reads_rbReadVaruint counted).bind
      apply reads_advanceTimes
      intro entry member
      obtain ⟨key, held, rfl, keyTyped, heldTyped⟩ := entriesTyped entry member
      have pair : (record [key, held]).rowBinary = key.rowBinary ++ held.rowBinary := by
        simp [rowBinary, rowBinaries]
      rw [pair]
      exact (keyIh keyTyped).bind (valIh heldTyped)
  | tuple types ih =>
      obtain ⟨fields, rfl, fieldsTyped⟩ := typed
      rw [rowBinary, rbAdvance]
      exact reads_rbAdvanceFields (fun type member value => ih type member)
        (fieldsHaveType_iff.mp fieldsTyped)
  | dynamic | point | simpleAggregateFunction | variant =>
      obtain ⟨_, _, impossible⟩ := typed
      cases impossible

theorem reads_rbCell {colType : ColumnType} {value : RowValue}
    (typed : HasType colType value) :
    Reader.Reads (rbCell colType) value.rowBinary value.rowBinary :=
  (reads_rbAdvance typed).consumed

theorem reads_arrayElements {inner : ColumnType} {value : RowValue}
    (typed : HasType (.array inner) value) :
    Reader.Reads (arrayElements inner) value.rowBinary (value.elements.map rowBinary) := by
  obtain ⟨elements, rfl, counted, elementsTyped⟩ := typed
  rw [rowBinary, rowBinaries_eq_flatten]
  apply (reads_rbReadVaruint counted).bind
  exact Reader.Reads.times_map fun element member => reads_rbCell (elementsTyped element member)

theorem reads_mapEntries {keyType valType : ColumnType} {value : RowValue}
    (typed : HasType (.map keyType valType) value) :
    Reader.Reads (mapEntries keyType valType) value.rowBinary
      (value.elements.map fun entry =>
        (entry.entryKey.rowBinary, entry.entryValue.rowBinary)) := by
  obtain ⟨entries, rfl, counted, entriesTyped⟩ := typed
  rw [rowBinary, rowBinaries_eq_flatten]
  apply (reads_rbReadVaruint counted).bind
  apply Reader.Reads.times_map
  intro entry member
  obtain ⟨key, held, rfl, keyTyped, heldTyped⟩ := entriesTyped entry member
  rw [show (record [key, held]).rowBinary = key.rowBinary ++ held.rowBinary by
    simp [rowBinary, rowBinaries]]
  exact (reads_rbCell keyTyped).bind (reads_rbCell heldTyped).bind_pure

/-- The bytes in the value slot of a nullable row. -/
def nullableSlot (default : Bytes) : RowValue → Bytes
  | .present held => held.rowBinary
  | _ => default

theorem splitNullable_map {inner : ColumnType} {values : List RowValue} (default : Bytes)
    (typed : ∀ value ∈ values, HasType (.nullable inner) value) :
    (values.map rowBinary).mapM (splitNullable default) =
      .ok (values.map fun value => (value.nullFlag, nullableSlot default value)) := by
  rw [List.mapM_map]
  apply Reader.mapM_ok
  intro value member
  rcases typed value member with rfl | ⟨held, rfl, _⟩
  · rfl
  · simp [rowBinary, splitNullable, nullFlag, nullableSlot]

theorem nullableSlot_eq {inner : ColumnType} {values : List RowValue} {default : RowValue}
    (typed : ∀ value ∈ values, HasType (.nullable inner) value)
    (filled : ∀ value ∈ values, value = .null → default.rowBinary = rbWriteDefault inner) :
    values.map (nullableSlot (rbWriteDefault inner)) =
      (values.map (heldOr default)).map rowBinary := by
  rw [List.map_map]
  apply List.map_congr_left
  intro value member
  rcases typed value member with rfl | ⟨held, rfl, _⟩
  · exact (filled .null member rfl).symm
  · rfl

/-- Consecutive cells are cut where the values end. -/
theorem reads_rbCells {types : List ColumnType} {fields : List RowValue}
    (typed : List.Forall₂ HasType types fields) :
    Reader.Reads (rbCells types) (rowBinaries fields) (fields.map rowBinary) := by
  induction typed with
  | nil => exact Reader.Reads.pure []
  | cons head _ ih =>
      rw [rowBinaries]
      exact (reads_rbCell head).bind ih.bind_pure

/-- Cutting every cell of a column of values. -/
theorem sliceCells_map {α : Type} {reader : ByteReader α} {result : RowValue → α}
    {values : List RowValue}
    (each : ∀ value ∈ values, Reader.Reads reader value.rowBinary (result value)) :
    sliceCells reader (values.map rowBinary) = .ok (values.map result) := by
  rw [sliceCells, List.mapM_map]
  apply Reader.mapM_ok
  intro value member
  have run := each value member []
  rw [List.append_nil] at run
  change (reader value.rowBinary >>= fun pair => pure pair.1) = _
  rw [run]
  rfl

theorem sliceCells_error {α : Type} {reader : ByteReader α} {cells : List Bytes}
    {cell : Bytes} {error : Error} (member : cell ∈ cells)
    (fails : reader cell = .error error) :
    ∃ error, sliceCells reader cells = .error error := by
  apply Reader.mapM_error member
  rw [fails]
  rfl

end DfeClickhouse.Native
