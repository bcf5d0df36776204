import DfeClickhouse.Native.BlockRoundTrip

/-!
# JSON below the outermost type

The encoder writes a JSON object as a text at every depth, but declares it as
`String` only where it is the whole column.  Below another type the declared name
still says `JSON`, and the decoder then expects a version word that was never
written.
-/

namespace DfeClickhouse.Native

open Library RowValue

/-! ## Documents -/

mutual

/-- Whether a `JSON` occurs in a type; `Object('json')` does not count. -/
def ColumnType.holdsNewJson : ColumnType → Bool
  | .newJson => true
  | .nullable inner | .lowCardinality inner | .simpleAggregateFunction inner
  | .array inner => inner.holdsNewJson
  | .tuple types | .variant types => ColumnType.holdNewJson types
  | .map key value => key.holdsNewJson || value.holdsNewJson
  | _ => false

/-- Whether a `JSON` occurs in a list of types. -/
def ColumnType.holdNewJson : List ColumnType → Bool
  | [] => false
  | head :: tail => head.holdsNewJson || ColumnType.holdNewJson tail

end

/-- Whether a `JSON` occurs below the outermost type. -/
def ColumnType.nestsNewJson : ColumnType → Bool
  | .newJson => false
  | colType => colType.holdsNewJson

mutual

/-- The texts of the JSON documents in a value, in the order of its cell. -/
def documents : ColumnType → RowValue → List Bytes
  | .json, .text document | .newJson, .text document => [document]
  | .nullable inner, .present held => documents inner held
  | .array inner, .list elements => elements.flatMap (documents inner)
  | .map keyType valType, .list entries => entries.flatMap fun entry =>
      documents keyType entry.entryKey ++ documents valType entry.entryValue
  | .tuple types, .record fields => fieldDocuments types fields
  | _, _ => []

/-- The texts of the JSON documents in the fields of a tuple. -/
def fieldDocuments : List ColumnType → List RowValue → List Bytes
  | type :: types, field :: fields => documents type field ++ fieldDocuments types fields
  | _, _ => []

end

@[simp] theorem holdNewJson_iff {types : List ColumnType} :
    ColumnType.holdNewJson types = true ↔ ∃ type ∈ types, type.holdsNewJson = true := by
  induction types with
  | nil => simp [ColumnType.holdNewJson]
  | cons head tail ih => simp [ColumnType.holdNewJson, ih]

theorem fieldDocuments_stored {types : List ColumnType} {fields : List RowValue}
    (each : ∀ type ∈ types, ∀ value, HasType type value →
      documents type (stored type value) = documents type value)
    (typed : List.Forall₂ HasType types fields) :
    fieldDocuments types (storedFields types fields) = fieldDocuments types fields := by
  induction typed with
  | nil => rfl
  | @cons type field types fields head _ ih =>
      rw [storedFields, fieldDocuments, fieldDocuments, each type (by simp) field head,
        ih fun type member => each type (by simp [member])]

/-- What a block keeps of a value holds the same documents. -/
theorem documents_stored {colType : ColumnType} {value : RowValue}
    (typed : HasType colType value) :
    documents colType (stored colType value) = documents colType value := by
  induction colType using ColumnType.induction_forms generalizing value with
  | fixed colType width fixed => rw [stored_of_fixed fixed]
  | string | json | newJson =>
      obtain ⟨document, rfl, _⟩ := typed
      rfl
  | nullable inner ih =>
      rcases typed with rfl | ⟨held, rfl, heldTyped⟩
      · rfl
      · exact ih heldTyped
  | lowCardinality inner =>
      have none (other : RowValue) : documents (.lowCardinality inner) other = [] := by
        cases other <;> rfl
      rw [none, none]
  | array inner ih =>
      obtain ⟨elements, rfl, _, elementsTyped⟩ := typed
      simp only [stored, documents, List.flatMap_map]
      apply List.flatMap_congr
      intro element member
      exact ih (elementsTyped element member)
  | map keyType valType keyIh valIh =>
      obtain ⟨entries, rfl, _, entriesTyped⟩ := typed
      simp only [stored, documents, List.flatMap_map]
      apply List.flatMap_congr
      intro entry member
      obtain ⟨key, held, rfl, keyTyped, heldTyped⟩ := entriesTyped entry member
      exact congrArg₂ (· ++ ·) (keyIh keyTyped) (valIh heldTyped)
  | tuple types ih =>
      obtain ⟨fields, rfl, fieldsTyped⟩ := typed
      rw [stored, documents, documents]
      exact fieldDocuments_stored (fun type member value => ih type member)
        (fieldsHaveType_iff.mp fieldsTyped)
  | dynamic | point | simpleAggregateFunction | variant =>
      obtain ⟨_, _, impossible⟩ := typed
      cases impossible

/-- A writable type without JSON objects is insertable. -/
theorem isInsertable_of_writable {colType : ColumnType} (writable : colType.isWritable = true)
    (plain : colType.holdsNewJson = false) : colType.isInsertable = true := by
  induction colType using ColumnType.induction_forms with
  | fixed colType width fixed =>
      apply isInsertable_of_plain
      cases colType <;> first | exact writable | cases fixed
  | string | json => rfl
  | nullable inner ih =>
      simp only [ColumnType.isWritable, Bool.and_eq_true] at writable
      rw [ColumnType.isInsertable, writable.1, ih writable.2 plain]
      rfl
  | lowCardinality inner => exact writable
  | array inner ih => exact ih writable plain
  | map keyType valType keyIh valIh =>
      simp only [ColumnType.isWritable, Bool.and_eq_true] at writable
      simp only [ColumnType.holdsNewJson, Bool.or_eq_false_iff] at plain
      rw [ColumnType.isInsertable, keyIh writable.1 plain.1, valIh writable.2 plain.2]
      rfl
  | tuple types ih =>
      simp only [ColumnType.isWritable, Bool.and_eq_true, areWritable_iff] at writable
      have all : ColumnType.areInsertable types = true := by
        apply areInsertable_iff.mpr
        intro type member
        apply ih type member (writable.2 type member)
        apply Bool.eq_false_iff.mpr
        intro holds
        have nested : ColumnType.holdNewJson types = true :=
          holdNewJson_iff.mpr ⟨type, member, holds⟩
        rw [ColumnType.holdsNewJson, nested] at plain
        cases plain
      rw [ColumnType.isInsertable, writable.1, all]
      rfl
  | newJson => cases plain
  | dynamic | point | simpleAggregateFunction | variant => cases writable

/-! ## The least rows -/

mutual

/-- A value of a writable type without list elements, whose texts are empty and whose
scalars are zero. -/
def leastValue : ColumnType → RowValue
  | .string | .json | .newJson => .text []
  | .nullable inner => .present (leastValue inner)
  | .lowCardinality inner => leastValue inner
  | .array _ | .map .. => .list []
  | .tuple types => .record (leastValues types)
  | colType => .raw (List.replicate (colType.fixedSize.getD 0) 0)

/-- The least values of the fields of a tuple. -/
def leastValues : List ColumnType → List RowValue
  | [] => []
  | type :: types => leastValue type :: leastValues types

end

theorem leastValue_of_fixed {colType : ColumnType} {width : Nat}
    (fixed : colType.fixedSize = some width) :
    leastValue colType = .raw (List.replicate width 0) := by
  cases colType <;> cases fixed <;> rfl

@[simp] theorem leastValues_eq_map (types : List ColumnType) :
    leastValues types = types.map leastValue := by
  induction types with
  | nil => rfl
  | cons type types ih => rw [leastValues, ih, List.map_cons]

theorem hasType_leastValue {colType : ColumnType} (writable : colType.isWritable = true) :
    HasType colType (leastValue colType) := by
  induction colType using ColumnType.induction_forms with
  | fixed colType width fixed =>
      rw [leastValue_of_fixed fixed]
      exact (hasType_of_fixed fixed).mpr ⟨_, rfl, List.length_replicate⟩
  | string | json | newJson => exact ⟨[], rfl, Nat.zero_le _⟩
  | nullable inner ih =>
      simp only [ColumnType.isWritable, Bool.and_eq_true] at writable
      exact .inr ⟨_, rfl, ih writable.2⟩
  | lowCardinality inner ih =>
      exact ih (isWritable_of_insertable (isInsertable_of_dictionaryType writable))
  | array inner | map keyType valType => exact ⟨[], rfl, by decide, by simp⟩
  | tuple types ih =>
      simp only [ColumnType.isWritable, Bool.and_eq_true, areWritable_iff] at writable
      refine ⟨_, rfl, fieldsHaveType_iff.mpr ?_⟩
      rw [leastValues_eq_map, List.forall₂_map_right_iff, List.forall₂_same]
      exact fun type member => ih type member (writable.2 type member)
  | dynamic | point | simpleAggregateFunction | variant => cases writable

/-- A column of least rows of one type. -/
def leastColumn (colType : ColumnType) (count : Nat) : List RowValue :=
  List.replicate count (leastValue colType)

theorem hasType_leastColumn {colType : ColumnType} (writable : colType.isWritable = true)
    (count : Nat) : ∀ value ∈ leastColumn colType count, HasType colType value := by
  intro value member
  rw [List.eq_of_mem_replicate member]
  exact hasType_leastValue writable

@[simp, grind =] theorem length_leastColumn (colType : ColumnType) (count : Nat) :
    (leastColumn colType count).length = count :=
  List.length_replicate

/-- Bytes that do not start with anything but a zero. -/
def StartsZero (bytes : Bytes) : Prop :=
  bytes.headD 0 = 0

theorem startsZero_append {first second : Bytes} (left : StartsZero first)
    (right : StartsZero second) : StartsZero (first ++ second) := by
  cases first with
  | nil => exact right
  | cons byte bytes => exact left

theorem startsZero_replicate (count : Nat) : StartsZero (List.replicate count 0) := by
  cases count <;> rfl

theorem flatten_replicate_zeros (count width : Nat) :
    (List.replicate count (List.replicate width (0 : UInt8))).flatten =
      List.replicate (count * width) 0 := by
  rw [List.flatten_replicate_replicate]

@[simp] theorem writeOffsets_replicate {α : Type} (count : Nat) :
    writeOffsets (List.replicate count ([] : List α)) = List.replicate (count * 8) 0 := by
  have offsets : cumulativeOffsets 0 (List.replicate count 0) = List.replicate count 0 := by
    induction count with
    | zero => rfl
    | succ count ih =>
        rw [List.replicate_succ, cumulativeOffsets]
        exact congrArg (0 :: ·) ih
  rw [writeOffsets, List.map_replicate, List.length_nil, offsets, List.flatMap_replicate]
  exact flatten_replicate_zeros count 8

/-- A column of least rows is written, and starts with a zero unless it is empty. -/
structure LeastWritten (colType : ColumnType) (count : Nat) : Prop where
  written : ∃ out, writeColValues colType ((leastColumn colType count).map rowBinary) = .ok out ∧
    StartsZero out
  fits : SubcolumnsFit colType ((leastColumn colType count).map rowBinary)

theorem leastWritten_text {colType : ColumnType} (text : leastValue colType = .text [])
    (fits : ∀ cells, SubcolumnsFit colType cells)
    (writes : ∀ cells, writeColValues colType cells = .ok cells.flatten) (count : Nat) :
    LeastWritten colType count := by
  refine ⟨⟨_, writes _, ?_⟩, fits _⟩
  rw [leastColumn, text, List.map_replicate]
  exact flatten_replicate_zeros count 1 ▸ startsZero_replicate _

theorem slots_leastColumn {inner : ColumnType} (writable : inner.isWritable = true)
    (default : Bytes) (count : Nat) :
    ((leastColumn (.nullable inner) count).map rowBinary).mapM (splitNullable default) =
      .ok (List.replicate count (0, (leastValue inner).rowBinary)) := by
  have typed : ∀ value ∈ leastColumn (.nullable inner) count,
      HasType (.nullable inner) value := by
    intro value member
    rw [List.eq_of_mem_replicate member]
    exact .inr ⟨_, rfl, hasType_leastValue writable⟩
  rw [splitNullable_map default typed, leastColumn, List.map_replicate]
  rfl

theorem held_leastColumn (inner : ColumnType) (count : Nat) :
    (List.replicate count ((0 : UInt8), (leastValue inner).rowBinary)).map Prod.snd =
      (leastColumn inner count).map rowBinary := by
  rw [leastColumn, List.map_replicate, List.map_replicate]

theorem writeColValues_nullable_least {inner : ColumnType}
    (writable : inner.isWritable = true) {count : Nat} {payload : Bytes}
    (written : writeColValues inner ((leastColumn inner count).map rowBinary) = .ok payload) :
    writeColValues (.nullable inner) ((leastColumn (.nullable inner) count).map rowBinary) =
      .ok (List.replicate count 0 ++ payload) := by
  rw [writeColValues, slots_leastColumn writable]
  simp only [bind, Except.bind, held_leastColumn, written]
  rw [List.map_replicate]
  rfl

theorem leastWritten_nullable {inner : ColumnType} (writable : inner.isWritable = true)
    {count : Nat} (below : LeastWritten inner count) :
    LeastWritten (.nullable inner) count := by
  obtain ⟨⟨payload, written, zero⟩, fits⟩ := below
  refine ⟨⟨_, writeColValues_nullable_least writable written,
    startsZero_append (startsZero_replicate count) zero⟩, ?_⟩
  intro slots same
  obtain rfl := Except.ok.inj ((slots_leastColumn writable _ count).symm.trans same)
  rw [held_leastColumn]
  exact fits

/-- A column of empty lists: its offsets are zeros, and nothing is left to write. -/
theorem slices_leastColumn {α : Type} {colType : ColumnType} {reader : ByteReader (List α)}
    {result : RowValue → List α} (writable : colType.isWritable = true)
    (reads : ∀ value, HasType colType value →
      Reader.Reads reader value.rowBinary (result value))
    (empty : result (leastValue colType) = []) (count : Nat) :
    sliceCells reader ((leastColumn colType count).map rowBinary) =
      .ok (List.replicate count []) := by
  rw [sliceCells_map fun value member => reads value (hasType_leastColumn writable count value
    member), leastColumn, List.map_replicate, empty]

theorem slices_array_least {inner : ColumnType} (writable : inner.isWritable = true)
    (count : Nat) :
    sliceCells (arrayElements inner) ((leastColumn (.array inner) count).map rowBinary) =
      .ok (List.replicate count []) := by
  have listWritable : (ColumnType.array inner).isWritable = true := writable
  exact slices_leastColumn listWritable (fun value typed => reads_arrayElements typed) rfl count

theorem writeColValues_array_least {inner : ColumnType} (writable : inner.isWritable = true)
    {count : Nat} {payload : Bytes} (written : writeColValues inner [] = .ok payload) :
    writeColValues (.array inner) ((leastColumn (.array inner) count).map rowBinary) =
      .ok (List.replicate (count * 8) 0 ++ payload) := by
  rw [writeColValues, slices_array_least writable, ← writeOffsets_replicate (α := Bytes)]
  simp only [bind, Except.bind, List.flatten_replicate_nil, written]
  rfl

theorem leastWritten_array {inner : ColumnType} (writable : inner.isWritable = true)
    (below : LeastWritten inner 0) (count : Nat) : LeastWritten (.array inner) count := by
  obtain ⟨⟨payload, written, zero⟩, fits⟩ := below
  refine ⟨⟨_, writeColValues_array_least writable written,
    startsZero_append (startsZero_replicate _) zero⟩, ?_⟩
  intro rows same
  obtain rfl := Except.ok.inj ((slices_array_least writable count).symm.trans same)
  rw [List.flatten_replicate_nil]
  exact ⟨by decide, fits⟩

theorem slices_map_least {keyType valType : ColumnType}
    (keyWritable : keyType.isWritable = true) (valWritable : valType.isWritable = true)
    (count : Nat) :
    sliceCells (mapEntries keyType valType)
        ((leastColumn (.map keyType valType) count).map rowBinary) =
      .ok (List.replicate count []) := by
  have listWritable : (ColumnType.map keyType valType).isWritable = true := by
    rw [ColumnType.isWritable, keyWritable, valWritable]
    rfl
  exact slices_leastColumn listWritable (fun value typed => reads_mapEntries typed) rfl count

theorem writeColValues_map_least {keyType valType : ColumnType}
    (keyWritable : keyType.isWritable = true) (valWritable : valType.isWritable = true)
    {count : Nat} {keys vals : Bytes} (keysWritten : writeColValues keyType [] = .ok keys)
    (valsWritten : writeColValues valType [] = .ok vals) :
    writeColValues (.map keyType valType)
        ((leastColumn (.map keyType valType) count).map rowBinary) =
      .ok (List.replicate (count * 8) 0 ++ keys ++ vals) := by
  rw [writeColValues, slices_map_least keyWritable valWritable,
    ← writeOffsets_replicate (α := Bytes × Bytes)]
  simp only [bind, Except.bind, List.flatten_replicate_nil, List.map_nil, keysWritten,
    valsWritten]
  rfl

theorem leastWritten_map {keyType valType : ColumnType} (keyWritable : keyType.isWritable = true)
    (valWritable : valType.isWritable = true) (keys : LeastWritten keyType 0)
    (vals : LeastWritten valType 0) (count : Nat) :
    LeastWritten (.map keyType valType) count := by
  obtain ⟨⟨keyBytes, keysWritten, keyZero⟩, keyFits⟩ := keys
  obtain ⟨⟨valBytes, valsWritten, valZero⟩, valFits⟩ := vals
  refine ⟨⟨_, writeColValues_map_least keyWritable valWritable keysWritten valsWritten,
    startsZero_append (startsZero_append (startsZero_replicate _) keyZero) valZero⟩, ?_⟩
  intro rows same
  obtain rfl := Except.ok.inj ((slices_map_least keyWritable valWritable count).symm.trans same)
  rw [List.flatten_replicate_nil]
  exact ⟨by decide, keyFits, valFits⟩

/-- The columns of least fields, one after the other. -/
theorem leastWritten_fields {types : List ColumnType} {count : Nat}
    (each : ∀ type ∈ types, LeastWritten type count) :
    (∃ out, writeFieldValues types
        (List.replicate count ((leastValues types).map rowBinary)) = .ok out ∧ StartsZero out) ∧
      FieldColumnsFit types (List.replicate count ((leastValues types).map rowBinary)) := by
  induction types with
  | nil => exact ⟨⟨[], rfl, rfl⟩, trivial⟩
  | cons type types ih =>
      obtain ⟨⟨column, written, zero⟩, fits⟩ := each type (by simp)
      obtain ⟨⟨columns, restWritten, restZero⟩, restFits⟩ :=
        ih fun other member => each other (by simp [member])
      rw [leastColumn, List.map_replicate] at written fits
      rw [writeFieldValues, FieldColumnsFit, leastValues, List.map_cons, List.map_replicate,
        List.map_replicate]
      refine ⟨⟨column ++ columns, ?_, startsZero_append zero restZero⟩, fits, restFits⟩
      rw [List.headD_cons, List.tail_cons, written, restWritten]
      rfl

theorem slices_tuple_least {types : List ColumnType}
    (writable : ∀ type ∈ types, type.isWritable = true) (count : Nat) :
    sliceCells (rbCells types) ((leastColumn (.tuple types) count).map rowBinary) =
      .ok (List.replicate count ((leastValues types).map rowBinary)) := by
  have fieldsTyped : List.Forall₂ HasType types (leastValues types) := by
    rw [leastValues_eq_map, List.forall₂_map_right_iff, List.forall₂_same]
    exact fun type member => hasType_leastValue (writable type member)
  have reads : ∀ value ∈ leastColumn (.tuple types) count,
      Reader.Reads (rbCells types) value.rowBinary (value.fields.map rowBinary) := by
    intro value member
    rw [List.eq_of_mem_replicate member]
    exact reads_rbCells fieldsTyped
  rw [sliceCells_map reads, leastColumn, List.map_replicate]
  rfl

theorem leastWritten_tuple {types : List ColumnType}
    (writable : ∀ type ∈ types, type.isWritable = true) {count : Nat}
    (each : ∀ type ∈ types, LeastWritten type count) : LeastWritten (.tuple types) count := by
  obtain ⟨⟨out, written, zero⟩, fits⟩ := leastWritten_fields each
  constructor
  · refine ⟨out, ?_, zero⟩
    rw [writeColValues, slices_tuple_least writable]
    exact written
  · intro rows same
    obtain rfl := Except.ok.inj ((slices_tuple_least writable count).symm.trans same)
    exact fits

/-- The dictionary of equal cells has at most two entries. -/
theorem length_dictionaryEntries_replicate (inner : ColumnType) (cell : Bytes) (count : Nat) :
    (dictionaryEntries inner (List.replicate count cell)).length ≤ 2 := by
  have subset : dictionaryEntries inner (List.replicate count cell) ⊆
      [rbWriteDefault (dictionaryType inner).1,
        (dictionaryKey (dictionaryType inner).2 cell).getD []] := by
    intro entry member
    rw [dictionaryEntries, List.mem_dedup] at member
    rcases List.mem_append.mp member with initial | keyed
    · unfold Dictionary.initial at initial
      split at initial
      · simp [List.mem_singleton.mp initial]
      · cases initial
    · rw [List.reduceOption_mem_iff, List.map_replicate] at keyed
      simp [← List.eq_of_mem_replicate keyed]
  exact (List.subperm_of_subset (List.nodup_dedup _) subset).length_le

theorem leastWritten_lowCardinality {inner : ColumnType}
    (plain : (dictionaryType inner).1.isPlain = true) (count : Nat) :
    LeastWritten (.lowCardinality inner) count := by
  have entries := length_dictionaryEntries_replicate inner (leastValue inner).rowBinary count
  have cells : (leastColumn (.lowCardinality inner) count).map rowBinary =
      List.replicate count (leastValue inner).rowBinary := List.map_replicate
  rw [← cells] at entries
  have fits : SubcolumnsFit (.lowCardinality inner)
      ((leastColumn (.lowCardinality inner) count).map rowBinary) := by
    rw [SubcolumnsFit]
    omega
  have writable : (ColumnType.lowCardinality inner).isWritable = true := plain
  have typed := hasType_leastColumn writable count
  obtain ⟨held, slots, layout⟩ :=
    exists_dictionaryLayout (isLeaf_of_plain plain) typed fits
  refine ⟨⟨_, layout.written, ?_⟩, fits⟩
  have narrow : dictionaryIndexType (held.map rowBinary).length = (0, 1) := by
    have := layout.sized
    rw [dictionaryIndexType, List.length_map, if_pos (by omega)]
  rw [dictionaryBytes, narrow]
  rfl

theorem leastWritten {colType : ColumnType} (writable : colType.isWritable = true)
    (count : Nat) : LeastWritten colType count := by
  induction colType using ColumnType.induction_forms generalizing count with
  | fixed colType width fixed =>
      refine ⟨⟨_, writeColValues_of_fixed fixed _, ?_⟩, ?_⟩
      · rw [leastColumn, leastValue_of_fixed fixed, List.map_replicate]
        exact flatten_replicate_zeros count width ▸ startsZero_replicate _
      · cases colType <;> first | exact trivial | cases fixed
  | string =>
      have fits (cells : ColumnData) : SubcolumnsFit .string cells := trivial
      exact leastWritten_text rfl fits (fun _ => rfl) count
  | json =>
      have fits (cells : ColumnData) : SubcolumnsFit .json cells := trivial
      exact leastWritten_text rfl fits (fun _ => rfl) count
  | newJson =>
      have fits (cells : ColumnData) : SubcolumnsFit .newJson cells := trivial
      exact leastWritten_text rfl fits (fun _ => rfl) count
  | nullable inner ih =>
      simp only [ColumnType.isWritable, Bool.and_eq_true] at writable
      exact leastWritten_nullable writable.2 (ih writable.2 count)
  | lowCardinality inner => exact leastWritten_lowCardinality writable count
  | array inner ih =>
      have innerWritable : inner.isWritable = true := writable
      exact leastWritten_array innerWritable (ih innerWritable 0) count
  | map keyType valType keyIh valIh =>
      simp only [ColumnType.isWritable, Bool.and_eq_true] at writable
      exact leastWritten_map writable.1 writable.2 (keyIh writable.1 0) (valIh writable.2 0) count
  | tuple types ih =>
      simp only [ColumnType.isWritable, Bool.and_eq_true, areWritable_iff] at writable
      exact leastWritten_tuple writable.2 fun type member =>
        ih type member (writable.2 type member) count
  | dynamic | point | simpleAggregateFunction | variant => cases writable

/-! ## The missing version word -/

/-- No version of a JSON column starts with a zero byte. -/
theorem decodeNewJson_fails (nested : ColumnDecoder) (depth count : Nat)
    (headers : List DynamicHeader) {input : Bytes} (zero : StartsZero input) :
    ∃ error, decodeColumnStep nested depth .newJson count headers input = .error error := by
  rw [decodeColumnStep]
  cases word : readU64Le input with
  | error error => exact ⟨error, Reader.bind_of_error word⟩
  | ok result =>
      obtain ⟨version, rest⟩ := result
      have divided : version % 256 = 0 := by
        obtain ⟨bytes, middle, taken, finished⟩ := Reader.bind_ok_iff.mp word
        obtain ⟨rfl, sized⟩ := Reader.take_ok_iff.mp taken
        cases finished
        cases bytes with
        | nil => cases sized
        | cons first bytes =>
            have first : first = 0 := zero
            rw [leNat, first]
            simp
      have notText : version ≠ jsonSerializationString := by
        unfold jsonSerializationString
        omega
      rw [Reader.bind_of_ok word, if_neg notText, readJsonBody, if_neg notText,
        if_neg (by omega), if_neg (by omega)]
      exact ⟨_, Reader.bind_of_error (Reader.fail_run _ rest)⟩

theorem reads_zeroOffsets (what : String) (count : Nat) :
    Reader.Reads (readMonotoneOffsets what count 0) (List.replicate (count * 8) 0)
      (List.replicate count 0) := by
  induction count with
  | zero => exact Reader.Reads.pure []
  | succ count ih =>
      have word : Reader.Reads readU64Le (natLe 8 0) 0 := reads_readU64Le (by decide)
      have split : List.replicate ((count + 1) * 8) (0 : UInt8) =
          natLe 8 0 ++ List.replicate (count * 8) 0 := by
        rw [Nat.succ_mul, Nat.add_comm, ← List.replicate_append_replicate]
        rfl
      rw [split, List.replicate_succ]
      apply word.bind
      rw [Reader.require_of_holds (Nat.le_refl 0)]
      exact ih.bind_pure

theorem getLast?_replicate_zero (count : Nat) :
    (List.replicate count 0).getLast?.getD 0 = 0 := by
  rw [List.getLast?_replicate]
  split <;> rfl

section Least

variable {levels : Nat} (headers : List DynamicHeader) {out rest : Bytes}

/-- A column of least rows of an insertable type is decoded. -/
theorem decodeColumnLevels_least {colType : ColumnType}
    (insertable : colType.isInsertable = true) (deep : colType.nesting < levels)
    (shallow : levels ≤ maxReadDepth) {count : Nat} (small : count < 2 ^ 64)
    (written : writeColValues colType ((leastColumn colType count).map rowBinary) = .ok out)
    (bounded : (out ++ rest).length < addressSpace) :
    ∃ column, decodeColumnLevels levels colType count headers (out ++ rest) =
      .ok ((column, headers), rest) := by
  have writable := isWritable_of_insertable insertable
  have sized := length_leastColumn colType count
  have back := (columnReadsBack insertable).nested deep shallow
    (hasType_leastColumn writable count) (sized.symm ▸ small) (leastWritten writable count).fits
  rw [written, sized] at back
  have agree := nestedAgree_levels shallow colType count headers (isTyped_of_insertable insertable)
  obtain ⟨⟨column, queue⟩, decoded, _, same⟩ := agree.ok_of_left_ok bounded (back rest)
  obtain rfl : queue = headers := same
  exact ⟨column, decoded⟩

/-- Decoding a column of least rows fails. -/
def LeastFails (colType : ColumnType) : Prop :=
  ∀ (levels depth count : Nat) (headers : List DynamicHeader) (out rest : Bytes),
    colType.nesting ≤ levels → levels ≤ maxReadDepth → count < 2 ^ 64 →
    writeColValues colType ((leastColumn colType count).map rowBinary) = .ok out →
    StartsZero rest → (out ++ rest).length < addressSpace →
    ∃ error, decodeColumnStep (decodeColumnLevels levels) depth colType count headers
      (out ++ rest) = .error error

/-- The same one level down, inside a composite type. -/
theorem LeastFails.nested {colType : ColumnType} (fails : LeastFails colType)
    (deep : colType.nesting < levels) (shallow : levels ≤ maxReadDepth) {count : Nat}
    (small : count < 2 ^ 64)
    (written : writeColValues colType ((leastColumn colType count).map rowBinary) = .ok out)
    (zero : StartsZero rest) (bounded : (out ++ rest).length < addressSpace) :
    ∃ error, decodeColumnLevels levels colType count headers (out ++ rest) = .error error := by
  cases levels with
  | zero => omega
  | succ levels =>
      have inner : ¬ (levels = maxDecodeDepth ∧ count = 0) := by
        intro top
        have : maxReadDepth = maxDecodeDepth := rfl
        omega
      rw [decodeColumnLevels, if_neg inner]
      exact fails levels _ count headers out rest (by omega) (by omega) small written zero bounded

theorem leastFails_nullable {inner : ColumnType} (writable : inner.isWritable = true)
    (fails : LeastFails inner) : LeastFails (.nullable inner) := by
  intro levels depth count headers out rest deep shallow small written zero bounded
  obtain ⟨⟨payload, innerWritten, _⟩, _⟩ := leastWritten writable count
  rw [writeColValues_nullable_least writable innerWritten] at written
  cases written
  rw [ColumnType.nesting] at deep
  rw [List.append_assoc] at bounded ⊢
  have mask : readExact count (List.replicate count 0 ++ (payload ++ rest)) =
      .ok (List.replicate count 0, payload ++ rest) :=
    reads_readExact List.length_replicate (payload ++ rest)
  have within : (payload ++ rest).length < addressSpace := by
    rw [List.length_append] at bounded
    omega
  obtain ⟨error, failed⟩ := fails.nested headers (by omega) shallow small innerWritten zero
    within
  refine ⟨error, ?_⟩
  rw [decodeColumnStep, Reader.bind_of_ok mask]
  exact Reader.bind_of_error failed

theorem leastFails_array {inner : ColumnType} (writable : inner.isWritable = true)
    (fails : LeastFails inner) : LeastFails (.array inner) := by
  intro levels depth count headers out rest deep shallow small written zero bounded
  obtain ⟨⟨payload, innerWritten, _⟩, _⟩ := leastWritten writable 0
  rw [writeColValues_array_least writable innerWritten] at written
  cases written
  rw [ColumnType.nesting] at deep
  rw [List.append_assoc] at bounded ⊢
  have offsets := reads_zeroOffsets "Array" count (payload ++ rest)
  have within : (payload ++ rest).length < addressSpace := by
    rw [List.length_append] at bounded
    omega
  obtain ⟨error, failed⟩ := fails.nested headers (by omega) shallow (by decide) innerWritten zero
    within
  refine ⟨error, ?_⟩
  rw [decodeColumnStep, Reader.bind_of_ok offsets, getLast?_replicate_zero]
  exact Reader.bind_of_error failed

theorem leastFails_map {keyType valType : ColumnType} (keyWritable : keyType.isWritable = true)
    (valWritable : valType.isWritable = true)
    (keyFails : keyType.holdsNewJson = true → LeastFails keyType)
    (valFails : valType.holdsNewJson = true → LeastFails valType)
    (holds : (ColumnType.map keyType valType).holdsNewJson = true) :
    LeastFails (.map keyType valType) := by
  intro levels depth count headers out rest deep shallow small written zero bounded
  obtain ⟨⟨keys, keysWritten, _⟩, _⟩ := leastWritten keyWritable 0
  obtain ⟨⟨vals, valsWritten, valsZero⟩, _⟩ := leastWritten valWritable 0
  rw [writeColValues_map_least keyWritable valWritable keysWritten valsWritten] at written
  cases written
  rw [ColumnType.nesting] at deep
  rw [List.append_assoc, List.append_assoc] at bounded ⊢
  have offsets := reads_zeroOffsets "Map" count (keys ++ (vals ++ rest))
  have within : (keys ++ (vals ++ rest)).length < addressSpace := by
    rw [List.length_append] at bounded
    omega
  rw [decodeColumnStep, Reader.bind_of_ok offsets, getLast?_replicate_zero]
  cases keyHolds : keyType.holdsNewJson with
  | true =>
      obtain ⟨error, failed⟩ := (keyFails keyHolds).nested headers (by omega) shallow (by decide)
        keysWritten (startsZero_append valsZero zero) within
      exact ⟨error, Reader.bind_of_error failed⟩
  | false =>
      have valHolds : valType.holdsNewJson = true := by
        rw [ColumnType.holdsNewJson, keyHolds] at holds
        exact holds
      have valsWithin : (vals ++ rest).length < addressSpace := by
        rw [List.length_append] at within
        omega
      obtain ⟨column, decoded⟩ := decodeColumnLevels_least headers
        (isInsertable_of_writable keyWritable keyHolds) (by omega) shallow (by decide)
        keysWritten within
      obtain ⟨error, failed⟩ := (valFails valHolds).nested headers (by omega) shallow (by decide)
        valsWritten zero valsWithin
      refine ⟨error, ?_⟩
      rw [Reader.bind_of_ok decoded]
      exact Reader.bind_of_error failed

/-- The fields of a tuple decode up to the first that holds a JSON object. -/
theorem decodeFields_fails {types : List ColumnType} (shallow : levels ≤ maxReadDepth)
    {count : Nat} (small : count < 2 ^ 64)
    (each : ∀ type ∈ types, type.isWritable = true ∧ type.nesting < levels ∧
      (type.holdsNewJson = true → LeastFails type))
    (holds : ColumnType.holdNewJson types = true)
    (written : writeFieldValues types
      (List.replicate count ((leastValues types).map rowBinary)) = .ok out)
    (zero : StartsZero rest) (bounded : (out ++ rest).length < addressSpace) :
    ∃ error, decodeFields (decodeColumnLevels levels) count types headers (out ++ rest) =
      .error error := by
  induction types generalizing out with
  | nil => cases holds
  | cons type types ih =>
      obtain ⟨writable, deep, fails⟩ := each type (by simp)
      have others := fun other member => each other (List.mem_cons_of_mem type member)
      obtain ⟨⟨column, columnWritten, _⟩, _⟩ := leastWritten writable count
      obtain ⟨⟨columns, columnsWritten, columnsZero⟩, _⟩ :=
        leastWritten_fields fun other member => leastWritten (others other member).1 count
      rw [writeFieldValues, leastValues, List.map_cons, List.map_replicate, List.map_replicate,
        List.headD_cons, List.tail_cons, columnsWritten, ← List.map_replicate, ← leastColumn,
        columnWritten] at written
      cases written
      rw [List.append_assoc] at bounded ⊢
      rw [decodeFields]
      cases typeHolds : type.holdsNewJson with
      | true =>
          obtain ⟨error, failed⟩ := (fails typeHolds).nested headers deep shallow small
            columnWritten (startsZero_append columnsZero zero) bounded
          exact ⟨error, Reader.bind_of_error failed⟩
      | false =>
          have restHold : ColumnType.holdNewJson types = true := by
            rw [ColumnType.holdNewJson, typeHolds] at holds
            exact holds
          have within : (columns ++ rest).length < addressSpace := by
            rw [List.length_append] at bounded
            omega
          obtain ⟨decoded, columnRead⟩ := decodeColumnLevels_least headers
            (isInsertable_of_writable writable typeHolds) deep shallow small columnWritten bounded
          obtain ⟨error, failed⟩ := ih others restHold columnsWritten within
          refine ⟨error, ?_⟩
          rw [Reader.bind_of_ok columnRead]
          exact Reader.bind_of_error failed

theorem leastFails_tuple {types : List ColumnType}
    (each : ∀ type ∈ types, type.isWritable = true ∧
      (type.holdsNewJson = true → LeastFails type))
    (holds : ColumnType.holdNewJson types = true) : LeastFails (.tuple types) := by
  intro levels depth count headers out rest deep shallow small written zero bounded
  rw [ColumnType.nesting] at deep
  have fields : ∀ type ∈ types, type.isWritable = true ∧ type.nesting < levels ∧
      (type.holdsNewJson = true → LeastFails type) := by
    intro type member
    have := ColumnType.nesting_le_nestingList member
    exact ⟨(each type member).1, by omega, (each type member).2⟩
  rw [writeColValues, slices_tuple_least fun type member => (each type member).1] at written
  obtain ⟨error, failed⟩ := decodeFields_fails headers shallow small fields holds written zero
    bounded
  refine ⟨error, ?_⟩
  rw [decodeColumnStep]
  exact Reader.bind_of_error failed

end Least

/-- Decoding a column of least rows fails at its first JSON object. -/
theorem leastFails {colType : ColumnType} (writable : colType.isWritable = true)
    (holds : colType.holdsNewJson = true) : LeastFails colType := by
  induction colType using ColumnType.induction_forms with
  | fixed colType width fixed => cases colType <;> first | cases fixed; done | cases holds
  | string | json => cases holds
  | newJson =>
      intro levels depth count headers out rest _ _ _ written zero _
      apply decodeNewJson_fails
      cases written
      rw [leastColumn, List.map_replicate]
      exact startsZero_append (flatten_replicate_zeros count 1 ▸ startsZero_replicate _) zero
  | nullable inner ih =>
      simp only [ColumnType.isWritable, Bool.and_eq_true] at writable
      exact leastFails_nullable writable.2 (ih writable.2 holds)
  | lowCardinality inner =>
      rw [ColumnType.holdsNewJson] at holds
      rcases dictionaryType_cases inner with ⟨type, rfl, split⟩ | split
      · rw [ColumnType.isWritable, split] at writable
        cases type <;> first | cases writable; done | cases holds
      · rw [ColumnType.isWritable, split] at writable
        cases inner <;> first | cases writable; done | cases holds
  | array inner ih =>
      have innerWritable : inner.isWritable = true := writable
      exact leastFails_array innerWritable (ih innerWritable holds)
  | map keyType valType keyIh valIh =>
      simp only [ColumnType.isWritable, Bool.and_eq_true] at writable
      exact leastFails_map writable.1 writable.2 (keyIh writable.1) (valIh writable.2) holds
  | tuple types ih =>
      simp only [ColumnType.isWritable, Bool.and_eq_true, areWritable_iff] at writable
      have each : ∀ type ∈ types, type.isWritable = true ∧
          (type.holdsNewJson = true → LeastFails type) := by
        intro type member
        exact ⟨writable.2 type member, ih type member (writable.2 type member)⟩
      exact leastFails_tuple each holds
  | dynamic | point | simpleAggregateFunction | variant => cases writable

/-! ## Blocks -/

theorem storedFields_hasType {types : List ColumnType} {fields : List RowValue}
    (each : ∀ type ∈ types, ∀ value, HasType type value → HasType type (stored type value))
    (typed : List.Forall₂ HasType types fields) :
    List.Forall₂ HasType types (storedFields types fields) := by
  induction typed with
  | nil => exact .nil
  | @cons type field types fields head _ ih =>
      exact .cons (each type (by simp) field head) (ih fun type member =>
        each type (by simp [member]))

theorem hasType_stored_lowCardinality {inner : ColumnType}
    (plain : (dictionaryType inner).1.isPlain = true) {value : RowValue}
    (typed : HasType (.lowCardinality inner) value) :
    HasType (.lowCardinality inner) (stored (.lowCardinality inner) value) := by
  rcases dictionaryType_cases inner with ⟨type, rfl, _⟩ | split
  · rcases typed with rfl | ⟨held, rfl, heldTyped⟩
    · exact .inl rfl
    · rw [stored]
      split
      · exact .inl rfl
      · exact .inr ⟨held, rfl, heldTyped⟩
  · rw [split] at plain
    rw [stored_lowCardinality_of_leaf (isLeaf_of_plain plain) typed]
    exact typed

/-- What a block keeps of a value is a value of the same type. -/
theorem hasType_stored {colType : ColumnType} (writable : colType.isWritable = true)
    {value : RowValue} (typed : HasType colType value) :
    HasType colType (stored colType value) := by
  induction colType using ColumnType.induction_forms generalizing value with
  | fixed colType width fixed =>
      rw [stored_of_fixed fixed]
      exact typed
  | string | json | newJson =>
      obtain ⟨text, rfl, capped⟩ := typed
      exact ⟨text, rfl, capped⟩
  | nullable inner ih =>
      simp only [ColumnType.isWritable, Bool.and_eq_true] at writable
      rcases typed with rfl | ⟨held, rfl, heldTyped⟩
      · exact .inl rfl
      · exact .inr ⟨_, rfl, ih writable.2 heldTyped⟩
  | lowCardinality inner => exact hasType_stored_lowCardinality writable typed
  | array inner ih =>
      obtain ⟨elements, rfl, counted, elementsTyped⟩ := typed
      refine ⟨_, rfl, by simpa using counted, ?_⟩
      intro element member
      obtain ⟨original, held, rfl⟩ := List.mem_map.mp member
      exact ih writable (elementsTyped original held)
  | map keyType valType keyIh valIh =>
      simp only [ColumnType.isWritable, Bool.and_eq_true] at writable
      obtain ⟨entries, rfl, counted, entriesTyped⟩ := typed
      refine ⟨_, rfl, by simpa using counted, ?_⟩
      intro entry member
      obtain ⟨original, held, rfl⟩ := List.mem_map.mp member
      obtain ⟨key, value, rfl, keyTyped, valTyped⟩ := entriesTyped original held
      exact ⟨_, _, rfl, keyIh writable.1 keyTyped, valIh writable.2 valTyped⟩
  | tuple types ih =>
      simp only [ColumnType.isWritable, Bool.and_eq_true, areWritable_iff] at writable
      obtain ⟨fields, rfl, fieldsTyped⟩ := typed
      refine ⟨_, rfl, fieldsHaveType_iff.mpr ?_⟩
      exact storedFields_hasType (fun type member value => ih type member
        (writable.2 type member)) (fieldsHaveType_iff.mp fieldsTyped)
  | dynamic | point | simpleAggregateFunction | variant => cases writable

/-- Every block of typed rows of one column is decoded to the byte, and its rows hold
the documents that were written. -/
def DocumentsKept (column : ColumnSchema) (revision : Nat) : Prop :=
  ∀ (values : List RowValue) (out : Bytes), values ≠ [] → values.length ≤ maxBlockRows →
    (∀ value ∈ values, HasType column.colType value) →
    SubcolumnsFit column.colType (values.map rowBinary) →
    encodeColumns (values.map rowBinary) [column] revision = .ok out →
    out.length < addressSpace →
    ∃ block decoded, decodeBlock 1 values.length revision out = .ok (block, []) ∧
      block.schema = [(column.name, column.declaredType)] ∧ block.columns = [decoded] ∧
      ∀ row value, values[row]? = some value →
        ∃ kept, HasType column.colType kept ∧ decoded.cell row = some kept.rowBinary ∧
          documents column.colType kept = documents column.colType value

theorem declared_of_nests {colType : ColumnType} (nests : colType.nestsNewJson = true) :
    colType.declared = colType ∧ colType.holdsNewJson = true := by
  cases colType with
  | newJson | json => cases nests
  | _ => exact ⟨rfl, nests⟩

theorem isInsertable_declared {colType : ColumnType} (writable : colType.isWritable = true)
    (outer : colType.nestsNewJson = false) : colType.declared.isInsertable = true := by
  cases colType with
  | newJson | json => rfl
  | _ => exact isInsertable_of_writable writable outer

section Column

variable {column : ColumnSchema} {revision : Nat}

/-- The rows of a single column, as records of one field. -/
@[simp] theorem rowBinaries_singletons (values : List RowValue) :
    (values.map fun value => [value]).map rowBinaries = values.map rowBinary := by
  rw [List.map_map]
  apply List.map_congr_left
  intro value _
  simp [rowBinaries]

theorem documentsKept_of_outer (caps : column.WithinCaps)
    (writable : column.colType.isWritable = true)
    (outer : column.colType.nestsNewJson = false) : DocumentsKept column revision := by
  intro values out someRows rowCap typed fits encoded bounded
  let records := values.map fun value => [value]
  have insertable := isInsertable_declared writable outer
  have recordsTyped : ∀ record ∈ records,
      List.Forall₂ HasType ([column].map ColumnSchema.colType) record := by
    intro record member
    obtain ⟨value, held, rfl⟩ := List.mem_map.mp member
    exact .cons (typed value held) .nil
  have recordFits : FieldColumnsFit ([column].map ColumnSchema.colType)
      (records.map fun record => record.map rowBinary) := by
    have heads : (records.map fun record => record.map rowBinary).map
        (fun row => row.headD []) = values.map rowBinary := by
      simp [records]
    refine ⟨?_, trivial⟩
    rw [heads]
    exact fits
  rw [← rowBinaries_singletons] at encoded
  rw [← List.append_nil out] at bounded
  obtain ⟨block, decoded, schema, _, sized, kept⟩ := decodeBlock_ok
    (List.cons_ne_nil column []) (by simpa [records] using someRows) (by simpa using caps)
    (by simpa using insertable) (Nat.le_of_ble_eq_true rfl)
      (by simpa [records] using rowCap) recordsTyped
    recordFits encoded bounded
  rw [List.append_nil, List.length_map] at decoded
  obtain ⟨only, single⟩ := List.length_eq_one_iff.mp sized
  refine ⟨block, only, decoded, schema, single, fun row value held => ?_⟩
  obtain ⟨found, atColumn, cell⟩ := kept 0 row column.colType value rfl (by simp [records, held])
  rw [single] at atColumn
  cases atColumn
  have valueTyped := typed value (List.mem_of_getElem? held)
  exact ⟨stored column.colType value, hasType_stored writable valueTyped, cell,
    documents_stored valueTyped⟩

/-- The block of one least row is written. -/
theorem encodeColumns_least (revision : Nat) (writable : column.colType.isWritable = true) :
    ∃ payload, writeColValues column.colType ((leastColumn column.colType 1).map rowBinary) =
        .ok payload ∧
      encodeColumns ((leastColumn column.colType 1).map rowBinary) [column] revision =
        .ok (writeColumnHeader revision column ++ writeColPrefixes column.colType ++ payload ++
          []) := by
  obtain ⟨⟨payload, written, _⟩, _⟩ := leastWritten writable 1
  refine ⟨payload, written, ?_⟩
  have typed : ∀ record ∈ [[leastValue column.colType]],
      List.Forall₂ HasType ([column].map ColumnSchema.colType) record := by
    intro record member
    rw [List.mem_singleton.mp member]
    exact .cons (hasType_leastValue writable) .nil
  rw [← rowBinaries_singletons]
  refine (encodeColumns_eq_writeColumns (List.cons_ne_nil column []) (List.cons_ne_nil _ [])
    typed).trans ?_
  change (writeColValues column.colType ((leastColumn column.colType 1).map rowBinary) >>= _) = _
  rw [written]
  rfl

/-- The decoder fails on the block of one least row. -/
theorem decodeBlock_least_fails (caps : column.WithinCaps)
    (writable : column.colType.isWritable = true) (nests : column.colType.nestsNewJson = true)
    {payload : Bytes}
    (written : writeColValues column.colType ((leastColumn column.colType 1).map rowBinary) =
      .ok payload)
    (bounded : (writeColumnHeader revision column ++ writeColPrefixes column.colType ++ payload ++
      []).length < addressSpace) :
    ∃ error, decodeBlock 1 1 revision (writeColumnHeader revision column ++
      writeColPrefixes column.colType ++ payload ++ []) = .error error := by
  obtain ⟨same, holds⟩ := declared_of_nests nests
  have prefixes := reads_decodePrefixes writable (Nat.lt_succ_of_le caps.nested) (payload ++ [])
  have within : (payload ++ []).length < addressSpace := by
    simp only [List.length_append] at bounded ⊢
    omega
  obtain ⟨error, failed⟩ := leastFails writable holds maxReadDepth 0 1 [] payload []
    caps.nested (Nat.le_refl _) (by decide) written rfl within
  have columnFails : decodeBlockColumn 1 revision (writeColumnHeader revision column ++
      writeColPrefixes column.colType ++ payload ++ []) = .error error := by
    rw [List.append_assoc, List.append_assoc, decodeBlockColumn_header caps, same]
    apply Reader.bind_of_error
    rw [decodeColumnPayload, if_pos (by decide)]
    refine (Reader.bind_of_ok prefixes).trans ?_
    exact Reader.bind_of_error failed
  refine ⟨error, ?_⟩
  rw [decodeBlock, Reader.require_of_holds (by decide), Reader.require_of_holds (by decide)]
  simp only [pure_bind]
  exact Reader.bind_of_error (Reader.bind_of_error columnFails)

end Column

/-- The declared type name describes the payload exactly when no `JSON` occurs below
the outermost type.  The least row of the type has a block that fits in memory. -/
theorem documentsKept_iff (column : ColumnSchema) (revision : Nat) (caps : column.WithinCaps)
    (writable : column.colType.isWritable = true)
    (room : ∀ out, encodeColumns [(leastValue column.colType).rowBinary] [column] revision =
      .ok out → out.length < addressSpace) :
    DocumentsKept column revision ↔ column.colType.nestsNewJson = false := by
  constructor
  · intro kept
    apply Bool.eq_false_iff.mpr
    intro nests
    obtain ⟨payload, written, encoded⟩ := encodeColumns_least revision writable
    have bounded := room _ encoded
    obtain ⟨block, _, decoded, _⟩ := kept (leastColumn column.colType 1) _ (List.cons_ne_nil _ [])
      (Nat.le_of_ble_eq_true rfl) (hasType_leastColumn writable 1) (leastWritten writable 1).fits
      encoded bounded
    obtain ⟨error, failed⟩ := decodeBlock_least_fails caps writable nests written bounded
    rw [length_leastColumn, failed] at decoded
    cases decoded
  · intro outer
    exact documentsKept_of_outer caps writable outer

/-- A column of lists of documents. -/
def documentLists (typeName : String) (document : ColumnType) : ColumnSchema :=
  ⟨"docs", typeName, .array document⟩

theorem documentsKept_iff_lists :
    DocumentsKept (documentLists "Array(Object('json'))" .json) 54454 := by
  have caps : (documentLists "Array(Object('json'))" .json).WithinCaps :=
    ⟨rfl, Nat.le_of_ble_eq_true rfl, Nat.le_of_ble_eq_true rfl, by decide⟩
  have room : ∀ out, encodeColumns [(leastValue (.array .json)).rowBinary]
      [documentLists "Array(Object('json'))" .json] 54454 = .ok out →
        out.length < addressSpace := by
    have computed : ∃ out, encodeColumns [(leastValue (.array .json)).rowBinary]
        [documentLists "Array(Object('json'))" .json] 54454 = .ok out ∧ out.length = 36 :=
      ⟨_, rfl, rfl⟩
    obtain ⟨_, evaluated, sized⟩ := computed
    intro out encoded
    obtain rfl := Except.ok.inj (encoded.symm.trans evaluated)
    rw [sized]
    decide
  exact (documentsKept_iff _ 54454 caps rfl room).mpr rfl

/-- One row with one empty document. -/
theorem documentsKept_fails_nested :
    HasType (.array .newJson) (.list [.text [0x7b, 0x7d]]) ∧
      (RowValue.list [.text [0x7b, 0x7d]]).rowBinary = [1, 2, 0x7b, 0x7d] ∧
      ColumnType.parse "Array(JSON)" = some (.array .newJson) ∧
      ∃ out, encodeColumns [[1, 2, 0x7b, 0x7d]] [documentLists "Array(JSON)" .newJson] 54454 =
          .ok out ∧
        ∃ error, decodeBlock 1 1 54454 out = .error error := by
  refine ⟨⟨_, rfl, by decide, ?_⟩, rfl, rfl, _, rfl, _, rfl⟩
  intro element member
  rw [List.mem_singleton.mp member]
  exact ⟨_, rfl, by decide⟩

end DfeClickhouse.Native
