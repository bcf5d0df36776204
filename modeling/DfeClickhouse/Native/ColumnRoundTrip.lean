import DfeClickhouse.Native.Dictionary

/-!
# Columns read back

What the encoder writes for a column of typed values is what the cell reader reads
back: type by type, the reader consumes exactly the written bytes and returns the
cells of the values the block stores.  A block stores every value as it is, except
that a nullable dictionary cannot tell the default value from NULL.
-/

namespace DfeClickhouse.Native

open Library RowValue

/-! ## Insertable types -/

/-- The types whose columns are their cells one after the other: those of a fixed
width, and `String`. -/
def ColumnType.isLeaf : ColumnType → Bool
  | .string => true
  | colType => colType.fixedSize.isSome

/-- The fixed-width scalars with a typed column, `String`, and `FixedString` of at
least one byte. -/
def ColumnType.isPlain : ColumnType → Bool
  | .bFloat16 | .time | .time64 => false
  | .fixedString width => decide (1 ≤ width)
  | .string => true
  | colType => colType.fixedSize.isSome

/-- Whether the cells of a type start with a null flag. -/
def ColumnType.admitsNull : ColumnType → Bool
  | .nullable _ | .lowCardinality (.nullable _) => true
  | _ => false

mutual

/-- The types whose columns the encoder writes as the reader expects them: a
dictionary is over plain values, and `Nullable` is not applied to a type that admits
NULL itself. -/
def ColumnType.isInsertable : ColumnType → Bool
  | .json => true
  | .nullable inner => !inner.admitsNull && inner.isInsertable
  | .lowCardinality inner => (dictionaryType inner).1.isPlain
  | .array inner => inner.isInsertable
  | .tuple fields => !fields.isEmpty && ColumnType.areInsertable fields
  | .map key value => key.isInsertable && value.isInsertable
  | colType => colType.isPlain

/-- Whether all types of a list are insertable. -/
def ColumnType.areInsertable : List ColumnType → Bool
  | [] => true
  | head :: tail => head.isInsertable && ColumnType.areInsertable tail

end

mutual

/-- Whether a `Nullable` is applied to a tuple somewhere in a type.  The encoder has
no default of its own for a tuple, and may fail on a NULL there. -/
def ColumnType.nullsTuple : ColumnType → Bool
  | .nullable (.tuple _) => true
  | .nullable inner | .array inner => inner.nullsTuple
  | .tuple fields => ColumnType.nullTuples fields
  | .map key value => key.nullsTuple || value.nullsTuple
  | _ => false

/-- Whether a `Nullable` is applied to a tuple somewhere in a list of types. -/
def ColumnType.nullTuples : List ColumnType → Bool
  | [] => false
  | head :: tail => head.nullsTuple || ColumnType.nullTuples tail

end

/-! ## Values as a block stores them -/

mutual

/-- What a block keeps of a value: a nullable dictionary stores the default value in
the slot that stands for NULL. -/
def stored : ColumnType → RowValue → RowValue
  | .nullable inner, .present held => .present (stored inner held)
  | .lowCardinality inner, .present held =>
      if held.rowBinary = rbWriteDefault (dictionaryType inner).1 then .null
      else .present held
  | .array inner, .list elements => .list (elements.map (stored inner))
  | .map keyType valType, .list entries => .list (entries.map fun entry =>
      .record [stored keyType entry.entryKey, stored valType entry.entryValue])
  | .tuple types, .record fields => .record (storedFields types fields)
  | _, value => value

/-- What a block keeps of the fields of a tuple. -/
def storedFields : List ColumnType → List RowValue → List RowValue
  | type :: types, field :: fields => stored type field :: storedFields types fields
  | _, _ => []

end

/-- The distinct entries of the dictionary a column of cells makes. -/
def dictionaryEntries (inner : ColumnType) (cells : ColumnData) : List Bytes :=
  ((Dictionary.initial (dictionaryType inner).2 (dictionaryType inner).1).dict ++
    (cells.map (dictionaryKey (dictionaryType inner).2)).reduceOption).dedup

mutual

/-- Every column the encoder forms below a column of cells has a row count that fits
the wire's `u64`, and every dictionary has fewer than 2^32 entries. -/
def SubcolumnsFit : ColumnType → ColumnData → Prop
  | .nullable inner, cells =>
      ∀ slots, cells.mapM (splitNullable (rbWriteDefault inner)) = .ok slots →
        SubcolumnsFit inner (slots.map Prod.snd)
  | .lowCardinality inner, cells => (dictionaryEntries inner cells).length < 2 ^ 32
  | .array inner, cells =>
      ∀ rows, sliceCells (arrayElements inner) cells = .ok rows →
        rows.flatten.length < 2 ^ 64 ∧ SubcolumnsFit inner rows.flatten
  | .map keyType valType, cells =>
      ∀ rows, sliceCells (mapEntries keyType valType) cells = .ok rows →
        rows.flatten.length < 2 ^ 64 ∧ SubcolumnsFit keyType (rows.flatten.map Prod.fst) ∧
          SubcolumnsFit valType (rows.flatten.map Prod.snd)
  | .tuple fields, cells =>
      ∀ rows, sliceCells (rbCells fields) cells = .ok rows → FieldColumnsFit fields rows
  | _, _ => True

/-- The columns of tuple fields fit. -/
def FieldColumnsFit : List ColumnType → List (List Bytes) → Prop
  | [], _ => True
  | field :: fields, rows =>
      SubcolumnsFit field (rows.map fun row => row.headD []) ∧
        FieldColumnsFit fields (rows.map List.tail)

end

/-- The outcome of writing a column: what is written reads back as `cells`, and
writing fails only where it may. -/
def ReadsBack (reader : ByteReader ColumnData) (cells : ColumnData) (mayFail : Prop) :
    Except Error Bytes → Prop
  | .ok out => Reader.Reads reader out cells
  | .error _ => mayFail

/-! ## Plain columns -/

theorem readColumnStep_of_fixed (nested : ColumnReader) {colType : ColumnType} {width : Nat}
    (fixed : colType.fixedSize = some width) (count : Nat) :
    readColumnStep nested colType count = readFixedColumn count width := by
  cases colType <;> cases fixed <;> rfl

theorem writeColValues_of_fixed {colType : ColumnType} {width : Nat}
    (fixed : colType.fixedSize = some width) (values : List Bytes) :
    writeColValues colType values = .ok values.flatten := by
  cases colType <;> cases fixed <;> rfl

theorem leaf_cases {colType : ColumnType} (leaf : colType.isLeaf = true) :
    colType = .string ∨ ∃ width, colType.fixedSize = some width := by
  cases colType <;> first | exact .inl rfl | exact .inr ⟨_, rfl⟩ | cases leaf

theorem plain_cases {colType : ColumnType} (plain : colType.isPlain = true) :
    colType = .string ∨ ∃ width, colType.fixedSize = some width ∧ 1 ≤ width := by
  cases colType with
  | string => exact .inl rfl
  | fixedString width => exact .inr ⟨width, rfl, by simpa [ColumnType.isPlain] using plain⟩
  | _ => first | cases plain; done | exact .inr ⟨_, rfl, by decide⟩

theorem isLeaf_of_plain {colType : ColumnType} (plain : colType.isPlain = true) :
    colType.isLeaf = true := by
  cases colType <;> first | rfl | cases plain

theorem reads_readFixedColumn {width : Nat} {cells : ColumnData}
    (sized : ∀ cell ∈ cells, cell.length = width) :
    Reader.Reads (readFixedColumn cells.length width) cells.flatten cells := by
  have run : Reader.Reads (Reader.times (readExact width) cells.length)
      (cells.map id).flatten (cells.map id) :=
    Reader.Reads.times_map fun cell member => reads_readExact (sized cell member)
  rwa [List.map_id] at run

theorem reads_readStringColumn {values : List RowValue}
    (texts : ∀ value ∈ values, ∃ bytes, value = .text bytes ∧ bytes.length ≤ maxStringSize) :
    Reader.Reads (readStringColumn values.length) (values.map rowBinary).flatten
      (values.map rowBinary) := by
  apply Reader.Reads.times_map
  intro value member
  obtain ⟨bytes, rfl, capped⟩ := texts value member
  exact (reads_readString capped).bind_pure

theorem stored_of_fixed {colType : ColumnType} {width : Nat}
    (fixed : colType.fixedSize = some width) (value : RowValue) :
    stored colType value = value := by
  cases colType <;> first | cases fixed; done | rfl

theorem stored_of_leaf {colType : ColumnType} (leaf : colType.isLeaf = true)
    (value : RowValue) : stored colType value = value := by
  rcases leaf_cases leaf with rfl | ⟨width, fixed⟩
  · rfl
  · exact stored_of_fixed fixed value

theorem writeColValues_of_leaf {colType : ColumnType} (leaf : colType.isLeaf = true)
    (values : List Bytes) : writeColValues colType values = .ok values.flatten := by
  rcases leaf_cases leaf with rfl | ⟨width, fixed⟩
  · rfl
  · exact writeColValues_of_fixed fixed values

theorem reads_leaf (nested : ColumnReader) {colType : ColumnType}
    (leaf : colType.isLeaf = true) {values : List RowValue}
    (typed : ∀ value ∈ values, HasType colType value) :
    Reader.Reads (readColumnStep nested colType values.length)
      (values.map rowBinary).flatten (values.map rowBinary) := by
  rcases leaf_cases leaf with rfl | ⟨width, fixed⟩
  · exact reads_readStringColumn typed
  · rw [readColumnStep_of_fixed nested fixed]
    have sized : ∀ cell ∈ values.map rowBinary, cell.length = width := by
      intro cell member
      obtain ⟨value, held, rfl⟩ := List.mem_map.mp member
      obtain ⟨bytes, rfl, length⟩ := (hasType_of_fixed fixed).mp (typed value held)
      exact length
    have run := reads_readFixedColumn sized
    rwa [List.length_map] at run

/-! ## Spans -/

@[simp, grind =] theorem length_cumulativeOffsets (start : Nat) (counts : List Nat) :
    (cumulativeOffsets start counts).length = counts.length := by
  induction counts generalizing start with
  | nil => rfl
  | cons count counts ih => simp [cumulativeOffsets, ih]

theorem cumulativeOffsets_lt {start : Nat} {counts : List Nat} :
    ∀ offset ∈ cumulativeOffsets start counts, offset < 2 ^ 64 := by
  induction counts generalizing start with
  | nil => simp [cumulativeOffsets]
  | cons count counts ih =>
      intro offset member
      rcases List.mem_cons.mp member with rfl | later
      · exact Nat.mod_lt _ (by decide)
      · exact ih offset later

theorem reads_readOffsets (start : Nat) (counts : List Nat) :
    Reader.Reads (readOffsets counts.length)
      ((cumulativeOffsets start counts).flatMap (natLe 8)) (cumulativeOffsets start counts) := by
  have run : Reader.Reads (Reader.times readU64Le (cumulativeOffsets start counts).length)
      ((cumulativeOffsets start counts).map (natLe 8)).flatten
      ((cumulativeOffsets start counts).map id) :=
    Reader.Reads.times_map fun offset member => reads_readU64Le (cumulativeOffsets_lt offset member)
  rwa [length_cumulativeOffsets, List.map_id, ← List.flatMap_def] at run

theorem getLast?_cumulativeOffsets {start : Nat} {counts : List Nat}
    (small : start + counts.sum < 2 ^ 64) :
    (cumulativeOffsets start counts).getLast?.getD start = start + counts.sum := by
  induction counts generalizing start with
  | nil => rfl
  | cons count counts ih =>
      rw [List.sum_cons] at small
      have step : (start + count) % 2 ^ 64 = start + count := Nat.mod_eq_of_lt (by omega)
      simp only [cumulativeOffsets, step, List.getLast?_cons, Option.getD_some, List.sum_cons]
      rw [ih (by omega)]
      omega

/-- Cutting the elements of rows at the rows' cumulative counts gives the rows. -/
theorem spanRows_cumulativeOffsets (what : String) (before : ColumnData)
    (rows : List ColumnData) (small : (before ++ rows.flatten).length < 2 ^ 64) :
    spanRows what (before ++ rows.flatten) before.length
        (cumulativeOffsets before.length (rows.map List.length)) =
      .ok (rows.map fun row => encodeVarUint row.length ++ row.flatten) := by
  induction rows generalizing before with
  | nil => rfl
  | cons row rows ih =>
      have regroup : before ++ (row :: rows).flatten = (before ++ row) ++ rows.flatten := by
        simp
      have total : (before ++ row).length = before.length + row.length := List.length_append
      rw [regroup] at small ⊢
      have inside : before.length + row.length ≤ ((before ++ row) ++ rows.flatten).length := by
        rw [List.length_append, total]
        omega
      have step : (before.length + row.length) % 2 ^ 64 = before.length + row.length :=
        Nat.mod_eq_of_lt (by omega)
      have accepted : checkedSpan (before.length + row.length) before.length
          ((before ++ row) ++ rows.flatten).length what = .ok (before.length + row.length) := by
        rw [checkedSpan, if_neg (by omega)]
      have cut : (((before ++ row) ++ rows.flatten).drop before.length).take row.length =
          row := by
        rw [List.append_assoc, List.drop_left, List.take_left]
      have rest := ih (before ++ row) small
      rw [total] at rest
      simp only [List.map_cons, cumulativeOffsets, step, spanRows, accepted, bind, Except.bind,
        rest, Nat.add_sub_cancel_left, cut]
      rfl

/-- A column of spans reads back once its elements do. -/
theorem reads_spans (what : String) {rows : List ColumnData} {counts : List Nat}
    (counted : rows.map List.length = counts) (small : rows.flatten.length < 2 ^ 64)
    {elements : Nat → ByteReader ColumnData} {payload : Bytes}
    (reads : Reader.Reads (elements rows.flatten.length) payload rows.flatten) :
    Reader.Reads (do
        let offsets ← readOffsets counts.length
        let cells ← elements (offsets.getLast?.getD 0)
        Reader.ofExcept (spanRows what cells 0 offsets))
      ((cumulativeOffsets 0 counts).flatMap (natLe 8) ++ payload)
      (rows.map fun row => encodeVarUint row.length ++ row.flatten) := by
  subst counted
  have total : (rows.map List.length).sum = rows.flatten.length := List.length_flatten.symm
  have last : (cumulativeOffsets 0 (rows.map List.length)).getLast?.getD 0 =
      0 + (rows.map List.length).sum := getLast?_cumulativeOffsets (by omega)
  apply (reads_readOffsets 0 (rows.map List.length)).bind
  rw [last, Nat.zero_add, total]
  have cut := spanRows_cumulativeOffsets what [] rows (by simpa using small)
  rw [List.nil_append, List.length_nil] at cut
  exact reads.bind_ofExcept cut

/-! ## Composite columns -/

section Composite

variable {nested : ColumnReader} {mayFail : Prop} {values : List RowValue}

theorem flatten_map_elements {α : Type} (change : RowValue → α) (values : List RowValue) :
    (values.map fun value => value.elements.map change).flatten =
      (values.flatMap elements).map change := by
  rw [List.map_flatMap, List.flatMap_def]

/-- A column of lists reads back once the column of all their elements does; `kept` is
what the block keeps of an element. -/
theorem reads_elementSpans (what : String) {colType : ColumnType}
    {kept : RowValue → RowValue}
    (lists : ∀ value ∈ values, ∃ elements, value = .list elements ∧
      stored colType value = .list (elements.map kept))
    (small : (values.flatMap elements).length < 2 ^ 64) (reader : Nat → ByteReader ColumnData)
    {payload : Bytes}
    (reads : Reader.Reads (reader (values.flatMap elements).length) payload
      ((values.flatMap elements).map fun element => (kept element).rowBinary)) :
    Reader.Reads (do
        let offsets ← readOffsets values.length
        let cells ← reader (offsets.getLast?.getD 0)
        Reader.ofExcept (spanRows what cells 0 offsets))
      ((cumulativeOffsets 0 (values.map fun value => value.elements.length)).flatMap (natLe 8) ++
        payload)
      (values.map fun value => (stored colType value).rowBinary) := by
  let rows : List ColumnData :=
    values.map fun value => value.elements.map fun element => (kept element).rowBinary
  have flat : rows.flatten =
      (values.flatMap elements).map fun element => (kept element).rowBinary :=
    flatten_map_elements _ values
  have counted : rows.map List.length = values.map fun value => value.elements.length := by
    simp [rows, Function.comp_def]
  have cells : (rows.map fun row => encodeVarUint row.length ++ row.flatten) =
      values.map fun value => (stored colType value).rowBinary := by
    simp only [rows, List.map_map]
    apply List.map_congr_left
    intro value member
    obtain ⟨elements, rfl, keeps⟩ := lists value member
    rw [keeps]
    simp [rowBinary, rowBinaries_eq_flatten, RowValue.elements, Function.comp_def]
  have elementsRead : Reader.Reads (reader rows.flatten.length) payload rows.flatten := by
    rw [flat, List.length_map]
    exact reads
  have span := reads_spans what counted (by rwa [flat, List.length_map]) elementsRead
  rwa [cells, List.length_map] at span

theorem writeOffsets_elements {α : Type} (change : RowValue → α) (values : List RowValue) :
    writeOffsets (values.map fun value => value.elements.map change) =
      (cumulativeOffsets 0 (values.map fun value => value.elements.length)).flatMap
        (natLe 8) := by
  simp [writeOffsets, Function.comp_def]

theorem readsBack_array {inner : ColumnType}
    (typed : ∀ value ∈ values, HasType (.array inner) value)
    (small : (values.flatMap elements).length < 2 ^ 64)
    (inside : ReadsBack (nested inner (values.flatMap elements).length)
      ((values.flatMap elements).map fun element => (stored inner element).rowBinary) mayFail
      (writeColValues inner ((values.flatMap elements).map rowBinary))) :
    ReadsBack (readArrayColumn nested values.length inner)
      (values.map fun value => (stored (.array inner) value).rowBinary) mayFail
      (writeColValues (.array inner) (values.map rowBinary)) := by
  have sliced := sliceCells_map fun value member => reads_arrayElements (typed value member)
  simp only [writeColValues, sliced, bind, Except.bind, flatten_map_elements,
    writeOffsets_elements]
  cases written : writeColValues inner ((values.flatMap elements).map rowBinary) with
  | error error =>
      rw [written] at inside
      exact inside
  | ok payload =>
      rw [written] at inside
      have lists : ∀ value ∈ values, ∃ elements, value = .list elements ∧
          stored (.array inner) value = .list (elements.map (stored inner)) := by
        intro value member
        obtain ⟨elements, rfl, _⟩ := typed value member
        exact ⟨elements, rfl, by rw [stored]⟩
      exact reads_elementSpans "Array" lists small (nested inner) inside

theorem reads_pairs {keyReader valReader : ByteReader ColumnData} {keyBytes valBytes : Bytes}
    {keys vals : ColumnData} (keysRead : Reader.Reads keyReader keyBytes keys)
    (valsRead : Reader.Reads valReader valBytes vals) :
    Reader.Reads (do
        let keys ← keyReader
        let vals ← valReader
        pure (keys.zipWith (· ++ ·) vals))
      (keyBytes ++ valBytes) (keys.zipWith (· ++ ·) vals) := by
  apply keysRead.bind
  exact valsRead.bind_pure

theorem readsBack_map {keyType valType : ColumnType}
    (typed : ∀ value ∈ values, HasType (.map keyType valType) value)
    (small : (values.flatMap elements).length < 2 ^ 64)
    (keys : ReadsBack (nested keyType (values.flatMap elements).length)
      (((values.flatMap elements).map entryKey).map fun key => (stored keyType key).rowBinary)
      mayFail (writeColValues keyType (((values.flatMap elements).map entryKey).map rowBinary)))
    (vals : ReadsBack (nested valType (values.flatMap elements).length)
      (((values.flatMap elements).map entryValue).map fun held =>
        (stored valType held).rowBinary)
      mayFail
      (writeColValues valType (((values.flatMap elements).map entryValue).map rowBinary))) :
    ReadsBack (readMapColumn nested values.length keyType valType)
      (values.map fun value => (stored (.map keyType valType) value).rowBinary) mayFail
      (writeColValues (.map keyType valType) (values.map rowBinary)) := by
  have sliced := sliceCells_map fun value member => reads_mapEntries (typed value member)
  simp only [writeColValues, sliced, bind, Except.bind, flatten_map_elements,
    writeOffsets_elements]
  simp only [List.map_map, Function.comp_def] at keys vals ⊢
  cases keysWritten : writeColValues keyType
      ((values.flatMap elements).map fun entry => entry.entryKey.rowBinary) with
  | error error =>
      rw [keysWritten] at keys
      exact keys
  | ok keyBytes =>
      rw [keysWritten] at keys
      cases valsWritten : writeColValues valType
          ((values.flatMap elements).map fun entry => entry.entryValue.rowBinary) with
      | error error =>
          rw [valsWritten] at vals
          exact vals
      | ok valBytes =>
          rw [valsWritten] at vals
          let kept (entry : RowValue) : RowValue :=
            .record [stored keyType entry.entryKey, stored valType entry.entryValue]
          have lists : ∀ value ∈ values, ∃ elements, value = .list elements ∧
              stored (.map keyType valType) value = .list (elements.map kept) := by
            intro value member
            obtain ⟨entries, rfl, _⟩ := typed value member
            exact ⟨entries, rfl, by rw [stored]⟩
          have zipped : List.zipWith (· ++ ·)
              ((values.flatMap elements).map fun entry =>
                (stored keyType entry.entryKey).rowBinary)
              ((values.flatMap elements).map fun entry =>
                (stored valType entry.entryValue).rowBinary) =
              (values.flatMap elements).map fun entry => (kept entry).rowBinary := by
            simp [List.zipWith_map, List.zipWith_self, kept, rowBinary, rowBinaries]
          have pairs := reads_pairs keys vals
          rw [zipped] at pairs
          have span := reads_elementSpans "Map" lists small
            (fun total => do
              let keys ← nested keyType total
              let vals ← nested valType total
              pure (keys.zipWith (· ++ ·) vals)) pairs
          simp only [bind_assoc, pure_bind, ← List.append_assoc] at span
          exact span

theorem nullableCell_stored {inner : ColumnType} {value default : RowValue}
    (typed : HasType (.nullable inner) value) :
    nullableCell value.nullFlag (stored inner (heldOr default value)).rowBinary =
      (stored (.nullable inner) value).rowBinary := by
  rcases typed with rfl | ⟨held, rfl, _⟩
  · simp [nullableCell, nullFlag, stored, rowBinary]
  · simp [nullableCell, nullFlag, stored, rowBinary, heldOr]

theorem readsBack_nullable {inner : ColumnType} (default : RowValue)
    (typed : ∀ value ∈ values, HasType (.nullable inner) value)
    (filled : ∀ value ∈ values, value = .null → default.rowBinary = rbWriteDefault inner)
    (inside : ReadsBack (nested inner values.length)
      ((values.map (heldOr default)).map fun held => (stored inner held).rowBinary) mayFail
      (writeColValues inner ((values.map (heldOr default)).map rowBinary))) :
    ReadsBack (readNullableColumn nested values.length inner)
      (values.map fun value => (stored (.nullable inner) value).rowBinary) mayFail
      (writeColValues (.nullable inner) (values.map rowBinary)) := by
  simp only [writeColValues, splitNullable_map _ typed, bind, Except.bind, List.map_map,
    Function.comp_def, nullableSlot_eq typed filled] at inside ⊢
  cases written : writeColValues inner
      (values.map fun value => (heldOr default value).rowBinary) with
  | error error =>
      rw [written] at inside
      exact inside
  | ok payload =>
      rw [written] at inside
      have flags : Reader.Reads (readExact values.length) (values.map nullFlag)
          (values.map nullFlag) := reads_readExact (by simp)
      have slots : Reader.Reads (readNullableColumn nested values.length inner)
          (values.map nullFlag ++ payload)
          ((values.map nullFlag).zipWith nullableCell
            (values.map fun value => (stored inner (heldOr default value)).rowBinary)) := by
        apply flags.bind
        exact Reader.Reads.bind_pure inside
      have cells : (values.map nullFlag).zipWith nullableCell
          (values.map fun value => (stored inner (heldOr default value)).rowBinary) =
          values.map fun value => (stored (.nullable inner) value).rowBinary := by
        rw [List.zipWith_map, List.zipWith_self]
        exact List.map_congr_left fun value member => nullableCell_stored (typed value member)
      rw [cells] at slots
      exact slots

theorem zipWith_append_assoc (first second third : ColumnData) :
    (first.zipWith (· ++ ·) second).zipWith (· ++ ·) third =
      first.zipWith (· ++ ·) (second.zipWith (· ++ ·) third) := by
  induction first generalizing second third with
  | nil => simp
  | cons head tail ih => cases second <;> cases third <;> simp [ih]

theorem appendCells_of_length {rows cells : ColumnData} (sized : rows.length = cells.length) :
    appendCells rows cells = rows.zipWith (· ++ ·) cells := by
  rw [appendCells, ← sized, List.drop_length, List.append_nil]

theorem records_opened {type : ColumnType} {types : List ColumnType}
    {records : List (List RowValue)}
    (typed : ∀ fields ∈ records, List.Forall₂ HasType (type :: types) fields) :
    ∀ fields ∈ records, ∃ head tail, fields = head :: tail ∧ HasType type head ∧
      List.Forall₂ HasType types tail := by
  intro fields member
  obtain ⟨head, tail, headTyped, tailTyped, rfl⟩ :=
    List.forall₂_cons_left_iff.mp (typed fields member)
  exact ⟨head, tail, rfl, headTyped, tailTyped⟩

/-- The first column of typed records, and the records without it. -/
theorem records_split {type : ColumnType} {types : List ColumnType}
    {records : List (List RowValue)}
    (typed : ∀ fields ∈ records, List.Forall₂ HasType (type :: types) fields) :
    (records.map fun fields => fields.map rowBinary).map (fun row => row.headD []) =
        (records.map fun fields => fields.headD .null).map rowBinary ∧
      (records.map fun fields => fields.map rowBinary).map List.tail =
        (records.map List.tail).map (fun fields => fields.map rowBinary) ∧
      (∀ value ∈ records.map fun fields => fields.headD .null, HasType type value) ∧
      ∀ fields ∈ records.map List.tail, List.Forall₂ HasType types fields := by
  have opened := records_opened typed
  constructor
  · rw [List.map_map, List.map_map]
    apply List.map_congr_left
    intro fields member
    obtain ⟨head, tail, rfl, _⟩ := opened fields member
    rfl
  constructor
  · rw [List.map_map, List.map_map]
    apply List.map_congr_left
    intro fields member
    obtain ⟨head, tail, rfl, _⟩ := opened fields member
    rfl
  constructor
  · intro value member
    obtain ⟨fields, held, rfl⟩ := List.mem_map.mp member
    obtain ⟨head, tail, rfl, headTyped, _⟩ := opened fields held
    exact headTyped
  · intro fields member
    obtain ⟨fields, held, rfl⟩ := List.mem_map.mp member
    obtain ⟨head, tail, rfl, _, tailTyped⟩ := opened fields held
    exact tailTyped

/-- The fields of a tuple read back one after the other, appended to the rows. -/
theorem readsBack_fields {types : List ColumnType} {records : List (List RowValue)}
    (typed : ∀ fields ∈ records, List.Forall₂ HasType types fields)
    (fits : FieldColumnsFit types (records.map fun fields => fields.map rowBinary))
    (each : ∀ type ∈ types, ∀ column : List RowValue, column.length = records.length →
      (∀ value ∈ column, HasType type value) → SubcolumnsFit type (column.map rowBinary) →
      ReadsBack (nested type column.length)
        (column.map fun value => (stored type value).rowBinary) mayFail
        (writeColValues type (column.map rowBinary)))
    {rows : ColumnData} (sized : rows.length = records.length) :
    ReadsBack (readTupleFields nested records.length types rows)
      (rows.zipWith (· ++ ·)
        (records.map fun fields => rowBinaries (storedFields types fields))) mayFail
      (writeFieldValues types (records.map fun fields => fields.map rowBinary)) := by
  induction types generalizing records rows with
  | nil =>
      have same : rows.zipWith (· ++ ·)
          (records.map fun fields => rowBinaries (storedFields [] fields)) = rows := by
        simp only [storedFields, rowBinaries]
        apply List.ext_getElem
        · simp [sized]
        · simp
      rw [same]
      exact Reader.Reads.pure rows
  | cons type types ih =>
      have opened := records_opened typed
      obtain ⟨heads, tails, columnTyped, restTyped⟩ := records_split typed
      let column := records.map fun fields => fields.headD .null
      let rest := records.map List.tail
      have columnSized : column.length = records.length := List.length_map _
      have restSized : rest.length = records.length := List.length_map _
      rw [FieldColumnsFit, heads, tails] at fits
      rw [writeFieldValues, heads, tails]
      have first := each type (by simp) column columnSized columnTyped fits.1
      cases written : writeColValues type (column.map rowBinary) with
      | error error =>
          rw [written] at first
          exact first
      | ok columnBytes =>
          rw [written] at first
          let cells := column.map fun value => (stored type value).rowBinary
          have cellsSized : rows.length = cells.length := by simp [cells, columnSized, sized]
          have grown : (rows.zipWith (· ++ ·) cells).length = rest.length := by
            simp [← cellsSized, restSized, sized]
          have later := ih restTyped fits.2
            (fun type member other otherSized => each type (by simp [member]) other
              (otherSized.trans restSized)) grown
          cases restWritten : writeFieldValues types
              (rest.map fun fields => fields.map rowBinary) with
          | error error =>
              rw [restWritten] at later
              exact later
          | ok restBytes =>
              rw [restWritten] at later
              have joined : rows.zipWith (· ++ ·)
                  (records.map fun fields => rowBinaries (storedFields (type :: types) fields)) =
                  (rows.zipWith (· ++ ·) cells).zipWith (· ++ ·)
                    (rest.map fun fields => rowBinaries (storedFields types fields)) := by
                rw [zipWith_append_assoc]
                congr 1
                simp only [cells, column, rest, List.map_map, List.zipWith_map,
                  List.zipWith_self]
                apply List.map_congr_left
                intro fields member
                obtain ⟨head, tail, rfl, _⟩ := opened fields member
                simp [storedFields]
              rw [joined, ← appendCells_of_length cellsSized]
              rw [columnSized] at first
              rw [restSized, ← appendCells_of_length cellsSized] at later
              exact Reader.Reads.bind first later

/-! ## Dictionary columns -/

theorem writeColValues_lowCardinality (inner : ColumnType) (cells : List Bytes) :
    writeColValues (.lowCardinality inner) cells =
      writeDictionary (dictionaryType inner).2 (dictionaryType inner).1
        (writeColValues (dictionaryType inner).1) cells := by
  cases inner <;> rfl

/-- The flag word and the index width of a dictionary are what the reader takes them
for. -/
theorem dictionaryIndexType_spec {size : Nat} (bounded : size < 2 ^ 32) :
    ∃ indexType width, dictionaryIndexType size = (indexType, width) ∧
      indexBytes indexType = .ok width ∧ (width = 1 ∨ width = 2 ∨ width = 4 ∨ width = 8) ∧
      size ≤ 256 ^ width ∧ (hasAdditionalKeys ||| indexType) % 4 = indexType ∧
      (hasAdditionalKeys ||| indexType).testBit 8 = false ∧
      (hasAdditionalKeys ||| indexType).testBit 9 = true ∧
      (hasAdditionalKeys ||| indexType) < 2 ^ 64 := by
  unfold dictionaryIndexType
  split
  · exact ⟨0, 1, rfl, rfl, by decide, by omega, by decide⟩
  · split
    · exact ⟨1, 2, rfl, rfl, by decide, by omega, by decide⟩
    · exact ⟨2, 4, rfl, rfl, by decide, by omega, by decide⟩

theorem reads_readIndex {width slot : Nat}
    (valid : width = 1 ∨ width = 2 ∨ width = 4 ∨ width = 8) (small : slot < 256 ^ width) :
    Reader.Reads (readIndex width) (natLe width slot) slot := by
  rw [readIndex, if_pos valid]
  have word : Reader.Reads (do
      let bytes ← readExact width
      pure (leNat bytes)) (natLe width slot) (leNat (natLe width slot)) :=
    (reads_readExact (length_natLe width slot)).bind_pure
  rwa [leNat_natLe_of_lt small] at word

/-- The data of a dictionary column with the given entries and slots. -/
def dictionaryBytes (dict : ColumnData) (slots : List Nat) : Bytes :=
  natLe 8 (hasAdditionalKeys ||| (dictionaryIndexType dict.length).1) ++
    natLe 8 dict.length ++ dict.flatten ++ natLe 8 slots.length ++
    slots.flatMap (natLe (dictionaryIndexType dict.length).2)

/-- A dictionary column reads back as the cells its slots select. -/
theorem reads_readLowCardinalityColumn {inner : ColumnType} {dict cells : ColumnData}
    {slots : List Nat} (small : slots.length < 2 ^ 64) (bounded : dict.length < 2 ^ 32)
    (dictRead : Reader.Reads (nested (dictionaryType inner).1 dict.length) dict.flatten dict)
    (inside : ∀ slot ∈ slots, slot < max dict.length 1)
    (found : List.Forall₂ (fun slot cell =>
      dictionaryCell dict (dictionaryType inner).2 slot = .ok cell) slots cells) :
    Reader.Reads (readLowCardinalityColumn nested slots.length inner)
      (dictionaryBytes dict slots) cells := by
  obtain ⟨indexType, width, selected, bytes, valid, wide, code, noGlobal, additional, flags⟩ :=
    dictionaryIndexType_spec bounded
  have indices : Reader.Reads (Reader.times (do
      let index ← readIndex width
      Reader.ofExcept (dictionaryCell dict (dictionaryType inner).2 index)) slots.length)
      (slots.flatMap (natLe width)) cells := by
    have parts : List.Forall₂ (Reader.Reads (do
        let index ← readIndex width
        Reader.ofExcept (dictionaryCell dict (dictionaryType inner).2 index)))
        (slots.map (natLe width)) cells := by
      rw [List.forall₂_map_left_iff]
      have each := (List.forall₂_and_left slots cells).mpr ⟨inside, found⟩
      refine each.imp fun slot cell both => ?_
      have positive : 0 < 256 ^ width := Nat.pow_pos (by decide)
      have slotSmall : slot < 256 ^ width := by
        have := both.1
        omega
      exact (reads_readIndex valid slotSmall).bind_ofExcept both.2
    have run := Reader.Reads.times parts
    rwa [← found.length_eq, ← List.flatMap_def] at run
  rw [dictionaryBytes, selected]
  simp only [List.append_assoc]
  unfold readLowCardinalityColumn
  apply (reads_readU64Le flags).bind
  rw [code, noGlobal, additional]
  generalize dictionaryType inner = dictionary at dictRead indices
  obtain ⟨dictType, isNullableInner⟩ := dictionary
  apply Reader.Reads.require_bind rfl
  apply Reader.Reads.require_bind rfl
  apply (reads_readU64Le (by omega)).bind
  apply dictRead.bind
  apply (reads_readU64Le small).bind
  apply Reader.Reads.require_bind rfl
  rw [bytes]
  exact indices

theorem rbWriteDefault_of_fixed {colType : ColumnType} {width : Nat}
    (fixed : colType.fixedSize = some width) :
    rbWriteDefault colType = List.replicate width 0 := by
  cases colType <;> cases fixed <;> rfl

/-- The default of a leaf type is the cell of one of its values. -/
theorem exists_default_of_leaf {colType : ColumnType} (leaf : colType.isLeaf = true) :
    ∃ default, HasType colType default ∧ default.rowBinary = rbWriteDefault colType := by
  rcases leaf_cases leaf with rfl | ⟨width, fixed⟩
  · exact ⟨.text [], ⟨[], rfl, Nat.zero_le _⟩, rfl⟩
  · refine ⟨.raw (List.replicate width 0), (hasType_of_fixed fixed).mpr ⟨_, rfl, ?_⟩, ?_⟩
    · rw [List.length_replicate]
    · rw [rbWriteDefault_of_fixed fixed, rowBinary]

theorem stored_lowCardinality_of_leaf {colType : ColumnType} (leaf : colType.isLeaf = true)
    {value : RowValue} (typed : HasType colType value) :
    stored (.lowCardinality colType) value = value := by
  rcases leaf_cases leaf with rfl | ⟨width, fixed⟩
  · obtain ⟨bytes, rfl, _⟩ := typed
    rfl
  · obtain ⟨bytes, rfl, _⟩ := (hasType_of_fixed fixed).mp typed
    rfl

/-- A key of a dictionary column is the cell of a value of the dictionary's type. -/
theorem hasType_of_dictionaryKey {inner : ColumnType} {value : RowValue} {key : Bytes}
    (typed : HasType (.lowCardinality inner) value)
    (keyed : dictionaryKey (dictionaryType inner).2 value.rowBinary = some key) :
    ∃ entry, HasType (dictionaryType inner).1 entry ∧ entry.rowBinary = key := by
  rcases dictionaryType_cases inner with ⟨type, rfl, split⟩ | split
  · rw [split] at keyed ⊢
    rcases typed with rfl | ⟨held, rfl, heldTyped⟩
    · simp [dictionaryKey, rowBinary] at keyed
    · refine ⟨held, heldTyped, ?_⟩
      simpa [dictionaryKey, rowBinary] using keyed
  · rw [split] at keyed ⊢
    exact ⟨value, typed, by simpa [dictionaryKey] using keyed⟩

/-- The slot of a value selects the cell the block keeps of it. -/
theorem dictionaryCell_of_holds {inner : ColumnType}
    (leaf : (dictionaryType inner).1.isLeaf = true) {dictionary : Dictionary}
    (consistent : dictionary.Consistent)
    (kept : (Dictionary.initial (dictionaryType inner).2 (dictionaryType inner).1).dict <+:
      dictionary.dict)
    {value : RowValue} (typed : HasType (.lowCardinality inner) value) {slot : Nat}
    (holds : Dictionary.Holds dictionary.dict
      (dictionaryKey (dictionaryType inner).2 value.rowBinary) slot) :
    slot < max dictionary.dict.length 1 ∧
      dictionaryCell dictionary.dict (dictionaryType inner).2 slot =
        .ok (stored (.lowCardinality inner) value).rowBinary := by
  rcases dictionaryType_cases inner with ⟨type, rfl, split⟩ | split
  · rw [split] at kept holds ⊢
    rcases typed with rfl | ⟨held, rfl, _⟩
    · have null : slot = 0 := holds
      subst null
      exact ⟨by omega, rfl⟩
    · have keyed : dictionaryKey true (rowBinary (.present held)) = some held.rowBinary := by
        simp [dictionaryKey, rowBinary]
      simp only [keyed, Dictionary.Holds] at holds
      obtain ⟨inside, entry⟩ := List.getElem?_eq_some_iff.mp holds
      refine ⟨by omega, ?_⟩
      obtain ⟨added, same⟩ := kept
      have first : dictionary.dict[0]? = some (rbWriteDefault type) := by
        rw [← same]
        rfl
      have only : slot = 0 ↔ held.rowBinary = rbWriteDefault type := by
        constructor
        · rintro rfl
          rw [holds] at first
          exact Option.some.inj first
        · intro isDefault
          rw [isDefault, ← first] at holds
          exact (List.getElem?_inj inside consistent.distinct).mp holds
      by_cases null : slot = 0
      · rw [stored, split, if_pos (only.mp null)]
        subst null
        rfl
      · rw [stored, split, if_neg fun isDefault => null (only.mpr isDefault)]
        simp [dictionaryCell, null, holds, rowBinary]
  · rw [split] at leaf holds ⊢
    have keyed : dictionaryKey false value.rowBinary = some value.rowBinary := rfl
    simp only [keyed, Dictionary.Holds] at holds
    obtain ⟨inside, _⟩ := List.getElem?_eq_some_iff.mp holds
    refine ⟨by omega, ?_⟩
    rw [stored_lowCardinality_of_leaf leaf typed]
    simp [dictionaryCell, holds]

theorem exists_map_rowBinary {colType : ColumnType} {cells : List Bytes}
    (each : ∀ cell ∈ cells, ∃ value, HasType colType value ∧ value.rowBinary = cell) :
    ∃ values : List RowValue, values.map rowBinary = cells ∧
      ∀ value ∈ values, HasType colType value := by
  induction cells with
  | nil => exact ⟨[], rfl, by simp⟩
  | cons cell cells ih =>
      obtain ⟨value, typed, rfl⟩ := each cell (by simp)
      obtain ⟨values, rfl, valuesTyped⟩ := ih fun cell member => each cell (by simp [member])
      refine ⟨value :: values, rfl, ?_⟩
      intro other member
      rcases List.mem_cons.mp member with rfl | later
      · exact typed
      · exact valuesTyped other later

/-- How the encoder lays out a dictionary column: the entries are cells of the
dictionary's type, and the slot of every value selects what the block keeps of it. -/
structure DictionaryLayout (inner : ColumnType) (values entries : List RowValue)
    (slots : List Nat) : Prop where
  typed : ∀ entry ∈ entries, HasType (dictionaryType inner).1 entry
  sized : entries.length ≤ (dictionaryEntries inner (values.map rowBinary)).length
  bounded : entries.length < 2 ^ 32
  seeded : (Dictionary.initial (dictionaryType inner).2 (dictionaryType inner).1).dict <+:
    entries.map rowBinary
  inside : ∀ slot ∈ slots, slot < max entries.length 1
  selected : List.Forall₂ (fun value slot =>
    dictionaryCell (entries.map rowBinary) (dictionaryType inner).2 slot =
      .ok (stored (.lowCardinality inner) value).rowBinary) values slots
  written : writeColValues (.lowCardinality inner) (values.map rowBinary) =
    .ok (dictionaryBytes (entries.map rowBinary) slots)

theorem exists_dictionaryLayout {inner : ColumnType}
    (leaf : (dictionaryType inner).1.isLeaf = true)
    (typed : ∀ value ∈ values, HasType (.lowCardinality inner) value)
    (fits : (dictionaryEntries inner (values.map rowBinary)).length < 2 ^ 32) :
    ∃ entries slots, DictionaryLayout inner values entries slots := by
  obtain ⟨slots, dictionary, interned, consistent, kept, holds, added⟩ :=
    Dictionary.internAll_spec (Dictionary.consistent_initial _ _) fits
  have entryTyped : ∀ cell ∈ dictionary.dict, ∃ entry,
      HasType (dictionaryType inner).1 entry ∧ entry.rowBinary = cell := by
    intro cell member
    rcases List.mem_append.mp (added cell member) with initial | keyed
    · unfold Dictionary.initial at initial
      split at initial
      · rw [List.mem_singleton.mp initial]
        exact exists_default_of_leaf leaf
      · cases initial
    · rw [List.reduceOption_mem_iff] at keyed
      obtain ⟨_, cells, keyed⟩ := List.mem_map.mp keyed
      obtain ⟨value, held, rfl⟩ := List.mem_map.mp cells
      exact hasType_of_dictionaryKey (typed value held) keyed
  obtain ⟨entries, same, entriesTyped⟩ := exists_map_rowBinary entryTyped
  have sized : entries.length = dictionary.dict.length := by rw [← same, List.length_map]
  have fewer : dictionary.dict.length ≤
      (dictionaryEntries inner (values.map rowBinary)).length :=
    (List.subperm_of_subset consistent.distinct fun entry member =>
      List.mem_dedup.mpr (added entry member)).length_le
  have bounded : dictionary.dict.length < 2 ^ 32 := Nat.lt_of_le_of_lt fewer fits
  have selected : List.Forall₂ (fun value slot =>
      slot < max dictionary.dict.length 1 ∧
        dictionaryCell dictionary.dict (dictionaryType inner).2 slot =
          .ok (stored (.lowCardinality inner) value).rowBinary) values slots := by
    rw [List.map_map, List.forall₂_map_left_iff] at holds
    have both := (List.forall₂_and_left values slots).mpr ⟨typed, holds⟩
    exact both.imp fun value slot facts =>
      dictionaryCell_of_holds leaf consistent kept facts.1 facts.2
  refine ⟨entries, slots, entriesTyped, sized ▸ fewer, sized ▸ bounded, same ▸ kept, ?_, ?_, ?_⟩
  · rw [sized]
    exact ((List.forall₂_and_left slots values).mp selected.flip).1
  · rw [same]
    exact ((List.forall₂_and_left slots values).mp selected.flip).2.flip
  · rw [same, writeColValues_lowCardinality, writeDictionary, interned]
    simp [bind, Except.bind, writeColValues_of_leaf leaf, pure, Except.pure, dictionaryBytes]

theorem reads_lowCardinality {inner : ColumnType}
    (leaf : (dictionaryType inner).1.isLeaf = true)
    (typed : ∀ value ∈ values, HasType (.lowCardinality inner) value)
    (small : values.length < 2 ^ 64)
    (fits : (dictionaryEntries inner (values.map rowBinary)).length < 2 ^ 32)
    (dictReads : ∀ entries : List RowValue,
      (∀ entry ∈ entries, HasType (dictionaryType inner).1 entry) →
      Reader.Reads (nested (dictionaryType inner).1 entries.length)
        (entries.map rowBinary).flatten (entries.map rowBinary)) :
    ∃ out, writeColValues (.lowCardinality inner) (values.map rowBinary) = .ok out ∧
      Reader.Reads (readLowCardinalityColumn nested values.length inner) out
        (values.map fun value => (stored (.lowCardinality inner) value).rowBinary) := by
  obtain ⟨entries, slots, layout⟩ := exists_dictionaryLayout leaf typed fits
  refine ⟨_, layout.written, ?_⟩
  have dictRead := dictReads entries layout.typed
  have lengths : entries.length = (entries.map rowBinary).length := (List.length_map _).symm
  rw [lengths] at dictRead
  rw [layout.selected.length_eq] at small ⊢
  apply reads_readLowCardinalityColumn small (by simpa using layout.bounded) dictRead
    (by simpa using layout.inside)
  rw [List.forall₂_map_right_iff]
  exact layout.selected.flip

end Composite

/-! ## Defaults of nullable columns -/

theorem isInsertable_of_plain {colType : ColumnType} (plain : colType.isPlain = true) :
    colType.isInsertable = true := by
  cases colType <;> first | exact plain | cases plain

theorem isInsertable_of_dictionaryType {inner : ColumnType}
    (plain : (dictionaryType inner).1.isPlain = true) : inner.isInsertable = true := by
  rcases dictionaryType_cases inner with ⟨type, rfl, split⟩ | split
  · rw [split] at plain
    have direct : type.admitsNull = false := by
      cases type <;> first | rfl | cases plain
    simp [ColumnType.isInsertable, direct, isInsertable_of_plain plain]
  · rw [split] at plain
    exact isInsertable_of_plain plain

theorem isInsertable_fixed {colType : ColumnType} {width : Nat}
    (fixed : colType.fixedSize = some width) (insertable : colType.isInsertable = true) :
    1 ≤ width := by
  have plain : colType.isPlain = true := by
    cases colType <;> first | exact insertable | cases fixed
  rcases plain_cases plain with rfl | ⟨width', fixed', positive⟩
  · cases fixed
  · rw [fixed] at fixed'
    cases fixed'
    exact positive

@[simp] theorem areInsertable_iff {types : List ColumnType} :
    ColumnType.areInsertable types = true ↔ ∀ type ∈ types, type.isInsertable = true := by
  induction types with
  | nil => simp [ColumnType.areInsertable]
  | cons head tail ih => simp [ColumnType.areInsertable, ih]

/-- Every insertable value takes at least one byte. -/
theorem rbAdvance_nil {colType : ColumnType} (insertable : colType.isInsertable = true) :
    ∃ error, rbAdvance colType [] = .error error := by
  induction colType using ColumnType.induction_forms with
  | fixed colType width fixed =>
      have positive := isInsertable_fixed fixed insertable
      rw [rbAdvance_of_fixed fixed]
      refine ⟨rbTruncated, Reader.bind_of_error ?_⟩
      rw [Reader.take, if_neg]
      exact Nat.not_le.mpr positive
  | lowCardinality inner ih => exact ih (isInsertable_of_dictionaryType insertable)
  | tuple types ih =>
      simp only [ColumnType.isInsertable, Bool.and_eq_true, areInsertable_iff] at insertable
      cases types with
      | nil => simp at insertable
      | cons head tail =>
          obtain ⟨error, failed⟩ := ih head (by simp) (insertable.2 head (by simp))
          exact ⟨error, Reader.bind_of_error failed⟩
  | string | json | nullable | array | map => exact ⟨rbTruncated, rfl⟩
  | newJson | dynamic | point | simpleAggregateFunction | variant => cases insertable

/-- A zero byte is walked over only as the cell of a value. -/
theorem rbAdvance_zero {colType : ColumnType} (insertable : colType.isInsertable = true)
    {rest : Bytes} (walked : rbAdvance colType [0] = .ok ((), rest)) :
    rest = [] ∧ ∃ value, HasType colType value ∧ value.rowBinary = [0] := by
  induction colType using ColumnType.induction_forms generalizing rest with
  | fixed colType width fixed =>
      have positive := isInsertable_fixed fixed insertable
      rw [rbAdvance_of_fixed fixed] at walked
      obtain ⟨bytes, middle, taken, finished⟩ := Reader.bind_ok_iff.mp walked
      obtain ⟨split, sized⟩ := Reader.take_ok_iff.mp taken
      cases finished
      have lengths : 1 = bytes.length + rest.length := by
        rw [← List.length_append, ← split]
        rfl
      have ended : rest = [] := List.length_eq_zero_iff.mp (by omega)
      subst ended
      rw [List.append_nil] at split
      exact ⟨rfl, .raw bytes, (hasType_of_fixed fixed).mpr ⟨bytes, rfl, sized⟩, split.symm⟩
  | string | json =>
      cases walked
      exact ⟨rfl, .text [], ⟨[], rfl, Nat.zero_le _⟩, rfl⟩
  | nullable inner ih =>
      simp only [ColumnType.isInsertable, Bool.and_eq_true] at insertable
      obtain ⟨error, failed⟩ := rbAdvance_nil insertable.2
      have present : rbAdvance (.nullable inner) [0] = rbAdvance inner [] := rfl
      rw [present, failed] at walked
      cases walked
  | lowCardinality inner ih => exact ih (isInsertable_of_dictionaryType insertable) walked
  | array inner ih =>
      cases walked
      exact ⟨rfl, .list [], ⟨[], rfl, by decide, by simp⟩, rfl⟩
  | map keyType valType =>
      cases walked
      exact ⟨rfl, .list [], ⟨[], rfl, by decide, by simp⟩, rfl⟩
  | tuple types ih =>
      simp only [ColumnType.isInsertable, Bool.and_eq_true, areInsertable_iff] at insertable
      match types, ih, insertable, walked with
      | head :: tail, ih, insertable, walked =>
          obtain ⟨⟨⟩, middle, headWalked, tailWalked⟩ := Reader.bind_ok_iff.mp walked
          obtain ⟨rfl, value, typed, zero⟩ :=
            ih head (by simp) (insertable.2 head (by simp)) headWalked
          cases tail with
          | nil =>
              cases tailWalked
              refine ⟨rfl, .record [value], ⟨[value], rfl, value, [], rfl, typed, rfl⟩, ?_⟩
              simp [rowBinary, rowBinaries, zero]
          | cons next others =>
              obtain ⟨error, failed⟩ := rbAdvance_nil (insertable.2 next (by simp))
              rw [rbAdvanceFields, Reader.bind_of_error failed] at tailWalked
              cases tailWalked
  | newJson | dynamic | point | simpleAggregateFunction | variant => cases insertable

theorem rbAdvanceFields_of_rbCells {types : List ColumnType} {input rest : Bytes}
    {cells : List Bytes} (sliced : rbCells types input = .ok (cells, rest)) :
    rbAdvanceFields types input = .ok ((), rest) := by
  induction types generalizing input cells with
  | nil =>
      cases sliced
      rfl
  | cons head tail ih =>
      obtain ⟨cell, middle, headRead, sliced⟩ := Reader.bind_ok_iff.mp sliced
      obtain ⟨others, _, tailRead, finished⟩ := Reader.bind_ok_iff.mp sliced
      cases finished
      rw [rbCell, Reader.consumed] at headRead
      cases walked : rbAdvance head input with
      | error error => simp [walked] at headRead
      | ok result =>
          obtain ⟨⟨⟩, next⟩ := result
          simp only [walked, Except.ok.injEq, Prod.mk.injEq] at headRead
          rw [rbAdvanceFields, Reader.bind_of_ok walked, headRead.2]
          exact ih tailRead

/-- The default the encoder fills a NULL slot with is the cell of a value, or it is
the default of a tuple and cannot be cut into fields. -/
theorem default_cases {inner : ColumnType} (insertable : inner.isInsertable = true)
    (direct : inner.admitsNull = false) :
    (∃ default, HasType inner default ∧ default.rowBinary = rbWriteDefault inner) ∨
      ∃ types error, inner = .tuple types ∧
        rbCells types (rbWriteDefault inner) = .error error := by
  cases inner with
  | json => exact .inl ⟨.text [], ⟨[], rfl, Nat.zero_le _⟩, rfl⟩
  | array inner | map keyType valType =>
      exact .inl ⟨.list [], ⟨[], rfl, by decide, by simp⟩, rfl⟩
  | lowCardinality inner =>
      rcases dictionaryType_cases inner with ⟨type, rfl, _⟩ | split
      · cases direct
      · rw [ColumnType.isInsertable, split] at insertable
        obtain ⟨default, typed, same⟩ := exists_default_of_leaf (isLeaf_of_plain insertable)
        exact .inl ⟨default, typed, same⟩
  | tuple types =>
      cases sliced : rbCells types (rbWriteDefault (.tuple types)) with
      | error error => exact .inr ⟨types, error, rfl, sliced⟩
      | ok result =>
          obtain ⟨_, value, typed, zero⟩ :=
            rbAdvance_zero insertable (rbAdvanceFields_of_rbCells sliced)
          exact .inl ⟨value, typed, zero⟩
  | nullable inner => cases direct
  | newJson | dynamic | point | simpleAggregateFunction | variant => cases insertable
  | _ => exact .inl (exists_default_of_leaf (isLeaf_of_plain insertable))

/-- A NULL whose default cannot be cut into the fields of its tuple fails the column. -/
theorem writeColValues_nullable_error {types : List ColumnType} {error : Error}
    {values : List RowValue} (typed : ∀ value ∈ values, HasType (.nullable (.tuple types)) value)
    (uncut : rbCells types (rbWriteDefault (.tuple types)) = .error error)
    (null : .null ∈ values) :
    ∃ error, writeColValues (.nullable (.tuple types)) (values.map rowBinary) =
      .error error := by
  have slot : rbWriteDefault (.tuple types) ∈
      values.map (nullableSlot (rbWriteDefault (.tuple types))) :=
    List.mem_map.mpr ⟨.null, null, rfl⟩
  obtain ⟨error, failed⟩ := sliceCells_error slot uncut
  refine ⟨error, ?_⟩
  simp only [writeColValues, splitNullable_map _ typed, bind, Except.bind, List.map_map,
    Function.comp_def]
  simp only [failed]

/-! ## All levels -/

theorem readColumnLevels_succ {levels : Nat} (inner : levels < maxReadDepth)
    (colType : ColumnType) (count : Nat) :
    readColumnLevels (levels + 1) colType count =
      readColumnStep (readColumnLevels levels) colType count := by
  rw [readColumnLevels, if_neg]
  omega

theorem ReadsBack.mono {reader : ByteReader ColumnData} {cells : ColumnData}
    {mayFail mayFail' : Prop} {outcome : Except Error Bytes} (weaker : mayFail → mayFail')
    (reads : ReadsBack reader cells mayFail outcome) :
    ReadsBack reader cells mayFail' outcome := by
  cases outcome with
  | ok out => exact reads
  | error error => exact weaker reads

theorem nullsTuple_nullable {inner : ColumnType} (nulls : inner.nullsTuple = true) :
    (ColumnType.nullable inner).nullsTuple = true := by
  cases inner <;> first | rfl | exact nulls

theorem nullTuples_of_mem {types : List ColumnType} {type : ColumnType}
    (member : type ∈ types) (nulls : type.nullsTuple = true) :
    ColumnType.nullTuples types = true := by
  induction types with
  | nil => cases member
  | cons head tail ih =>
      rw [ColumnType.nullTuples, Bool.or_eq_true]
      rcases List.mem_cons.mp member with rfl | later
      · exact .inl nulls
      · exact .inr (ih later)

/-- What the encoder writes for a column of typed values reads back as the values the
block stores, at every level that leaves room for the type's nesting. -/
def ColumnReadsBack (colType : ColumnType) : Prop :=
  ∀ (levels : Nat) (values : List RowValue), colType.nesting ≤ levels → levels ≤ maxReadDepth →
    (∀ value ∈ values, HasType colType value) → values.length < 2 ^ 64 →
    SubcolumnsFit colType (values.map rowBinary) →
    ReadsBack (readColumnStep (readColumnLevels levels) colType values.length)
      (values.map fun value => (stored colType value).rowBinary)
      (colType.nullsTuple = true) (writeColValues colType (values.map rowBinary))

section Levels

variable {levels : Nat} {values : List RowValue}

/-- The same one level down, inside a composite type. -/
theorem ColumnReadsBack.nested {colType : ColumnType} (column : ColumnReadsBack colType)
    (deep : colType.nesting < levels) (shallow : levels ≤ maxReadDepth)
    (typed : ∀ value ∈ values, HasType colType value) (small : values.length < 2 ^ 64)
    (fits : SubcolumnsFit colType (values.map rowBinary)) :
    ReadsBack (readColumnLevels levels colType values.length)
      (values.map fun value => (stored colType value).rowBinary)
      (colType.nullsTuple = true) (writeColValues colType (values.map rowBinary)) := by
  cases levels with
  | zero => omega
  | succ levels =>
      rw [readColumnLevels_succ (by omega)]
      exact column levels values (by omega) (by omega) typed small fits

theorem columnReadsBack_plain {colType : ColumnType} (plain : colType.isPlain = true) :
    ColumnReadsBack colType := by
  intro levels values _ _ typed _ _
  have leaf := isLeaf_of_plain plain
  rw [writeColValues_of_leaf leaf]
  simp only [stored_of_leaf leaf]
  exact reads_leaf _ leaf typed

/-- A value for the NULL slots is only needed where there are NULLs. -/
theorem columnReadsBack_filled {inner : ColumnType} (column : ColumnReadsBack inner)
    (deep : inner.nesting < levels) (shallow : levels ≤ maxReadDepth)
    (typed : ∀ value ∈ values, HasType (.nullable inner) value)
    (small : values.length < 2 ^ 64)
    (fits : SubcolumnsFit (.nullable inner) (values.map rowBinary)) (default : RowValue)
    (filled : ∀ value ∈ values, value = .null →
      HasType inner default ∧ default.rowBinary = rbWriteDefault inner) :
    ReadsBack (readColumnStep (readColumnLevels levels) (.nullable inner) values.length)
      (values.map fun value => (stored (.nullable inner) value).rowBinary)
      ((ColumnType.nullable inner).nullsTuple = true)
      (writeColValues (.nullable inner) (values.map rowBinary)) := by
  have heldTyped : ∀ held ∈ values.map (heldOr default), HasType inner held := by
    intro held member
    obtain ⟨value, original, rfl⟩ := List.mem_map.mp member
    rcases typed value original with rfl | ⟨held, rfl, heldTyped⟩
    · exact (filled .null original rfl).1
    · exact heldTyped
  have defaults : ∀ value ∈ values, value = .null →
      default.rowBinary = rbWriteDefault inner :=
    fun value member null => (filled value member null).2
  have innerFits : SubcolumnsFit inner ((values.map (heldOr default)).map rowBinary) := by
    have sub := fits _ (splitNullable_map _ typed)
    rw [List.map_map] at sub
    rw [← nullableSlot_eq typed defaults]
    exact sub
  have inside := column.nested deep shallow heldTyped (by simpa using small) innerFits
  rw [List.length_map] at inside
  exact readsBack_nullable default typed defaults (inside.mono nullsTuple_nullable)

theorem columnReadsBack_nullable {inner : ColumnType}
    (insertable : inner.isInsertable = true) (direct : inner.admitsNull = false)
    (column : ColumnReadsBack inner) : ColumnReadsBack (.nullable inner) := by
  intro levels values deep shallow typed small fits
  have room : inner.nesting < levels := by
    rw [ColumnType.nesting] at deep
    exact deep
  rcases default_cases insertable direct with
    ⟨default, defaultTyped, same⟩ | ⟨types, error, rfl, uncut⟩
  · exact columnReadsBack_filled column room shallow typed small fits default
      fun _ _ _ => ⟨defaultTyped, same⟩
  · by_cases null : .null ∈ values
    · obtain ⟨error, failed⟩ := writeColValues_nullable_error typed uncut null
      rw [failed]
      rfl
    · apply columnReadsBack_filled column room shallow typed small fits .null
      rintro value member rfl
      exact absurd member null

theorem columnReadsBack_lowCardinality {inner : ColumnType}
    (leaf : (dictionaryType inner).1.isLeaf = true) :
    ColumnReadsBack (.lowCardinality inner) := by
  intro levels values deep shallow typed small fits
  rw [ColumnType.nesting] at deep
  have dictReads : ∀ entries : List RowValue,
      (∀ entry ∈ entries, HasType (dictionaryType inner).1 entry) →
      Reader.Reads (readColumnLevels levels (dictionaryType inner).1 entries.length)
        (entries.map rowBinary).flatten (entries.map rowBinary) := by
    intro entries entriesTyped
    obtain ⟨below, rfl⟩ : ∃ below, levels = below + 1 := ⟨levels - 1, by omega⟩
    rw [readColumnLevels_succ (by omega)]
    exact reads_leaf _ leaf entriesTyped
  obtain ⟨out, written, reads⟩ := reads_lowCardinality leaf typed small fits dictReads
  rw [written]
  exact reads

theorem columnReadsBack_array {inner : ColumnType} (column : ColumnReadsBack inner) :
    ColumnReadsBack (.array inner) := by
  intro levels values deep shallow typed small fits
  rw [ColumnType.nesting] at deep
  have sub := fits _ (sliceCells_map fun value member => reads_arrayElements (typed value member))
  rw [flatten_map_elements, List.length_map] at sub
  have elementsTyped : ∀ element ∈ values.flatMap elements, HasType inner element := by
    intro element member
    obtain ⟨value, held, inside⟩ := List.mem_flatMap.mp member
    obtain ⟨elements, rfl, _, each⟩ := typed value held
    exact each element inside
  exact readsBack_array typed sub.1 (column.nested deep shallow elementsTyped sub.1 sub.2)

theorem columnReadsBack_map {keyType valType : ColumnType}
    (keyColumn : ColumnReadsBack keyType) (valColumn : ColumnReadsBack valType) :
    ColumnReadsBack (.map keyType valType) := by
  intro levels values deep shallow typed small fits
  rw [ColumnType.nesting] at deep
  have sub := fits _ (sliceCells_map fun value member => reads_mapEntries (typed value member))
  rw [flatten_map_elements, List.length_map, List.map_map, List.map_map] at sub
  have entriesTyped : ∀ entry ∈ values.flatMap elements,
      HasType keyType entry.entryKey ∧ HasType valType entry.entryValue := by
    intro entry member
    obtain ⟨value, held, inside⟩ := List.mem_flatMap.mp member
    obtain ⟨entries, rfl, _, each⟩ := typed value held
    obtain ⟨key, mapped, rfl, keyTyped, mappedTyped⟩ := each entry inside
    exact ⟨keyTyped, mappedTyped⟩
  have keysTyped : ∀ key ∈ (values.flatMap elements).map entryKey, HasType keyType key := by
    intro key member
    obtain ⟨entry, inside, rfl⟩ := List.mem_map.mp member
    exact (entriesTyped entry inside).1
  have valsTyped : ∀ held ∈ (values.flatMap elements).map entryValue,
      HasType valType held := by
    intro held member
    obtain ⟨entry, inside, rfl⟩ := List.mem_map.mp member
    exact (entriesTyped entry inside).2
  have keys := keyColumn.nested (by omega) shallow keysTyped (by simpa using sub.1)
    (by rw [List.map_map]; exact sub.2.1)
  have vals := valColumn.nested (by omega) shallow valsTyped (by simpa using sub.1)
    (by rw [List.map_map]; exact sub.2.2)
  rw [List.length_map] at keys vals
  apply readsBack_map typed sub.1 (keys.mono _) (vals.mono _)
  · intro nulls
    simp [ColumnType.nullsTuple, nulls]
  · intro nulls
    simp [ColumnType.nullsTuple, nulls]

theorem columnReadsBack_tuple {types : List ColumnType}
    (columns : ∀ type ∈ types, ColumnReadsBack type) : ColumnReadsBack (.tuple types) := by
  intro levels values deep shallow typed small fits
  rw [ColumnType.nesting] at deep
  have fieldsTyped : ∀ value ∈ values, ∃ fields, value = .record fields ∧
      List.Forall₂ HasType types fields := by
    intro value member
    obtain ⟨fields, rfl, each⟩ := typed value member
    exact ⟨fields, rfl, fieldsHaveType_iff.mp each⟩
  have sliced : sliceCells (rbCells types) (values.map rowBinary) =
      .ok (values.map fun value => value.fields.map rowBinary) := by
    apply sliceCells_map
    intro value member
    obtain ⟨fields, rfl, each⟩ := fieldsTyped value member
    exact reads_rbCells each
  have records : (values.map fun value => value.fields.map rowBinary) =
      (values.map fields).map fun fields => fields.map rowBinary := by
    rw [List.map_map]
    rfl
  have recordsTyped : ∀ row ∈ values.map fields, List.Forall₂ HasType types row := by
    intro row member
    obtain ⟨value, held, rfl⟩ := List.mem_map.mp member
    obtain ⟨fields, rfl, each⟩ := fieldsTyped value held
    exact each
  have sub : FieldColumnsFit types _ := fits _ sliced
  rw [records] at sub
  have each : ∀ type ∈ types, ∀ column : List RowValue,
      column.length = (values.map fields).length →
      (∀ value ∈ column, HasType type value) → SubcolumnsFit type (column.map rowBinary) →
      ReadsBack (readColumnLevels levels type column.length)
        (column.map fun value => (stored type value).rowBinary)
        (ColumnType.nullTuples types = true) (writeColValues type (column.map rowBinary)) := by
    intro type member column sized columnTyped columnFits
    have nested := ColumnType.nesting_le_nestingList member
    rw [List.length_map] at sized
    exact ((columns type member).nested (by omega) shallow columnTyped (by omega)
      columnFits).mono (nullTuples_of_mem member)
  have empty : (List.replicate values.length ([] : Bytes)).length =
      (values.map fields).length := by simp
  have reads := readsBack_fields recordsTyped sub each empty
  have cells : (List.replicate values.length ([] : Bytes)).zipWith (· ++ ·)
      ((values.map fields).map fun fields => rowBinaries (storedFields types fields)) =
      values.map fun value => (stored (.tuple types) value).rowBinary := by
    apply List.ext_getElem
    · simp
    · intro index inside inValues
      simp only [List.length_map] at inValues
      obtain ⟨fields, same, _⟩ := fieldsTyped values[index] (List.getElem_mem inValues)
      simp [same, stored, rowBinary, RowValue.fields]
  rw [cells, List.length_map] at reads
  simp only [writeColValues, sliced, bind, Except.bind, records]
  exact reads

end Levels

/-- Every insertable column reads back. -/
theorem columnReadsBack {colType : ColumnType} (insertable : colType.isInsertable = true) :
    ColumnReadsBack colType := by
  induction colType using ColumnType.induction_forms with
  | fixed colType width fixed =>
      have plain : colType.isPlain = true := by
        cases colType <;> first | exact insertable | cases fixed
      exact columnReadsBack_plain plain
  | string => exact columnReadsBack_plain rfl
  | json =>
      intro levels values _ _ typed _ _
      exact reads_readStringColumn typed
  | nullable inner ih =>
      simp only [ColumnType.isInsertable, Bool.and_eq_true, Bool.not_eq_true'] at insertable
      exact columnReadsBack_nullable insertable.2 insertable.1 (ih insertable.2)
  | lowCardinality inner => exact columnReadsBack_lowCardinality (isLeaf_of_plain insertable)
  | array inner ih => exact columnReadsBack_array (ih insertable)
  | map keyType valType keyIh valIh =>
      simp only [ColumnType.isInsertable, Bool.and_eq_true] at insertable
      exact columnReadsBack_map (keyIh insertable.1) (valIh insertable.2)
  | tuple types ih =>
      simp only [ColumnType.isInsertable, Bool.and_eq_true, areInsertable_iff] at insertable
      exact columnReadsBack_tuple fun type member => ih type member (insertable.2 type member)
  | newJson | dynamic | point | simpleAggregateFunction | variant => cases insertable

end DfeClickhouse.Native
