import DfeClickhouse.Native.CellValues
import DfeClickhouse.Native.Decode

/-!
# Shapes of decoded columns

What the data phase can return for a type and a row count, said once: how the lengths
of masks, offsets, indices and child columns hang together.  Empty columns and expanded
sparse columns have the same shapes, so every column of a decoded block has the shape
its announced type and the block's rows prescribe.
-/

namespace DfeClickhouse.Native

open Library

/-- The columns that hold one value per row in one list. -/
def DecodedColumn.isFlat : DecodedColumn → Bool
  | .fixedString .. | .nullable .. | .array .. | .lowCardinality .. | .tuple _ | .map ..
  | .unsupported _ => false
  | _ => true

/-- The columns that hold dictionary indices. -/
def DecodedColumn.isIndex : DecodedColumn → Bool
  | .uInt8 _ | .uInt16 _ | .uInt32 _ | .uInt64 _ => true
  | _ => false

/-- The types without a typed column of their own. -/
def ColumnType.isUntyped : ColumnType → Bool
  | .bFloat16 | .time | .time64 | .point => true
  | _ => false

/-- The types decoded to one value per row in one list. -/
def ColumnType.isFlat : ColumnType → Bool
  | .fixedString _ | .bFloat16 | .time | .time64 | .point | .nullable _ | .lowCardinality _
  | .simpleAggregateFunction _ | .array _ | .tuple _ | .map .. => false
  | _ => true

/-- What decoding `count` rows of a type can return. -/
inductive Shape : ColumnType → Nat → DecodedColumn → Prop
  | flat {colType : ColumnType} {count : Nat} {column : DecodedColumn}
      (typed : colType.isFlat = true) (held : column.isFlat = true)
      (rows : column.rowCount = count) : Shape colType count column
  | fixedString {width count : Nat} {bytes : Bytes} (sized : bytes.length = count * width) :
      Shape (.fixedString width) count (.fixedString width bytes)
  | untyped {colType : ColumnType} {count : Nat} (untyped : colType.isUntyped = true) :
      Shape colType count (.unsupported colType.debug)
  | nullable {inner : ColumnType} {count : Nat} {mask : Bytes} {child : DecodedColumn}
      (sized : mask.length = count) (inside : Shape inner count child) :
      Shape (.nullable inner) count (.nullable mask child)
  | array {inner : ColumnType} {count : Nat} {offsets : List Nat} {child : DecodedColumn}
      (sized : offsets.length = count) (ordered : offsets.Pairwise (· ≤ ·))
      (inside : Shape inner (offsets.getLast?.getD 0) child) :
      Shape (.array inner) count (.array offsets child)
  | map {keyType valType : ColumnType} {count : Nat} {offsets : List Nat}
      {keys values : DecodedColumn} (sized : offsets.length = count)
      (ordered : offsets.Pairwise (· ≤ ·))
      (keysInside : Shape keyType (offsets.getLast?.getD 0) keys)
      (valuesInside : Shape valType (offsets.getLast?.getD 0) values) :
      Shape (.map keyType valType) count (.map offsets keys values)
  | tuple {types : List ColumnType} {count : Nat} {columns : List DecodedColumn}
      (sized : columns.length = types.length)
      (each : ∀ (field : Nat) type column, types[field]? = some type →
        columns[field]? = some column → Shape type count column) :
      Shape (.tuple types) count (.tuple columns)
  | lowCardinality {inner : ColumnType} {count size : Nat} {dict indices : DecodedColumn}
      (entries : Shape (dictionaryType inner).1 size dict) (index : indices.isIndex = true)
      (rows : indices.rowCount = count) :
      Shape (.lowCardinality inner) count (.lowCardinality dict indices (dictionaryType inner).2)
  | simpleAggregateFunction {inner : ColumnType} {count : Nat} {column : DecodedColumn}
      (inside : Shape inner count column) : Shape (.simpleAggregateFunction inner) count column

theorem yields_readBulk (overflow : String) (count width : Nat) :
    Reader.Yields (readBulk overflow count width) fun raw => raw.length = count * width :=
  Reader.Yields.after fun _ => yields_readExact (count * width)

theorem yields_readLeColumn {width : Nat} (positive : 0 < width) (count : Nat) :
    Reader.Yields (readLeColumn width count) fun values => values.length = count := by
  refine (yields_readBulk _ count width).bind fun raw sized => Reader.Yields.pure ?_
  rw [List.length_map, chunksExact_of_length positive sized, length_chunks]

theorem yields_readU256Column (count : Nat) :
    Reader.Yields (readU256Column count) fun values => values.length = count := by
  refine (yields_readBulk _ count 32).bind fun raw sized => Reader.Yields.pure ?_
  rw [chunksExact_of_length (by decide) sized, length_chunks]

theorem yields_readByteColumn (count : Nat) :
    Reader.Yields (readByteColumn count) fun values => values.length = count :=
  (yields_readExact count).bind fun raw sized => Reader.Yields.pure (by rw [List.length_map, sized])

/-- A list of values, one per row, put into a flat column. -/
theorem yields_flat {α : Type} {colType : ColumnType} {count : Nat} {reader : ByteReader (List α)}
    {build : List α → DecodedColumn} (typed : colType.isFlat = true)
    (held : ∀ values, (build values).isFlat = true)
    (rows : ∀ values, (build values).rowCount = values.length)
    (yields : Reader.Yields reader fun values => values.length = count) :
    Reader.Yields (build <$> reader) (Shape colType count) :=
  Reader.Yields.map (yields.mono fun values counted =>
    .flat typed (held values) ((rows values).trans counted))

/-- The types the leaf decoder is used for. -/
def ColumnType.isDecodedLeaf : ColumnType → Bool
  | .nullable _ | .lowCardinality _ | .simpleAggregateFunction _ | .array _ | .tuple _ | .map ..
  | .newJson | .variant _ | .dynamic => false
  | _ => true

theorem yields_decodeLeaf {colType : ColumnType} (leaf : colType.isDecodedLeaf = true)
    (count : Nat) : Reader.Yields (decodeLeaf colType count) (Shape colType count) := by
  cases colType with
  | uInt8 | int8 | enum8 =>
      exact yields_flat rfl (fun _ => rfl) (fun _ => rfl) (yields_readByteColumn count)
  | uInt16 | int16 | enum16 | uInt32 | int32 | uInt64 | int64 | int128 | uInt128 | float32 | float64
  | decimal32 | decimal64 | decimal128 | date | date32 | dateTime | dateTime64 | iPv4 =>
      exact yields_flat rfl (fun _ => rfl) (fun _ => rfl) (yields_readLeColumn (by decide) count)
  | int256 | uInt256 | decimal256 =>
      exact yields_flat rfl (fun _ => rfl) (fun _ => rfl) (yields_readU256Column count)
  | string | json | uuid | iPv6 =>
      exact yields_flat rfl (fun _ => rfl) (fun _ => rfl) (.times_length _ count)
  | fixedString width =>
      exact Reader.Yields.map ((yields_readBulk _ count width).mono fun _ sized =>
        .fixedString sized)
  | bFloat16 | time | time64 | point =>
      exact Reader.Yields.after fun _ => Reader.Yields.pure (.untyped rfl)
  | _ => cases leaf

theorem shape_documents {colType : ColumnType} {count : Nat} {documents : List Bytes}
    (typed : colType.isFlat = true) (counted : documents.length = count) :
    Shape colType count (.json documents) :=
  .flat typed rfl counted

/-- Stripping the length prefixes keeps the number of documents. -/
theorem yields_unwrapJsonCells {cells : ColumnData} {count : Nat} (texts : AreTexts count cells) :
    Reader.Yields (Reader.ofExcept (unwrapJsonCells cells) : ByteReader (List Bytes))
      fun documents => documents.length = count := by
  apply Reader.Yields.ofExcept
  intro documents unwrapped
  rw [← (Reader.mapM_ok_iff.mp unwrapped).length_eq, texts.1]

theorem yields_readMonotoneOffsets (what : String) (count prev : Nat) :
    Reader.Yields (readMonotoneOffsets what count prev) fun offsets =>
      offsets.length = count ∧ offsets.Pairwise (· ≤ ·) ∧ ∀ offset ∈ offsets, prev ≤ offset := by
  induction count generalizing prev with
  | zero => exact Reader.Yields.pure (by simp)
  | succ count ih =>
      rw [readMonotoneOffsets]
      refine Reader.Yields.after fun stop => (Reader.Yields.require _).bind fun _ above => ?_
      refine (ih stop).bind fun offsets each => Reader.Yields.pure ?_
      obtain ⟨counted, ordered, later⟩ := each
      refine ⟨by simp [counted], List.pairwise_cons.mpr ⟨later, ordered⟩, ?_⟩
      intro offset member
      rcases List.mem_cons.mp member with rfl | member
      · exact above
      · exact Nat.le_trans above (later offset member)

/-- A decoder of the next nesting level returns the shapes of its types. -/
def NestedShapes (nested : ColumnDecoder) : Prop :=
  ∀ colType count headers,
    Reader.Yields (nested colType count headers) fun result => Shape colType count result.1

section Composite

variable {nested : ColumnDecoder} {count : Nat}

theorem yields_decodeFields (shapes : NestedShapes nested) (types : List ColumnType)
    (headers : List DynamicHeader) :
    Reader.Yields (decodeFields nested count types headers) fun result =>
      List.Forall₂ (fun type column => Shape type count column) types result.1 := by
  induction types generalizing headers with
  | nil => exact Reader.Yields.pure .nil
  | cons type types ih =>
      rw [decodeFields]
      refine (shapes type count headers).bind fun first shape => ?_
      refine (ih first.2).bind fun later rest => ?_
      exact Reader.Yields.pure (.cons shape rest)

theorem shape_tuple {types : List ColumnType} {columns : List DecodedColumn}
    (each : List.Forall₂ (fun type column => Shape type count column) types columns) :
    Shape (.tuple types) count (.tuple columns) := by
  refine .tuple each.length_eq.symm ?_
  intro field type column typed held
  rw [List.forall₂_iff_get] at each
  obtain ⟨typeInside, rfl⟩ := List.getElem?_eq_some_iff.mp typed
  obtain ⟨columnInside, rfl⟩ := List.getElem?_eq_some_iff.mp held
  exact each.2 field typeInside columnInside

theorem yields_decodeIndices (indexType count : Nat) :
    Reader.Yields (decodeIndices indexType count) fun indices =>
      indices.isIndex = true ∧ indices.rowCount = count := by
  unfold decodeIndices
  split
  · exact (yields_readByteColumn count).bind fun _ counted => Reader.Yields.pure ⟨rfl, counted⟩
  · exact (yields_readLeColumn (by decide) count).bind fun _ counted =>
      Reader.Yields.pure ⟨rfl, counted⟩
  · exact (yields_readLeColumn (by decide) count).bind fun _ counted =>
      Reader.Yields.pure ⟨rfl, counted⟩
  · exact (yields_readLeColumn (by decide) count).bind fun _ counted =>
      Reader.Yields.pure ⟨rfl, counted⟩
  · exact Reader.Yields.fail _ _

theorem yields_decodeLowCardinality (shapes : NestedShapes nested) (inner : ColumnType)
    (headers : List DynamicHeader) :
    Reader.Yields (decodeLowCardinality nested inner count headers) fun result =>
      Shape (.lowCardinality inner) count result.1 := by
  refine Reader.Yields.after fun flags => Reader.Yields.after fun _ => Reader.Yields.after fun _ =>
    Reader.Yields.after fun size => ?_
  refine (shapes (dictionaryType inner).1 size headers).bind fun dict entries => ?_
  refine Reader.Yields.after fun _ => Reader.Yields.after fun _ => ?_
  refine (yields_decodeIndices (flags % 4) count).bind fun indices ⟨index, rows⟩ => ?_
  exact Reader.Yields.pure (.lowCardinality entries index rows)

theorem yields_decodeColumnStep (shapes : NestedShapes nested) (depth : Nat) (colType : ColumnType)
    (count : Nat) (headers : List DynamicHeader) :
    Reader.Yields (decodeColumnStep nested depth colType count headers) fun result =>
      Shape colType count result.1 := by
  cases colType with
  | nullable inner =>
      exact (yields_readExact count).bind fun _ sized => (shapes inner count headers).bind
        fun _ inside => Reader.Yields.pure (.nullable sized inside)
  | array inner =>
      refine (yields_readMonotoneOffsets "Array" count 0).bind fun _ ⟨sized, ordered, _⟩ => ?_
      exact (shapes inner _ headers).bind fun _ inside =>
        Reader.Yields.pure (.array sized ordered inside)
  | tuple types =>
      exact (yields_decodeFields shapes types headers).bind fun _ each =>
        Reader.Yields.pure (shape_tuple each)
  | map keyType valType =>
      refine (yields_readMonotoneOffsets "Map" count 0).bind fun _ ⟨sized, ordered, _⟩ => ?_
      exact (shapes keyType _ headers).bind fun _ keys => (shapes valType _ _).bind
        fun _ values => Reader.Yields.pure (.map sized ordered keys values)
  | lowCardinality inner => exact yields_decodeLowCardinality shapes inner headers
  | simpleAggregateFunction inner =>
      exact (shapes inner count headers).mono fun _ inside => .simpleAggregateFunction inside
  | newJson =>
      refine Reader.Yields.after fun version => ?_
      split
      · exact (Reader.Yields.times_length readString count).bind fun _ counted =>
          Reader.Yields.pure (shape_documents rfl counted)
      · refine (yields_readJsonBody version).bind fun cells texts => ?_
        exact (yields_unwrapJsonCells texts).bind fun _ counted =>
          Reader.Yields.pure (shape_documents rfl counted)
  | variant types =>
      have texts : Reader.Yields (readColumnData (.variant types) count) (AreTexts count) := by
        refine (yields_readColumnAt (.variant types) count 0).mono fun cells areCells => ?_
        refine ⟨areCells.1, fun cell member => ?_⟩
        obtain ⟨_, ⟨bytes, rfl⟩, rfl⟩ := areCells.2 cell member
        exact ⟨bytes, rfl⟩
      refine texts.bind fun cells texts => ?_
      exact (yields_unwrapJsonCells texts).bind fun _ counted =>
        Reader.Yields.pure (shape_documents rfl counted)
  | dynamic =>
      cases headers with
      | nil => exact Reader.Yields.fail _ _
      | cons header headers =>
          refine (yields_readDynamicV1v2Body header).bind fun cells texts => ?_
          exact (yields_unwrapJsonCells texts).bind fun _ counted =>
            Reader.Yields.pure (shape_documents rfl counted)
  | _ => exact (yields_decodeLeaf rfl count).bind fun _ shape => Reader.Yields.pure shape

end Composite

@[simp] theorem emptyColumns_eq_map (types : List ColumnType) :
    emptyColumns types = types.map emptyColumn := by
  induction types with
  | nil => rfl
  | cons type types ih => rw [emptyColumns, ih, List.map_cons]

theorem shape_emptyColumn (colType : ColumnType) : Shape colType 0 (emptyColumn colType) := by
  induction size : sizeOf colType using Nat.strongRecOn generalizing colType with
  | ind _ ih =>
      subst size
      have smaller : ∀ child, sizeOf child < sizeOf colType → Shape child 0 (emptyColumn child) :=
        fun child below => ih _ below child rfl
      have child : ∀ child ∈ colType.children, Shape child 0 (emptyColumn child) :=
        fun inner member => smaller inner (ColumnType.sizeOf_lt_of_mem_children member)
      cases colType with
      | nullable inner => exact .nullable rfl (child inner (by simp [ColumnType.children]))
      | array inner => exact .array rfl .nil (child inner (by simp [ColumnType.children]))
      | map keyType valType =>
          exact .map rfl .nil (child keyType (by simp [ColumnType.children]))
            (child valType (by simp [ColumnType.children]))
      | simpleAggregateFunction inner =>
          exact .simpleAggregateFunction (child inner (by simp [ColumnType.children]))
      | tuple types =>
          rw [emptyColumn, emptyColumns_eq_map]
          refine .tuple (List.length_map _) ?_
          intro field type column typed held
          rw [List.getElem?_map, typed] at held
          obtain rfl : emptyColumn type = column := Option.some.inj held
          exact child type (List.mem_of_getElem? typed)
      | lowCardinality inner =>
          rcases dictionaryType_cases inner with ⟨type, rfl, split⟩ | same
          · have entries : Shape (dictionaryType (.nullable type)).1 0 (emptyColumn type) :=
              smaller type (by simp; omega)
            exact .lowCardinality entries rfl rfl
          · have entries : Shape (dictionaryType inner).1 0 (emptyColumn inner) := by
              rw [same]
              exact child inner (by simp [ColumnType.children])
            have column : emptyColumn (.lowCardinality inner) =
                .lowCardinality (emptyColumn inner) (.uInt8 []) (dictionaryType inner).2 := by
              cases inner <;> first | rfl | cases same
            rw [column]
            exact .lowCardinality entries rfl rfl
      | fixedString width => exact .fixedString (by simp)
      | bFloat16 | time | time64 | point => exact .untyped rfl
      | _ => exact .flat rfl rfl rfl

theorem nestedShapes_levels (levels : Nat) : NestedShapes (decodeColumnLevels levels) := by
  induction levels with
  | zero =>
      intro colType count headers
      exact Reader.Yields.fail _ _
  | succ levels ih =>
      intro colType count headers
      rw [decodeColumnLevels]
      split
      · rename_i top
        apply Reader.Yields.pure
        rw [top.2]
        exact shape_emptyColumn colType
      · exact yields_decodeColumnStep ih _ colType count headers

theorem yields_decodeColumn (colType : ColumnType) (count depth : Nat)
    (headers : List DynamicHeader) :
    Reader.Yields (decodeColumn colType count depth headers) fun result =>
      Shape colType count result.1 :=
  nestedShapes_levels _ colType count headers

@[simp] theorem length_foldl_set {α : Type} (pairs : List (α × Nat)) (column : List α) :
    (pairs.foldl (fun column (value, row) => column.set row value) column).length =
      column.length := by
  induction pairs generalizing column with
  | nil => rfl
  | cons pair pairs ih => rw [List.foldl_cons, ih, List.length_set]

@[simp, grind =]
theorem length_scatterValues {α : Type} (values : List α) (positions : List Nat) (numRows : Nat)
    (default : α) :
      (DecodedColumn.scatterValues values positions numRows default).length = numRows := by
  rw [DecodedColumn.scatterValues, length_foldl_set, List.length_replicate]

theorem length_copyInto {buffer slice : Bytes} {offset : Nat}
    (inside : offset + slice.length ≤ buffer.length) :
    (DecodedColumn.copyInto buffer offset slice).length = buffer.length := by
  simp only [DecodedColumn.copyInto, List.length_append, List.length_take, List.length_drop]
  omega

/-- Copying slices of one width into the rows of a buffer keeps its length. -/
theorem length_scatterBytes {width numRows : Nat} (bytes : Bytes) {rows : List (Nat × Nat)}
    (inside : ∀ row ∈ rows, row.1 < numRows) {buffer : Bytes}
    (sized : buffer.length = numRows * width) :
    (rows.foldl (fun out (row, index) => DecodedColumn.copyInto out (row * width)
      ((bytes.drop (index * width)).take width)) buffer).length = numRows * width := by
  induction rows generalizing buffer with
  | nil => exact sized
  | cons row rows ih =>
      rw [List.foldl_cons]
      apply ih fun row member => inside row (by simp [member])
      have below : (row.1 + 1) * width ≤ numRows * width :=
        Nat.mul_le_mul_right width (inside row (by simp))
      rw [Nat.succ_mul] at below
      rw [length_copyInto, sized]
      rw [List.length_take, sized]
      omega

theorem expandSparse_flat {column result : DecodedColumn} {positions : List Nat} {numRows : Nat}
    (flat : column.isFlat = true) (expanded : column.expandSparse positions numRows = .ok result) :
    result.isFlat = true ∧ result.rowCount = numRows := by
  unfold DecodedColumn.expandSparse at expanded
  split at expanded
  · cases expanded
  · split at expanded
    · cases expanded
    · cases column <;> first
        | cases flat; done
        | (cases expanded; exact ⟨rfl, length_scatterValues _ _ _ _⟩)

/-- Expanding a sparse column gives a column of the same type for all rows. -/
theorem Shape.expandSparse {colType : ColumnType} {count numRows : Nat}
    {column result : DecodedColumn}
    {positions : List Nat} (shape : Shape colType count column)
    (expanded : column.expandSparse positions numRows = .ok result) :
    Shape colType numRows result := by
  induction shape with
  | flat typed held rows =>
      obtain ⟨flat, counted⟩ := expandSparse_flat held expanded
      exact .flat typed flat counted
  | simpleAggregateFunction inside ih => exact .simpleAggregateFunction (ih expanded)
  | @fixedString width count bytes sized =>
      unfold DecodedColumn.expandSparse at expanded
      split at expanded
      · cases expanded
      · split at expanded
        · cases expanded
        · rename_i inside
          simp only at expanded
          split at expanded
          · cases expanded
            refine .fixedString (length_scatterBytes bytes ?_ (by simp))
            intro row member
            have position := List.find?_eq_none.mp inside row.1 (by
              obtain ⟨_, _, same⟩ := List.mem_zipIdx member
              rw [same]
              exact List.getElem_mem _)
            simpa using position
          · cases expanded
  | untyped | nullable | array | map | tuple | lowCardinality =>
      unfold DecodedColumn.expandSparse at expanded
      split at expanded
      · cases expanded
      · split at expanded <;> cases expanded

/-- The data of one column of a block, after its prefixes. -/
def decodeColumnData (colType : ColumnType) (numRows : Nat) (sparse : Bool)
    (headers : List DynamicHeader) : ByteReader DecodedColumn :=
  if sparse ∧ numRows > 0 then do
    let (positions, _) ← readSparseOffsets numRows {}
    let (dense, _) ← decodeColumn colType positions.length 0 headers
    Reader.ofExcept (dense.expandSparse positions numRows)
  else do
    let (column, _) ← decodeColumn colType numRows 0 headers
    pure column

theorem decodeColumnPayload_eq (colType : ColumnType) (numRows : Nat) (sparse : Bool) :
    decodeColumnPayload colType numRows sparse =
      ((if numRows > 0 then decodePrefixes colType else pure []) >>=
        decodeColumnData colType numRows sparse) := by
  unfold decodeColumnPayload
  by_cases rows : numRows > 0
  · simp only [if_pos rows]
    rfl
  · simp only [if_neg rows]
    rfl

/-- One column of a block, after its header. -/
def decodeAnnounced (numRows : Nat) (name typeName : String) (sparse : Bool) :
    ByteReader ((String × String) × DecodedColumn) :=
  match ColumnType.parse typeName with
  | none => Reader.fail (.badResponse ("native: server announced unknown column type '" ++
      typeName ++ "' for column '" ++ name ++ "'"))
  | some colType => do
      let column ← decodeColumnPayload colType numRows sparse
      pure ((name, typeName), column)

theorem decodeBlockColumn_eq (numRows serverRevision : Nat) :
    decodeBlockColumn numRows serverRevision = (do
      let name ← readUtf8String
      let typeName ← readUtf8String
      let sparse ← (if serverRevision ≥ customSerializationRevision then readSerializationKind name
        else pure false : ByteReader Bool)
      decodeAnnounced numRows name typeName sparse) := by
  unfold decodeBlockColumn
  by_cases custom : serverRevision ≥ customSerializationRevision
  · simp only [if_pos custom]
    rfl
  · simp only [if_neg custom]
    rfl

theorem yields_decodeColumnPayload (colType : ColumnType) (numRows : Nat) (sparse : Bool) :
    Reader.Yields (decodeColumnPayload colType numRows sparse) (Shape colType numRows) := by
  rw [decodeColumnPayload_eq]
  refine Reader.Yields.after fun headers => ?_
  unfold decodeColumnData
  split
  · refine Reader.Yields.after fun offsets => ?_
    refine (yields_decodeColumn colType offsets.1.length 0 headers).bind fun dense shape => ?_
    exact Reader.Yields.ofExcept fun column expanded => shape.expandSparse expanded
  · exact (yields_decodeColumn colType numRows 0 headers).bind fun _ shape =>
      Reader.Yields.pure shape

/-- A decoded column has the shape of its announced type. -/
def IsAnnounced (numRows : Nat) (entry : (String × String) × DecodedColumn) : Prop :=
  ∃ colType, ColumnType.parse entry.1.2 = some colType ∧ Shape colType numRows entry.2

theorem yields_decodeBlockColumn (numRows serverRevision : Nat) :
    Reader.Yields (decodeBlockColumn numRows serverRevision) (IsAnnounced numRows) := by
  rw [decodeBlockColumn_eq]
  refine Reader.Yields.after fun name => Reader.Yields.after fun typeName =>
    Reader.Yields.after fun sparse => ?_
  unfold decodeAnnounced
  split
  · exact Reader.Yields.fail _ _
  · rename_i colType parsed
    exact (yields_decodeColumnPayload colType numRows sparse).bind fun column shape =>
      Reader.Yields.pure ⟨colType, parsed, shape⟩

/-- The columns of a decoded block go with its schema, entry by entry. -/
theorem yields_decodeBlock (numColumns numRows serverRevision : Nat) :
    Reader.Yields (decodeBlock numColumns numRows serverRevision) fun block =>
      block.numRows = numRows ∧ ∃ entries : List ((String × String) × DecodedColumn),
        block.schema = entries.map Prod.fst ∧ block.columns = entries.map Prod.snd ∧
          ∀ entry ∈ entries, IsAnnounced numRows entry := by
  refine Reader.Yields.after fun _ => Reader.Yields.after fun _ => ?_
  refine ((yields_decodeBlockColumn numRows serverRevision).times numColumns).bind
    fun entries ⟨_, each⟩ => ?_
  exact Reader.Yields.pure ⟨rfl, entries, rfl, rfl, each⟩

end DfeClickhouse.Native
