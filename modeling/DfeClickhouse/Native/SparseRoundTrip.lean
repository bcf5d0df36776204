import DfeClickhouse.Native.BlockRoundTrip
import DfeClickhouse.Native.SparseOffsets

/-!
# Sparse columns read back

Writing the group sizes of some rows and then only the values of these rows loses
nothing as long as every other row holds the default: the decoder returns the column
it returns for the dense values.  The offset loop, the dense read sized by the number
of listed values and the scatter are each undone on their own, the last two for every
scalar type through the items its column holds.
-/

namespace DfeClickhouse.Native

open Library RowValue

/-- The group sizes of the listed rows from `start` on, the last one with the end flag. -/
def writeSparseOffsets (numRows : Nat) : Nat → List Nat → Bytes
  | start, [] => encodeVarUint (endOfGranuleFlag ||| (numRows - start))
  | start, row :: rows => encodeVarUint (row - start) ++ writeSparseOffsets numRows (row + 1) rows

/-- The defaults before each listed row. -/
def gapsFrom : Nat → List Nat → List Nat
  | _, [] => []
  | start, row :: rows => (row - start) :: gapsFrom (row + 1) rows

/-- The row after the last listed one. -/
def endFrom : Nat → List Nat → Nat
  | start, [] => start
  | _, row :: rows => endFrom (row + 1) rows

theorem length_writeSparseOffsets (numRows start : Nat) (rows : List Nat) :
    rows.length < (writeSparseOffsets numRows start rows).length := by
  induction rows generalizing start with
  | nil => exact List.length_pos_iff.mpr (encodeVarUint_ne_nil _)
  | cons row rows ih =>
      have group := List.length_pos_iff.mpr (encodeVarUint_ne_nil (row - start))
      have later := ih (row + 1)
      rw [writeSparseOffsets, List.length_append, List.length_cons]
      omega

theorem reads_writeSparseOffsets {numRows : Nat} (small : numRows < 2 ^ 62) {fuel start : Nat}
    {rows : List Nat} (enough : rows.length < fuel) (inside : ∀ row ∈ rows, row < numRows) :
    Reader.Reads (readOffsetGroupsWithin fuel) (writeSparseOffsets numRows start rows)
      ⟨gapsFrom start rows, numRows - endFrom start rows⟩ := by
  induction rows generalizing fuel start with
  | nil =>
      obtain ⟨fuel, rfl⟩ := Nat.exists_eq_succ_of_ne_zero (Nat.ne_of_gt enough)
      have trailing : numRows - start < 2 ^ 62 := by omega
      have joined : endOfGranuleFlag ||| (numRows - start) = 2 ^ 62 + (numRows - start) := by
        have := Nat.two_pow_add_eq_or_of_lt trailing 1
        rw [Nat.mul_one] at this
        exact this.symm
      have flagged : (2 ^ 62 + (numRows - start)).testBit 62 = true := by
        rw [Nat.testBit_two_pow_add_eq, Nat.testBit_lt_two_pow trailing]
        rfl
      have group : Reader.Reads readVarUint (writeSparseOffsets numRows start [])
          (2 ^ 62 + (numRows - start)) := by
        rw [writeSparseOffsets, joined]
        exact reads_readVarUint (by omega)
      intro rest
      rw [readOffsetGroupsWithin, Reader.bind_of_ok (group rest), if_pos flagged, Reader.pure_run]
      simp [gapsFrom, endFrom, endOfGranuleFlag]
  | cons row rows ih =>
      obtain ⟨fuel, rfl⟩ := Nat.exists_eq_succ_of_ne_zero
        (Nat.ne_of_gt (Nat.lt_of_le_of_lt (Nat.zero_le _) enough))
      have gap : row - start < 2 ^ 62 := by
        have := inside row (by simp)
        omega
      have plain : (row - start).testBit 62 = false := Nat.testBit_lt_two_pow gap
      rw [readOffsetGroupsWithin, writeSparseOffsets]
      refine (reads_readVarUint (Nat.lt_trans gap (by decide))).bind ?_
      rw [plain]
      exact (ih (Nat.lt_of_succ_lt_succ enough) fun row member =>
        inside row (by simp [member])).bind_pure

/-- The gaps before increasing rows lead back to these rows. -/
theorem placeValues_gapsFrom {numRows start : Nat} {rows : List Nat} (small : numRows < 2 ^ 64)
    (increasing : rows.Pairwise (· < ·)) (after : ∀ row ∈ rows, start ≤ row)
    (inside : ∀ row ∈ rows, row < numRows) (trailing : Nat) (carried : Bool) :
    (placeValues numRows trailing start carried (gapsFrom start rows)).1 = rows := by
  induction rows generalizing start with
  | nil => rfl
  | cons row rows ih =>
      have from_start := after row (by simp)
      have below := inside row (by simp)
      have reached : (start + (row - start)) % 2 ^ 64 = row := by
        rw [Nat.add_sub_of_le from_start, Nat.mod_eq_of_lt (Nat.lt_trans below small)]
      obtain ⟨above, increasing⟩ := List.pairwise_cons.mp increasing
      have later := ih increasing (fun later member => above later member)
        fun row member => inside row (by simp [member])
      simp only [gapsFrom, placeValues, reached, if_pos below, later]

theorem readSparseOffsets_writeSparseOffsets {numRows : Nat} {rows : List Nat}
    (small : numRows < 2 ^ 62) (increasing : rows.Pairwise (· < ·))
    (inside : ∀ row ∈ rows, row < numRows) (rest : Bytes) :
    ∃ state, readSparseOffsets numRows {} (writeSparseOffsets numRows 0 rows ++ rest) =
      .ok ((rows, state), rest) := by
  have enough : rows.length < (writeSparseOffsets numRows 0 rows ++ rest).length + 1 := by
    have := length_writeSparseOffsets numRows 0 rows
    rw [List.length_append]
    omega
  have groups : readOffsetGroups (writeSparseOffsets numRows 0 rows ++ rest) =
      .ok (⟨gapsFrom 0 rows, numRows - endFrom 0 rows⟩, rest) :=
    reads_writeSparseOffsets small enough inside rest
  have placed := placeValues_gapsFrom (Nat.lt_trans small (by decide)) increasing
    (fun row _ => Nat.zero_le row) inside (numRows - endFrom 0 rows) false
  refine ⟨(placeValues numRows (numRows - endFrom 0 rows) 0 false (gapsFrom 0 rows)).2, ?_⟩
  rw [readSparseOffsets_eq, Reader.bind_of_ok groups, Reader.pure_run]
  exact congrArg (fun positions => Except.ok ((positions, _), rest)) placed

/-- The items of the listed rows. -/
def listedAt {α : Type} (items : List α) (rows : List Nat) : List α :=
  rows.filterMap fun row => items[row]?

theorem listedAt_cons {α : Type} {items : List α} {row : Nat} (inside : row < items.length)
    (rows : List Nat) : listedAt items (row :: rows) = items[row] :: listedAt items rows := by
  rw [listedAt, List.filterMap_cons, List.getElem?_eq_getElem inside]
  rfl

theorem length_listedAt {α : Type} {items : List α} {rows : List Nat}
    (inside : ∀ row ∈ rows, row < items.length) : (listedAt items rows).length = rows.length := by
  induction rows with
  | nil => rfl
  | cons row rows ih =>
      rw [listedAt_cons (inside row (by simp)), List.length_cons, List.length_cons,
        ih fun row member => inside row (by simp [member])]

@[simp, grind =]
theorem listedAt_map {α β : Type} (change : α → β) (items : List α) (rows : List Nat) :
    listedAt (items.map change) rows = (listedAt items rows).map change := by
  simp only [listedAt, List.map_filterMap, List.getElem?_map]

theorem mem_of_mem_listedAt {α : Type} {items : List α} {rows : List Nat} {item : α}
    (member : item ∈ listedAt items rows) : item ∈ items := by
  obtain ⟨_, _, at_row⟩ := List.mem_filterMap.mp member
  exact List.mem_of_getElem? at_row

/-- Writing the listed items over a column sets their rows and keeps the others. -/
theorem getElem?_scatter {α : Type} {items column : List α} {rows : List Nat}
    (sized : column.length = items.length) (inside : ∀ row ∈ rows, row < items.length)
      (at_row : Nat) :
    (((listedAt items rows).zip rows).foldl (fun column (item, row) => column.set row item)
      column)[at_row]? = if at_row ∈ rows then items[at_row]? else column[at_row]? := by
  induction rows generalizing column with
  | nil => simp [listedAt]
  | cons row rows ih =>
      have below := inside row (by simp)
      rw [listedAt_cons below, List.zip_cons_cons, List.foldl_cons,
        ih (by rw [List.length_set, sized]) fun row member => inside row (by simp [member])]
      by_cases later : at_row ∈ rows
      · simp [later]
      · by_cases same : at_row = row
        · subst same
          simp [later, below, sized]
        · simp [later, same, List.getElem?_set_ne (Ne.symm same)]

/-- The scatter gives back every item when the rows that are not listed hold the
default. -/
theorem scatterValues_listedAt {α : Type} {items : List α} {rows : List Nat} {default : α}
    (inside : ∀ row ∈ rows, row < items.length)
    (unlisted : ∀ (row : Nat) item, items[row]? = some item → row ∉ rows → item = default) :
    DecodedColumn.scatterValues (listedAt items rows) rows items.length default = items := by
  apply List.ext_getElem?
  intro row
  rw [DecodedColumn.scatterValues, getElem?_scatter (List.length_replicate) inside]
  split
  · rfl
  · rename_i absent
    by_cases below : row < items.length
    · have held := List.getElem?_eq_getElem below
      rw [held, unlisted row _ held absent, List.getElem?_replicate, if_pos below]
    · rw [List.getElem?_eq_none (by simpa using below),
        List.getElem?_eq_none (by simpa using below)]

/-- The scalar types with a typed column. -/
def ColumnType.isTypedScalar : ColumnType → Bool
  | .json => true
  | colType => colType.isPlain

/-- How the columns of a scalar type are made of items, one for each row: they are read
back from the cells of their rows, and a sparse column is the scatter of its items. -/
structure ItemForm (colType : ColumnType) (α : Type) where
  build : List α → DecodedColumn
  item : RowValue → α
  default : α
  reads : ∀ values : List RowValue, (∀ value ∈ values, HasType colType value) →
    (values.map rowBinary).flatten.length < addressSpace →
    Reader.Reads (decodeLeaf colType values.length) (values.map rowBinary).flatten
      (build (values.map item))
  empty : emptyColumn colType = build []
  counts : ∀ values : List RowValue, (∀ value ∈ values, HasType colType value) →
    (build (values.map item)).rowCount = values.length
  cells : ∀ values : List RowValue, (∀ value ∈ values, HasType colType value) → ∀ row,
    (build (values.map item)).cell row = (values[row]?).map rowBinary
  defaults : ∀ value, HasType colType value → value.rowBinary = rbWriteDefault colType →
    item value = default
  scatters : ∀ (values : List RowValue) (rows : List Nat) (numRows : Nat),
    (∀ value ∈ values, HasType colType value) →
    values.length = rows.length → (∀ row ∈ rows, row < numRows) →
    (∀ width, colType.fixedSize = some width → numRows * width < addressSpace) →
    (build (values.map item)).expandSparse rows numRows =
      .ok (build (DecodedColumn.scatterValues (values.map item) rows numRows default))

/-- The bytes of a fixed-width value. -/
def RowValue.rawBytes : RowValue → Bytes
  | .raw bytes => bytes
  | _ => []

/-- The bytes of a length-prefixed value. -/
def RowValue.textBytes : RowValue → Bytes
  | .text bytes => bytes
  | _ => []

section Fixed

variable {colType : ColumnType} {width : Nat} {values : List RowValue}

theorem rowBinary_eq_rawBytes (fixed : colType.fixedSize = some width)
    {value : RowValue} (typed : HasType colType value) :
    value.rowBinary = value.rawBytes ∧ value.rawBytes.length = width := by
  obtain ⟨bytes, rfl, sized⟩ := (hasType_of_fixed fixed).mp typed
  exact ⟨rfl, sized⟩

theorem map_rowBinary_eq (fixed : colType.fixedSize = some width)
    (typed : ∀ value ∈ values, HasType colType value) :
    values.map rowBinary = values.map rawBytes := by
  apply List.map_congr_left
  intro value member
  exact (rowBinary_eq_rawBytes fixed (typed value member)).1

theorem sized_rawBytes (fixed : colType.fixedSize = some width)
    (typed : ∀ value ∈ values, HasType colType value) :
    ∀ cell ∈ values.map rawBytes, cell.length = width := by
  intro cell member
  obtain ⟨value, held, rfl⟩ := List.mem_map.mp member
  exact (rowBinary_eq_rawBytes fixed (typed value held)).2

theorem reads_readBulk (overflow : String) {cells : List Bytes}
    (sized : ∀ cell ∈ cells, cell.length = width)
    (fits : cells.flatten.length < addressSpace) :
    Reader.Reads (readBulk overflow cells.length width) cells.flatten cells.flatten := by
  have length := length_flatten_of_sized sized
  rw [length] at fits
  exact Reader.Reads.require_bind fits (reads_readExact length)

theorem reads_readLeColumn (positive : 0 < width) {cells : List Bytes}
    (sized : ∀ cell ∈ cells, cell.length = width) (fits : cells.flatten.length < addressSpace) :
    Reader.Reads (readLeColumn width cells.length) cells.flatten
      (cells.map (scalarOfBytes width)) := by
  have run : Reader.Reads (readLeColumn width cells.length) cells.flatten
      ((chunksExact width cells.flatten).map (scalarOfBytes width)) :=
    (reads_readBulk _ sized fits).bind_pure
  rwa [chunksExact_of_length positive (length_flatten_of_sized sized), chunks_flatten sized] at run

theorem reads_readByteColumn {cells : List Bytes} (sized : ∀ cell ∈ cells, cell.length = 1) :
    Reader.Reads (readByteColumn cells.length) cells.flatten (cells.map (scalarOfBytes 1)) := by
  have length : cells.flatten.length = cells.length := by
    rw [length_flatten_of_sized sized, Nat.mul_one]
  have run : Reader.Reads (readByteColumn cells.length) cells.flatten
      (cells.flatten.map UInt8.toBitVec) :=
    (reads_readExact length).bind_pure
  have same : cells.flatten.map UInt8.toBitVec = cells.map (scalarOfBytes 1) := by
    clear length run
    induction cells with
    | nil => rfl
    | cons cell cells ih =>
        obtain ⟨byte, rfl⟩ := List.length_eq_one_iff.mp (sized cell (by simp))
        rw [List.flatten_cons, List.map_append, ih fun cell member => sized cell (by simp [member])]
        simp [scalarOfBytes, leNat]
  rwa [same] at run

theorem reads_readU256Column {cells : List Bytes} (sized : ∀ cell ∈ cells, cell.length = 32)
    (fits : cells.flatten.length < addressSpace) :
    Reader.Reads (readU256Column cells.length) cells.flatten cells := by
  have run : Reader.Reads (readU256Column cells.length) cells.flatten
      (chunksExact 32 cells.flatten) :=
    (reads_readBulk _ sized fits).bind_pure
  rwa [chunksExact_of_length (by decide) (length_flatten_of_sized sized),
    chunks_flatten sized] at run

/-- Columns of fixed-width values, each held as an item that stands for its bytes. -/
def ItemForm.fixed {α : Type} (fixed : colType.fixedSize = some width) (encode : α → Bytes)
    (decode : Bytes → α) (build : List α → DecodedColumn) (default : α)
    (inverse : ∀ bytes, bytes.length = width → encode (decode bytes) = bytes)
    (zero : decode (List.replicate width 0) = default)
    (reads : ∀ cells : List Bytes, (∀ cell ∈ cells, cell.length = width) →
      cells.flatten.length < addressSpace →
      Reader.Reads (decodeLeaf colType cells.length) cells.flatten (build (cells.map decode)))
    (empty : emptyColumn colType = build [])
    (counts : ∀ items, (build items).rowCount = items.length)
    (cells : ∀ items row, (build items).cell row = (items[row]?).map encode)
    (scatters : ∀ items rows numRows, (build items).rowCount = rows.length →
      (∀ row ∈ rows, row < numRows) → (build items).expandSparse rows numRows =
        .ok (build (DecodedColumn.scatterValues items rows numRows default))) :
    ItemForm colType α where
  build := build
  item value := decode value.rawBytes
  default := default
  reads values typed fits := by
    rw [map_rowBinary_eq fixed typed] at fits ⊢
    have run := reads (values.map rawBytes) (sized_rawBytes fixed typed) fits
    rwa [List.length_map, List.map_map] at run
  empty := empty
  counts values _ := by rw [counts, List.length_map]
  cells values typed row := by
    rw [cells, List.getElem?_map, Option.map_map]
    cases held : values[row]? with
    | none => rfl
    | some value =>
        obtain ⟨same, sized⟩ :=
          rowBinary_eq_rawBytes fixed (typed value (List.mem_of_getElem? held))
        exact congrArg some ((inverse _ sized).trans same.symm)
  defaults value typed isDefault := by
    rw [rbWriteDefault_of_fixed fixed, (rowBinary_eq_rawBytes fixed typed).1] at isDefault
    rw [isDefault, zero]
  scatters values rows numRows _ listed inside _ :=
    scatters _ rows numRows (by rw [counts, List.length_map, listed]) inside

end Fixed

/-- The empty text is the only one that is written as a zero. -/
theorem eq_nil_of_putString {bytes : Bytes} (written : putString bytes = encodeVarUint 0) :
    bytes = [] := by
  have lengths := congrArg List.length written
  have header := List.length_pos_iff.mpr (encodeVarUint_ne_nil bytes.length)
  have one : (encodeVarUint 0).length = 1 := rfl
  rw [putString, List.length_append, one] at lengths
  apply List.eq_nil_of_length_eq_zero
  omega

/-- Columns of length-prefixed values. -/
def ItemForm.texts {colType : ColumnType}
    (texts : ∀ value, HasType colType value ↔ ∃ bytes, value = .text bytes ∧
      bytes.length ≤ maxStringSize)
    (zero : rbWriteDefault colType = encodeVarUint 0) (build : List Bytes → DecodedColumn)
    (decodes : ∀ count, decodeLeaf colType count = build <$> Reader.times readString count)
    (empty : emptyColumn colType = build [])
    (counts : ∀ items, (build items).rowCount = items.length)
    (cells : ∀ items row, (build items).cell row = (items[row]?).map putString)
    (scatters : ∀ items rows numRows, (build items).rowCount = rows.length →
      (∀ row ∈ rows, row < numRows) → (build items).expandSparse rows numRows =
        .ok (build (DecodedColumn.scatterValues items rows numRows []))) :
    ItemForm colType Bytes where
  build := build
  item := textBytes
  default := []
  reads values typed _ := by
    rw [decodes]
    apply Reader.Reads.map
    apply Reader.Reads.times_map
    intro value member
    obtain ⟨bytes, rfl, capped⟩ := (texts value).mp (typed value member)
    exact reads_readString capped
  empty := empty
  counts values _ := by rw [counts, List.length_map]
  cells values typed row := by
    rw [cells, List.getElem?_map, Option.map_map]
    cases held : values[row]? with
    | none => rfl
    | some value =>
        obtain ⟨bytes, rfl, _⟩ := (texts value).mp (typed value (List.mem_of_getElem? held))
        rfl
  defaults value typed isDefault := by
    obtain ⟨bytes, rfl, _⟩ := (texts value).mp typed
    rw [zero] at isDefault
    exact eq_nil_of_putString isDefault
  scatters values rows numRows _ listed inside _ :=
    scatters _ rows numRows (by rw [counts, List.length_map, listed]) inside

section Buffer

variable {width : Nat} {column : List Bytes}

theorem copyInto_flatten (sized : ∀ cell ∈ column, cell.length = width) {row : Nat}
    (inside : row < column.length) {slice : Bytes} (fits : slice.length = width) :
    DecodedColumn.copyInto column.flatten (row * width) slice = (column.set row slice).flatten := by
  have before : (column.take row).flatten.length = row * width := by
    rw [length_flatten_of_sized fun cell member => sized cell (List.mem_of_mem_take member),
      List.length_take, Nat.min_eq_left (Nat.le_of_lt inside)]
  have split : column.flatten =
      ((column.take row).flatten ++ column[row]) ++ (column.drop (row + 1)).flatten := by
    conv_lhs => rw [← List.take_append_drop row column, List.drop_eq_getElem_cons inside]
    rw [List.flatten_append, List.flatten_cons, List.append_assoc]
  have upTo : ((column.take row).flatten ++ column[row]).length = row * width + slice.length := by
    rw [List.length_append, before, sized _ (List.getElem_mem inside), fits]
  rw [DecodedColumn.copyInto, split, List.drop_left' upTo, List.append_assoc _ column[row],
    List.take_left' before, List.set_eq_take_append_cons_drop, if_pos inside, List.flatten_append,
    List.flatten_cons, List.append_assoc]

/-- Copying the slices of a buffer to their rows scatters the cells it is made of. -/
theorem scatterBytes_flatten {items : List Bytes} (itemSized : ∀ item ∈ items, item.length = width)
    {rows : List Nat} (sized : ∀ cell ∈ column, cell.length = width)
    (inside : ∀ row ∈ rows, row < column.length) {start : Nat}
    (enough : start + rows.length = items.length) :
    (rows.zipIdx start).foldl (fun out (row, index) => DecodedColumn.copyInto out (row * width)
        ((items.flatten.drop (index * width)).take width)) column.flatten =
      (((items.drop start).zip rows).foldl (fun column (item, row) => column.set row item)
        column).flatten := by
  induction rows generalizing start column with
  | nil => simp
  | cons row rows ih =>
      rw [List.length_cons] at enough
      have below : start < items.length := by omega
      have slice : (items.flatten.drop (start * width)).take width = items[start] := by
        have cut : (chunks width items.length items.flatten)[start]? =
            some ((items.flatten.drop (start * width)).take width) := getElem?_chunks below
        rw [chunks_flatten itemSized, List.getElem?_eq_getElem below] at cut
        exact (Option.some.inj cut).symm
      have fits := itemSized _ (List.getElem_mem below)
      rw [List.zipIdx_cons, List.foldl_cons, List.drop_eq_getElem_cons below, List.zip_cons_cons,
        List.foldl_cons]
      simp only [slice]
      rw [copyInto_flatten sized (inside row (by simp)) fits]
      apply ih
      · intro cell member
        rcases List.mem_or_eq_of_mem_set member with member | rfl
        · exact sized cell member
        · exact fits
      · intro row member
        rw [List.length_set]
        exact inside row (by simp [member])
      · omega

variable {values : List RowValue}

theorem reads_fixedStrings (typed : ∀ value ∈ values, HasType (.fixedString width) value)
    (fits : (values.map rowBinary).flatten.length < addressSpace) :
    Reader.Reads (decodeLeaf (.fixedString width) values.length) (values.map rowBinary).flatten
      (.fixedString width (values.map rawBytes).flatten) := by
  rw [map_rowBinary_eq rfl typed] at fits ⊢
  have run := reads_readBulk "native: FixedString block overflow" (sized_rawBytes rfl typed) fits
  rw [List.length_map] at run
  exact Reader.Reads.map _ run

theorem rowCount_fixedStrings (positive : 1 ≤ width)
    (typed : ∀ value ∈ values, HasType (.fixedString width) value) :
    (DecodedColumn.fixedString width (values.map rawBytes).flatten).rowCount = values.length := by
  rw [DecodedColumn.rowCount, if_neg (by omega), length_flatten_of_sized (sized_rawBytes rfl typed),
    List.length_map, Nat.mul_div_cancel _ positive]

theorem cell_fixedStrings (positive : 1 ≤ width)
    (typed : ∀ value ∈ values, HasType (.fixedString width) value) (row : Nat) :
    (DecodedColumn.fixedString width (values.map rawBytes).flatten).cell row =
      (values[row]?).map rowBinary := by
  have sized := sized_rawBytes rfl typed
  have length := length_flatten_of_sized sized
  rw [List.length_map] at length
  rw [DecodedColumn.cell, length, ← List.getElem?_map, map_rowBinary_eq rfl typed]
  by_cases inside : row < values.length
  · have cut : (chunks width values.length (values.map rawBytes).flatten)[row]? =
        some (((values.map rawBytes).flatten.drop (row * width)).take width) :=
      getElem?_chunks inside
    have whole := chunks_flatten sized
    rw [List.length_map] at whole
    rw [whole] at cut
    rw [if_pos (Nat.mul_le_mul_right width inside), cut]
  · have outside : ¬ (row + 1) * width ≤ values.length * width := by
      intro fits
      exact inside (Nat.le_of_mul_le_mul_right fits positive)
    rw [if_neg outside, List.getElem?_eq_none (by simpa using inside)]

theorem expandSparse_fixedStrings (positive : 1 ≤ width)
    (typed : ∀ value ∈ values, HasType (.fixedString width) value) {rows : List Nat} {numRows : Nat}
    (listed : values.length = rows.length) (inside : ∀ row ∈ rows, row < numRows)
    (fits : numRows * width < 2 ^ 64) :
    (DecodedColumn.fixedString width (values.map rawBytes).flatten).expandSparse rows numRows =
      .ok (.fixedString width (DecodedColumn.scatterValues (values.map rawBytes) rows numRows
        (List.replicate width 0)).flatten) := by
  have sized := sized_rawBytes rfl typed
  have counted := rowCount_fixedStrings positive typed
  rw [listed] at counted
  have blank : (List.replicate numRows (List.replicate width (0 : UInt8))).flatten =
      List.replicate (numRows * width) 0 := List.flatten_replicate_replicate
  have blankSized : ∀ cell ∈ List.replicate numRows (List.replicate width (0 : UInt8)),
      cell.length = width := by
    intro cell member
    rw [List.eq_of_mem_replicate member, List.length_replicate]
  have scattered := scatterBytes_flatten sized blankSized (by simpa using inside)
    (show 0 + rows.length = (values.map rawBytes).length by
      rw [List.length_map, listed, Nat.zero_add])
  rw [blank, List.drop_zero] at scattered
  rw [DecodedColumn.expandSparse, if_neg (not_not_intro counted), find?_past_eq_none inside]
  simp only [if_pos fits]
  exact congrArg (fun bytes => Except.ok (DecodedColumn.fixedString width bytes)) scattered

end Buffer

/-- Columns of byte strings of one width, held in one buffer. -/
def ItemForm.fixedString {width : Nat} (positive : 1 ≤ width) :
    ItemForm (.fixedString width) Bytes where
  build items := .fixedString width items.flatten
  item := rawBytes
  default := List.replicate width 0
  reads _ typed fits := reads_fixedStrings typed fits
  empty := rfl
  counts _ typed := rowCount_fixedStrings positive typed
  cells _ typed row := cell_fixedStrings positive typed row
  defaults value typed isDefault := by
    rw [rbWriteDefault_of_fixed rfl, (rowBinary_eq_rawBytes rfl typed).1] at isDefault
    exact isDefault
  scatters _ _ _ typed listed inside fits :=
    expandSparse_fixedStrings positive typed listed inside (fits width rfl)

theorem exists_itemForm {colType : ColumnType} (scalar : colType.isTypedScalar = true) :
    ∃ α, Nonempty (ItemForm colType α) := by
  cases colType with
  | string | json =>
      exact ⟨Bytes,
        ⟨.texts (fun _ => Iff.rfl) rfl _ (fun _ => rfl) rfl (fun _ => rfl) (fun _ _ => rfl)
        fun items rows numRows counted inside => by
          rw [DecodedColumn.expandSparse, if_neg (not_not_intro counted),
            find?_past_eq_none inside]⟩⟩
  | fixedString width => exact ⟨Bytes, ⟨.fixedString (of_decide_eq_true scalar)⟩⟩
  | uInt8 | int8 | enum8 =>
      exact ⟨_, ⟨.fixed rfl (scalarBytes 1) (scalarOfBytes 1) _ 0
        (fun _ => scalarBytes_scalarOfBytes) (scalarOfBytes_replicate_zero 1)
        (fun _ sized _ => Reader.Reads.map _ (reads_readByteColumn sized)) rfl (fun _ => rfl)
          (fun _ _ => rfl)
        fun items rows numRows counted inside => by
          rw [DecodedColumn.expandSparse, if_neg (not_not_intro counted),
            find?_past_eq_none inside]⟩⟩
  | uInt16 | int16 | enum16 | uInt32 | int32 | uInt64 | int64 | int128 | uInt128 | float32 | float64
  | decimal32 | decimal64 | decimal128 | date | date32 | dateTime | dateTime64 | iPv4 =>
      exact ⟨_, ⟨.fixed rfl (scalarBytes _) (scalarOfBytes _) _ 0
        (fun _ => scalarBytes_scalarOfBytes) (scalarOfBytes_replicate_zero _)
        (fun _ sized fits => Reader.Reads.map _ (reads_readLeColumn (by decide) sized fits)) rfl
        (fun _ => rfl) (fun _ _ => rfl)
        fun items rows numRows counted inside => by
          rw [DecodedColumn.expandSparse, if_neg (not_not_intro counted),
            find?_past_eq_none inside]⟩⟩
  | int256 | uInt256 | decimal256 =>
      exact ⟨_, ⟨.fixed rfl id id _ (List.replicate 32 0) (fun _ _ => rfl) rfl
        (fun cells sized fits => Reader.Reads.map _ (by
          rw [List.map_id]
          exact reads_readU256Column sized fits)) rfl (fun _ => rfl)
        (fun items row => (Option.map_id_apply).symm)
        fun items rows numRows counted inside => by
          rw [DecodedColumn.expandSparse, if_neg (not_not_intro counted),
            find?_past_eq_none inside]⟩⟩
  | uuid | iPv6 =>
      exact ⟨_, ⟨.fixed rfl id id _ (List.replicate 16 0) (fun _ _ => rfl) rfl
        (fun cells sized _ => Reader.Reads.map _ (by
          rw [List.map_id]
          exact reads_readFixedColumn sized)) rfl (fun _ => rfl)
        (fun items row => (Option.map_id_apply).symm)
        fun items rows numRows counted inside => by
          rw [DecodedColumn.expandSparse, if_neg (not_not_intro counted),
            find?_past_eq_none inside]⟩⟩
  | _ => cases scalar

theorem decodePrefixes_of_scalar {colType : ColumnType} (scalar : colType.isTypedScalar = true) :
    decodePrefixes colType = pure [] := by
  cases colType <;> first | rfl | cases scalar

theorem decodeColumnStep_of_scalar {colType : ColumnType} (scalar : colType.isTypedScalar = true)
    (nested : ColumnDecoder) (depth count : Nat) (headers : List DynamicHeader) :
    decodeColumnStep nested depth colType count headers =
      (decodeLeaf colType count >>= fun column => pure (column, headers)) := by
  cases colType <;> first | rfl | cases scalar

section Scalar

variable {colType : ColumnType} {α : Type} {values : List RowValue}

/-- The data phase on the cells of a scalar column, which may have no row. -/
theorem ItemForm.reads_decodeColumn (form : ItemForm colType α)
    (scalar : colType.isTypedScalar = true) (typed : ∀ value ∈ values, HasType colType value)
    (fits : (values.map rowBinary).flatten.length < addressSpace) :
    Reader.Reads (decodeColumn colType values.length 0 []) (values.map rowBinary).flatten
      (form.build (values.map form.item), []) := by
  rw [decodeColumn, Nat.sub_zero, decodeColumnLevels]
  by_cases none : maxDecodeDepth = maxDecodeDepth ∧ values.length = 0
  · obtain rfl := List.eq_nil_of_length_eq_zero none.2
    rw [if_pos none, form.empty]
    exact Reader.Reads.pure _
  · rw [if_neg none, decodeColumnStep_of_scalar scalar]
    exact (form.reads values typed fits).bind_pure

variable {rows : List Nat}

/-- The listed values of a sparse column expand to the dense column. -/
theorem ItemForm.expandSparse_listedAt (form : ItemForm colType α)
    (typed : ∀ value ∈ values, HasType colType value)
    (fits : (values.map rowBinary).flatten.length < addressSpace)
    (inside : ∀ row ∈ rows, row < values.length)
    (listed : ∀ (row : Nat) value, values[row]? = some value →
      value.rowBinary ≠ rbWriteDefault colType → row ∈ rows) :
    (form.build ((listedAt values rows).map form.item)).expandSparse rows values.length =
      .ok (form.build (values.map form.item)) := by
  have bounded : ∀ width, colType.fixedSize = some width →
      values.length * width < addressSpace := by
    intro width fixed
    have length := length_flatten_of_sized (sized_rawBytes fixed typed)
    rw [map_rowBinary_eq fixed typed, length, List.length_map] at fits
    exact fits
  have unlisted : ∀ (row : Nat) item, (values.map form.item)[row]? = some item → row ∉ rows →
      item = form.default := by
    intro row item held absent
    rw [List.getElem?_map] at held
    obtain ⟨value, value_at, rfl⟩ := Option.map_eq_some_iff.mp held
    apply form.defaults value (typed value (List.mem_of_getElem? value_at))
    by_contra other
    exact absent (listed row value value_at other)
  have whole : DecodedColumn.scatterValues ((listedAt values rows).map form.item) rows values.length
      form.default = values.map form.item := by
    have scattered := scatterValues_listedAt (by simpa using inside) unlisted
    rwa [listedAt_map, List.length_map] at scattered
  rw [form.scatters _ rows values.length
    (fun value member => typed value (mem_of_mem_listedAt member)) (length_listedAt inside) inside
    bounded, whole]

end Scalar

@[simp, grind =] theorem listedAt_range {α : Type} (items : List α) :
    listedAt items (List.range items.length) = items := by
  induction items with
  | nil => rfl
  | cons item items ih =>
      rw [List.length_cons, List.range_succ_eq_map, listedAt_cons (Nat.succ_pos _)]
      have later : listedAt (item :: items) ((List.range items.length).map Nat.succ) =
          listedAt items (List.range items.length) := by
        simp [listedAt, List.filterMap_map]
      rw [later, ih]
      rfl

theorem listedAt_sublist {α : Type} {items : List α} {rows : List Nat}
    (increasing : rows.Pairwise (· < ·)) (inside : ∀ row ∈ rows, row < items.length) :
    (listedAt items rows).Sublist items := by
  have distinct : rows.Nodup := increasing.imp Nat.ne_of_lt
  have contained : rows.Subperm (List.range items.length) :=
    List.subperm_of_subset distinct fun row member => List.mem_range.mpr (inside row member)
  have part : rows.Sublist (List.range items.length) :=
    List.sublist_of_subperm_of_pairwise contained increasing List.pairwise_lt_range
  have picked := part.filterMap fun row => items[row]?
  rwa [← listedAt, ← listedAt, listedAt_range] at picked

/-- A sparse column on the wire: its name and type name, the custom-serialization header of
the sparse kind, the groups of the listed rows and the cells of these rows. -/
def writeSparseColumn (name typeName : String) (cells : List Bytes) (rows : List Nat) : Bytes :=
  putString (utf8 name) ++ (putString (utf8 typeName) ++ ([1, 1] ++
    (writeSparseOffsets cells.length 0 rows ++ (listedAt cells rows).flatten)))

theorem reads_sparseKind (name : String) :
    Reader.Reads (readSerializationKind name) [1, 1] true := by
  intro rest
  rfl

section Sparse

variable {colType : ColumnType} {values : List RowValue} {rows : List Nat}

/-- The payload of a sparse scalar column gives the column its dense payload gives. -/
theorem exists_decodeColumnPayload_sparse (scalar : colType.isTypedScalar = true)
    (typed : ∀ value ∈ values, HasType colType value) (positive : 1 ≤ values.length)
    (capped : values.length ≤ maxBlockRows)
    (fits : (values.map rowBinary).flatten.length < addressSpace)
    (increasing : rows.Pairwise (· < ·)) (inside : ∀ row ∈ rows, row < values.length)
    (listed : ∀ (row : Nat) value, values[row]? = some value →
      value.rowBinary ≠ rbWriteDefault colType → row ∈ rows) :
    ∃ column, column.rowCount = values.length ∧
      (∀ row, column.cell row = (values[row]?).map rowBinary) ∧
      Reader.Reads (decodeColumnPayload colType values.length false)
        (values.map rowBinary).flatten column ∧
      Reader.Reads (decodeColumnPayload colType values.length true)
        (writeSparseOffsets values.length 0 rows ++
          (listedAt (values.map rowBinary) rows).flatten) column := by
  obtain ⟨α, ⟨form⟩⟩ := exists_itemForm scalar
  have some : values.length > 0 := positive
  have small : values.length < 2 ^ 62 := Nat.lt_of_le_of_lt capped (by decide)
  have prefixes := decodePrefixes_of_scalar scalar
  refine ⟨form.build (values.map form.item), form.counts values typed,
    form.cells values typed, ?_, ?_⟩
  · rw [decodeColumnPayload_eq, if_pos some, prefixes, pure_bind, decodeColumnData,
      if_neg (fun sparse => Bool.false_ne_true sparse.1)]
    exact (form.reads_decodeColumn scalar typed fits).bind_pure
  · intro rest
    obtain ⟨state, offsets⟩ := readSparseOffsets_writeSparseOffsets small increasing inside
      ((listedAt (values.map rowBinary) rows).flatten ++ rest)
    have cells : listedAt (values.map rowBinary) rows = (listedAt values rows).map rowBinary :=
      listedAt_map rowBinary values rows
    have listedFits : ((listedAt values rows).map rowBinary).flatten.length < addressSpace := by
      have part : (listedAt (values.map rowBinary) rows).flatten.Sublist
          (values.map rowBinary).flatten :=
        (listedAt_sublist increasing (by simpa using inside)).flatten
      rw [cells] at part
      exact Nat.lt_of_le_of_lt part.length_le fits
    have dense := form.reads_decodeColumn scalar
      (fun value member => typed value (mem_of_mem_listedAt member)) listedFits rest
    rw [length_listedAt inside, ← cells] at dense
    rw [decodeColumnPayload_eq, if_pos some, prefixes, pure_bind, decodeColumnData,
      if_pos ⟨rfl, some⟩, List.append_assoc, Reader.bind_of_ok offsets]
    refine (Reader.bind_of_ok dense).trans ?_
    simp only [form.expandSparse_listedAt typed fits inside listed]
    rfl

/-- A sparse column is decoded to the dense list of its values, and its bytes are consumed
exactly: the column is the one the values give when they are all written. -/
theorem decodeBlock_sparse (scalar : colType.isTypedScalar = true) {name typeName : String}
    (named : (utf8 name).length ≤ maxStringSize)
    (typeNamed : (utf8 typeName).length ≤ maxStringSize)
    (parsed : ColumnType.parse typeName = some colType) {serverRevision : Nat}
    (custom : customSerializationRevision ≤ serverRevision)
    (typed : ∀ value ∈ values, HasType colType value) (positive : 1 ≤ values.length)
    (capped : values.length ≤ maxBlockRows)
    (fits : (values.map rowBinary).flatten.length < addressSpace)
    (increasing : rows.Pairwise (· < ·)) (inside : ∀ row ∈ rows, row < values.length)
    (listed : ∀ (row : Nat) value, values[row]? = some value →
      value.rowBinary ≠ rbWriteDefault colType → row ∈ rows) (rest : Bytes) :
    ∃ column, column.rowCount = values.length ∧
      (∀ row, column.cell row = (values[row]?).map rowBinary) ∧
      decodeColumnPayload colType values.length false ((values.map rowBinary).flatten ++ rest) =
        .ok (column, rest) ∧
      decodeBlock 1 values.length serverRevision
          (writeSparseColumn name typeName (values.map rowBinary) rows ++ rest) =
        .ok (⟨[column], [(name, typeName)], values.length⟩, rest) := by
  obtain ⟨column, counted, cells, dense, sparse⟩ :=
    exists_decodeColumnPayload_sparse scalar typed positive capped fits increasing inside listed
  refine ⟨column, counted, cells, dense rest, ?_⟩
  have newer : serverRevision ≥ customSerializationRevision := custom
  have announced : Reader.Reads (decodeAnnounced values.length name typeName true)
      (writeSparseOffsets values.length 0 rows ++ (listedAt (values.map rowBinary) rows).flatten)
      ((name, typeName), column) := by
    rw [decodeAnnounced, parsed]
    exact sparse.bind_pure
  have entry : Reader.Reads (decodeBlockColumn values.length serverRevision)
      (writeSparseColumn name typeName (values.map rowBinary) rows) ((name, typeName), column) := by
    rw [decodeBlockColumn_eq, writeSparseColumn, List.length_map]
    simp only [if_pos newer]
    refine (reads_readUtf8String named).bind ((reads_readUtf8String typeNamed).bind ?_)
    exact (reads_sparseKind name).bind announced
  have entries : Reader.Reads (Reader.times (decodeBlockColumn values.length serverRevision) 1)
      (writeSparseColumn name typeName (values.map rowBinary) rows)
        [((name, typeName), column)] := by
    have once : List.Forall₂ (Reader.Reads (decodeBlockColumn values.length serverRevision))
        [writeSparseColumn name typeName (values.map rowBinary) rows]
          [((name, typeName), column)] :=
      .cons entry .nil
    have run := Reader.Reads.times once
    rwa [List.flatten_singleton] at run
  have block : Reader.Reads (decodeBlock 1 values.length serverRevision)
      (writeSparseColumn name typeName (values.map rowBinary) rows)
      ⟨[column], [(name, typeName)], values.length⟩ :=
    Reader.Reads.require_bind (by decide) (Reader.Reads.require_bind capped entries.bind_pure)
  exact block rest

end Sparse

/-- One value at row 1 of 3. -/
theorem decodeBlock_sparse_three :
    ∃ column : DecodedColumn, column.rowCount = 3 ∧
      decodeBlock 1 3 customSerializationRevision
          (writeSparseColumn "c" "UInt8" [[0], [7], [0]] [1] ++ []) =
        .ok (⟨[column], [("c", "UInt8")], 3⟩, []) := by
  have typed : ∀ value ∈ [RowValue.raw [0], .raw [7], .raw [0]], HasType .uInt8 value := by
    intro value member
    simp only [List.mem_cons, List.not_mem_nil, or_false] at member
    rcases member with rfl | rfl | rfl <;> exact ⟨_, rfl, rfl⟩
  have listed : ∀ (row : Nat) value, [RowValue.raw [0], .raw [7], .raw [0]][row]? = some value →
      value.rowBinary ≠ rbWriteDefault .uInt8 → row ∈ [1] := by
    intro row value held other
    rcases row with _ | _ | _ | row
    · cases held
      exact absurd rfl other
    · exact List.mem_singleton_self 1
    · cases held
      exact absurd rfl other
    · cases held
  have named : (utf8 "c").length ≤ maxStringSize ∧ (utf8 "UInt8").length ≤ maxStringSize := by
    decide
  obtain ⟨column, counted, _, _, decoded⟩ := decodeBlock_sparse rfl named.1 named.2 rfl
    (Nat.le_refl _) typed (by decide) (by decide) (by decide) (List.pairwise_singleton _ 1)
    (by decide) listed []
  exact ⟨column, counted, decoded⟩

end DfeClickhouse.Native
