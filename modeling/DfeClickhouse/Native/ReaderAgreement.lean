import DfeClickhouse.Native.Decode
import DfeClickhouse.Native.Rows

/-!
# Agreement of the two column readers

The cell reader and the typed decoder read the same format with different checks
in a different order.  Type by type they accept the same inputs, except that the
decoder lets dictionary indices pass that the cell reader refuses; on common
success they stop at the same byte and the cells are the rows of the typed column.
-/

namespace DfeClickhouse.Native

open Library DecodedColumn

/-- The cells are the rows of the typed column. -/
def Cells (count : Nat) (cells : ColumnData) (column : DecodedColumn) : Prop :=
  cells.length = count ∧ column.rowCount ≤ count ∧
    ∀ row, row < count → column.cell row = cells[row]?

/-! ## Primitive readers -/

theorem shrinks_readFrom (eof : Error) (decoder : VarUintDecoder) :
    Reader.Shrinks (decoder.readFrom eof) := by
  intro input
  induction input generalizing decoder with
  | nil =>
      intro value rest succeeded
      cases succeeded
  | cons octet input ih =>
      intro value rest succeeded
      rw [VarUintDecoder.readFrom] at succeeded
      split at succeeded
      · cases succeeded
      · cases succeeded
        simp
      · have := ih _ value rest succeeded
        simp only [List.length_cons]
        omega

theorem shrinks_readVarUint : Reader.Shrinks readVarUint :=
  shrinks_readFrom unexpectedEof {}

theorem shrinks_readExact (len : Nat) : Reader.Shrinks (readExact len) :=
  Reader.Shrinks.take unexpectedEof len

theorem shrinks_readU64Le : Reader.Shrinks readU64Le :=
  (shrinks_readExact 8).bind fun _ => Reader.Shrinks.pure _

theorem shrinks_readString : Reader.Shrinks readString :=
  shrinks_readVarUint.bind fun _ =>
    (Reader.Shrinks.ofExcept _).bind fun _ => shrinks_readExact _

/-- Reading cells one by one is reading their bytes in bulk; a total past the
address space is past the end of every input. -/
theorem agree_readBulk (overflow : String) (count width : Nat) :
    Reader.Agree addressSpace
      (fun cells raw => cells = chunks width count raw ∧ raw.length = count * width)
      (readFixedColumn count width) (readBulk overflow count width) := by
  by_cases fits : count * width < 2 ^ 64
  · rw [readBulk, Reader.require_of_holds fits]
    exact agree_times_take addressSpace width count unexpectedEof unexpectedEof
  · rw [readBulk, Reader.require_of_not fits]
    intro input bounded
    rw [readFixedColumn, readExact, times_take_of_lt unexpectedEof (by
      unfold addressSpace at bounded
      omega)]
    exact .error

theorem map_scalarBytes_scalarOfBytes {width : Nat} {cells : List Bytes}
    (sized : ∀ cell ∈ cells, cell.length = width) :
    (cells.map (scalarOfBytes width)).map (scalarBytes width) = cells := by
  rw [List.map_map]
  conv_rhs => rw [← List.map_id cells]
  exact List.map_congr_left fun cell member => scalarBytes_scalarOfBytes (sized cell member)

theorem agree_readLeColumn {width : Nat} (positive : 0 < width) (count : Nat) :
    Reader.Agree addressSpace
      (fun cells values => cells = values.map (scalarBytes width) ∧ cells.length = count)
      (readFixedColumn count width) (readLeColumn width count) := by
  rw [← bind_pure (readFixedColumn count width)]
  refine (agree_readBulk _ count width).bind ?_
  rintro cells raw ⟨rfl, sized⟩
  refine Reader.Agree.pure ⟨?_, length_chunks _ _ _⟩
  rw [chunksExact_of_length positive sized, map_scalarBytes_scalarOfBytes]
  intro cell member
  exact length_of_mem_chunks (by omega) member

theorem agree_readU256Column (count : Nat) :
    Reader.Agree addressSpace
      (fun cells values => cells = values ∧ cells.length = count)
      (readFixedColumn count 32) (readU256Column count) := by
  rw [← bind_pure (readFixedColumn count 32)]
  refine (agree_readBulk _ count 32).bind ?_
  rintro cells raw ⟨rfl, sized⟩
  rw [chunksExact_of_length (by decide) sized]
  exact Reader.Agree.pure ⟨rfl, length_chunks _ _ _⟩

@[simp] theorem scalarBytes_toBitVec (byte : UInt8) : scalarBytes 1 byte.toBitVec = [byte] := by
  have : byte.toBitVec.toNat / 256 = 0 := by
    have := byte.toNat_lt
    rw [UInt8.toNat_toBitVec]
    omega
  simp [scalarBytes, natLe]

theorem agree_readByteColumn (count : Nat) :
    Reader.Agree addressSpace
      (fun cells values => cells = values.map (scalarBytes 1) ∧ cells.length = count)
      (readFixedColumn count 1) (readByteColumn count) := by
  rw [← bind_pure (readFixedColumn count 1)]
  have bulk := agree_times_take addressSpace 1 count unexpectedEof unexpectedEof (τ := UInt8)
  rw [Nat.mul_one] at bulk
  refine bulk.bind ?_
  rintro cells raw ⟨rfl, rfl⟩
  refine Reader.Agree.pure ⟨?_, length_chunks _ _ _⟩
  rw [chunks_one, List.map_map]
  exact List.map_congr_left fun byte _ => (scalarBytes_toBitVec byte).symm

theorem agree_readExactTimes (size count : Nat) :
    Reader.Agree addressSpace
      (fun cells values => cells = values ∧ cells.length = count)
      (readFixedColumn count size) (Reader.times (readExact size) count) := by
  have same : Reader.Agree addressSpace (fun first second : Bytes => first = second)
      (readExact size) (readExact size) := Reader.Agree.refl (shrinks_readExact size)
  exact (same.times count).mono fun _ _ both => ⟨List.forall₂_eq_eq_eq ▸ both.1, both.2⟩

theorem agree_readStringColumn (count : Nat) :
    Reader.Agree addressSpace
      (fun cells values => cells = values.map putString ∧ cells.length = count)
      (readStringColumn count) (Reader.times readString count) := by
  have single : Reader.Agree addressSpace
      (fun (cell value : Bytes) => cell = putString value)
      (do
        let bytes ← readString
        pure (rowbinaryString bytes)) readString := by
    refine Reader.Agree.bind_pure_left (Reader.Agree.refl shrinks_readString) ?_
    rintro first second rfl
    rfl
  refine (single.times count).mono ?_
  rintro cells values ⟨pointwise, sized⟩
  refine ⟨?_, sized⟩
  induction pointwise generalizing count with
  | nil => rfl
  | cons same _ ih => simp [same, ih _ rfl]

/-! ## Leaf columns -/

/-- The cells of a column whose rows are an encoding of its stored values. -/
theorem cells_of_map {α : Type} {count : Nat} {column : DecodedColumn} {values : List α}
    {encode : α → Bytes} (counted : column.rowCount = values.length)
    (rows : ∀ row, column.cell row = (values[row]?).map encode)
    (sized : (values.map encode).length = count) :
    Cells count (values.map encode) column := by
  rw [List.length_map] at sized
  refine ⟨by simpa using sized, by omega, fun row _ => ?_⟩
  rw [rows, List.getElem?_map]

theorem agree_scalars {width : Nat} {count : Nat}
    {build : List (BitVec (8 * width)) → DecodedColumn} (positive : 0 < width)
    (counted : ∀ values, (build values).rowCount = values.length)
    (rows : ∀ values row, (build values).cell row = (values[row]?).map (scalarBytes width)) :
    Reader.Agree addressSpace (Cells count) (readFixedColumn count width)
      (build <$> readLeColumn width count) := by
  refine (agree_readLeColumn positive count).map_right ?_
  rintro cells values ⟨rfl, sized⟩
  exact cells_of_map (counted values) (rows values) sized

theorem agree_bytes {count : Nat} {build : List (BitVec 8) → DecodedColumn}
    (counted : ∀ values, (build values).rowCount = values.length)
    (rows : ∀ values row, (build values).cell row = (values[row]?).map (scalarBytes 1)) :
    Reader.Agree addressSpace (Cells count) (readFixedColumn count 1)
      (build <$> readByteColumn count) := by
  refine (agree_readByteColumn count).map_right ?_
  rintro cells values ⟨rfl, sized⟩
  exact cells_of_map (counted values) (rows values) sized

/-- The cells of a column that stores them as they are. -/
theorem cells_of_eq {count : Nat} {column : DecodedColumn} {values : List Bytes}
    (counted : column.rowCount = values.length)
    (rows : ∀ row, column.cell row = values[row]?) (sized : values.length = count) :
    Cells count values column :=
  ⟨sized, by omega, fun row _ => rows row⟩

theorem agree_raw {count size : Nat} {reader : ByteReader (List Bytes)}
    {build : List Bytes → DecodedColumn}
    (agree : Reader.Agree addressSpace (fun cells values => cells = values ∧ cells.length = count)
      (readFixedColumn count size) reader)
    (counted : ∀ values, (build values).rowCount = values.length)
    (rows : ∀ values row, (build values).cell row = values[row]?) :
    Reader.Agree addressSpace (Cells count) (readFixedColumn count size) (build <$> reader) := by
  refine agree.map_right ?_
  rintro cells values ⟨rfl, sized⟩
  exact cells_of_eq (counted cells) (rows cells) sized

theorem agree_strings {count : Nat} {build : List Bytes → DecodedColumn}
    (counted : ∀ values, (build values).rowCount = values.length)
    (rows : ∀ values row, (build values).cell row = (values[row]?).map putString) :
    Reader.Agree addressSpace (Cells count) (readStringColumn count)
      (build <$> Reader.times readString count) := by
  refine (agree_readStringColumn count).map_right ?_
  rintro cells values ⟨rfl, sized⟩
  exact cells_of_map (counted values) (rows values) sized

theorem agree_fixedString (count width : Nat) :
    Reader.Agree addressSpace (Cells count) (readFixedColumn count width)
      (DecodedColumn.fixedString width <$>
        readBulk "native: FixedString block overflow" count width) := by
  refine (agree_readBulk _ count width).map_right ?_
  rintro cells raw ⟨rfl, sized⟩
  refine ⟨length_chunks _ _ _, ?_, fun row inside => ?_⟩
  · rw [rowCount]
    split
    · exact Nat.zero_le _
    · rename_i positive
      rw [sized, Nat.mul_div_cancel _ (Nat.pos_of_ne_zero positive)]
  · have fits : (row + 1) * width ≤ raw.length := by
      rw [sized]
      exact Nat.mul_le_mul_right width inside
    rw [cell, if_pos fits, getElem?_chunks inside]

mutual

/-- The types both readers turn into typed values: everything but the discriminated
types, JSON objects and the types the decoder only consumes. -/
def ColumnType.isTyped : ColumnType → Bool
  | .variant _ | .dynamic | .newJson | .bFloat16 | .time | .time64 | .point => false
  | .nullable inner | .lowCardinality inner | .simpleAggregateFunction inner
  | .array inner => inner.isTyped
  | .tuple fields => ColumnType.areTyped fields
  | .map key value => key.isTyped && value.isTyped
  | _ => true

/-- Whether all types of a list are typed. -/
def ColumnType.areTyped : List ColumnType → Bool
  | [] => true
  | head :: tail => head.isTyped && ColumnType.areTyped tail

end

/-- The two readers on one column: the decoder's `Dynamic` queue is untouched, and
only unresolved indices are refused. -/
def ColumnsAgree (count : Nat) (headers : List DynamicHeader) (left : ByteReader ColumnData)
    (right : ByteReader (DecodedColumn × List DynamicHeader)) : Prop :=
  Reader.AgreeUnless addressSpace (fun result => ¬ result.1.IndicesResolve)
    (fun cells result => Cells count cells result.1 ∧ result.2 = headers) left right

/-- The readers of the next nesting level agree on every typed column. -/
def NestedAgree (left : ColumnReader) (right : ColumnDecoder) : Prop :=
  ∀ colType count headers, colType.isTyped = true →
    ColumnsAgree count headers (left colType count) (right colType count headers)

theorem columnsAgree_of_leaf {count : Nat} {headers : List DynamicHeader}
    {left : ByteReader ColumnData} {right : ByteReader DecodedColumn}
    (agree : Reader.Agree addressSpace (Cells count) left right) :
    ColumnsAgree count headers left (do
      let column ← right
      pure (column, headers)) := by
  have mapped : Reader.Agree addressSpace
      (fun cells (result : DecodedColumn × List DynamicHeader) =>
        Cells count cells result.1 ∧ result.2 = headers)
      left ((fun column => (column, headers)) <$> right) :=
    agree.map_right fun _ _ cells => ⟨cells, rfl⟩
  rw [map_eq_pure_bind] at mapped
  exact mapped.unless _

/-! ## Composite columns -/

section Composite

variable {left : ColumnReader} {right : ColumnDecoder} {count : Nat}
variable {headers : List DynamicHeader}

theorem cells_nullable {mask : Bytes} {cells : ColumnData} {child : DecodedColumn}
    (sized : mask.length = count) (rows : Cells count cells child) :
    Cells count (mask.zipWith nullableCell cells) (.nullable mask child) := by
  obtain ⟨cellsSized, _, childRows⟩ := rows
  refine ⟨by simp [sized, cellsSized], by simp [rowCount, sized], fun row inside => ?_⟩
  have flagged : mask[row]? = some (mask[row]) := List.getElem?_eq_getElem (by omega)
  have valued : cells[row]? = some (cells[row]) := List.getElem?_eq_getElem (by omega)
  rw [cell, List.getElem?_zipWith, flagged, valued, childRows row inside, valued]
  simp only [nullableCell, Option.map_some]
  split <;> rfl

theorem columnsAgree_nullable (nested : NestedAgree left right) {inner : ColumnType}
    (typed : inner.isTyped = true) (depth : Nat) :
    ColumnsAgree count headers (readNullableColumn left count inner)
      (decodeColumnStep right depth (.nullable inner) count headers) := by
  refine Reader.AgreeUnless.bind_agree (Reader.Agree.take unexpectedEof unexpectedEof count) ?_
  rintro mask _ ⟨rfl, sized⟩
  refine (nested inner count headers typed).bind_pure ?_ ?_
  · rintro cells ⟨child, _⟩ ⟨rows, rfl⟩
    exact ⟨cells_nullable sized rows, rfl⟩
  · rintro ⟨child, _⟩ unresolved resolved
    exact unresolved (by simpa [IndicesResolve] using resolved)

/-- The decoder's offset reader accepts exactly the offset lists that never step
back. -/
theorem readMonotoneOffsets_run (what : String) (count prev : Nat) (input : Bytes) :
    (∃ offsets rest, readOffsets count input = .ok (offsets, rest) ∧
      offsets.length = count ∧ rest.length ≤ input.length ∧
      ((List.IsChain (· ≤ ·) (prev :: offsets) ∧
          readMonotoneOffsets what count prev input = .ok (offsets, rest)) ∨
        (¬ List.IsChain (· ≤ ·) (prev :: offsets) ∧
          ∃ error, readMonotoneOffsets what count prev input = .error error))) ∨
    ((∃ error, readOffsets count input = .error error) ∧
      ∃ error, readMonotoneOffsets what count prev input = .error error) := by
  induction count generalizing prev input with
  | zero =>
      exact .inl ⟨[], input, rfl, rfl, Nat.le_refl _, .inl ⟨List.isChain_singleton _, rfl⟩⟩
  | succ count ih =>
      cases first : readU64Le input with
      | error error =>
          exact .inr ⟨⟨error, Reader.bind_of_error first⟩, error, Reader.bind_of_error first⟩
      | ok result =>
          obtain ⟨stop, middle⟩ := result
          have shrinks := shrinks_readU64Le input stop middle first
          have plain : readOffsets (count + 1) input =
              (readOffsets count >>= fun offsets => pure (stop :: offsets)) middle :=
            Reader.bind_of_ok first
          have checked : readMonotoneOffsets what (count + 1) prev input =
              (Reader.require (prev ≤ stop) (offsetsStepBack what) >>= fun _ =>
                readMonotoneOffsets what count stop >>= fun offsets =>
                  pure (stop :: offsets)) middle :=
            Reader.bind_of_ok first
          rcases ih stop middle with
            ⟨offsets, rest, tailRead, sized, tailShrinks, tailChecked⟩ | ⟨⟨error, tailRead⟩,
              error', tailChecked⟩
          · refine .inl ⟨stop :: offsets, rest, ?_, by simp [sized],
              Nat.le_trans tailShrinks shrinks, ?_⟩
            · rw [plain, Reader.bind_of_ok tailRead, Reader.pure_run]
            · by_cases step : prev ≤ stop
              · rw [checked, Reader.require_of_holds step, List.isChain_cons_cons]
                rcases tailChecked with ⟨chain, accepted⟩ | ⟨broken, error, refused⟩
                · refine .inl ⟨⟨step, chain⟩, ?_⟩
                  exact (Reader.bind_of_ok (Reader.pure_run () middle)).trans
                    (Reader.bind_of_ok accepted)
                · refine .inr ⟨fun chain => broken chain.2, error, ?_⟩
                  exact (Reader.bind_of_ok (Reader.pure_run () middle)).trans
                    (Reader.bind_of_error refused)
              · refine .inr ⟨fun chain => step (List.isChain_cons_cons.mp chain).1,
                  offsetsStepBack what, ?_⟩
                rw [checked, Reader.require_of_not step]
                exact Reader.bind_of_error (Reader.fail_run _ middle)
          · refine .inr ⟨⟨error, by rw [plain, Reader.bind_of_error tailRead]⟩, ?_⟩
            by_cases step : prev ≤ stop
            · refine ⟨error', ?_⟩
              rw [checked, Reader.require_of_holds step]
              exact (Reader.bind_of_ok (Reader.pure_run () middle)).trans
                (Reader.bind_of_error tailChecked)
            · refine ⟨offsetsStepBack what, ?_⟩
              rw [checked, Reader.require_of_not step]
              exact Reader.bind_of_error (Reader.fail_run _ middle)

/-- The rows cut from elements between consecutive offsets. -/
def spanRow (elements : ColumnData) (start stop : Nat) : Bytes :=
  encodeVarUint (stop - start) ++ ((elements.drop start).take (stop - start)).flatten

/-- Cutting rows succeeds exactly on offsets that never step back and stay within
the elements. -/
theorem spanRows_eq (what : String) {elements : ColumnData} {start : Nat}
    {offsets : List Nat} (chain : List.IsChain (· ≤ ·) (start :: offsets))
    (bounded : ∀ stop ∈ offsets, stop ≤ elements.length) :
    spanRows what elements start offsets =
      .ok (List.zipWith (spanRow elements) (start :: offsets) offsets) := by
  induction offsets generalizing start with
  | nil => rfl
  | cons stop offsets ih =>
      obtain ⟨step, rest⟩ := List.isChain_cons_cons.mp chain
      have inside : stop ≤ elements.length := bounded stop (by simp)
      have accepted : checkedSpan stop start elements.length what = .ok stop := by
        rw [checkedSpan, if_neg (by omega)]
      rw [spanRows, accepted]
      change (spanRows what elements stop offsets >>= fun rows => pure (_ :: rows)) = _
      rw [ih rest fun stop member => bounded stop (by simp [member])]
      rfl

theorem isChain_of_spanRows_ok {what : String} {elements rows : ColumnData} {start : Nat}
    {offsets : List Nat} (cut : spanRows what elements start offsets = .ok rows) :
    List.IsChain (· ≤ ·) (start :: offsets) := by
  induction offsets generalizing start rows with
  | nil => exact List.isChain_singleton _
  | cons stop offsets ih =>
      rw [spanRows] at cut
      unfold checkedSpan at cut
      split at cut
      · cases cut
      · rename_i inside
        change (spanRows what elements stop offsets >>= fun rows => pure (_ :: rows)) = _ at cut
        cases rest : spanRows what elements stop offsets with
        | error error =>
            rw [rest] at cut
            cases cut
        | ok tail => exact List.isChain_cons_cons.mpr ⟨by omega, ih rest⟩

theorem le_last_of_isChain {offsets : List Nat} (chain : List.IsChain (· ≤ ·) offsets) :
    ∀ stop ∈ offsets, stop ≤ offsets.getLast?.getD 0 := by
  induction offsets with
  | nil => simp
  | cons head tail ih =>
      intro stop member
      cases tail with
      | nil => simpa using Nat.le_of_eq (List.mem_singleton.mp member)
      | cons next rest =>
          obtain ⟨step, tailChain⟩ := List.isChain_cons_cons.mp chain
          rw [List.getLast?_cons_cons]
          rcases List.mem_cons.mp member with rfl | later
          · exact Nat.le_trans step (ih tailChain next (by simp))
          · exact ih tailChain stop later

theorem mapM_range'_eq {elements : ColumnData} {element : Nat → Option Bytes}
    (rows : ∀ row, row < elements.length → element row = elements[row]?)
    {start length : Nat} (inside : start + length ≤ elements.length) :
    (List.range' start length).mapM element = some ((elements.drop start).take length) := by
  induction length generalizing start with
  | zero => simp
  | succ length ih =>
      have first : element start = some elements[start] := by
        rw [rows start (by omega), List.getElem?_eq_getElem]
      have split : elements.drop start = elements[start] :: elements.drop (start + 1) :=
        List.drop_eq_getElem_cons (by omega)
      rw [List.range'_succ, List.mapM_cons, first, ih (by omega), split, List.take_succ_cons]
      rfl

/-- The rows cut from elements are the spans of the column that holds them. -/
theorem spanCell_eq {elements : ColumnData} {element : Nat → Option Bytes}
    {offsets : List Nat} (chain : List.IsChain (· ≤ ·) (0 :: offsets))
    (total : elements.length = offsets.getLast?.getD 0)
    (rows : ∀ row, row < elements.length → element row = elements[row]?)
    {row : Nat} (inside : row < offsets.length) :
    spanCell element offsets row =
      (List.zipWith (spanRow elements) (0 :: offsets) offsets)[row]? := by
  have before : row < (0 :: offsets).length := by
    rw [List.length_cons]
    omega
  have opened : (0 :: offsets)[row]? = some (0 :: offsets)[row] :=
    List.getElem?_eq_getElem before
  have closed : offsets[row]? = some offsets[row] := List.getElem?_eq_getElem inside
  have step : (0 :: offsets)[row] ≤ offsets[row] := by
    have ordered := List.isChain_iff_getElem.mp chain row (by simpa using inside)
    simpa using ordered
  have bounded : offsets[row] ≤ elements.length := by
    rw [total]
    have tailChain : List.IsChain (· ≤ ·) offsets := chain.tail
    exact le_last_of_isChain tailChain _ (List.getElem_mem inside)
  rw [spanCell, List.getElem?_zipWith, opened, closed]
  simp only [Option.bind_eq_bind, Option.bind_some]
  rw [mapM_range'_eq rows (by omega)]
  rfl

/-- Columns of spans: the cell reader checks the offsets after it has read the
elements, the decoder before. -/
theorem agree_spans (what : String) {δ : Type} (build : List Nat → δ → DecodedColumn)
    (element : δ → Nat → Option Bytes) (bad : δ → Prop)
    (leftElements : Nat → ByteReader ColumnData)
    (rightElements : Nat → ByteReader (δ × List DynamicHeader))
    (elements : ∀ total, Reader.AgreeUnless addressSpace (fun result => bad result.1)
      (fun cells result => (cells.length = total ∧
        ∀ row, row < total → element result.1 row = cells[row]?) ∧ result.2 = headers)
      (leftElements total) (rightElements total))
    (counted : ∀ offsets result, (build offsets result).rowCount = offsets.length)
    (rows : ∀ offsets result row,
      (build offsets result).cell row = spanCell (element result) offsets row)
    (carried : ∀ offsets result, bad result → ¬ (build offsets result).IndicesResolve) :
    ColumnsAgree count headers
      (do
        let offsets ← readOffsets count
        let cells ← leftElements (offsets.getLast?.getD 0)
        Reader.ofExcept (spanRows what cells 0 offsets))
      (do
        let offsets ← readMonotoneOffsets what count 0
        let result ← rightElements (offsets.getLast?.getD 0)
        pure (build offsets result.1, result.2)) := by
  intro input bounded
  rcases readMonotoneOffsets_run what count 0 input with
    ⟨offsets, rest, plain, sized, shrinks, checked⟩ | ⟨⟨_, plain⟩, _, checked⟩
  · rw [Reader.bind_of_ok plain]
    rcases checked with ⟨chain, accepted⟩ | ⟨broken, error, refused⟩
    · rw [Reader.bind_of_ok accepted]
      have inner := elements (offsets.getLast?.getD 0) rest (Nat.lt_of_le_of_lt shrinks bounded)
      rw [Reader.bind_run, Reader.bind_run]
      generalize leftElements (offsets.getLast?.getD 0) rest = leftOutcome at inner ⊢
      generalize rightElements (offsets.getLast?.getD 0) rest = rightOutcome at inner ⊢
      cases inner with
      | error => exact .error
      | refused isBad => exact .refused (carried offsets _ isBad)
      | ok values shrinks' =>
          have inside : ∀ stop ∈ offsets, stop ≤ _ := le_last_of_isChain chain.tail
          obtain ⟨⟨total, inRows⟩, queue⟩ := values
          rw [← total] at inside inRows
          simp only [spanRows_eq what chain inside]
          refine .ok ⟨⟨?_, ?_, fun row inRange => ?_⟩, queue⟩
            (Nat.le_trans shrinks' shrinks)
          · simp [sized]
          · rw [counted, sized]
          · rw [rows, spanCell_eq chain total inRows (by omega)]
    · rw [Reader.bind_of_error refused]
      have failing : ∃ error, (leftElements (offsets.getLast?.getD 0) >>= fun cells =>
          Reader.ofExcept (spanRows what cells 0 offsets)) rest = .error error := by
        rw [Reader.bind_run]
        cases leftElements (offsets.getLast?.getD 0) rest with
        | error error => exact ⟨error, rfl⟩
        | ok result =>
            obtain ⟨cells, rest'⟩ := result
            cases cut : spanRows what cells 0 offsets with
            | error error => exact ⟨error, by simp [cut, Reader.ofExcept, Reader.fail_run]⟩
            | ok rows => exact absurd (isChain_of_spanRows_ok cut) broken
      obtain ⟨error', failed⟩ := failing
      rw [failed]
      exact .error
  · rw [Reader.bind_of_error plain, Reader.bind_of_error checked]
    exact .error

theorem columnsAgree_array (nested : NestedAgree left right) {inner : ColumnType}
    (typed : inner.isTyped = true) (depth : Nat) :
    ColumnsAgree count headers (readArrayColumn left count inner)
      (decodeColumnStep right depth (.array inner) count headers) := by
  refine agree_spans "Array" DecodedColumn.array DecodedColumn.cell
    (fun child => ¬ child.IndicesResolve) (left inner)
    (fun total => right inner total headers) ?_ ?_ ?_ ?_
  · intro total input bounded
    have outcome := nested inner total headers typed input bounded
    generalize left inner total input = leftOutcome at outcome ⊢
    generalize right inner total headers input = rightOutcome at outcome ⊢
    cases outcome with
    | error => exact .error
    | refused isBad => exact .refused isBad
    | ok values shrinks => exact .ok ⟨⟨values.1.1, values.1.2.2⟩, values.2⟩ shrinks
  · intro offsets child
    rw [rowCount]
  · intro offsets child row
    rw [cell]
  · intro offsets child unresolved resolved
    exact unresolved (by simpa [IndicesResolve] using resolved)

/-- The cells of keys and values, pair by pair. -/
theorem pairCell_eq {keyCells valueCells : ColumnData} {keys values : DecodedColumn}
    (keyRows : Cells count keyCells keys) (valueRows : Cells count valueCells values) :
    (keyCells.zipWith (· ++ ·) valueCells).length = count ∧
      ∀ row, row < count → pairCell keys.cell values.cell row =
        (keyCells.zipWith (· ++ ·) valueCells)[row]? := by
  obtain ⟨keySized, _, keyCell⟩ := keyRows
  obtain ⟨valueSized, _, valueCell⟩ := valueRows
  refine ⟨by simp [keySized, valueSized], fun row inside => ?_⟩
  have key : keyCells[row]? = some keyCells[row] := List.getElem?_eq_getElem (by omega)
  have value : valueCells[row]? = some valueCells[row] :=
    List.getElem?_eq_getElem (by omega)
  rw [pairCell, keyCell row inside, valueCell row inside, List.getElem?_zipWith, key, value]
  rfl

theorem columnsAgree_map (nested : NestedAgree left right) {keyType valType : ColumnType}
    (keyTyped : keyType.isTyped = true) (valTyped : valType.isTyped = true) (depth : Nat) :
    ColumnsAgree count headers (readMapColumn left count keyType valType)
      (decodeColumnStep right depth (.map keyType valType) count headers) := by
  have spans : ColumnsAgree count headers _ _ := agree_spans "Map"
    (fun offsets (pair : DecodedColumn × DecodedColumn) => .map offsets pair.1 pair.2)
    (fun pair => pairCell pair.1.cell pair.2.cell)
    (fun pair => ¬ (pair.1.IndicesResolve ∧ pair.2.IndicesResolve))
    (fun total => do
      let keys ← left keyType total
      let vals ← left valType total
      pure (keys.zipWith (· ++ ·) vals))
    (fun total => do
      let keys ← right keyType total headers
      let values ← right valType total keys.2
      pure ((keys.1, values.1), values.2)) ?_ ?_ ?_ ?_
  · simpa only [readMapColumn, decodeColumnStep, bind_assoc, pure_bind] using spans
  · intro total
    refine (nested keyType total headers keyTyped).bind ?_ ?_
    · rintro keyCells ⟨keys, _⟩ ⟨keyRows, rfl⟩
      refine (nested valType total _ valTyped).bind_pure ?_ ?_
      · rintro valueCells ⟨values, _⟩ ⟨valueRows, rfl⟩
        exact ⟨pairCell_eq keyRows valueRows, rfl⟩
      · rintro ⟨values, _⟩ unresolved resolved
        exact unresolved resolved.2
    · rintro ⟨keys, queue⟩ unresolved input result rest succeeded
      obtain ⟨values, middle, _, finished⟩ := Reader.bind_ok_iff.mp succeeded
      cases finished
      exact fun resolved => unresolved resolved.1
  · intro offsets pair
    rw [rowCount]
  · intro offsets pair row
    rw [cell]
  · intro offsets pair unresolved resolved
    exact unresolved (by simpa [IndicesResolve] using resolved)

/-- The rows built so far, each continued by the tuple fields read after them. -/
def TupleRows (count : Nat) (rows rows' : ColumnData) (columns : List DecodedColumn) : Prop :=
  rows'.length = count ∧ (DecodedColumn.tuple columns).rowCount ≤ count ∧
    ∀ row, row < count → rows'[row]? = (do
      let done ← rows[row]?
      let more ← fieldCells columns row
      some (done ++ more))

theorem tupleRows_cons {rows cells rows' : ColumnData} {column : DecodedColumn}
    {columns : List DecodedColumn} (sized : rows.length = count)
    (fieldRows : Cells count cells column)
    (rest : TupleRows count (appendCells rows cells) rows' columns) :
    TupleRows count rows rows' (column :: columns) := by
  obtain ⟨cellsSized, counted, columnRows⟩ := fieldRows
  obtain ⟨sized', _, continued⟩ := rest
  refine ⟨sized', by simpa [rowCount] using counted, fun row inside => ?_⟩
  have done : rows[row]? = some rows[row] := List.getElem?_eq_getElem (by omega)
  have added : cells[row]? = some cells[row] := List.getElem?_eq_getElem (by omega)
  have appended : (appendCells rows cells)[row]? = some (rows[row] ++ cells[row]) := by
    rw [appendCells, List.getElem?_append_left (by simp; omega), List.getElem?_zipWith, done,
      added]
  rw [continued row inside, appended, done, fieldCells, columnRows row inside, added]
  simp [List.append_assoc, Option.bind_assoc]

theorem agree_tupleFields (nested : NestedAgree left right) {fields : List ColumnType}
    (typed : ColumnType.areTyped fields = true) {rows : ColumnData}
    (sized : rows.length = count) :
    Reader.AgreeUnless addressSpace (fun result => ¬ FieldsResolve result.1)
      (fun rows' result => TupleRows count rows rows' result.1 ∧ result.2 = headers)
      (readTupleFields left count fields rows) (decodeFields right count fields headers) := by
  induction fields generalizing rows headers with
  | nil =>
      refine Reader.AgreeUnless.pure ⟨⟨sized, Nat.zero_le _, fun row _ => ?_⟩, rfl⟩
      simp [fieldCells]
  | cons field fields ih =>
      simp only [ColumnType.areTyped, Bool.and_eq_true] at typed
      refine (nested field count headers typed.1).bind ?_ ?_
      · rintro cells ⟨column, queue⟩ ⟨fieldRows, same⟩
        obtain rfl : queue = headers := same
        have appendedSize : (appendCells rows cells).length = count := by
          simp only [appendCells, List.length_append, List.length_zipWith, List.length_drop,
            sized, fieldRows.1]
          omega
        intro input bounded
        dsimp only
        rw [Reader.bind_run]
        have outcome := @ih queue typed.2 _ appendedSize input bounded
        generalize readTupleFields left count fields (appendCells rows cells) input =
          leftOutcome at outcome ⊢
        generalize decodeFields right count fields queue input = rightOutcome at outcome ⊢
        cases outcome with
        | error => exact .error
        | refused unresolved =>
            exact .refused fun resolved => unresolved (by
              simp only [FieldsResolve] at resolved
              exact resolved.2)
        | ok values shrinks =>
            exact .ok ⟨tupleRows_cons sized fieldRows values.1, values.2⟩ shrinks
      · rintro ⟨column, queue⟩ unresolved input result rest succeeded
        obtain ⟨columns, middle, _, finished⟩ := Reader.bind_ok_iff.mp succeeded
        cases finished
        intro resolved
        simp only [FieldsResolve] at resolved
        exact unresolved resolved.1

theorem columnsAgree_tuple (nested : NestedAgree left right) {fields : List ColumnType}
    (typed : ColumnType.areTyped fields = true) (depth : Nat) :
    ColumnsAgree count headers (readTupleColumn left count fields)
      (decodeColumnStep right depth (.tuple fields) count headers) := by
  have start : (List.replicate count ([] : Bytes)).length = count := List.length_replicate
  have agree := @agree_tupleFields left right count headers nested fields typed _ start
  intro input bounded
  simp only [readTupleColumn, decodeColumnStep]
  rw [Reader.bind_run]
  have outcome := agree input bounded
  generalize readTupleFields left count fields _ input = leftOutcome at outcome ⊢
  generalize decodeFields right count fields headers input = rightOutcome at outcome ⊢
  cases outcome with
  | error => exact .error
  | refused unresolved =>
      exact .refused fun resolved => unresolved (by simpa [IndicesResolve] using resolved)
  | ok values shrinks =>
      obtain ⟨⟨sized, counted, rows⟩, queue⟩ := values
      refine .ok ⟨⟨sized, counted, fun row inside => ?_⟩, queue⟩ shrinks
      rw [rows row inside, cell, List.getElem?_replicate_of_lt inside]
      simp

/-! ### Dictionaries -/

theorem isTyped_dictionaryType {inner : ColumnType} (typed : inner.isTyped = true) :
    (dictionaryType inner).1.isTyped = true := by
  cases inner with
  | nullable inner => simpa [dictionaryType, ColumnType.isTyped] using typed
  | _ => exact typed

@[simp] theorem leNat_scalarBytes {width : Nat} (value : BitVec (8 * width)) :
    leNat (scalarBytes width value) = value.toNat := by
  have small : value.toNat < 256 ^ width := by
    rw [← two_pow_eight_mul]
    exact value.isLt
  exact leNat_natLe_of_lt small

theorem readIndex_of_width {width : Nat}
    (valid : width = 1 ∨ width = 2 ∨ width = 4 ∨ width = 8) :
    readIndex width = (do
      let bytes ← readExact width
      pure (leNat bytes)) := by
  rw [readIndex, if_pos valid]

/-- The indices a decoded index column holds. -/
def IndexRows (count : Nat) (slots : List Nat) (indices : DecodedColumn) : Prop :=
  slots.length = count ∧ indices.rowCount = count ∧
    ∀ row, indices.index row = slots[row]?

theorem agree_indexColumn {width : Nat} {build : List (BitVec (8 * width)) → DecodedColumn}
    {reader : ByteReader (List (BitVec (8 * width)))}
    (valid : width = 1 ∨ width = 2 ∨ width = 4 ∨ width = 8)
    (agree : Reader.Agree addressSpace
      (fun cells values => cells = values.map (scalarBytes width) ∧ cells.length = count)
      (readFixedColumn count width) reader)
    (counted : ∀ values, (build values).rowCount = values.length)
    (rows : ∀ values row, (build values).index row = (values[row]?).map BitVec.toNat) :
    Reader.Agree addressSpace (IndexRows count)
      (Reader.times (readIndex width) count) (build <$> reader) := by
  rw [readIndex_of_width valid, Reader.times_bind_pure]
  have mapped : Reader.Agree addressSpace
      (fun cells column => IndexRows count (cells.map leNat) column)
      (readFixedColumn count width) (build <$> reader) := by
    refine agree.map_right ?_
    rintro cells values ⟨rfl, sized⟩
    have decoded : (values.map (scalarBytes width)).map leNat = values.map BitVec.toNat := by
      rw [List.map_map]
      exact List.map_congr_left fun value _ => leNat_scalarBytes value
    rw [List.length_map] at sized
    refine ⟨by simpa using sized, by rw [counted, sized], fun row => ?_⟩
    rw [decoded, rows, List.getElem?_map]
  exact mapped.bind_pure_left fun _ _ holds => holds

theorem agree_decodeIndices {indexType width : Nat}
    (selected : indexBytes indexType = .ok width) :
    Reader.Agree addressSpace (IndexRows count)
      (Reader.times (readIndex width) count) (decodeIndices indexType count) := by
  match indexType, selected with
  | 0, selected =>
      cases selected
      rw [decodeIndices, ← map_eq_pure_bind]
      exact agree_indexColumn (by decide) (agree_readByteColumn count) (fun _ => rfl)
        fun _ _ => rfl
  | 1, selected =>
      cases selected
      rw [decodeIndices, ← map_eq_pure_bind]
      exact agree_indexColumn (by decide) (agree_readLeColumn (by decide) count)
        (fun _ => rfl) fun _ _ => rfl
  | 2, selected =>
      cases selected
      rw [decodeIndices, ← map_eq_pure_bind]
      exact agree_indexColumn (by decide) (agree_readLeColumn (by decide) count)
        (fun _ => rfl) fun _ _ => rfl
  | 3, selected =>
      cases selected
      rw [decodeIndices, ← map_eq_pure_bind]
      exact agree_indexColumn (by decide) (agree_readLeColumn (by decide) count)
        (fun _ => rfl) fun _ _ => rfl

theorem exists_indexBytes (flags : Nat) : ∃ width, indexBytes (flags % 4) = .ok width := by
  have small : flags % 4 < 4 := Nat.mod_lt _ (by decide)
  generalize flags % 4 = code at small
  match code, small with
  | 0, _ => exact ⟨1, rfl⟩
  | 1, _ => exact ⟨2, rfl⟩
  | 2, _ => exact ⟨4, rfl⟩
  | 3, _ => exact ⟨8, rfl⟩

theorem shrinks_readIndex (width : Nat) : Reader.Shrinks (readIndex width) := by
  unfold readIndex
  split
  · exact (shrinks_readExact width).bind fun _ => Reader.Shrinks.pure _
  · exact Reader.Shrinks.fail _

/-- A dictionary lookup succeeds on every index inside the dictionary. -/
theorem dictionaryCell_eq {size slot : Nat} {dictCells : ColumnData} {dict : DecodedColumn}
    {isNullableInner : Bool} (dictRows : Cells size dictCells dict) {result : Bytes}
    (found : dictionaryCell dictCells isNullableInner slot = .ok result) :
    (if isNullableInner then
      if slot = 0 then some [1] else (dict.cell slot).map (0 :: ·)
    else dict.cell slot) = some result := by
  have lookup {value : Bytes} (stored : dictCells[slot]? = some value) :
      dict.cell slot = some value := by
    have inside : slot < dictCells.length := (List.getElem?_eq_some_iff.mp stored).1
    rw [dictRows.2.2 slot (dictRows.1 ▸ inside), stored]
  unfold dictionaryCell at found
  cases isNullableInner with
  | true =>
      by_cases null : slot = 0
      · subst null
        cases found
        rfl
      · simp only [if_true, if_neg null] at found ⊢
        cases stored : dictCells[slot]? with
        | none => simp [stored] at found
        | some value =>
            simp only [stored, Except.ok.injEq] at found
            rw [lookup stored, ← found]
            rfl
  | false =>
      simp only [Bool.false_eq_true, if_false] at found ⊢
      cases stored : dictCells[slot]? with
      | none => simp [stored] at found
      | some value =>
          simp only [stored, Except.ok.injEq] at found
          rw [lookup stored, found]

theorem dictionaryCell_error {size slot : Nat} {dictCells : ColumnData}
    {dict : DecodedColumn} {isNullableInner : Bool} {error : Error}
    (dictRows : Cells size dictCells dict)
    (missing : dictionaryCell dictCells isNullableInner slot = .error error) :
    ¬ (slot < dict.rowCount ∨ (isNullableInner = true ∧ slot = 0)) := by
  have stored (inside : slot < dict.rowCount) : ∃ value, dictCells[slot]? = some value := by
    have counted := dictRows.2.1
    have sized := dictRows.1
    exact ⟨dictCells[slot], List.getElem?_eq_getElem (by omega)⟩
  unfold dictionaryCell at missing
  rintro (inside | ⟨rfl, rfl⟩)
  · obtain ⟨value, found⟩ := stored inside
    cases isNullableInner with
    | true =>
        by_cases null : slot = 0
        · simp [null] at missing
        · simp [null, found] at missing
    | false => simp [found] at missing
  · simp at missing

theorem columnsAgree_lowCardinality (nested : NestedAgree left right) {inner : ColumnType}
    (typed : inner.isTyped = true) :
    ColumnsAgree count headers (readLowCardinalityColumn left count inner)
      (decodeLowCardinality right inner count headers) := by
  unfold readLowCardinalityColumn decodeLowCardinality
  refine Reader.AgreeUnless.bind_agree (Reader.Agree.refl shrinks_readU64Le) ?_
  rintro flags _ rfl
  have dictTyped := isTyped_dictionaryType typed
  generalize dictionaryType inner = dictionary at dictTyped
  obtain ⟨dictType, isNullableInner⟩ := dictionary
  dsimp only
  refine Reader.AgreeUnless.bind_agree (Reader.Agree.require _ _) fun _ _ _ => ?_
  refine Reader.AgreeUnless.bind_agree (Reader.Agree.require _ _) fun _ _ _ => ?_
  refine Reader.AgreeUnless.bind_agree (Reader.Agree.refl shrinks_readU64Le) ?_
  rintro size _ rfl
  obtain ⟨width, selected⟩ := exists_indexBytes flags
  refine (nested dictType size headers dictTyped).bind ?_ ?_
  · rintro dictCells ⟨dict, queue⟩ ⟨dictRows, same⟩
    obtain rfl : queue = headers := same
    refine Reader.AgreeUnless.bind_agree (Reader.Agree.refl shrinks_readU64Le) ?_
    rintro numIndices _ rfl
    refine Reader.AgreeUnless.bind_agree (Reader.Agree.require _ _) fun _ _ _ => ?_
    rw [selected]
    have lookups := (Reader.agreeUnless_times_check (shrinks_readIndex width)
      (dictionaryCell dictCells isNullableInner) count).trans_agree
        (agree_decodeIndices selected)
    refine lookups.bind_pure_right ?_ ?_
    · rintro cells indices ⟨slots, ⟨found, _⟩, sized, counted, slotRows⟩
      refine ⟨⟨found.length_eq.trans sized, by simp [rowCount, counted], ?_⟩, rfl⟩
      intro row inside
      have slot : slots[row]? = some slots[row] := List.getElem?_eq_getElem (by omega)
      have cellsSized : row < cells.length := by
        rw [found.length_eq]
        omega
      have result : cells[row]? = some cells[row] := List.getElem?_eq_getElem cellsSized
      have looked : dictionaryCell dictCells isNullableInner slots[row] = .ok cells[row] :=
        List.forall₂_iff_get.mp found |>.2 row cellsSized (by omega)
      rw [cell, slotRows row, slot, result]
      exact dictionaryCell_eq dictRows looked
    · rintro indices ⟨slots, ⟨slot, member, error, missing⟩, _, _, slotRows⟩ resolved
      simp only [IndicesResolve] at resolved
      obtain ⟨row, inside, rfl⟩ := List.getElem_of_mem member
      have held : indices.index row = some slots[row] := by
        rw [slotRows row, List.getElem?_eq_getElem inside]
      exact dictionaryCell_error dictRows missing (resolved.2 row _ held)
  · rintro ⟨dict, queue⟩ unresolved input result rest succeeded
    obtain ⟨numIndices, _, _, succeeded⟩ := Reader.bind_ok_iff.mp succeeded
    obtain ⟨_, _, _, succeeded⟩ := Reader.bind_ok_iff.mp succeeded
    obtain ⟨indices, _, _, finished⟩ := Reader.bind_ok_iff.mp succeeded
    cases finished
    intro resolved
    simp only [IndicesResolve] at resolved
    exact unresolved resolved.1

end Composite

/-! ## All levels -/

/-- One level of the two readers agrees when the next one does. -/
theorem columnsAgree_step {left : ColumnReader} {right : ColumnDecoder}
    (nested : NestedAgree left right) (depth : Nat) {colType : ColumnType}
    (typed : colType.isTyped = true) (count : Nat) (headers : List DynamicHeader) :
    ColumnsAgree count headers (readColumnStep left colType count)
      (decodeColumnStep right depth colType count headers) := by
  cases colType with
  | nullable inner =>
      have innerTyped : inner.isTyped = true := typed
      exact columnsAgree_nullable nested innerTyped depth
  | lowCardinality inner =>
      have innerTyped : inner.isTyped = true := typed
      exact columnsAgree_lowCardinality nested innerTyped
  | simpleAggregateFunction inner => exact nested inner count headers typed
  | array inner =>
      have innerTyped : inner.isTyped = true := typed
      exact columnsAgree_array nested innerTyped depth
  | tuple fields => exact columnsAgree_tuple nested typed depth
  | map keyType valType =>
      simp only [ColumnType.isTyped, Bool.and_eq_true] at typed
      exact columnsAgree_map nested typed.1 typed.2 depth
  | uInt8 | int8 | enum8 =>
      exact columnsAgree_of_leaf (agree_bytes (fun _ => rfl) fun _ _ => rfl)
  | uInt16 | int16 | enum16 | date | uInt32 | int32 | float32 | date32 | dateTime | iPv4
  | uInt64 | int64 | float64 | int128 | uInt128 | decimal32 | decimal64 | decimal128
  | dateTime64 =>
      exact columnsAgree_of_leaf (agree_scalars (by decide) (fun _ => rfl) fun _ _ => rfl)
  | int256 | uInt256 | decimal256 =>
      exact columnsAgree_of_leaf (agree_raw (agree_readU256Column count) (fun _ => rfl)
        fun _ _ => rfl)
  | uuid | iPv6 =>
      exact columnsAgree_of_leaf (agree_raw (agree_readExactTimes 16 count) (fun _ => rfl)
        fun _ _ => rfl)
  | string | json =>
      exact columnsAgree_of_leaf (agree_strings (fun _ => rfl) fun _ _ => rfl)
  | fixedString width => exact columnsAgree_of_leaf (agree_fixedString count width)
  | variant types => simp [ColumnType.isTyped] at typed
  | _ => cases typed

theorem nestedAgree_levels {levels : Nat} (inner : levels ≤ maxReadDepth) :
    NestedAgree (readColumnLevels levels) (decodeColumnLevels levels) := by
  induction levels with
  | zero => exact fun _ _ _ _ _ _ => .error
  | succ levels ih =>
      intro colType count headers typed
      have notTop : ¬ (levels = maxReadDepth ∧ count = 0) := fun top => by omega
      have notTop' : ¬ (levels = maxDecodeDepth ∧ count = 0) := notTop
      rw [readColumnLevels, decodeColumnLevels, if_neg notTop, if_neg notTop']
      exact columnsAgree_step (ih (by omega)) _ typed count headers

/-- At every depth the two readers agree on a typed column that has rows. -/
theorem columnsAgree_at {colType : ColumnType} (typed : colType.isTyped = true)
    {count : Nat} (positive : 1 ≤ count) (depth : Nat) (headers : List DynamicHeader) :
    ColumnsAgree count headers (readColumnAt colType count depth)
      (decodeColumn colType count depth headers) := by
  unfold readColumnAt decodeColumn
  cases left : maxReadDepth + 1 - depth with
  | zero =>
      have same : maxDecodeDepth + 1 - depth = 0 := left
      rw [same]
      exact fun _ _ => .error
  | succ levels =>
      have same : maxDecodeDepth + 1 - depth = levels + 1 := left
      rw [same, readColumnLevels, decodeColumnLevels, if_neg (by omega), if_neg (by omega)]
      exact columnsAgree_step (nestedAgree_levels (by omega)) _ typed count headers

/-- If the cell reader succeeds then the typed decoder succeeds on the same bytes
and the cells are its rows; if the typed decoder succeeds and every dictionary
index it read resolves then the cell reader succeeds. -/
theorem readColumnAt_decodeColumn_agree (colType : ColumnType)
    (typed : colType.isTyped = true) (count depth : Nat) (positive : 1 ≤ count)
    (headers : List DynamicHeader) (input : ByteString) :
    (∀ cells rest, readColumnAt colType count depth input.bytes = .ok (cells, rest) →
      ∃ column, decodeColumn colType count depth headers input.bytes =
          .ok ((column, headers), rest) ∧
        cells.length = count ∧ ∀ row, row < count → column.cell row = cells[row]?) ∧
    (∀ column queue rest, decodeColumn colType count depth headers input.bytes =
        .ok ((column, queue), rest) → column.IndicesResolve →
      ∃ cells, readColumnAt colType count depth input.bytes = .ok (cells, rest)) := by
  have agree := columnsAgree_at typed positive depth headers
  constructor
  · intro cells rest succeeded
    obtain ⟨⟨column, queue⟩, decoded, rows, same⟩ :=
      agree.ok_of_left_ok input.bounded succeeded
    obtain rfl : queue = headers := same
    exact ⟨column, decoded, rows.1, rows.2.2⟩
  · intro column queue rest succeeded resolved
    obtain ⟨cells, read, _⟩ :=
      agree.ok_of_right_ok input.bounded succeeded fun unresolved => unresolved resolved
    exact ⟨cells, read⟩

/-- One row of two nullable dictionary elements: NULL and the byte 7. -/
def nullableDictionaryColumn : ByteString where
  bytes := natLe 8 2 ++ natLe 8 512 ++ natLe 8 2 ++ [0, 7] ++ natLe 8 2 ++ [0, 1] ++ [9]
  bounded := by decide

theorem readColumnAt_decodeColumn_agree_dictionary :
    (ColumnType.array (.lowCardinality (.nullable .uInt8))).isTyped = true ∧
      readColumnAt (.array (.lowCardinality (.nullable .uInt8))) 1 0
        nullableDictionaryColumn.bytes = .ok ([[2, 1, 0, 7]], [9]) ∧
      ∃ column, decodeColumn (.array (.lowCardinality (.nullable .uInt8))) 1 0 []
          nullableDictionaryColumn.bytes = .ok ((column, []), [9]) ∧
        column.cell 0 = some [2, 1, 0, 7] := by
  have read : readColumnAt (.array (.lowCardinality (.nullable .uInt8))) 1 0
      nullableDictionaryColumn.bytes = .ok ([[2, 1, 0, 7]], [9]) := rfl
  obtain ⟨column, decoded, _, rows⟩ :=
    (readColumnAt_decodeColumn_agree (.array (.lowCardinality (.nullable .uInt8))) rfl 1 0
      (by decide) [] nullableDictionaryColumn).1 _ _ read
  exact ⟨rfl, read, column, decoded, rows 0 (by decide)⟩

end DfeClickhouse.Native
