import DfeClickhouse.Native.CellValues

/-!
# Agreement of the renderer and the cell reader

The renderer takes a cell apart again by the type it was read at.  On the cell of a
value it returns the value's text and stops at the end of the cell, whatever
follows; so the `null` that stands for an unreadable cell is never rendered for a
cell of the reader.
-/

namespace DfeClickhouse.Native

open Library RowValue

/-- The bytes of a value without parts. -/
def RowValue.bytes : RowValue → Bytes
  | raw bytes | text bytes => bytes
  | _ => []

mutual

/-- The JSON text of a value of a type. -/
def jsonOf : ColumnType → RowValue → Bytes
  | .string, value | .json, value => jsonQuoteBytes value.bytes
  | .newJson, value | .variant _, value | .dynamic, value => value.bytes
  | .nullable inner, value =>
      match value with
      | present held => jsonOf inner held
      | _ => utf8 "null"
  | .lowCardinality inner, value | .simpleAggregateFunction inner, value => jsonOf inner value
  | .array inner, value =>
      bracketed "[" "]" (value.elements.map fun element => jsonOf inner element)
  | .map keyType valType, value =>
      bracketed "\x7b" "\x7d" (value.elements.map fun entry =>
        jsonOf keyType entry.entryKey ++ utf8 ":" ++ jsonOf valType entry.entryValue)
  | .tuple types, value => bracketed "[" "]" (fieldTexts types value.fields)
  | scalar, value => rowbinaryToJson value.bytes scalar

/-- The JSON texts of tuple fields. -/
def fieldTexts : List ColumnType → List RowValue → List Bytes
  | type :: types, field :: fields => jsonOf type field :: fieldTexts types fields
  | _, _ => []

end

/-- The renderer returns a text for a cell and stops at its end, whatever follows. -/
def Renders (render : Bytes → Option (Bytes × Nat)) (cell text : Bytes) : Prop :=
  ∀ rest, render (cell ++ rest) = some (text, cell.length)

theorem renders_fixed {width : Nat} {text : Bytes → Bytes} {bytes : Bytes}
    (sized : bytes.length = width) : Renders (renderFixed width text) bytes (text bytes) := by
  intro rest
  subst sized
  simp [renderFixed, head]

theorem renders_prefixed {text : Bytes → Bytes} {bytes : Bytes} (small : bytes.length < 2 ^ 64) :
    Renders (renderPrefixed text) (putString bytes) (text bytes) := by
  intro rest
  have header : sliceVarUint (putString bytes ++ rest) =
      some (bytes.length, (encodeVarUint bytes.length).length) := by
    rw [sliceVarUint, putString, List.append_assoc, getVarUint_encodeVarUint small]
    rfl
  rw [renderPrefixed, header]
  simp [putString]

theorem exists_renderFixed {colType : ColumnType} {width : Nat}
    (fixed : colType.fixedSize = some width) :
    (∃ text, rowbinaryToJsonInner colType = renderFixed width text) ∧
      ∀ value, jsonOf colType value = rowbinaryToJson value.bytes colType := by
  cases colType <;> cases fixed <;> exact ⟨⟨_, rfl⟩, fun _ => rfl⟩

theorem renders_scalar {colType : ColumnType} {width : Nat} {text : Bytes → Bytes} {bytes : Bytes}
    (renderer : rowbinaryToJsonInner colType = renderFixed width text)
    (sized : bytes.length = width) :
    Renders (rowbinaryToJsonInner colType) bytes (rowbinaryToJson bytes colType) := by
  have alone := @renders_fixed width text bytes sized []
  rw [List.append_nil, ← renderer] at alone
  have shown : rowbinaryToJson bytes colType = text bytes := by rw [rowbinaryToJson, alone]
  rw [shown, renderer]
  exact renders_fixed sized

theorem Renders.at {render : Bytes → Option (Bytes × Nat)} {cell text : Bytes}
    (renders : Renders render cell text) (before rest : Bytes) :
    render ((before ++ (cell ++ rest)).drop before.length) = some (text, cell.length) := by
  rw [List.drop_left]
  exact renders rest

/-- Rendering cell after cell. -/
theorem renderTimes_cells {α : Type} {render : Bytes → Option (Bytes × Nat)}
    {cell text : α → Bytes} {items : List α}
    (each : ∀ item ∈ items, Renders render (cell item) (text item)) (before rest : Bytes) :
    renderTimes render (before ++ ((items.map cell).flatten ++ rest)) items.length before.length =
      some (items.map text, before.length + (items.map cell).flatten.length) := by
  induction items generalizing before with
  | nil => simp [renderTimes]
  | cons item items ih =>
      have first := (each item (by simp)).at before ((items.map cell).flatten ++ rest)
      have later := ih (fun item member => each item (by simp [member])) (before ++ cell item)
      rw [List.length_append, List.append_assoc] at later
      rw [List.map_cons, List.flatten_cons, List.append_assoc, List.length_cons, renderTimes, first]
      simp only [Option.bind_eq_bind, Option.bind_some, later, List.map_cons, List.length_append]
      congr 2
      omega

theorem renders_list {α : Type} {render : Bytes → Option (Bytes × Nat)} {cell text : α → Bytes}
    {items : List α} (small : items.length < 2 ^ 64)
    (each : ∀ item ∈ items, Renders render (cell item) (text item)) (opening closing : String) :
    Renders (fun bytes => do
        let (count, header) ← sliceVarUint bytes
        let (texts, stop) ← renderTimes render bytes count header
        some (bracketed opening closing texts, stop))
      (encodeVarUint items.length ++ (items.map cell).flatten)
      (bracketed opening closing (items.map text)) := by
  intro rest
  rw [List.append_assoc]
  have header : sliceVarUint (encodeVarUint items.length ++ ((items.map cell).flatten ++ rest)) =
      some (items.length, (encodeVarUint items.length).length) := by
    rw [sliceVarUint, getVarUint_encodeVarUint small]
    rfl
  simp only [header, Option.bind_eq_bind, Option.bind_some, renderTimes_cells each,
    List.length_append]

theorem renders_pair {key value : Bytes → Option (Bytes × Nat)}
    {keyCell valueCell keyText valueText : Bytes} (keyRenders : Renders key keyCell keyText)
    (valueRenders : Renders value valueCell valueText) :
    Renders (renderPair key value) (keyCell ++ valueCell) (keyText ++ utf8 ":" ++ valueText) := by
  intro rest
  rw [List.append_assoc, renderPair, keyRenders]
  simp only [Option.bind_eq_bind, Option.bind_some, valueRenders.at, List.length_append]

theorem renders_fields {types : List ColumnType} {fields : List RowValue}
    (each : ∀ type ∈ types, ∀ field, ReadAs type field → field.rowBinary.length < 2 ^ 64 →
      Renders (rowbinaryToJsonInner type) field.rowBinary (jsonOf type field))
    (read : FieldsReadAs types fields) (small : (rowBinaries fields).length < 2 ^ 64)
      (rest : Bytes) :
    renderFields types (rowBinaries fields ++ rest) =
      some (fieldTexts types fields, (rowBinaries fields).length) := by
  induction types generalizing fields with
  | nil =>
      obtain rfl : fields = [] := read
      rfl
  | cons type types ih =>
      obtain ⟨field, others, rfl, fieldRead, othersRead⟩ := read
      rw [rowBinaries, List.length_append] at small
      have first := each type (by simp) field fieldRead (by omega)
      have later := ih (fun type member => each type (by simp [member])) othersRead (by omega)
      rw [rowBinaries, renderFields, List.append_assoc, first]
      simp only [Option.bind_eq_bind, Option.bind_some, List.drop_left, later, fieldTexts,
        List.length_append]

theorem length_rowBinary_le {value : RowValue} {values : List RowValue} (member : value ∈ values) :
    value.rowBinary.length ≤ (rowBinaries values).length := by
  rw [rowBinaries_eq_flatten]
  exact (List.sublist_flatten_of_mem (List.mem_map_of_mem member)).length_le

/-- The renderer reads a value back from its cell. -/
theorem renders_value {colType : ColumnType} {value : RowValue} (read : ReadAs colType value)
    (small : value.rowBinary.length < 2 ^ 64) :
    Renders (rowbinaryToJsonInner colType) value.rowBinary (jsonOf colType value) := by
  induction colType using ColumnType.induction_forms generalizing value with
  | fixed colType width fixed =>
      obtain ⟨bytes, rfl, sized⟩ := (readAs_of_fixed fixed).mp read
      obtain ⟨⟨text, renderer⟩, shown⟩ := exists_renderFixed fixed
      rw [shown]
      exact renders_scalar renderer sized
  | string | json =>
      obtain ⟨bytes, rfl, capped⟩ := read
      apply renders_prefixed
      unfold maxStringSize at capped
      omega
  | newJson | dynamic | variant =>
      obtain ⟨bytes, rfl⟩ := read
      apply renders_prefixed
      rw [rowBinary, putString, List.length_append] at small
      omega
  | point =>
      obtain ⟨bytes, rfl, sized⟩ := read
      exact renders_scalar rfl sized
  | nullable inner ih =>
      rcases read with rfl | ⟨held, rfl, heldRead⟩
      · intro rest
        rfl
      · intro rest
        have inside := ih heldRead (by
          rw [rowBinary, List.length_cons] at small
          omega) rest
        simp only [rowBinary, List.cons_append, rowbinaryToJsonInner, ne_eq, not_true_eq_false,
          if_false, inside, Option.map_some, jsonOf, List.length_cons, Nat.add_comm]
  | lowCardinality inner ih | simpleAggregateFunction inner ih => exact ih read small
  | array inner ih =>
      obtain ⟨elements, rfl, counted, elementsRead⟩ := read
      rw [rowBinary, List.length_append] at small
      rw [rowBinary, rowBinaries_eq_flatten]
      refine renders_list counted (fun element member => ?_) "[" "]"
      have shorter := length_rowBinary_le member
      exact ih (elementsRead element member) (by omega)
  | map keyType valType keyIh valIh =>
      obtain ⟨entries, rfl, counted, entriesRead⟩ := read
      rw [rowBinary, List.length_append] at small
      rw [rowBinary, rowBinaries_eq_flatten]
      refine renders_list counted (fun entry member => ?_) "\x7b" "\x7d"
      obtain ⟨key, held, rfl, keyRead, heldRead⟩ := entriesRead entry member
      have shorter := length_rowBinary_le member
      have pair : (record [key, held]).rowBinary = key.rowBinary ++ held.rowBinary := by
        simp [rowBinary, rowBinaries]
      rw [pair, List.length_append] at shorter
      rw [pair]
      exact renders_pair (keyIh keyRead (by omega)) (valIh heldRead (by omega))
  | tuple types ih =>
      obtain ⟨fields, rfl, fieldsRead⟩ := read
      intro rest
      rw [rowBinary] at small ⊢
      have shown := renders_fields (fun type member field => ih type member) fieldsRead small rest
      rw [rowbinaryToJsonInner]
      simp only [shown, Option.bind_eq_bind, Option.bind_some]
      rfl

/-- The renderer takes every cell of the reader apart and stops at its end, whatever
follows.  The arms of `Variant`, `Dynamic` and `JSON` columns are read by the same
reader, so no cell of an arm is rendered as the `null` of an unreadable one. -/
theorem rowbinaryToJsonInner_readColumnAt (colType : ColumnType) (count depth : Nat)
    (input : Bytes) :
    (∀ cells unread, readColumnAt colType count depth input = .ok (cells, unread) →
      ∀ cell : ByteString, cell.bytes ∈ cells →
        ∃ text, ∀ rest, rowbinaryToJsonInner colType (cell.bytes ++ rest) =
          some (text, cell.bytes.length)) ∧
    ∀ types discriminators values unread,
      readArms (fun colType count => readColumnAt colType count depth) types discriminators input =
        .ok (values, unread) →
      ∀ (arm : Nat) armType cells, types[arm]? = some armType → values[arm]? = some cells →
        ∀ cell : ByteString, cell.bytes ∈ cells →
          rowbinaryToJsonInner armType cell.bytes =
            some (cellToJson (some cell.bytes) armType, cell.bytes.length) := by
  have rendered : ∀ {colType : ColumnType} {cell : ByteString}, IsCell colType cell.bytes →
      ∃ text, Renders (rowbinaryToJsonInner colType) cell.bytes text := by
    intro colType cell isCell
    obtain ⟨value, valueRead, same⟩ := isCell
    have small := cell.bounded
    rw [← same] at small ⊢
    exact ⟨_, renders_value valueRead small⟩
  constructor
  · intro cells unread read cell member
    exact rendered ((yields_readColumnAt colType count depth input cells unread read).2 _ member)
  · intro types discriminators values unread read arm armType cells armTyped armCells cell member
    have each : List.Forall₂ (fun (arm : ColumnType × Nat) cells =>
        AreCells arm.1 (discriminators.count arm.2) cells) types.zipIdx values :=
      Reader.Yields.each (fun arm _ => yields_readColumnAt arm.1 _ depth) input values unread read
    have armListed : types.zipIdx[arm]? = some (armType, arm) := by
      simp [List.getElem?_zipIdx, armTyped]
    have armRead : AreCells armType (discriminators.count arm) cells := by
      rw [List.forall₂_iff_get] at each
      obtain ⟨inside, listed⟩ := List.getElem?_eq_some_iff.mp armListed
      obtain ⟨insideValues, held⟩ := List.getElem?_eq_some_iff.mp armCells
      have entry := each.2 arm inside insideValues
      simp only [List.get_eq_getElem, listed, held] at entry
      exact entry
    obtain ⟨text, renders⟩ := rendered (armRead.2 _ member)
    have alone := renders []
    rw [List.append_nil] at alone
    rw [alone, cellToJson, rowbinaryToJson, alone]

/-- The cell of NULL and the number 7 in an array with a dictionary. -/
def listedCell : ByteString where
  bytes := [2, 1, 0, 7]
  bounded := by decide

theorem rowbinaryToJsonInner_readColumnAt_list :
    readColumnAt (.array (.lowCardinality (.nullable .uInt8))) 1 0
        (natLe 8 2 ++ natLe 8 512 ++ natLe 8 2 ++ [0, 7] ++ natLe 8 2 ++ [0, 1] ++ [9]) =
      .ok ([listedCell.bytes], [9]) ∧
    ∃ text, ∀ rest, rowbinaryToJsonInner (.array (.lowCardinality (.nullable .uInt8)))
      (listedCell.bytes ++ rest) = some (text, 4) := by
  have read : readColumnAt (.array (.lowCardinality (.nullable .uInt8))) 1 0
      (natLe 8 2 ++ natLe 8 512 ++ natLe 8 2 ++ [0, 7] ++ natLe 8 2 ++ [0, 1] ++ [9]) =
        .ok ([listedCell.bytes], [9]) := rfl
  exact ⟨read, (rowbinaryToJsonInner_readColumnAt _ 1 0 _).1 _ _ read listedCell (by simp)⟩

end DfeClickhouse.Native
