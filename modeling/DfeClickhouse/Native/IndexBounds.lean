import DfeClickhouse.Native.RepInvariant
import DfeClickhouse.Native.Rows

/-!
# Dictionary indices

The decoder keeps the indices of a `LowCardinality` column as they are on the wire.  A
dictionary is found on the wire here, at any nesting, with the number of entries announced
for it and the index bytes behind them: every index of a decoded block resolves exactly if
the indices of each dictionary on the wire are below its number of entries.
-/

namespace DfeClickhouse.Native

open Library

/-- A dictionary on the wire: the number of entries announced for it, whether its type counts
them as rows, whether entry 0 stands for NULL, and the index bytes behind the entries. -/
structure WireDictionary where
  size : Nat
  counted : Bool
  isNullableInner : Bool
  width : Nat
  indexBytes : Bytes

namespace WireDictionary

/-- The indices, each `width` bytes. -/
def indices (dictionary : WireDictionary) : List Nat :=
  (chunksExact dictionary.width dictionary.indexBytes).map leNat

/-- The entries an index can refer to. -/
def entries (dictionary : WireDictionary) : Nat :=
  if dictionary.counted then dictionary.size else 0

/-- Every index is below the number of entries, or is the NULL index 0. -/
def Covers (dictionary : WireDictionary) : Prop :=
  ∀ slot ∈ dictionary.indices,
    slot < dictionary.entries ∨ (dictionary.isNullableInner = true ∧ slot = 0)

end WireDictionary

/-- A dictionary lies in the payload of `count` rows of a type, at the front of the input.
What comes before it on the wire is skipped by the readers of the payload. -/
inductive DictionaryAt : Nat → ColumnType → Nat → List DynamicHeader → Bytes →
    WireDictionary → Prop
  /-- The column's own dictionary: flags, the number of entries, the entries, the number of
  indices and the indices. -/
  | own {levels count flags size number : Nat} {inner : ColumnType}
      {headers left : List DynamicHeader} {dict : DecodedColumn} {indexBytes : Bytes}
      {input afterFlags afterSize afterEntries afterNumber rest : Bytes}
      (flagsRead : readU64Le input = .ok (flags, afterFlags))
      (sizeRead : readU64Le afterFlags = .ok (size, afterSize))
      (entriesRead : decodeColumnLevels levels (dictionaryType inner).1 size headers afterSize =
        .ok ((dict, left), afterEntries))
      (numberRead : readU64Le afterEntries = .ok (number, afterNumber))
      (indicesRead : readExact (count * 2 ^ (flags % 4)) afterNumber = .ok (indexBytes, rest)) :
      DictionaryAt (levels + 1) (.lowCardinality inner) count headers input
        ⟨size, (dictionaryType inner).1.countsRows, (dictionaryType inner).2, 2 ^ (flags % 4),
          indexBytes⟩
  /-- A dictionary among the entries of the column's own. -/
  | entry {levels count flags size : Nat} {inner : ColumnType} {headers : List DynamicHeader}
      {input afterFlags afterSize : Bytes} {dictionary : WireDictionary}
      (flagsRead : readU64Le input = .ok (flags, afterFlags))
      (sizeRead : readU64Le afterFlags = .ok (size, afterSize))
      (inside : DictionaryAt levels (dictionaryType inner).1 size headers afterSize dictionary) :
      DictionaryAt (levels + 1) (.lowCardinality inner) count headers input dictionary
  | nullable {levels count : Nat} {inner : ColumnType} {headers : List DynamicHeader}
      {input mask rest : Bytes} {dictionary : WireDictionary}
      (maskRead : readExact count input = .ok (mask, rest))
      (inside : DictionaryAt levels inner count headers rest dictionary) :
      DictionaryAt (levels + 1) (.nullable inner) count headers input dictionary
  | element {levels count : Nat} {inner : ColumnType} {headers : List DynamicHeader}
      {offsets : List Nat} {input rest : Bytes} {dictionary : WireDictionary}
      (offsetsRead : readMonotoneOffsets "Array" count 0 input = .ok (offsets, rest))
      (inside : DictionaryAt levels inner (offsets.getLast?.getD 0) headers rest dictionary) :
      DictionaryAt (levels + 1) (.array inner) count headers input dictionary
  | key {levels count : Nat} {keyType valType : ColumnType} {headers : List DynamicHeader}
      {offsets : List Nat} {input rest : Bytes} {dictionary : WireDictionary}
      (offsetsRead : readMonotoneOffsets "Map" count 0 input = .ok (offsets, rest))
      (inside : DictionaryAt levels keyType (offsets.getLast?.getD 0) headers rest dictionary) :
      DictionaryAt (levels + 1) (.map keyType valType) count headers input dictionary
  | value {levels count : Nat} {keyType valType : ColumnType} {headers left : List DynamicHeader}
      {offsets : List Nat} {keys : DecodedColumn} {input afterOffsets rest : Bytes}
      {dictionary : WireDictionary}
      (offsetsRead : readMonotoneOffsets "Map" count 0 input = .ok (offsets, afterOffsets))
      (keysRead : decodeColumnLevels levels keyType (offsets.getLast?.getD 0) headers
        afterOffsets = .ok ((keys, left), rest))
      (inside : DictionaryAt levels valType (offsets.getLast?.getD 0) left rest dictionary) :
      DictionaryAt (levels + 1) (.map keyType valType) count headers input dictionary
  | field {levels count : Nat} {before after : List ColumnType} {type : ColumnType}
      {headers left : List DynamicHeader} {columns : List DecodedColumn} {input rest : Bytes}
      {dictionary : WireDictionary}
      (beforeRead : decodeFields (decodeColumnLevels levels) count before headers input =
        .ok ((columns, left), rest))
      (inside : DictionaryAt levels type count left rest dictionary) :
      DictionaryAt (levels + 1) (.tuple (before ++ type :: after)) count headers input dictionary
  | aggregate {levels count : Nat} {inner : ColumnType} {headers : List DynamicHeader}
      {input : Bytes} {dictionary : WireDictionary}
      (inside : DictionaryAt levels inner count headers input dictionary) :
      DictionaryAt (levels + 1) (.simpleAggregateFunction inner) count headers input dictionary

/-- A dictionary lies in the column at the front of the input: behind its name, its type, its
serialization kind and its prefixes.  Sparse columns hold none, nor do columns without rows. -/
def ColumnDictionary (numRows serverRevision : Nat) (input : Bytes)
    (dictionary : WireDictionary) : Prop :=
  0 < numRows ∧ ∃ name typeName colType headers afterName afterType afterKind payload,
    readUtf8String input = .ok (name, afterName) ∧
    readUtf8String afterName = .ok (typeName, afterType) ∧
    (if serverRevision ≥ customSerializationRevision then readSerializationKind name
      else pure false : ByteReader Bool) afterType = .ok (false, afterKind) ∧
    ColumnType.parse typeName = some colType ∧
    decodePrefixes colType afterKind = .ok (headers, payload) ∧
    DictionaryAt (maxDecodeDepth + 1) colType numRows headers payload dictionary

/-- A dictionary lies in one of the columns of a block. -/
def BlockDictionary (numColumns numRows serverRevision : Nat) (input : Bytes)
    (dictionary : WireDictionary) : Prop :=
  ∃ before < numColumns, ∃ entries rest,
    Reader.times (decodeBlockColumn numRows serverRevision) before input = .ok (entries, rest) ∧
      ColumnDictionary numRows serverRevision rest dictionary

/-- The indices an index column holds. -/
def DecodedColumn.slots : DecodedColumn → List Nat
  | .uInt8 values => values.map BitVec.toNat
  | .uInt16 values => values.map BitVec.toNat
  | .uInt32 values => values.map BitVec.toNat
  | .uInt64 values => values.map BitVec.toNat
  | _ => []

namespace DecodedColumn

theorem indicesResolve_of_flat {column : DecodedColumn} (flat : column.isFlat = true) :
    column.IndicesResolve := by
  cases column <;> first
    | cases flat; done
    | simp only [IndicesResolve]

@[simp] theorem index_eq_getElem? (indices : DecodedColumn) (row : Nat) :
    indices.index row = indices.slots[row]? := by
  cases indices <;> simp [index, slots]

/-- Looking at the rows of an index column is looking at its list of indices. -/
@[simp] theorem forall_index_iff (indices : DecodedColumn) (property : Nat → Prop) :
    (∀ row slot, indices.index row = some slot → property slot) ↔
      ∀ slot ∈ indices.slots, property slot := by
  simp only [index_eq_getElem?]
  constructor
  · intro each slot member
    obtain ⟨row, held⟩ := List.mem_iff_getElem?.mp member
    exact each row slot held
  · intro each row slot held
    exact each slot (List.mem_of_getElem? held)

@[simp] theorem fieldsResolve_iff {fields : List DecodedColumn} :
    FieldsResolve fields ↔ ∀ field ∈ fields, field.IndicesResolve := by
  induction fields with
  | nil => simp [FieldsResolve]
  | cons field fields ih => simp [FieldsResolve, ih]

end DecodedColumn

open DecodedColumn

theorem Shape.indicesResolve {colType : ColumnType} {count : Nat} {column : DecodedColumn}
    (shape : Shape colType count column)
    (simple : colType.isFlat = true ∨ colType.isDecodedLeaf = true) :
    column.IndicesResolve := by
  cases shape with
  | flat _ held _ => exact indicesResolve_of_flat held
  | fixedString | untyped => simp only [IndicesResolve]
  | nullable | array | map | tuple | lowCardinality | simpleAggregateFunction =>
      rcases simple with simple | simple <;> cases simple

theorem indicesResolve_emptyColumn (colType : ColumnType) :
    (emptyColumn colType).IndicesResolve := by
  induction size : sizeOf colType using Nat.strongRecOn generalizing colType with
  | ind _ ih =>
      subst size
      have child : ∀ inner ∈ colType.children, (emptyColumn inner).IndicesResolve :=
        fun inner member => ih _ (ColumnType.sizeOf_lt_of_mem_children member) inner rfl
      cases colType with
      | nullable inner | array inner | simpleAggregateFunction inner =>
          simpa [emptyColumn, IndicesResolve] using child inner (by simp [ColumnType.children])
      | map keyType valType =>
          rw [emptyColumn, IndicesResolve]
          exact ⟨child keyType (by simp [ColumnType.children]),
            child valType (by simp [ColumnType.children])⟩
      | tuple types =>
          rw [emptyColumn, IndicesResolve, emptyColumns_eq_map, fieldsResolve_iff]
          intro field member
          obtain ⟨type, listed, rfl⟩ := List.mem_map.mp member
          exact child type listed
      | lowCardinality inner =>
          have none : ∀ (dict : DecodedColumn) (isNullableInner : Bool), dict.IndicesResolve →
              (DecodedColumn.lowCardinality dict (.uInt8 []) isNullableInner).IndicesResolve := by
            intro dict isNullableInner resolves
            rw [IndicesResolve]
            exact ⟨resolves, fun row slot held => by simp [index] at held⟩
          cases inner with
          | nullable type =>
              refine none _ _ (ih _ ?_ type rfl)
              simp
              omega
          | _ => exact none _ _ (child _ (by simp [ColumnType.children]))
      | _ => simp only [emptyColumn, IndicesResolve]

/-- A column that can be scattered holds no index. -/
theorem indicesResolve_of_expandSparse {column result : DecodedColumn} {positions : List Nat}
    {numRows : Nat} (expanded : column.expandSparse positions numRows = .ok result) :
    column.IndicesResolve ∧ result.IndicesResolve := by
  unfold DecodedColumn.expandSparse at expanded
  split at expanded
  · cases expanded
  · split at expanded
    · cases expanded
    · cases column <;> first
        | (cases expanded; done)
        | (cases expanded; simp only [IndicesResolve, and_self])
        | (simp only at expanded
           split at expanded <;> cases expanded
           simp only [IndicesResolve, and_self])

/-- Every dictionary in the payload covers its indices. -/
def PayloadCovers (levels : Nat) (colType : ColumnType) (count : Nat)
    (headers : List DynamicHeader) (input : Bytes) : Prop :=
  ∀ dictionary, DictionaryAt levels colType count headers input dictionary → dictionary.Covers

theorem readLeColumn_ok {width count : Nat} (positive : 0 < width) {input rest : Bytes}
    {values : List (BitVec (8 * width))}
      (read : readLeColumn width count input = .ok (values, rest)) :
    ∃ raw, readExact (count * width) input = .ok (raw, rest) ∧
      values.map BitVec.toNat = (chunksExact width raw).map leNat := by
  obtain ⟨raw, middle, bulk, read⟩ := Reader.bind_ok_iff.mp read
  obtain ⟨_, _, required, exactly⟩ := Reader.bind_ok_iff.mp bulk
  have fits : count * width < 2 ^ 64 := by
    by_contra past
    rw [Reader.require_of_not past] at required
    cases required
  rw [Reader.require_of_holds fits] at required
  cases required
  cases read
  refine ⟨raw, exactly, ?_⟩
  rw [List.map_map]
  apply List.map_congr_left
  intro cell member
  have sized := yields_readExact (count * width) _ _ _ exactly
  rw [chunksExact_of_length positive sized] at member
  exact toNat_scalarOfBytes (length_of_mem_chunks (Nat.le_of_eq sized.symm) member)

@[simp] theorem leNat_singleton (octet : UInt8) : leNat [octet] = octet.toNat := by
  rw [leNat, leNat, Nat.mul_zero, Nat.add_zero]

theorem readByteColumn_ok {count : Nat} {input rest : Bytes} {values : List (BitVec 8)}
    (read : readByteColumn count input = .ok (values, rest)) :
    ∃ raw, readExact (count * 1) input = .ok (raw, rest) ∧
      values.map BitVec.toNat = (chunksExact 1 raw).map leNat := by
  obtain ⟨raw, middle, exactly, read⟩ := Reader.bind_ok_iff.mp read
  cases read
  rw [Nat.mul_one]
  refine ⟨raw, exactly, ?_⟩
  rw [chunksExact, Nat.div_one, chunks_one, List.map_map, List.map_map]
  exact List.map_congr_left fun octet _ => (leNat_singleton octet).symm

/-- The decoded indices are those of the index bytes. -/
theorem decodeIndices_slots {flags count : Nat} {input rest : Bytes} {indices : DecodedColumn}
    (decoded : decodeIndices (flags % 4) count input = .ok (indices, rest)) :
    ∃ raw, readExact (count * 2 ^ (flags % 4)) input = .ok (raw, rest) ∧
      indices.slots = (chunksExact (2 ^ (flags % 4)) raw).map leNat := by
  have small : flags % 4 < 4 := Nat.mod_lt _ (by decide)
  generalize flags % 4 = code at small decoded ⊢
  match code, small with
  | 0, _ =>
      obtain ⟨values, middle, read, decoded⟩ := Reader.bind_ok_iff.mp decoded
      cases decoded
      exact readByteColumn_ok read
  | 1, _ =>
      obtain ⟨values, middle, read, decoded⟩ := Reader.bind_ok_iff.mp decoded
      cases decoded
      exact readLeColumn_ok (by decide) read
  | 2, _ =>
      obtain ⟨values, middle, read, decoded⟩ := Reader.bind_ok_iff.mp decoded
      cases decoded
      exact readLeColumn_ok (by decide) read
  | 3, _ =>
      obtain ⟨values, middle, read, decoded⟩ := Reader.bind_ok_iff.mp decoded
      cases decoded
      exact readLeColumn_ok (by decide) read

/-- The indices of a payload of the next level resolve exactly if its dictionaries cover
them. -/
def NestedCovers (levels : Nat) : Prop :=
  ∀ {colType : ColumnType} {count : Nat} {headers left : List DynamicHeader}
    {column : DecodedColumn} {input rest : Bytes},
    decodeColumnLevels levels colType count headers input = .ok ((column, left), rest) →
      (column.IndicesResolve ↔ PayloadCovers levels colType count headers input)

section Step

variable {levels count : Nat} {headers left : List DynamicHeader} {input rest : Bytes}

theorem decodeFields_covers (covers : NestedCovers levels) {types : List ColumnType}
    {columns : List DecodedColumn}
    (decoded : decodeFields (decodeColumnLevels levels) count types headers input =
      .ok ((columns, left), rest)) :
    FieldsResolve columns ↔ ∀ before type after, types = before ++ type :: after →
      ∀ {earlier : List DecodedColumn} {left' : List DynamicHeader} {rest' : Bytes},
        decodeFields (decodeColumnLevels levels) count before headers input =
          .ok ((earlier, left'), rest') →
        PayloadCovers levels type count left' rest' := by
  induction types generalizing headers input columns with
  | nil =>
      cases decoded
      refine iff_of_true trivial ?_
      intro before type after split
      cases before <;> cases split
  | cons first types ih =>
      obtain ⟨⟨column, middle⟩, between, firstRead, decoded⟩ := Reader.bind_ok_iff.mp decoded
      obtain ⟨⟨later, _⟩, _, laterRead, decoded⟩ := Reader.bind_ok_iff.mp decoded
      cases decoded
      rw [FieldsResolve, covers firstRead, ih laterRead]
      constructor
      · rintro ⟨own, others⟩ before type after split earlier left' rest' read
        cases before with
        | nil =>
            cases split
            cases read
            exact own
        | cons head before =>
            cases split
            obtain ⟨⟨_, _⟩, _, headRead, read⟩ := Reader.bind_ok_iff.mp read
            rw [firstRead] at headRead
            cases headRead
            obtain ⟨⟨_, _⟩, _, beforeRead, read⟩ := Reader.bind_ok_iff.mp read
            cases read
            exact others before type after rfl beforeRead
      · intro all
        constructor
        · exact all [] first types rfl rfl
        · intro before type after split earlier left' rest' read
          have whole : decodeFields (decodeColumnLevels levels) count (first :: before) headers
              input = .ok ((column :: earlier, left'), rest') := by
            rw [decodeFields, Reader.bind_of_ok firstRead]
            exact (Reader.bind_of_ok read).trans rfl
          exact all (first :: before) type after (congrArg (first :: ·) split) whole

theorem decodeLowCardinality_covers (covers : NestedCovers levels) {inner : ColumnType}
    {column : DecodedColumn}
    (decoded : decodeLowCardinality (decodeColumnLevels levels) inner count headers input =
      .ok ((column, left), rest)) :
    column.IndicesResolve ↔
      PayloadCovers (levels + 1) (.lowCardinality inner) count headers input := by
  obtain ⟨flags, afterFlags, flagsRead, decoded⟩ := Reader.bind_ok_iff.mp decoded
  obtain ⟨_, same, required, decoded⟩ := Reader.bind_ok_iff.mp decoded
  obtain ⟨_, rfl⟩ := Reader.require_ok_iff.mp required
  obtain ⟨_, same, required, decoded⟩ := Reader.bind_ok_iff.mp decoded
  obtain ⟨_, rfl⟩ := Reader.require_ok_iff.mp required
  obtain ⟨size, afterSize, sizeRead, decoded⟩ := Reader.bind_ok_iff.mp decoded
  obtain ⟨⟨dict, remaining⟩, afterEntries, entriesRead, decoded⟩ := Reader.bind_ok_iff.mp decoded
  change decodeColumnLevels levels (dictionaryType inner).1 size headers afterSize =
    .ok ((dict, remaining), afterEntries) at entriesRead
  obtain ⟨number, afterNumber, numberRead, decoded⟩ := Reader.bind_ok_iff.mp decoded
  obtain ⟨_, same, required, decoded⟩ := Reader.bind_ok_iff.mp decoded
  obtain ⟨_, rfl⟩ := Reader.require_ok_iff.mp required
  obtain ⟨indices, _, indicesRead, decoded⟩ := Reader.bind_ok_iff.mp decoded
  cases decoded
  obtain ⟨indexBytes, exactly, slots⟩ := decodeIndices_slots indicesRead
  have shape := nestedShapes_levels levels _ _ _ _ _ _ entriesRead
  have own : (∀ row slot, indices.index row = some slot →
      slot < dict.rowCount ∨ ((dictionaryType inner).2 = true ∧ slot = 0)) ↔
      (WireDictionary.mk size (dictionaryType inner).1.countsRows (dictionaryType inner).2
        (2 ^ (flags % 4)) indexBytes).Covers := by
    rw [forall_index_iff, shape.rowCount_eq, slots]
    rfl
  change IndicesResolve (.lowCardinality dict indices (dictionaryType inner).2) ↔ _
  rw [IndicesResolve, own, covers entriesRead]
  constructor
  · rintro ⟨entries, covered⟩ dictionary located
    cases located with
    | own flagsRead' sizeRead' entriesRead' numberRead' indicesRead' =>
        rw [flagsRead] at flagsRead'
        cases flagsRead'
        rw [sizeRead] at sizeRead'
        cases sizeRead'
        rw [entriesRead] at entriesRead'
        cases entriesRead'
        rw [numberRead] at numberRead'
        cases numberRead'
        rw [exactly] at indicesRead'
        cases indicesRead'
        exact covered
    | entry flagsRead' sizeRead' inside =>
        rw [flagsRead] at flagsRead'
        cases flagsRead'
        rw [sizeRead] at sizeRead'
        cases sizeRead'
        exact entries dictionary inside
  · intro all
    constructor
    · intro dictionary inside
      exact all dictionary (.entry flagsRead sizeRead inside)
    · exact all _ (.own flagsRead sizeRead entriesRead numberRead exactly)

/-- One level of the payload. -/
theorem decodeColumnStep_covers (covers : NestedCovers levels) {depth : Nat}
    {colType : ColumnType} {column : DecodedColumn}
    (decoded : decodeColumnStep (decodeColumnLevels levels) depth colType count headers input =
      .ok ((column, left), rest)) :
    column.IndicesResolve ↔ PayloadCovers (levels + 1) colType count headers input := by
  have shape := yields_decodeColumnStep (nestedShapes_levels levels) depth colType count headers
    _ _ _ decoded
  cases colType with
  | nullable inner =>
      obtain ⟨mask, middle, maskRead, decoded⟩ := Reader.bind_ok_iff.mp decoded
      obtain ⟨⟨child, _⟩, _, childRead, decoded⟩ := Reader.bind_ok_iff.mp decoded
      cases decoded
      rw [IndicesResolve, covers childRead]
      constructor
      · intro all dictionary located
        cases located with
        | nullable maskRead' inside =>
            rw [maskRead] at maskRead'
            cases maskRead'
            exact all dictionary inside
      · intro all dictionary inside
        exact all dictionary (.nullable maskRead inside)
  | array inner =>
      obtain ⟨offsets, middle, offsetsRead, decoded⟩ := Reader.bind_ok_iff.mp decoded
      obtain ⟨⟨child, _⟩, _, childRead, decoded⟩ := Reader.bind_ok_iff.mp decoded
      cases decoded
      rw [IndicesResolve, covers childRead]
      constructor
      · intro all dictionary located
        cases located with
        | element offsetsRead' inside =>
            rw [offsetsRead] at offsetsRead'
            cases offsetsRead'
            exact all dictionary inside
      · intro all dictionary inside
        exact all dictionary (.element offsetsRead inside)
  | tuple types =>
      obtain ⟨⟨columns, _⟩, _, fieldsRead, decoded⟩ := Reader.bind_ok_iff.mp decoded
      cases decoded
      rw [IndicesResolve, decodeFields_covers covers fieldsRead]
      constructor
      · intro all dictionary located
        generalize typed : ColumnType.tuple types = colType at located
        cases located with
        | field beforeRead inside =>
            cases typed
            exact all _ _ _ rfl beforeRead dictionary inside
        | _ => cases typed
      · rintro all before type after rfl earlier left' rest' beforeRead dictionary inside
        exact all dictionary (.field beforeRead inside)
  | map keyType valType =>
      obtain ⟨offsets, middle, offsetsRead, decoded⟩ := Reader.bind_ok_iff.mp decoded
      obtain ⟨⟨keys, _⟩, _, keysRead, decoded⟩ := Reader.bind_ok_iff.mp decoded
      obtain ⟨⟨values, _⟩, _, valuesRead, decoded⟩ := Reader.bind_ok_iff.mp decoded
      cases decoded
      rw [IndicesResolve, covers keysRead, covers valuesRead]
      constructor
      · rintro ⟨keysCover, valuesCover⟩ dictionary located
        cases located with
        | key offsetsRead' inside =>
            rw [offsetsRead] at offsetsRead'
            cases offsetsRead'
            exact keysCover dictionary inside
        | value offsetsRead' keysRead' inside =>
            rw [offsetsRead] at offsetsRead'
            cases offsetsRead'
            rw [keysRead] at keysRead'
            cases keysRead'
            exact valuesCover dictionary inside
      · intro all
        constructor
        · intro dictionary inside
          exact all dictionary (.key offsetsRead inside)
        · intro dictionary inside
          exact all dictionary (.value offsetsRead keysRead inside)
  | lowCardinality inner => exact decodeLowCardinality_covers covers decoded
  | simpleAggregateFunction inner =>
      rw [covers decoded]
      constructor
      · intro all dictionary located
        cases located with
        | aggregate inside => exact all dictionary inside
      · intro all dictionary inside
        exact all dictionary (.aggregate inside)
  | newJson | variant | dynamic =>
      refine iff_of_true (shape.indicesResolve (.inl rfl)) ?_
      intro dictionary located
      cases located
  | _ =>
      refine iff_of_true (shape.indicesResolve (.inr rfl)) ?_
      intro dictionary located
      cases located

end Step

/-- The indices of a payload of some rows resolve exactly if its dictionaries cover them. -/
theorem decodeColumnLevels_covers {levels count : Nat} (bounded : levels ≤ maxDecodeDepth + 1)
    {colType : ColumnType} {headers left : List DynamicHeader} {column : DecodedColumn}
    {input rest : Bytes} (some : levels = maxDecodeDepth + 1 → count ≠ 0)
    (decoded : decodeColumnLevels levels colType count headers input =
      .ok ((column, left), rest)) :
    column.IndicesResolve ↔ PayloadCovers levels colType count headers input := by
  induction levels generalizing colType count headers left column input rest with
  | zero => cases decoded
  | succ levels ih =>
      have inner : levels ≠ maxDecodeDepth + 1 := by omega
      have step : ¬(levels = maxDecodeDepth ∧ count = 0) := by
        rintro ⟨outermost, none⟩
        exact some (congrArg (· + 1) outermost) none
      rw [decodeColumnLevels, if_neg step] at decoded
      exact decodeColumnStep_covers
        (fun read => ih (by omega) (fun same => absurd same inner) read) decoded

theorem decodeColumnPayload_covers {colType : ColumnType} {numRows : Nat} {sparse : Bool}
    {input rest : Bytes} {column : DecodedColumn}
    (decoded : decodeColumnPayload colType numRows sparse input = .ok (column, rest)) :
    column.IndicesResolve ↔ (0 < numRows → sparse = false →
      ∀ headers payload, decodePrefixes colType input = .ok (headers, payload) →
        PayloadCovers (maxDecodeDepth + 1) colType numRows headers payload) := by
  rw [decodeColumnPayload_eq] at decoded
  obtain ⟨headers, payload, prefixes, decoded⟩ := Reader.bind_ok_iff.mp decoded
  unfold decodeColumnData at decoded
  by_cases rows : 0 < numRows
  · rw [if_pos rows] at prefixes
    cases sparse with
    | true =>
        rw [if_pos ⟨rfl, rows⟩] at decoded
        obtain ⟨_, _, _, decoded⟩ := Reader.bind_ok_iff.mp decoded
        obtain ⟨_, _, _, decoded⟩ := Reader.bind_ok_iff.mp decoded
        refine iff_of_true ?_ fun _ dense => (nomatch dense)
        exact Reader.Yields.ofExcept
          (fun _ expanded => (indicesResolve_of_expandSparse expanded).2) _ _ _ decoded
    | false =>
        rw [if_neg fun both => nomatch both.1] at decoded
        obtain ⟨⟨_, _⟩, _, read, decoded⟩ := Reader.bind_ok_iff.mp decoded
        cases decoded
        rw [decodeColumnLevels_covers (Nat.le_refl _) (fun _ => Nat.ne_of_gt rows) read]
        constructor
        · intro all _ _ headers' payload' prefixes'
          rw [prefixes] at prefixes'
          cases prefixes'
          exact all
        · intro all
          exact all rows rfl headers payload prefixes
  · obtain rfl : numRows = 0 := Nat.eq_zero_of_not_pos rows
    rw [if_neg fun both => Nat.lt_irrefl 0 both.2] at decoded
    obtain ⟨⟨_, _⟩, _, read, decoded⟩ := Reader.bind_ok_iff.mp decoded
    cases decoded
    cases read
    exact iff_of_true (indicesResolve_emptyColumn colType) fun positive =>
      absurd positive (Nat.lt_irrefl 0)

theorem decodeBlockColumn_covers {numRows serverRevision : Nat} {input rest : Bytes}
    {entry : (String × String) × DecodedColumn}
    (decoded : decodeBlockColumn numRows serverRevision input = .ok (entry, rest)) :
    entry.2.IndicesResolve ↔
      ∀ dictionary, ColumnDictionary numRows serverRevision input dictionary →
        dictionary.Covers := by
  rw [decodeBlockColumn_eq] at decoded
  obtain ⟨name, afterName, nameRead, decoded⟩ := Reader.bind_ok_iff.mp decoded
  obtain ⟨typeName, afterType, typeRead, decoded⟩ := Reader.bind_ok_iff.mp decoded
  obtain ⟨sparse, afterKind, kindRead, decoded⟩ := Reader.bind_ok_iff.mp decoded
  unfold decodeAnnounced at decoded
  cases parsed : ColumnType.parse typeName with
  | none =>
      rw [parsed] at decoded
      cases decoded
  | some colType =>
      rw [parsed] at decoded
      obtain ⟨column, _, payloadRead, decoded⟩ := Reader.bind_ok_iff.mp decoded
      cases decoded
      rw [decodeColumnPayload_covers payloadRead]
      constructor
      · rintro all dictionary ⟨rows, _, _, _, headers, _, _, _, payload, nameRead', typeRead',
          kindRead', parsed', prefixes, located⟩
        rw [nameRead] at nameRead'
        cases nameRead'
        rw [typeRead] at typeRead'
        cases typeRead'
        rw [kindRead] at kindRead'
        cases kindRead'
        rw [parsed] at parsed'
        cases parsed'
        exact all rows rfl headers payload prefixes dictionary located
      · rintro all rows rfl headers payload prefixes dictionary located
        exact all dictionary ⟨rows, name, typeName, colType, headers, afterName,
          afterType, afterKind,
          payload, nameRead, typeRead, kindRead, parsed, prefixes, located⟩

theorem decodeColumns_cover {numRows serverRevision numColumns : Nat} {input rest : Bytes}
    {entries : List ((String × String) × DecodedColumn)}
    (decoded : Reader.times (decodeBlockColumn numRows serverRevision) numColumns input =
      .ok (entries, rest)) :
    (∀ entry ∈ entries, entry.2.IndicesResolve) ↔
      ∀ dictionary, BlockDictionary numColumns numRows serverRevision input dictionary →
        dictionary.Covers := by
  induction numColumns generalizing input entries with
  | zero =>
      cases decoded
      refine iff_of_true (fun entry member => absurd member List.not_mem_nil) ?_
      rintro dictionary ⟨before, none, _⟩
      exact absurd none (Nat.not_lt_zero before)
  | succ numColumns ih =>
      obtain ⟨first, middle, firstRead, decoded⟩ := Reader.bind_ok_iff.mp decoded
      obtain ⟨later, _, laterRead, decoded⟩ := Reader.bind_ok_iff.mp decoded
      cases decoded
      rw [List.forall_mem_cons, decodeBlockColumn_covers firstRead, ih laterRead]
      constructor
      · rintro ⟨own, others⟩ dictionary ⟨before, inside, entries, start, read, located⟩
        cases before with
        | zero =>
            cases read
            exact own dictionary located
        | succ before =>
            obtain ⟨_, _, firstRead', read⟩ := Reader.bind_ok_iff.mp read
            rw [firstRead] at firstRead'
            cases firstRead'
            obtain ⟨_, _, beforeRead, read⟩ := Reader.bind_ok_iff.mp read
            cases read
            exact others dictionary
              ⟨before, Nat.lt_of_succ_lt_succ inside, _, _, beforeRead, located⟩
      · intro all
        constructor
        · intro dictionary located
          exact all dictionary ⟨0, Nat.succ_pos _, [], input, rfl, located⟩
        · rintro dictionary ⟨before, inside, entries, start, read, located⟩
          refine all dictionary ⟨before + 1, Nat.succ_lt_succ inside, first :: entries, start, ?_,
            located⟩
          rw [Reader.times, Reader.bind_of_ok firstRead]
          exact (Reader.bind_of_ok read).trans rfl

/-- The indices of a decoded block resolve exactly if each dictionary on the wire covers the
indices behind it. -/
theorem decodeBlock_indicesResolve_iff (numColumns numRows serverRevision : Nat) (input : Bytes)
    (block : DecodedBlock) (rest : Bytes)
    (decoded : decodeBlock numColumns numRows serverRevision input = .ok (block, rest)) :
    (∀ column ∈ block.columns, column.IndicesResolve) ↔
      ∀ dictionary, BlockDictionary numColumns numRows serverRevision input dictionary →
        dictionary.Covers := by
  obtain ⟨_, _, required, decoded⟩ := Reader.bind_ok_iff.mp decoded
  obtain ⟨_, rfl⟩ := Reader.require_ok_iff.mp required
  obtain ⟨_, _, required, decoded⟩ := Reader.bind_ok_iff.mp decoded
  obtain ⟨_, rfl⟩ := Reader.require_ok_iff.mp required
  obtain ⟨entries, _, read, decoded⟩ := Reader.bind_ok_iff.mp decoded
  cases decoded
  rw [← decodeColumns_cover read]
  exact List.forall_mem_map

/-- A block of one row: a dictionary with one entry, and the given index. -/
def dictionaryBlock (slot : UInt8) : Bytes :=
  putString (utf8 "k") ++ putString (utf8 "LowCardinality(String)") ++ natLe 8 1 ++ natLe 8 512 ++
    natLe 8 1 ++ putString (utf8 "a") ++ natLe 8 1 ++ [slot]

theorem decodeBlock_indicesResolve_iff_dictionary :
    decodeBlock 1 1 0 (dictionaryBlock 0) =
        .ok (⟨[.lowCardinality (.string [utf8 "a"]) (.uInt8 [0]) false],
          [("k", "LowCardinality(String)")], 1⟩, []) ∧
      ∀ column ∈ [DecodedColumn.lowCardinality (.string [utf8 "a"]) (.uInt8 [0]) false],
        column.IndicesResolve := by
  have decoded : decodeBlock 1 1 0 (dictionaryBlock 0) =
      .ok (⟨[.lowCardinality (.string [utf8 "a"]) (.uInt8 [0]) false],
        [("k", "LowCardinality(String)")], 1⟩, []) := rfl
  refine ⟨decoded, (decodeBlock_indicesResolve_iff 1 1 0 (dictionaryBlock 0) _ _ decoded).mpr ?_⟩
  rintro dictionary ⟨before, inside, entries, start, read, _, name, typeName, colType, headers,
    afterName, afterType, afterKind, payload, nameRead, typeRead, kindRead, parsed, prefixes,
    located⟩
  obtain rfl : before = 0 := Nat.lt_one_iff.mp inside
  cases read
  cases nameRead.symm.trans
    (show readUtf8String (dictionaryBlock 0) = .ok ("k", (dictionaryBlock 0).drop 2) from rfl)
  cases typeRead.symm.trans
    (show _ = Except.ok ("LowCardinality(String)", (dictionaryBlock 0).drop 25) from rfl)
  cases kindRead
  cases parsed.symm.trans (show _ = some (.lowCardinality .string) from rfl)
  cases prefixes.symm.trans (show _ = Except.ok ([], (dictionaryBlock 0).drop 33) from rfl)
  cases located with
  | own flagsRead sizeRead entriesRead numberRead indicesRead =>
      cases flagsRead
      cases sizeRead
      cases entriesRead
      cases numberRead
      cases indicesRead
      unfold WireDictionary.Covers
      decide
  | entry flagsRead sizeRead inside => cases inside

/-- Index 5 of a dictionary with one entry is accepted. -/
theorem indicesResolve_fails_dictionary :
    ¬ ∀ numColumns numRows serverRevision input block rest,
      decodeBlock numColumns numRows serverRevision input = .ok (block, rest) →
      ∀ column ∈ block.columns, column.IndicesResolve := by
  intro law
  have decoded : decodeBlock 1 1 0 (dictionaryBlock 5) =
      .ok (⟨[.lowCardinality (.string [utf8 "a"]) (.uInt8 [5]) false],
        [("k", "LowCardinality(String)")], 1⟩, []) := rfl
  have resolves := law 1 1 0 (dictionaryBlock 5) _ _ decoded _ (List.mem_singleton_self _)
  rw [IndicesResolve] at resolves
  rcases resolves.2 0 5 rfl with inside | null
  · exact absurd inside (by decide)
  · exact absurd null.1 (by decide)

end DfeClickhouse.Native
