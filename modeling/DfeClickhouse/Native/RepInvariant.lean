import DfeClickhouse.Native.DecodedShape
import DfeClickhouse.Native.Rows
import DfeClickhouse.Native.TypeNesting

/-!
# The representation of decoded columns

Consumers index masks, offsets, indices and child columns without further checks.
What they rely on follows from the shapes the decoder returns, for the types whose
columns report their rows.  A column reports no rows when its type has no typed
column, when it is a `FixedString(0)`, or when it is a tuple that starts with such
a field.
-/

namespace DfeClickhouse.Native

open Library

mutual

/-- The lengths inside a column fit together. -/
def DecodedColumn.Represents : DecodedColumn → Prop
  | .fixedString width bytes =>
      bytes.length = width * (DecodedColumn.fixedString width bytes).rowCount
  | .nullable mask child => child.rowCount = mask.length ∧ Represents child
  | .array offsets child =>
      offsets.Pairwise (· ≤ ·) ∧ child.rowCount = offsets.getLast?.getD 0 ∧ Represents child
  | .map offsets keys values =>
      offsets.Pairwise (· ≤ ·) ∧
        (keys.rowCount = offsets.getLast?.getD 0 ∧ Represents keys) ∧
        values.rowCount = offsets.getLast?.getD 0 ∧ Represents values
  | .tuple fields =>
      (∀ field ∈ fields, field.rowCount = (DecodedColumn.tuple fields).rowCount) ∧
        AllRepresent fields
  | .lowCardinality dict indices _ =>
      (∀ row, row < indices.rowCount ↔ (indices.index row).isSome) ∧ Represents dict
  | _ => True

/-- The lengths inside all fields of a tuple fit together. -/
def DecodedColumn.AllRepresent : List DecodedColumn → Prop
  | [] => True
  | field :: fields => Represents field ∧ AllRepresent fields

end

open DecodedColumn

@[simp] theorem allRepresent_iff {fields : List DecodedColumn} :
    AllRepresent fields ↔ ∀ field ∈ fields, field.Represents := by
  induction fields with
  | nil => simp [AllRepresent]
  | cons field fields ih => simp [AllRepresent, ih]

mutual

/-- Whether every column decoded for a type reports its rows, children included: no
`BFloat16`, `Time`, `Time64`, `Point` or `FixedString(0)` is decoded anywhere. -/
def ColumnType.isCountable : ColumnType → Bool
  | .bFloat16 | .time | .time64 | .point => false
  | .fixedString width => width != 0
  | .nullable inner | .lowCardinality inner | .simpleAggregateFunction inner
  | .array inner => inner.isCountable
  | .tuple fields => ColumnType.areCountable fields
  | .map key value => key.isCountable && value.isCountable
  | _ => true

/-- Whether the columns of all types of a list report their rows. -/
def ColumnType.areCountable : List ColumnType → Bool
  | [] => true
  | head :: tail => head.isCountable && ColumnType.areCountable tail

end

@[simp] theorem areCountable_iff {types : List ColumnType} :
    ColumnType.areCountable types = true ↔ ∀ type ∈ types, type.isCountable = true := by
  induction types with
  | nil => simp [ColumnType.areCountable]
  | cons type types ih => simp [ColumnType.areCountable, ih]

theorem isCountable_dictionaryType {inner : ColumnType} (countable : inner.isCountable = true) :
    (dictionaryType inner).1.isCountable = true := by
  rcases dictionaryType_cases inner with ⟨type, rfl, split⟩ | same
  · exact countable
  · rw [same]
    exact countable

mutual

/-- Whether every tuple in a type has a field. -/
def ColumnType.isFilled : ColumnType → Bool
  | .nullable inner | .lowCardinality inner | .simpleAggregateFunction inner
  | .array inner => inner.isFilled
  | .tuple fields => !fields.isEmpty && ColumnType.areFilled fields
  | .map key value => key.isFilled && value.isFilled
  | .variant types => ColumnType.areFilled types
  | _ => true

/-- Whether every tuple in a list of types has a field. -/
def ColumnType.areFilled : List ColumnType → Bool
  | [] => true
  | head :: tail => head.isFilled && ColumnType.areFilled tail

end

@[simp] theorem areFilled_iff {types : List ColumnType} :
    ColumnType.areFilled types = true ↔ ∀ type ∈ types, type.isFilled = true := by
  induction types with
  | nil => simp [ColumnType.areFilled]
  | cons type types ih => simp [ColumnType.areFilled, ih]

theorem isFilled_of_flat {colType : ColumnType} (flat : colType.nesting = 0) :
    colType.isFilled = true := by
  cases colType <;> first | rfl | simp [ColumnType.nesting] at flat

theorem isFilled_wrapped {text inner : Text} {build : ColumnType → ColumnType}
    (form : typeForm text = .wrapped build inner) (colType : ColumnType) :
    (build colType).isFilled = colType.isFilled := by
  unfold typeForm at form
  repeat' split at form
  all_goals
    cases form
    try simp [ColumnType.isFilled]

theorem isFilled_listed {text : Text} {arguments : List Text} {build : List ColumnType → ColumnType}
    (form : typeForm text = .listed build arguments) {fields : List ColumnType}
    (nonempty : fields ≠ []) (filled : ColumnType.areFilled fields = true) :
    (build fields).isFilled = true := by
  unfold typeForm at form
  repeat' split at form
  all_goals
    cases form
    try simp [ColumnType.isFilled, nonempty, filled]

/-- The parser builds no empty tuple. -/
theorem isFilled_of_parseText {text : Text} {colType : ColumnType}
    (parsed : parseText text = some colType) : colType.isFilled = true := by
  induction size : text.length using Nat.strongRecOn generalizing text colType with
  | ind _ ih =>
      subst size
      have cuts := typeForm_cuts (trim text)
      have shorter := length_trim_le text
      rw [parseText_eq] at parsed
      cases form : typeForm (trim text) with
      | done result =>
          rw [form] at cuts parsed
          exact isFilled_of_flat (cuts colType parsed)
      | wrapped build inner =>
          rw [form] at cuts parsed
          obtain ⟨innerType, inside, rfl⟩ := Option.map_eq_some_iff.mp parsed
          rw [isFilled_wrapped form]
          exact ih _ (by have := cuts.1; omega) inside rfl
      | listed build arguments =>
          rw [form] at cuts parsed
          simp only [TypeForm.parseWith] at parsed
          split at parsed
          · rename_i complete
            obtain rfl := Option.some.inj parsed
            refine isFilled_listed form complete.1 (areFilled_iff.mpr fun field member => ?_)
            obtain ⟨argument, argumentMember, inside⟩ := List.mem_filterMap.mp member
            have := cuts.1 argument argumentMember
            exact ih _ (by omega) inside rfl
          · cases parsed
      | keyed key value =>
          rw [form] at cuts parsed
          simp only [TypeForm.parseWith, Option.bind_eq_bind, Option.bind_eq_some_iff,
            Option.pure_def, Option.some.injEq] at parsed
          obtain ⟨keyType, keyParsed, valueType, valueParsed, rfl⟩ := parsed
          have keyFilled := ih _ (by have := cuts.1; omega) keyParsed rfl
          have valueFilled := ih _ (by have := cuts.2; omega) valueParsed rfl
          rw [ColumnType.isFilled, keyFilled, valueFilled]
          rfl

theorem isFilled_of_parse {typeStr : String} {colType : ColumnType}
    (parsed : ColumnType.parse typeStr = some colType) : colType.isFilled = true :=
  isFilled_of_parseText parsed

theorem isSome_index {indices : DecodedColumn} (index : indices.isIndex = true) (row : Nat) :
    row < indices.rowCount ↔ (indices.index row).isSome := by
  cases indices <;> first | cases index; done | simp [rowCount, DecodedColumn.index]

theorem rowCount_fixedString {width count : Nat} {bytes : Bytes} (positive : width ≠ 0)
    (sized : bytes.length = count * width) :
    (DecodedColumn.fixedString width bytes).rowCount = count := by
  rw [rowCount, if_neg positive, sized, Nat.mul_div_cancel _ (Nat.pos_of_ne_zero positive)]

/-- A column of a countable type reports its rows and its lengths fit together. -/
theorem Shape.represents {colType : ColumnType} {count : Nat} {column : DecodedColumn}
    (shape : Shape colType count column) (countable : colType.isCountable = true)
    (filled : colType.isFilled = true) : column.rowCount = count ∧ column.Represents := by
  induction shape with
  | flat typed held rows =>
      refine ⟨rows, ?_⟩
      rename_i column
      cases column <;> first | cases held; done | trivial
  | @fixedString width count bytes sized =>
      have positive : width ≠ 0 := by simpa [ColumnType.isCountable] using countable
      have rows := rowCount_fixedString positive sized
      refine ⟨rows, ?_⟩
      rw [Represents, rows, sized, Nat.mul_comm]
  | @untyped colType count untyped =>
    cases colType <;> first | cases untyped; done | cases countable
  | nullable sized inside ih =>
      obtain ⟨rows, represents⟩ := ih countable filled
      exact ⟨sized, rows.trans sized.symm, represents⟩
  | array sized ordered inside ih =>
      obtain ⟨rows, represents⟩ := ih countable filled
      exact ⟨sized, ordered, rows, represents⟩
  | map sized ordered _ _ keysIh valuesIh =>
      simp only [ColumnType.isCountable, ColumnType.isFilled, Bool.and_eq_true] at countable filled
      exact ⟨sized, ordered, keysIh countable.1 filled.1, valuesIh countable.2 filled.2⟩
  | @tuple types count columns sized each ih =>
      simp only [ColumnType.isCountable, areCountable_iff] at countable
      simp only [ColumnType.isFilled, Bool.and_eq_true, areFilled_iff] at filled
      have fields : ∀ column ∈ columns, column.rowCount = count ∧ column.Represents := by
        intro column member
        obtain ⟨field, inside, rfl⟩ := List.mem_iff_getElem.mp member
        have typed : types[field]? = some (types.get ⟨field, by omega⟩) := by simp
        have typeMember := List.mem_of_getElem? typed
        exact ih field _ _ typed (List.getElem?_eq_getElem inside) (countable _ typeMember)
          (filled.2 _ typeMember)
      have rows : (DecodedColumn.tuple columns).rowCount = count := by
        cases columns with
        | nil =>
            have empty : types = [] := List.length_eq_zero_iff.mp sized.symm
            simp [empty] at filled
        | cons first columns => exact (fields first (by simp)).1
      refine ⟨rows, ?_, allRepresent_iff.mpr fun column member => (fields column member).2⟩
      intro column member
      rw [rows]
      exact (fields column member).1
  | lowCardinality entries index rows ih =>
      refine ⟨rows, isSome_index index, ?_⟩
      refine (ih (isCountable_dictionaryType countable) ?_).2
      rename_i inner _ _ _ _
      rcases dictionaryType_cases inner with ⟨type, rfl, split⟩ | same
      · exact filled
      · rw [same]
        exact filled
  | simpleAggregateFunction inside ih => exact ih countable filled

/-- The columns of a decoded block report the block's rows, and their masks, offsets,
indices and children fit together, whenever their types are countable. -/
theorem decodeBlock_represents (numColumns numRows serverRevision : Nat) (input : Bytes)
    (block : DecodedBlock) (rest : Bytes)
    (decoded : decodeBlock numColumns numRows serverRevision input = .ok (block, rest)) :
    ∀ (index : Nat) name typeName column colType,
      block.schema[index]? = some (name, typeName) → block.columns[index]? = some column →
      ColumnType.parse typeName = some colType → colType.isCountable = true →
      column.rowCount = numRows ∧ column.Represents := by
  intro index name typeName column colType announced held parsed countable
  obtain ⟨_, entries, schema, columns, each⟩ :=
    yields_decodeBlock numColumns numRows serverRevision input block rest decoded
  rw [schema, List.getElem?_map, Option.map_eq_some_iff] at announced
  rw [columns, List.getElem?_map, Option.map_eq_some_iff] at held
  obtain ⟨entry, found, named⟩ := announced
  obtain ⟨other, foundToo, rfl⟩ := held
  obtain rfl : entry = other := Option.some.inj (found.symm.trans foundToo)
  obtain ⟨entryType, entryParsed, shape⟩ := each entry (List.mem_of_getElem? found)
  rw [named, parsed] at entryParsed
  obtain rfl : colType = entryType := Option.some.inj entryParsed
  exact shape.represents countable (isFilled_of_parse parsed)

/-- A block of one row: a list with two nullable bytes. -/
def listBlock : Bytes :=
  putString (utf8 "l") ++ putString (utf8 "Array(Nullable(UInt8))") ++ natLe 8 2 ++ [0, 1, 7, 0]

theorem decodeBlock_represents_list :
    decodeBlock 1 1 0 listBlock = .ok (⟨[.array [2] (.nullable [0, 1] (.uInt8 [7, 0]))],
      [("l", "Array(Nullable(UInt8))")], 1⟩, []) ∧
    (DecodedColumn.array [2] (.nullable [0, 1] (.uInt8 [7, 0]))).rowCount = 1 ∧
      (DecodedColumn.array [2] (.nullable [0, 1] (.uInt8 [7, 0]))).Represents := by
  have decoded : decodeBlock 1 1 0 listBlock =
      .ok (⟨[.array [2] (.nullable [0, 1] (.uInt8 [7, 0]))], [("l", "Array(Nullable(UInt8))")], 1⟩,
        []) := rfl
  exact ⟨decoded, decodeBlock_represents 1 1 0 listBlock _ _ decoded 0 _ _ _
    (.array (.nullable .uInt8)) rfl rfl rfl rfl⟩

/-- Whether the column of a type reports the rows it was decoded for; a tuple reports
those of its first field. -/
def ColumnType.countsRows : ColumnType → Bool
  | .bFloat16 | .time | .time64 | .point => false
  | .fixedString width => width != 0
  | .simpleAggregateFunction inner => inner.countsRows
  | .tuple [] => false
  | .tuple (field :: _) => field.countsRows
  | _ => true

/-- Whether a type has no typed column, itself or under aggregate wrappers. -/
def ColumnType.isUnsupported : ColumnType → Bool
  | .simpleAggregateFunction inner => inner.isUnsupported
  | colType => colType.isUntyped

def DecodedColumn.isUnsupported : DecodedColumn → Bool
  | .unsupported _ => true
  | _ => false

/-- The row count a column reports is its own or zero. -/
theorem Shape.rowCount_eq {colType : ColumnType} {count : Nat} {column : DecodedColumn}
    (shape : Shape colType count column) :
    column.rowCount = if colType.countsRows then count else 0 := by
  induction shape with
  | @flat colType count column typed held rows =>
      have counts : colType.countsRows = true := by
        cases colType <;> first | rfl | cases typed
      rw [counts, if_pos rfl, rows]
  | @fixedString width count bytes sized =>
      by_cases zero : width = 0
      · simp [rowCount, ColumnType.countsRows, zero]
      · rw [rowCount_fixedString zero sized]
        simp [ColumnType.countsRows, zero]
  | @untyped colType count untyped =>
      cases colType <;> first | rfl | cases untyped
  | nullable sized _ _ => exact sized
  | array sized _ _ _ => exact sized
  | map sized _ _ _ _ _ => exact sized
  | @tuple types count columns sized each ih =>
      cases types with
      | nil =>
          rw [List.length_eq_zero_iff.mp sized]
          rfl
      | cons type types =>
          cases columns with
          | nil => cases sized
          | cons column columns => exact ih 0 type column rfl rfl
  | lowCardinality _ _ rows _ => exact rows
  | simpleAggregateFunction _ ih => exact ih

theorem Shape.isUnsupported_eq {colType : ColumnType} {count : Nat} {column : DecodedColumn}
    (shape : Shape colType count column) : column.isUnsupported = colType.isUnsupported := by
  induction shape with
  | @flat colType count column typed held rows =>
      have supported : colType.isUnsupported = false := by
        cases colType <;> first | rfl | cases typed
      rw [supported]
      cases column <;> first | rfl | cases held
  | @untyped colType count untyped => cases colType <;> first | rfl | cases untyped
  | simpleAggregateFunction _ ih => exact ih
  | _ => rfl

/-- There is one column for every schema entry, and the typed columns of a block with rows
report these rows exactly if every announced type counts them. -/
theorem decodeBlock_rowCounts_iff (numColumns numRows serverRevision : Nat) (input : Bytes)
    (block : DecodedBlock) (rest : Bytes) (positive : 1 ≤ numRows)
    (decoded : decodeBlock numColumns numRows serverRevision input = .ok (block, rest)) :
    (block.columns.length = block.schema.length ∧
      ∀ column ∈ block.columns, column.isUnsupported = false → column.rowCount = numRows) ↔
    ∀ entry ∈ block.schema, ∀ colType, ColumnType.parse entry.2 = some colType →
      colType.isUnsupported = true ∨ colType.countsRows = true := by
  obtain ⟨_, entries, schema, columns, each⟩ :=
    yields_decodeBlock numColumns numRows serverRevision input block rest decoded
  have reported : ∀ entry ∈ entries, ∀ colType, ColumnType.parse entry.1.2 = some colType →
      ((entry.2.isUnsupported = false → entry.2.rowCount = numRows) ↔
        colType.isUnsupported = true ∨ colType.countsRows = true) := by
    intro entry member colType parsed
    obtain ⟨entryType, entryParsed, shape⟩ := each entry member
    obtain rfl : colType = entryType := Option.some.inj (parsed.symm.trans entryParsed)
    rw [shape.isUnsupported_eq, shape.rowCount_eq]
    have some : 0 ≠ numRows := by omega
    cases colType.isUnsupported <;> cases colType.countsRows <;> simp [some]
  rw [schema, columns]
  constructor
  · rintro ⟨_, counted⟩ named member colType parsed
    obtain ⟨entry, entryMember, rfl⟩ := List.mem_map.mp member
    exact (reported entry entryMember colType parsed).mp
      (counted _ (List.mem_map_of_mem entryMember))
  · intro counts
    refine ⟨by simp, ?_⟩
    intro column member
    obtain ⟨entry, entryMember, rfl⟩ := List.mem_map.mp member
    obtain ⟨colType, parsed, _⟩ := each entry entryMember
    exact (reported entry entryMember colType parsed).mpr
      (counts _ (List.mem_map_of_mem entryMember) colType parsed)

theorem decodeBlock_rowCounts_iff_list :
    1 ≤ 1 ∧ decodeBlock 1 1 0 listBlock = .ok (⟨[.array [2] (.nullable [0, 1] (.uInt8 [7, 0]))],
        [("l", "Array(Nullable(UInt8))")], 1⟩, []) ∧
      ∀ column ∈ [DecodedColumn.array [2] (.nullable [0, 1] (.uInt8 [7, 0]))],
        column.isUnsupported = false → column.rowCount = 1 := by
  have decoded : decodeBlock 1 1 0 listBlock =
      .ok (⟨[.array [2] (.nullable [0, 1] (.uInt8 [7, 0]))], [("l", "Array(Nullable(UInt8))")], 1⟩,
        []) := rfl
  refine ⟨Nat.le_refl 1, decoded, ?_⟩
  refine ((decodeBlock_rowCounts_iff 1 1 0 listBlock _ [] (Nat.le_refl 1) decoded).mpr ?_).2
  intro entry member colType parsed
  rw [List.mem_singleton.mp member] at parsed
  obtain rfl : ColumnType.array (.nullable .uInt8) = colType := Option.some.inj parsed
  exact .inr rfl

/-- A block of one row whose only column is a tuple of one `BFloat16`. -/
def tupleBlock : Bytes :=
  putString (utf8 "t") ++ putString (utf8 "Tuple(BFloat16)") ++ [0x80, 0x3F]

/-- The only column of the block is a tuple, not an unsupported one, and reports no row
for the one the block has. -/
theorem rowCounts_fail_tuple :
    ¬ ∀ numColumns numRows serverRevision input block rest, 1 ≤ numRows →
      decodeBlock numColumns numRows serverRevision input = .ok (block, rest) →
      block.columns.length = block.schema.length ∧
        ∀ column ∈ block.columns, column.isUnsupported = false → column.rowCount = numRows := by
  intro law
  have decoded : decodeBlock 1 1 0 tupleBlock =
      .ok (⟨[.tuple [.unsupported "BFloat16"]], [("t", "Tuple(BFloat16)")], 1⟩, []) := rfl
  have counted := (law 1 1 0 tupleBlock _ [] (Nat.le_refl 1) decoded).2
    (.tuple [.unsupported "BFloat16"]) (List.mem_singleton_self _) rfl
  exact absurd counted (by decide)

end DfeClickhouse.Native
