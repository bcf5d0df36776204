import DfeClickhouse.Native.TypedRead

/-!
# Columns without their rows

What is left of a decoded column without its rows is the empty column of its type, however
the column was serialised.  So the announced type decides which Rust types it reads as.
-/

namespace DfeClickhouse.Native

open Library

mutual

/-- A column without its rows. -/
def DecodedColumn.rowless : DecodedColumn → DecodedColumn
  | .uInt8 _ => .uInt8 []
  | .uInt16 _ => .uInt16 []
  | .uInt32 _ => .uInt32 []
  | .uInt64 _ => .uInt64 []
  | .int8 _ => .int8 []
  | .int16 _ => .int16 []
  | .int32 _ => .int32 []
  | .int64 _ => .int64 []
  | .int128 _ => .int128 []
  | .uInt128 _ => .uInt128 []
  | .int256 _ => .int256 []
  | .uInt256 _ => .uInt256 []
  | .float32 _ => .float32 []
  | .float64 _ => .float64 []
  | .decimal32 precision scale _ => .decimal32 precision scale []
  | .decimal64 precision scale _ => .decimal64 precision scale []
  | .decimal128 precision scale _ => .decimal128 precision scale []
  | .decimal256 precision scale _ => .decimal256 precision scale []
  | .string _ => .string []
  | .json _ => .json []
  | .fixedString width _ => .fixedString width []
  | .date _ => .date []
  | .date32 _ => .date32 []
  | .dateTime _ => .dateTime []
  | .dateTime64 precision timezone _ => .dateTime64 precision timezone []
  | .uuid _ => .uuid []
  | .ipv4 _ => .ipv4 []
  | .ipv6 _ => .ipv6 []
  | .nullable _ child => .nullable [] child.rowless
  | .array _ child => .array [] child.rowless
  -- the width of the indices goes with the rows
  | .lowCardinality dict _ isNullableInner =>
      .lowCardinality dict.rowless (.uInt8 []) isNullableInner
  | .tuple fields => .tuple (rowlessFields fields)
  | .map _ keys values => .map [] keys.rowless values.rowless
  | .unsupported text => .unsupported text

/-- The fields of a tuple without their rows. -/
def rowlessFields : List DecodedColumn → List DecodedColumn
  | [] => []
  | field :: fields => field.rowless :: rowlessFields fields

end

/-- The column is one of its type. -/
def OfType (colType : ColumnType) (column : DecodedColumn) : Prop :=
  column.rowless = emptyColumn colType

theorem ofType_leaf {α : Type} {colType : ColumnType} {reader : ByteReader α}
    {build : α → DecodedColumn} (kind : ∀ values, OfType colType (build values)) :
    Reader.Yields (build <$> reader) (OfType colType) :=
  Reader.Yields.map ((Reader.Yields.trivial _).mono fun values _ => kind values)

theorem ofType_decodeLeaf {colType : ColumnType} (leaf : colType.isDecodedLeaf = true)
    (count : Nat) : Reader.Yields (decodeLeaf colType count) (OfType colType) := by
  cases colType with
  | bFloat16 | time | time64 | point => exact Reader.Yields.after fun _ => Reader.Yields.pure rfl
  | nullable | lowCardinality | simpleAggregateFunction | array | tuple | map | newJson | variant
  | dynamic => cases leaf
  | _ => exact ofType_leaf fun _ => rfl

theorem emptyColumn_lowCardinality (inner : ColumnType) :
    emptyColumn (.lowCardinality inner) = .lowCardinality
      (emptyColumn (dictionaryType inner).1) (.uInt8 []) (dictionaryType inner).2 := by
  rcases dictionaryType_cases inner with ⟨type, rfl, split⟩ | same
  · rw [split, emptyColumn]
  · rw [same]
    cases inner <;> first | rfl | cases same

/-- A decoder of the next nesting level returns columns of their types. -/
def NestedTypes (nested : ColumnDecoder) : Prop :=
  ∀ colType count headers,
    Reader.Yields (nested colType count headers) fun result => OfType colType result.1

section Composite

variable {nested : ColumnDecoder} {count : Nat}

theorem ofType_decodeFields (types : NestedTypes nested) (fields : List ColumnType)
    (headers : List DynamicHeader) :
    Reader.Yields (decodeFields nested count fields headers) fun result =>
      rowlessFields result.1 = emptyColumns fields := by
  induction fields generalizing headers with
  | nil => exact Reader.Yields.pure rfl
  | cons field fields ih =>
      rw [decodeFields]
      refine (types field count headers).bind fun first kind => ?_
      refine (ih first.2).bind fun later rest => Reader.Yields.pure ?_
      rw [rowlessFields, emptyColumns, kind, rest]

theorem ofType_decodeLowCardinality (types : NestedTypes nested) (inner : ColumnType)
    (headers : List DynamicHeader) :
    Reader.Yields (decodeLowCardinality nested inner count headers) fun result =>
      OfType (.lowCardinality inner) result.1 := by
  refine Reader.Yields.after fun flags => Reader.Yields.after fun _ => Reader.Yields.after fun _ =>
    Reader.Yields.after fun size => ?_
  refine (types (dictionaryType inner).1 size headers).bind fun dict kind => ?_
  refine Reader.Yields.after fun _ => Reader.Yields.after fun _ => Reader.Yields.after fun _ => ?_
  apply Reader.Yields.pure
  rw [OfType, emptyColumn_lowCardinality, DecodedColumn.rowless, kind]
  rfl

theorem ofType_decodeColumnStep (types : NestedTypes nested) (depth : Nat) (colType : ColumnType)
    (count : Nat) (headers : List DynamicHeader) :
    Reader.Yields (decodeColumnStep nested depth colType count headers) fun result =>
      OfType colType result.1 := by
  cases colType with
  | nullable inner =>
      refine Reader.Yields.after fun mask => (types inner count headers).bind fun child kind => ?_
      apply Reader.Yields.pure
      rw [OfType, DecodedColumn.rowless, emptyColumn, kind]
  | array inner =>
      refine Reader.Yields.after fun offsets => (types inner _ headers).bind fun child kind => ?_
      apply Reader.Yields.pure
      rw [OfType, DecodedColumn.rowless, emptyColumn, kind]
  | tuple fields =>
      refine (ofType_decodeFields types fields headers).bind fun columns kinds => ?_
      apply Reader.Yields.pure
      rw [OfType, DecodedColumn.rowless, emptyColumn, kinds]
  | map keyType valType =>
      refine Reader.Yields.after fun offsets => ?_
      refine (types keyType _ headers).bind fun keys keyKind => ?_
      refine (types valType _ _).bind fun values valKind => Reader.Yields.pure ?_
      rw [OfType, DecodedColumn.rowless, emptyColumn, keyKind, valKind]
  | lowCardinality inner => exact ofType_decodeLowCardinality types inner headers
  | simpleAggregateFunction inner =>
      refine (types inner count headers).mono fun result kind => ?_
      rw [OfType, emptyColumn, kind]
  | newJson =>
      refine Reader.Yields.after fun version => ?_
      split
      · exact Reader.Yields.after fun _ => Reader.Yields.pure rfl
      · exact Reader.Yields.after fun _ => Reader.Yields.after fun _ => Reader.Yields.pure rfl
  | variant types =>
      exact Reader.Yields.after fun _ => Reader.Yields.after fun _ => Reader.Yields.pure rfl
  | dynamic =>
      cases headers with
      | nil => exact Reader.Yields.fail _ _
      | cons header headers =>
          exact Reader.Yields.after fun _ => Reader.Yields.after fun _ => Reader.Yields.pure rfl
  | _ => exact (ofType_decodeLeaf rfl count).bind fun _ kind => Reader.Yields.pure kind

end Composite

@[simp] theorem rowlessFields_eq_map (fields : List DecodedColumn) :
    rowlessFields fields = fields.map DecodedColumn.rowless := by
  induction fields with
  | nil => rfl
  | cons field fields ih => rw [rowlessFields, ih, List.map_cons]

theorem ofType_emptyColumn (colType : ColumnType) : OfType colType (emptyColumn colType) := by
  induction size : sizeOf colType using Nat.strongRecOn generalizing colType with
  | ind _ ih =>
      subst size
      have smaller : ∀ child, sizeOf child < sizeOf colType → OfType child (emptyColumn child) :=
        fun child below => ih _ below child rfl
      unfold OfType at smaller ⊢
      cases colType with
      | nullable inner | array inner =>
          rw [emptyColumn, DecodedColumn.rowless, smaller inner (by simp)]
      | simpleAggregateFunction inner => rw [emptyColumn, smaller inner (by simp)]
      | map keyType valType =>
          rw [emptyColumn, DecodedColumn.rowless, smaller keyType (by simp; omega),
            smaller valType (by simp)]
      | tuple types =>
          rw [emptyColumn, DecodedColumn.rowless, rowlessFields_eq_map, emptyColumns_eq_map,
            List.map_map]
          congr 1
          apply List.map_congr_left
          intro type member
          have below := List.sizeOf_lt_of_mem member
          exact smaller type (by simp; omega)
      | lowCardinality inner =>
          rw [emptyColumn_lowCardinality, DecodedColumn.rowless]
          rcases dictionaryType_cases inner with ⟨type, rfl, split⟩ | same
          · rw [split, smaller type (by simp; omega)]
          · rw [same, smaller inner (by simp)]
      | _ => rfl

theorem nestedTypes_levels (levels : Nat) : NestedTypes (decodeColumnLevels levels) := by
  induction levels with
  | zero =>
      intro colType count headers
      exact Reader.Yields.fail _ _
  | succ levels ih =>
      intro colType count headers
      rw [decodeColumnLevels]
      split
      · exact Reader.Yields.pure (ofType_emptyColumn colType)
      · exact ofType_decodeColumnStep ih _ colType count headers

/-- Expanding a sparse column keeps what it is without its rows. -/
theorem rowless_expandSparse {column result : DecodedColumn} {positions : List Nat} {numRows : Nat}
    (expanded : column.expandSparse positions numRows = .ok result) :
    result.rowless = column.rowless := by
  unfold DecodedColumn.expandSparse at expanded
  split at expanded
  · cases expanded
  · split at expanded
    · cases expanded
    · cases column with
      | fixedString width bytes =>
          dsimp only at expanded
          split at expanded <;> cases expanded
          rfl
      | _ => cases expanded <;> rfl

theorem ofType_decodeColumnPayload (colType : ColumnType) (numRows : Nat) (sparse : Bool) :
    Reader.Yields (decodeColumnPayload colType numRows sparse) (OfType colType) := by
  rw [decodeColumnPayload_eq]
  refine Reader.Yields.after fun headers => ?_
  unfold decodeColumnData
  split
  · refine Reader.Yields.after fun offsets => ?_
    refine (nestedTypes_levels _ colType offsets.1.length headers).bind fun dense kind => ?_
    exact Reader.Yields.ofExcept fun column expanded => (rowless_expandSparse expanded).trans kind
  · exact (nestedTypes_levels _ colType numRows headers).bind fun _ kind =>
      Reader.Yields.pure kind

/-- A column of a block is one of its announced type. -/
theorem ofType_decodeBlock (numColumns numRows serverRevision : Nat) :
    Reader.Yields (decodeBlock numColumns numRows serverRevision) fun block =>
      ∃ entries : List ((String × String) × DecodedColumn),
        block.schema = entries.map Prod.fst ∧ block.columns = entries.map Prod.snd ∧
          ∀ entry ∈ entries, ∃ colType, ColumnType.parse entry.1.2 = some colType ∧
            OfType colType entry.2 := by
  have column : Reader.Yields (decodeBlockColumn numRows serverRevision) fun entry =>
      ∃ colType, ColumnType.parse entry.1.2 = some colType ∧ OfType colType entry.2 := by
    rw [decodeBlockColumn_eq]
    refine Reader.Yields.after fun name => Reader.Yields.after fun typeName =>
      Reader.Yields.after fun sparse => ?_
    unfold decodeAnnounced
    split
    · exact Reader.Yields.fail _ _
    · rename_i colType parsed
      exact (ofType_decodeColumnPayload colType numRows sparse).bind fun column kind =>
        Reader.Yields.pure ⟨colType, parsed, kind⟩
  refine Reader.Yields.after fun _ => Reader.Yields.after fun _ => ?_
  refine (column.times numColumns).bind fun entries ⟨_, each⟩ => ?_
  exact Reader.Yields.pure ⟨entries, rfl, rfl, each⟩

/-- The texts of a column, those in the slots of nulls included. -/
def DecodedColumn.texts : DecodedColumn → List Bytes
  | .string values | .json values => values
  | .nullable _ child => child.texts
  | _ => []

namespace Target

/-- Whether the values are text. -/
def isText : Target → Bool
  | string => true
  | option inner => inner.isText
  | _ => false

/-- Whether columns of a type read as the Rust type: the empty one does. -/
def reads (target : Target) (colType : ColumnType) : Bool :=
  (target.fromColumn (emptyColumn colType) "" "").isOk

/-- What a conversion comes to, with and without the rows of the column. -/
inductive Decided (target : Target) (column : DecodedColumn) (name typeName : String) : Prop
  | refused (expected : String)
      (rowless : ∀ name typeName,
        target.fromColumn column.rowless name typeName = .error (wrongType name typeName expected))
      (here : target.fromColumn column name typeName = .error (wrongType name typeName expected))
  | converted
      (rowless : ∀ name typeName, target.fromColumn column.rowless name typeName = .ok [])
      (valid : target.isText = true → ∀ value ∈ column.texts, fromUtf8 value ≠ none)
      (here : ∃ values, target.fromColumn column name typeName = .ok values)
  | notText {value : Bytes}
      (rowless : ∀ name typeName, target.fromColumn column.rowless name typeName = .ok [])
      (text : target.isText = true) (member : value ∈ column.texts)
      (invalid : fromUtf8 value = none)
      (here : target.fromColumn column name typeName =
        .error (.invalidUtf8Encoding (utf8ErrorText value)))

end Target

theorem mapM_textValue_cases (values : List Bytes) :
    (∃ texts, values.mapM textValue = .ok texts ∧ ∀ value ∈ values, fromUtf8 value ≠ none) ∨
      ∃ value ∈ values, fromUtf8 value = none ∧
        values.mapM textValue = .error (.invalidUtf8Encoding (utf8ErrorText value)) := by
  induction values with
  | nil => exact .inl ⟨[], rfl, List.forall_mem_nil _⟩
  | cons value values ih =>
      rw [List.mapM_cons]
      cases text : fromUtf8 value with
      | none =>
          right
          refine ⟨value, List.mem_cons_self, text, ?_⟩
          rw [textValue, text]
          rfl
      | some found =>
          have first : textValue value = .ok found := by rw [textValue, text]
          rw [first]
          rcases ih with ⟨texts, read, valid⟩ | ⟨other, member, invalid, failed⟩
          · left
            refine ⟨found :: texts, by rw [read]; rfl, ?_⟩
            refine List.forall_mem_cons.mpr ⟨?_, valid⟩
            rw [text]
            nofun
          · right
            exact ⟨other, List.mem_cons_of_mem _ member, invalid, by rw [failed]; rfl⟩

theorem decided_texts {values : List Bytes} {column : DecodedColumn} {name typeName : String}
    (texts : column.texts = values)
    (rowless : ∀ name typeName, Target.string.fromColumn column.rowless name typeName = .ok [])
    (here : Target.string.fromColumn column name typeName = values.mapM textValue) :
    Target.string.Decided column name typeName := by
  rcases mapM_textValue_cases values with ⟨read, mapped, valid⟩ | ⟨value, member, invalid, failed⟩
  · refine .converted rowless ?_ ⟨read, here.trans mapped⟩
    intro _ value member
    exact valid value (texts ▸ member)
  · exact .notText rowless rfl (texts.symm ▸ member) invalid (here.trans failed)

/-- A conversion goes as it does without the rows, except that text has to be UTF-8. -/
theorem fromColumn_decided (target : Target) (column : DecodedColumn) (name typeName : String) :
    target.Decided column name typeName := by
  induction target generalizing column with
  | string =>
      cases column with
      | string values | json values => exact decided_texts rfl (fun _ _ => rfl) rfl
      | _ => exact .refused "String" (fun _ _ => rfl) rfl
  | option inner ih =>
      cases column with
      | nullable mask child =>
          cases ih child with
          | refused expected rowless here =>
              refine .refused expected (fun name typeName => ?_) ?_
              · simp only [DecodedColumn.rowless, Target.fromColumn, rowless]
                rfl
              · simp only [Target.fromColumn, here]
                rfl
          | converted rowless valid here =>
              obtain ⟨values, here⟩ := here
              refine .converted (fun name typeName => ?_) valid ?_
              · simp only [DecodedColumn.rowless, Target.fromColumn, rowless]
                rfl
              · simp only [Target.fromColumn, here]
                exact ⟨_, rfl⟩
          | notText rowless text member invalid here =>
              refine .notText (fun name typeName => ?_) text member invalid ?_
              · simp only [DecodedColumn.rowless, Target.fromColumn, rowless]
                rfl
              · simp only [Target.fromColumn, here]
                rfl
      | _ => exact .refused "a Nullable column" (fun _ _ => rfl) rfl
  | _ =>
      cases column <;> first
        | exact .refused _ (fun _ _ => rfl) rfl
        | exact .converted (fun _ _ => rfl) nofun ⟨_, rfl⟩

end DfeClickhouse.Native
