import DfeClickhouse.Native.ColumnRoundTrip

/-!
# The values behind NULL

A nullable column writes a value for every row, and a NULL gets a placeholder.  The
placeholder is one zero byte for every type without a width of its own, which is not
always the cell of a value.  Here are the types for which it is one.
-/

namespace DfeClickhouse.Native

open Library

/-! ## Cells -/

mutual

/-- A well-formed cell of a type.  A null flag is 0 or 1. -/
def IsRowBinary : ColumnType → Bytes → Prop
  | .string, cell | .json, cell | .newJson, cell =>
      ∃ count text, cell = count ++ text ∧ Reader.Reads rbReadVaruint count text.length
  | .nullable inner, cell => cell = [1] ∨ ∃ held, cell = 0 :: held ∧ IsRowBinary inner held
  | .lowCardinality inner, cell => IsRowBinary inner cell
  | .array inner, cell =>
      ∃ (count : Bytes) (elements : List Bytes), cell = count ++ elements.flatten ∧
        Reader.Reads rbReadVaruint count elements.length ∧
        ∀ element ∈ elements, IsRowBinary inner element
  | .map keyType valType, cell =>
      ∃ (count : Bytes) (entries : List (Bytes × Bytes)),
        cell = count ++ (entries.map fun entry => entry.1 ++ entry.2).flatten ∧
        Reader.Reads rbReadVaruint count entries.length ∧
        ∀ entry ∈ entries, IsRowBinary keyType entry.1 ∧ IsRowBinary valType entry.2
  | .tuple fields, cell => ∃ cells : List Bytes, cell = cells.flatten ∧ AreRowBinary fields cells
  | colType, cell => colType.fixedSize = some cell.length

/-- One well-formed cell of each type. -/
def AreRowBinary : List ColumnType → List Bytes → Prop
  | [], cells => cells = []
  | field :: fields, cells =>
      ∃ cell rest, cells = cell :: rest ∧ IsRowBinary field cell ∧ AreRowBinary fields rest

end

/-! ## Kinds of types -/

namespace ColumnType

mutual

/-- The walk over a row has an arm for the type and every type in it. -/
def isWalked : ColumnType → Bool
  | nullable inner | lowCardinality inner | array inner => inner.isWalked
  | tuple fields => areWalked fields
  | map key value => key.isWalked && value.isWalked
  | simpleAggregateFunction _ | variant _ | dynamic | point => false
  | _ => true

def areWalked : List ColumnType → Bool
  | [] => true
  | field :: fields => field.isWalked && areWalked fields

end

mutual

/-- A cell of the type has no bytes. -/
def takesNothing : ColumnType → Bool
  | lowCardinality inner => inner.takesNothing
  | tuple fields => takeNothing fields
  | colType => colType.fixedSize == some 0

def takeNothing : List ColumnType → Bool
  | [] => true
  | field :: fields => field.takesNothing && takeNothing fields

end

mutual

/-- One zero byte is a cell of the type. -/
def takesZero : ColumnType → Bool
  | string | json | newJson | array _ | map .. => true
  | nullable inner => inner.takesNothing
  | lowCardinality inner => inner.takesZero
  | tuple fields => takeZero fields
  | colType => colType.fixedSize == some 1

/-- One of the types takes the zero byte, and the others take nothing. -/
def takeZero : List ColumnType → Bool
  | [] => false
  | field :: fields =>
      (field.takesZero && takeNothing fields) || (field.takesNothing && takeZero fields)

end

/-- The placeholder of the type is a cell of it. -/
def hasPlaceholder : ColumnType → Bool
  | lowCardinality inner => inner.hasPlaceholder
  | colType => colType.fixedSize.isSome || colType.takesZero

mutual

/-- Every type under a `Nullable` has a placeholder. -/
def nullsFilled : ColumnType → Bool
  | nullable inner => inner.hasPlaceholder && inner.nullsFilled
  | lowCardinality inner | array inner => inner.nullsFilled
  | tuple fields => fieldNullsFilled fields
  | map key value => key.nullsFilled && value.nullsFilled
  | _ => true

def fieldNullsFilled : List ColumnType → Bool
  | [] => true
  | field :: fields => field.nullsFilled && fieldNullsFilled fields

end

end ColumnType

/-! ## The placeholder as a cell -/

theorem isRowBinary_of_fixed {colType : ColumnType} {width : Nat}
    (fixed : colType.fixedSize = some width) {cell : Bytes} :
    IsRowBinary colType cell ↔ cell.length = width := by
  have scalar : IsRowBinary colType cell ↔ colType.fixedSize = some cell.length := by
    cases colType <;> first | cases fixed; done | rfl
  rw [scalar, fixed, Option.some.injEq, eq_comm]

theorem takesNothing_of_fixed {colType : ColumnType} {width : Nat}
    (fixed : colType.fixedSize = some width) : colType.takesNothing = (width == 0) := by
  have scalar : colType.takesNothing = (colType.fixedSize == some 0) := by
    cases colType <;> first | cases fixed; done | rfl
  rw [scalar, fixed]
  rfl

theorem takesZero_of_fixed {colType : ColumnType} {width : Nat}
    (fixed : colType.fixedSize = some width) : colType.takesZero = (width == 1) := by
  have scalar : colType.takesZero = (colType.fixedSize == some 1) := by
    cases colType <;> first | cases fixed; done | rfl
  rw [scalar, fixed]
  rfl

theorem rbAdvance_fixed_ok_iff {colType : ColumnType} {width : Nat}
    (fixed : colType.fixedSize = some width) {input rest : Bytes} :
    rbAdvance colType input = .ok ((), rest) ↔
      ∃ cell : Bytes, input = cell ++ rest ∧ cell.length = width := by
  rw [rbAdvance_of_fixed fixed, Reader.bind_ok_iff]
  constructor
  · rintro ⟨cell, middle, taken, finished⟩
    cases finished
    exact ⟨cell, Reader.take_ok_iff.mp taken⟩
  · rintro ⟨cell, split, sized⟩
    exact ⟨cell, rest, Reader.take_ok_iff.mpr ⟨split, sized⟩, rfl⟩

theorem rbAdvanceFields_cons_ok_iff {field : ColumnType} {fields : List ColumnType}
    {input rest : Bytes} :
    rbAdvanceFields (field :: fields) input = .ok ((), rest) ↔
      ∃ middle, rbAdvance field input = .ok ((), middle) ∧
        rbAdvanceFields fields middle = .ok ((), rest) := by
  rw [rbAdvanceFields, Reader.bind_ok_iff]
  constructor
  · rintro ⟨⟨⟩, middle, first, others⟩
    exact ⟨middle, first, others⟩
  · rintro ⟨middle, first, others⟩
    exact ⟨(), middle, first, others⟩

theorem rbAdvanceFields_nil_iff {fields : List ColumnType} {rest : Bytes}
    (each : ∀ field ∈ fields, ∀ rest : Bytes,
      rbAdvance field [] = .ok ((), rest) ↔ rest = [] ∧ field.takesNothing = true) :
    rbAdvanceFields fields [] = .ok ((), rest) ↔
      rest = [] ∧ ColumnType.takeNothing fields = true := by
  induction fields with
  | nil =>
      constructor
      · intro walked
        cases walked
        exact ⟨rfl, rfl⟩
      · rintro ⟨rfl, -⟩
        rfl
  | cons field fields ih =>
      have head := each field List.mem_cons_self
      have tail := ih fun other member => each other (List.mem_cons_of_mem field member)
      rw [rbAdvanceFields_cons_ok_iff, ColumnType.takeNothing, Bool.and_eq_true]
      constructor
      · rintro ⟨middle, first, others⟩
        obtain ⟨rfl, nothing⟩ := (head middle).mp first
        obtain ⟨ended, others⟩ := tail.mp others
        exact ⟨ended, nothing, others⟩
      · rintro ⟨ended, nothing, others⟩
        exact ⟨[], (head []).mpr ⟨rfl, nothing⟩, tail.mpr ⟨ended, others⟩⟩

/-- What walks over nothing. -/
theorem rbAdvance_nil_iff {colType : ColumnType} {rest : Bytes} :
    rbAdvance colType [] = .ok ((), rest) ↔ rest = [] ∧ colType.takesNothing = true := by
  induction colType using ColumnType.induction_forms generalizing rest with
  | fixed colType width fixed =>
      rw [rbAdvance_fixed_ok_iff fixed, takesNothing_of_fixed fixed, beq_iff_eq]
      constructor
      · rintro ⟨cell, split, sized⟩
        obtain ⟨rfl, rfl⟩ := List.append_eq_nil_iff.mp split.symm
        exact ⟨rfl, sized.symm⟩
      · rintro ⟨rfl, rfl⟩
        exact ⟨[], rfl, rfl⟩
  | lowCardinality inner ih => exact ih
  | tuple fields ih => exact rbAdvanceFields_nil_iff fun field member rest => ih field member
  | string | json | newJson | nullable | array | map =>
      exact iff_of_false (fun walked => nomatch walked) fun both => nomatch both.2
  | dynamic | point | simpleAggregateFunction | variant =>
      exact iff_of_false (fun walked => nomatch walked) fun both => nomatch both.2

/-- A zero byte that is walked over is taken or left. -/
def TakenOrLeft (taken left : Bool) (rest : Bytes) : Prop :=
  (rest = [] ∧ taken = true) ∨ (rest = [0] ∧ left = true)

theorem rbAdvanceFields_zero_iff {fields : List ColumnType} {rest : Bytes}
    (each : ∀ field ∈ fields, ∀ rest : Bytes, rbAdvance field [0] = .ok ((), rest) ↔
      TakenOrLeft field.takesZero field.takesNothing rest) :
    rbAdvanceFields fields [0] = .ok ((), rest) ↔
      TakenOrLeft (ColumnType.takeZero fields) (ColumnType.takeNothing fields) rest := by
  have afterwards (fields : List ColumnType) {rest : Bytes} :
      rbAdvanceFields fields [] = .ok ((), rest) ↔
        rest = [] ∧ ColumnType.takeNothing fields = true :=
    rbAdvanceFields_nil_iff fun field _ _ => rbAdvance_nil_iff
  induction fields with
  | nil =>
      constructor
      · intro walked
        cases walked
        exact .inr ⟨rfl, rfl⟩
      · rintro (⟨-, taken⟩ | ⟨rfl, -⟩)
        · cases taken
        · rfl
  | cons field fields ih =>
      have head := each field List.mem_cons_self
      have tail := ih fun other member => each other (List.mem_cons_of_mem field member)
      simp only [rbAdvanceFields_cons_ok_iff, head, TakenOrLeft, ColumnType.takeZero,
        ColumnType.takeNothing, Bool.or_eq_true, Bool.and_eq_true]
      constructor
      · rintro ⟨middle, ⟨rfl, taken⟩ | ⟨rfl, left⟩, others⟩
        · obtain ⟨ended, nothing⟩ := (afterwards fields).mp others
          exact .inl ⟨ended, .inl ⟨taken, nothing⟩⟩
        · rcases tail.mp others with ⟨ended, taken⟩ | ⟨kept, nothing⟩
          · exact .inl ⟨ended, .inr ⟨left, taken⟩⟩
          · exact .inr ⟨kept, left, nothing⟩
      · rintro (⟨ended, ⟨taken, nothing⟩ | ⟨left, taken⟩⟩ | ⟨kept, left, nothing⟩)
        · exact ⟨[], .inl ⟨rfl, taken⟩, (afterwards fields).mpr ⟨ended, nothing⟩⟩
        · exact ⟨[0], .inr ⟨rfl, left⟩, tail.mpr (.inl ⟨ended, taken⟩)⟩
        · exact ⟨[0], .inr ⟨rfl, left⟩, tail.mpr (.inr ⟨kept, nothing⟩)⟩

/-- What walks over a zero byte. -/
theorem rbAdvance_zero_iff {colType : ColumnType} {rest : Bytes} :
    rbAdvance colType [0] = .ok ((), rest) ↔
      TakenOrLeft colType.takesZero colType.takesNothing rest := by
  have taken {rest : Bytes} : (.ok ((), []) : Except Error (Unit × Bytes)) = .ok ((), rest) ↔
      TakenOrLeft true false rest := by
    simp [TakenOrLeft, eq_comm]
  induction colType using ColumnType.induction_forms generalizing rest with
  | fixed colType width fixed =>
      rw [rbAdvance_fixed_ok_iff fixed, takesZero_of_fixed fixed, takesNothing_of_fixed fixed,
        TakenOrLeft, beq_iff_eq, beq_iff_eq]
      constructor
      · rintro ⟨cell, split, rfl⟩
        rcases List.singleton_eq_append_iff.mp split with ⟨rfl, rfl⟩ | ⟨rfl, rfl⟩
        · exact .inr ⟨rfl, rfl⟩
        · exact .inl ⟨rfl, rfl⟩
      · rintro (⟨rfl, rfl⟩ | ⟨rfl, rfl⟩)
        · exact ⟨[0], rfl, rfl⟩
        · exact ⟨[], rfl, rfl⟩
  | lowCardinality inner ih => exact ih
  | tuple fields ih => exact rbAdvanceFields_zero_iff fun field member rest => ih field member
  | nullable inner =>
      have present : rbAdvance (.nullable inner) [0] = rbAdvance inner [] := rfl
      rw [present, rbAdvance_nil_iff, TakenOrLeft]
      exact ⟨.inl, fun either => either.resolve_right fun both => nomatch both.2⟩
  | string | json | newJson | array | map => exact taken
  | dynamic | point | simpleAggregateFunction | variant =>
      refine iff_of_false (fun walked => nomatch walked) ?_
      rintro (⟨-, impossible⟩ | ⟨-, impossible⟩) <;> cases impossible

/-- A type without a width of its own has a zero byte for its placeholder. -/
theorem rbAdvance_zeroByte_iff {colType : ColumnType}
    (placeholder : rbWriteDefault colType = [0]) :
    rbAdvance colType (rbWriteDefault colType) = .ok ((), []) ↔ colType.takesZero = true := by
  rw [placeholder, rbAdvance_zero_iff, TakenOrLeft, and_iff_right rfl]
  exact or_iff_left fun both => nomatch both.1

/-- The placeholder is walked over to its end exactly for the types that have one. -/
theorem rbAdvance_default_iff (colType : ColumnType) :
    rbAdvance colType (rbWriteDefault colType) = .ok ((), []) ↔
      colType.hasPlaceholder = true := by
  induction colType using ColumnType.induction_forms with
  | fixed colType width fixed =>
      have has : colType.hasPlaceholder = true := by
        cases colType <;> first | cases fixed; done | rfl
      refine iff_of_true ?_ has
      rw [rbWriteDefault_of_fixed fixed, rbAdvance_fixed_ok_iff fixed]
      exact ⟨_, (List.append_nil _).symm, List.length_replicate⟩
  | lowCardinality inner ih => exact ih
  | string | json | newJson | nullable | array | map | tuple => exact rbAdvance_zeroByte_iff rfl
  | dynamic | point | simpleAggregateFunction | variant => exact rbAdvance_zeroByte_iff rfl

/-! ## Cells under the walk -/

@[simp] theorem areRowBinary_iff {fields : List ColumnType} {cells : List Bytes} :
    AreRowBinary fields cells ↔ List.Forall₂ IsRowBinary fields cells := by
  induction fields generalizing cells with
  | nil => simp [AreRowBinary]
  | cons field fields ih =>
      rw [AreRowBinary, List.forall₂_cons_left_iff]
      constructor
      · rintro ⟨cell, rest, rfl, head, tail⟩
        exact ⟨cell, rest, head, ih.mp tail, rfl⟩
      · rintro ⟨cell, rest, head, tail, rfl⟩
        exact ⟨cell, rest, rfl, head, ih.mpr tail⟩

theorem reads_areRowBinary {fields : List ColumnType} {cells : List Bytes}
    (each : ∀ field ∈ fields, ∀ cell, IsRowBinary field cell →
      Reader.Reads (rbAdvance field) cell ())
    (areCells : List.Forall₂ IsRowBinary fields cells) :
    Reader.Reads (rbAdvanceFields fields) cells.flatten () := by
  induction areCells with
  | nil => exact Reader.Reads.pure ()
  | @cons field cell fields cells head _ ih =>
      rw [rbAdvanceFields, List.flatten_cons]
      apply (each field List.mem_cons_self cell head).bind
      exact ih fun other member => each other (List.mem_cons_of_mem field member)

/-- A cell is walked over to its end, whatever follows it. -/
theorem reads_isRowBinary {colType : ColumnType} {cell : Bytes}
    (isCell : IsRowBinary colType cell) :
    Reader.Reads (rbAdvance colType) cell () := by
  induction colType using ColumnType.induction_forms generalizing cell with
  | fixed colType width fixed =>
      rw [rbAdvance_of_fixed fixed]
      exact (Reader.Reads.take rbTruncated ((isRowBinary_of_fixed fixed).mp isCell)).bind_pure
  | string | json | newJson =>
      obtain ⟨count, text, rfl, counted⟩ := isCell
      exact counted.bind (Reader.Reads.take rbTruncated rfl).bind_pure
  | nullable inner ih =>
      rcases isCell with rfl | ⟨held, rfl, isHeld⟩
      · have flag : Reader.Reads (Reader.take rbTruncated 1) [(1 : UInt8)] [1] :=
          Reader.Reads.take rbTruncated rfl
        exact flag.bind (Reader.Reads.pure ())
      · have flag : Reader.Reads (Reader.take rbTruncated 1) [(0 : UInt8)] [0] :=
          Reader.Reads.take rbTruncated rfl
        exact flag.bind (ih isHeld)
  | lowCardinality inner ih => exact ih isCell
  | array inner ih =>
      obtain ⟨count, elements, rfl, counted, areElements⟩ := isCell
      apply counted.bind
      have run : Reader.Reads (do
          let _ ← Reader.times (rbAdvance inner) elements.length
          pure ()) (elements.map id).flatten () :=
        reads_advanceTimes fun element member => ih (areElements element member)
      rwa [List.map_id] at run
  | map keyType valType keyIh valIh =>
      obtain ⟨count, entries, rfl, counted, areEntries⟩ := isCell
      rw [rbAdvance]
      apply counted.bind
      apply reads_advanceTimes
      intro entry member
      obtain ⟨isKey, isVal⟩ := areEntries entry member
      exact (keyIh isKey).bind (valIh isVal)
  | tuple fields ih =>
      obtain ⟨cells, rfl, areCells⟩ := isCell
      exact reads_areRowBinary (fun field member cell => ih field member)
        (areRowBinary_iff.mp areCells)
  | dynamic | point | simpleAggregateFunction | variant => cases isCell

theorem reads_cell {colType : ColumnType} {cell : Bytes} (isCell : IsRowBinary colType cell) :
    Reader.Reads (rbCell colType) cell cell :=
  (reads_isRowBinary isCell).consumed

/-- The elements are cut out of an array's cell. -/
theorem reads_elements {inner : ColumnType} {count : Bytes} {elements : List Bytes}
    (counted : Reader.Reads rbReadVaruint count elements.length)
    (areElements : ∀ element ∈ elements, IsRowBinary inner element) :
    Reader.Reads (arrayElements inner) (count ++ elements.flatten) elements := by
  apply counted.bind
  have run : Reader.Reads (Reader.times (rbCell inner) elements.length)
      (elements.map id).flatten (elements.map id) :=
    Reader.Reads.times_map fun element member => reads_cell (areElements element member)
  rwa [List.map_id] at run

theorem reads_entries {keyType valType : ColumnType} {count : Bytes}
    {entries : List (Bytes × Bytes)} (counted : Reader.Reads rbReadVaruint count entries.length)
    (areEntries : ∀ entry ∈ entries, IsRowBinary keyType entry.1 ∧ IsRowBinary valType entry.2) :
    Reader.Reads (mapEntries keyType valType)
      (count ++ (entries.map fun entry => entry.1 ++ entry.2).flatten) entries := by
  apply counted.bind
  have run : Reader.Reads (Reader.times (do
      let key ← rbCell keyType
      let value ← rbCell valType
      pure (key, value)) entries.length)
      (entries.map fun entry => entry.1 ++ entry.2).flatten (entries.map id) := by
    apply Reader.Reads.times_map
    intro entry member
    have ⟨isKey, isVal⟩ := areEntries entry member
    exact (reads_cell isKey).bind (reads_cell isVal).bind_pure
  rwa [List.map_id] at run

theorem reads_fields {fields : List ColumnType} {cells : List Bytes}
    (areCells : List.Forall₂ IsRowBinary fields cells) :
    Reader.Reads (rbCells fields) cells.flatten cells := by
  induction areCells with
  | nil => exact Reader.Reads.pure []
  | cons head _ ih =>
      rw [List.flatten_cons]
      exact (reads_cell head).bind ih.bind_pure

/-- What an exact reader takes from its text alone. -/
theorem ok_of_reads {α : Type} {reader : ByteReader α} {used : Bytes} {value : α}
    (reads : Reader.Reads reader used value) : reader used = .ok (value, []) := by
  have run := reads []
  rwa [List.append_nil] at run

/-! ## Values -/

mutual

/-- Every value the writer takes out of a cell, at any depth, is a cell of its type. -/
def ValuesFit : ColumnType → Bytes → Prop
  | .nullable inner, cell => ∀ flag slot,
      splitNullable (rbWriteDefault inner) cell = .ok (flag, slot) →
        IsRowBinary inner slot ∧ ValuesFit inner slot
  | .lowCardinality (.nullable inner), cell =>
      (IsRowBinary inner (rbWriteDefault inner) ∧ ValuesFit inner (rbWriteDefault inner)) ∧
        ∀ key, dictionaryKey true cell = some key → IsRowBinary inner key ∧ ValuesFit inner key
  | .lowCardinality inner, cell => ValuesFit inner cell
  | .array inner, cell => ∀ elements rest, arrayElements inner cell = .ok (elements, rest) →
      ∀ element ∈ elements, IsRowBinary inner element ∧ ValuesFit inner element
  | .map keyType valType, cell => ∀ entries rest,
      mapEntries keyType valType cell = .ok (entries, rest) → ∀ entry ∈ entries,
        (IsRowBinary keyType entry.1 ∧ ValuesFit keyType entry.1) ∧
          IsRowBinary valType entry.2 ∧ ValuesFit valType entry.2
  | .tuple fields, cell => ∀ cells rest, rbCells fields cell = .ok (cells, rest) →
      FieldValuesFit fields cells
  | _, _ => True

/-- The values taken out of the cells of a record are cells of their types. -/
def FieldValuesFit : List ColumnType → List Bytes → Prop
  | [], cells => cells = []
  | field :: fields, cells => ∃ cell rest, cells = cell :: rest ∧
      (IsRowBinary field cell ∧ ValuesFit field cell) ∧ FieldValuesFit fields rest

end

theorem fieldValuesFit_iff {fields : List ColumnType} {cells : List Bytes} :
    FieldValuesFit fields cells ↔
      List.Forall₂ (fun field cell => IsRowBinary field cell ∧
        ValuesFit field cell) fields cells := by
  induction fields generalizing cells with
  | nil => simp [FieldValuesFit]
  | cons field fields ih =>
      rw [FieldValuesFit, List.forall₂_cons_left_iff]
      constructor
      · rintro ⟨cell, rest, rfl, head, tail⟩
        exact ⟨cell, rest, head, ih.mp tail, rfl⟩
      · rintro ⟨cell, rest, head, tail, rfl⟩
        exact ⟨cell, rest, rfl, head, ih.mpr tail⟩

@[simp] theorem fieldNullsFilled_iff {fields : List ColumnType} :
    ColumnType.fieldNullsFilled fields = true ↔ ∀ field ∈ fields, field.nullsFilled = true := by
  induction fields with
  | nil => simp [ColumnType.fieldNullsFilled]
  | cons field fields ih => simp [ColumnType.fieldNullsFilled, ih]

@[simp] theorem areWalked_iff {fields : List ColumnType} :
    ColumnType.areWalked fields = true ↔ ∀ field ∈ fields, field.isWalked = true := by
  induction fields with
  | nil => simp [ColumnType.areWalked]
  | cons field fields ih => simp [ColumnType.areWalked, ih]

/-! ## The placeholder as a value -/

/-- A cell takes the placeholder of a type without a width of its own. -/
theorem reads_zero : Reader.Reads rbReadVaruint [0] 0 :=
  @reads_rbReadVaruint 0 (by decide)

theorem exists_cells {fields : List ColumnType} {taken : ColumnType → Bytes}
    (each : ∀ field ∈ fields, IsRowBinary field (taken field)) :
    AreRowBinary fields (fields.map taken) := by
  rw [areRowBinary_iff, List.forall₂_map_right_iff, List.forall₂_same]
  exact each

@[simp] theorem takeNothing_iff {fields : List ColumnType} :
    ColumnType.takeNothing fields = true ↔ ∀ field ∈ fields, field.takesNothing = true := by
  induction fields with
  | nil => simp [ColumnType.takeNothing]
  | cons field fields ih => simp [ColumnType.takeNothing, ih]

theorem isRowBinary_nil {colType : ColumnType} (nothing : colType.takesNothing = true) :
    IsRowBinary colType [] := by
  induction colType using ColumnType.induction_forms with
  | fixed colType width fixed =>
      rw [takesNothing_of_fixed fixed, beq_iff_eq] at nothing
      exact (isRowBinary_of_fixed fixed).mpr nothing.symm
  | lowCardinality inner ih => exact ih nothing
  | tuple fields ih =>
      have each := takeNothing_iff.mp nothing
      refine ⟨fields.map fun _ => [], ?_, exists_cells fun field member =>
        ih field member (each field member)⟩
      induction fields with
      | nil => rfl
      | cons field fields rest => simp
  | string | json | newJson | nullable | array | map => cases nothing
  | dynamic | point | simpleAggregateFunction | variant => cases nothing

theorem isRowBinary_zero {colType : ColumnType} (zero : colType.takesZero = true) :
    IsRowBinary colType [0] := by
  induction colType using ColumnType.induction_forms with
  | fixed colType width fixed =>
      rw [takesZero_of_fixed fixed, beq_iff_eq] at zero
      exact (isRowBinary_of_fixed fixed).mpr zero.symm
  | string | json | newJson => exact ⟨[0], [], rfl, reads_zero⟩
  | nullable inner => exact .inr ⟨[], rfl, isRowBinary_nil zero⟩
  | lowCardinality inner ih => exact ih zero
  | array => exact ⟨[0], [], rfl, reads_zero, fun _ member => nomatch member⟩
  | map => exact ⟨[0], [], rfl, reads_zero, fun _ member => nomatch member⟩
  | tuple fields ih =>
      have cells : ∃ cells : List Bytes, cells.flatten = [0] ∧ AreRowBinary fields cells := by
        induction fields with
        | nil => cases zero
        | cons field fields rest =>
            have head := ih field List.mem_cons_self
            have tail := rest fun other member => ih other (List.mem_cons_of_mem field member)
            rw [ColumnType.takesZero, ColumnType.takeZero, Bool.or_eq_true, Bool.and_eq_true,
              Bool.and_eq_true] at zero
            rcases zero with ⟨taken, nothing⟩ | ⟨nothing, taken⟩
            · have ⟨cells, empty, areCells⟩ := @isRowBinary_nil (.tuple fields) nothing
              exact ⟨[0] :: cells, by simp [← empty], [0], cells, rfl, head taken, areCells⟩
            · have ⟨cells, zeroByte, areCells⟩ := tail taken
              exact ⟨[] :: cells, zeroByte, [], cells, rfl, isRowBinary_nil nothing, areCells⟩
      obtain ⟨cells, zeroByte, areCells⟩ := cells
      exact ⟨cells, zeroByte.symm, areCells⟩
  | dynamic | point | simpleAggregateFunction | variant => cases zero

/-- The placeholder of a type that has one is a cell of it. -/
theorem isRowBinary_default {colType : ColumnType} (has : colType.hasPlaceholder = true) :
    IsRowBinary colType (rbWriteDefault colType) := by
  induction colType using ColumnType.induction_forms with
  | fixed colType width fixed =>
      rw [rbWriteDefault_of_fixed fixed, isRowBinary_of_fixed fixed]
      exact List.length_replicate
  | lowCardinality inner ih => exact ih has
  | string | json | newJson | nullable | array | map | tuple => exact isRowBinary_zero has
  | dynamic | point | simpleAggregateFunction | variant => cases has

/-! ## Where every value fits -/

/-- A well-formed nullable cell is a flag and the slot it takes. -/
theorem splitNullable_isRowBinary {inner : ColumnType} {cell default : Bytes} {flag : UInt8}
    {slot : Bytes} (isCell : IsRowBinary (.nullable inner) cell)
    (split : splitNullable default cell = .ok (flag, slot)) :
    slot = default ∨ IsRowBinary inner slot := by
  rcases isCell with rfl | ⟨held, rfl, isHeld⟩
  · cases split
    exact .inl rfl
  · cases split
    exact .inr isHeld

/-- The key of a well-formed nullable cell is the slot it takes. -/
theorem dictionaryKey_isRowBinary {inner : ColumnType} {cell key : Bytes}
    (isCell : IsRowBinary (.nullable inner) cell) (keyed : dictionaryKey true cell = some key)
    (default : Bytes) : splitNullable default cell = .ok (0, key) := by
  rcases isCell with rfl | ⟨held, rfl, isHeld⟩
  · cases keyed
  · cases keyed
    rfl

theorem valuesFit_array {inner : ColumnType} {count : Bytes} {elements : List Bytes}
    (counted : Reader.Reads rbReadVaruint count elements.length)
    (areElements : ∀ element ∈ elements, IsRowBinary inner element) :
    ValuesFit (.array inner) (count ++ elements.flatten) ↔
      ∀ element ∈ elements, ValuesFit inner element := by
  have taken := ok_of_reads (reads_elements counted areElements)
  constructor
  · intro fits element member
    exact (fits elements [] taken element member).2
  · intro fits others rest read element member
    cases taken.symm.trans read
    exact ⟨areElements element member, fits element member⟩

theorem valuesFit_map {keyType valType : ColumnType} {count : Bytes}
    {entries : List (Bytes × Bytes)} (counted : Reader.Reads rbReadVaruint count entries.length)
    (areEntries : ∀ entry ∈ entries, IsRowBinary keyType entry.1 ∧ IsRowBinary valType entry.2) :
    ValuesFit (.map keyType valType)
        (count ++ (entries.map fun entry => entry.1 ++ entry.2).flatten) ↔
      ∀ entry ∈ entries, ValuesFit keyType entry.1 ∧ ValuesFit valType entry.2 := by
  have taken := ok_of_reads (reads_entries counted areEntries)
  constructor
  · intro fits entry member
    have ⟨key, value⟩ := fits entries [] taken entry member
    exact ⟨key.2, value.2⟩
  · intro fits others rest read entry member
    cases taken.symm.trans read
    have ⟨isKey, isValue⟩ := areEntries entry member
    have ⟨key, value⟩ := fits entry member
    exact ⟨⟨isKey, key⟩, isValue, value⟩

theorem forall₂_and {α β : Type} {first second : α → β → Prop} {left : List α}
    {right : List β} (holds : List.Forall₂ first left right)
    (also : List.Forall₂ second left right) :
    List.Forall₂ (fun item other => first item other ∧ second item other) left right := by
  induction holds with
  | nil => exact .nil
  | cons head _ ih =>
      cases also with
      | cons other rest => exact .cons ⟨head, other⟩ (ih rest)

theorem valuesFit_tuple {fields : List ColumnType} {cells : List Bytes}
    (areCells : AreRowBinary fields cells) :
    ValuesFit (.tuple fields) cells.flatten ↔ List.Forall₂ ValuesFit fields cells := by
  rw [areRowBinary_iff] at areCells
  have taken := ok_of_reads (reads_fields areCells)
  constructor
  · intro fits
    exact (fieldValuesFit_iff.mp (fits cells [] taken)).imp fun _ _ both => both.2
  · intro fits others rest read
    cases taken.symm.trans read
    exact fieldValuesFit_iff.mpr (forall₂_and areCells fits)

/-- A dictionary column of nullable values has the values of the nullable column, and the
placeholder. -/
theorem valuesFit_lowCardinality {inner : ColumnType} {cell : Bytes}
    (isCell : IsRowBinary (.nullable inner) cell) :
    ValuesFit (.lowCardinality (.nullable inner)) cell ↔
      ValuesFit (.nullable inner) [1] ∧ ValuesFit (.nullable inner) cell := by
  constructor
  · rintro ⟨filled, keys⟩
    refine ⟨fun flag slot split => ?_, fun flag slot split => ?_⟩
    · cases split
      exact filled
    · rcases isCell with rfl | ⟨held, rfl, isHeld⟩
      · cases split
        exact filled
      · cases split
        exact keys held rfl
  · rintro ⟨filled, fits⟩
    exact ⟨filled 1 _ rfl, fun key keyed => fits 0 key (dictionaryKey_isRowBinary isCell keyed _)⟩

/-- When every type under a `Nullable` has a placeholder, every value of a well-formed cell
is a cell of its type. -/
theorem valuesFit_of_nullsFilled {colType : ColumnType} (filled : colType.nullsFilled = true)
    {cell : Bytes} (isCell : IsRowBinary colType cell) : ValuesFit colType cell := by
  induction colType using ColumnType.induction_forms generalizing cell with
  | fixed colType width fixed => cases colType <;> first | cases fixed; done | exact trivial
  | string | json | newJson => exact trivial
  | dynamic | point | simpleAggregateFunction | variant => exact trivial
  | nullable inner ih =>
      rw [ColumnType.nullsFilled, Bool.and_eq_true] at filled
      intro flag slot split
      have isSlot : IsRowBinary inner slot := by
        rcases splitNullable_isRowBinary isCell split with rfl | isSlot
        · exact isRowBinary_default filled.1
        · exact isSlot
      exact ⟨isSlot, ih filled.2 isSlot⟩
  | lowCardinality inner ih =>
      have plain := ih filled isCell
      cases inner with
      | nullable inner =>
          exact (valuesFit_lowCardinality isCell).mpr ⟨ih filled (.inl rfl), plain⟩
      | _ => exact plain
  | array inner ih =>
      obtain ⟨count, elements, rfl, counted, areElements⟩ := isCell
      apply (valuesFit_array counted areElements).mpr
      exact fun element member => ih filled (areElements element member)
  | map keyType valType keyIh valIh =>
      rw [ColumnType.nullsFilled, Bool.and_eq_true] at filled
      obtain ⟨count, entries, rfl, counted, areEntries⟩ := isCell
      apply (valuesFit_map counted areEntries).mpr
      intro entry member
      have ⟨isKey, isValue⟩ := areEntries entry member
      exact ⟨keyIh filled.1 isKey, valIh filled.2 isValue⟩
  | tuple fields ih =>
      have each := fieldNullsFilled_iff.mp filled
      obtain ⟨cells, rfl, areCells⟩ := isCell
      apply (valuesFit_tuple areCells).mpr
      rw [areRowBinary_iff] at areCells
      have both := (List.forall₂_and_left fields cells).mpr ⟨fun _ member => member, areCells⟩
      exact both.imp fun field cell facts => ih field facts.1 (each field facts.1) facts.2

/-- Every walked type has a cell. -/
theorem exists_isRowBinary {colType : ColumnType} (walked : colType.isWalked = true) :
    ∃ cell, IsRowBinary colType cell := by
  induction colType using ColumnType.induction_forms with
  | fixed colType width fixed =>
      exact ⟨_, (isRowBinary_of_fixed fixed).mpr (List.length_replicate (n := width) (a := 0))⟩
  | string | json | newJson => exact ⟨[0], isRowBinary_zero rfl⟩
  | nullable inner => exact ⟨[1], .inl rfl⟩
  | lowCardinality inner ih => exact ih walked
  | array | map => exact ⟨[0], isRowBinary_zero rfl⟩
  | tuple fields ih =>
      have each := areWalked_iff.mp walked
      have cells : ∀ field ∈ fields, ∃ cell, IsRowBinary field cell :=
        fun field member => ih field member (each field member)
      choose! taken isTaken using cells
      exact ⟨_, fields.map taken, rfl, exists_cells isTaken⟩
  | dynamic | point | simpleAggregateFunction | variant => cases walked

/-- A field without a fitting cell spoils the cells of a record. -/
theorem exists_cells_not_fit {fields : List ColumnType} {field : ColumnType}
    (walked : ∀ field ∈ fields, ∃ cell, IsRowBinary field cell) (member : field ∈ fields)
    (spoiled : ∃ cell, IsRowBinary field cell ∧ ¬ ValuesFit field cell) :
    ∃ cells, AreRowBinary fields cells ∧ ¬ List.Forall₂ ValuesFit fields cells := by
  induction fields with
  | nil => cases member
  | cons first fields ih =>
      have others : ∀ field ∈ fields, ∃ cell, IsRowBinary field cell :=
        fun field member => walked field (List.mem_cons_of_mem first member)
      rcases List.mem_cons.mp member with rfl | later
      · obtain ⟨cell, isCell, unfit⟩ := spoiled
        choose! taken isTaken using others
        refine ⟨cell :: fields.map taken, ⟨cell, _, rfl, isCell, exists_cells isTaken⟩, ?_⟩
        intro fit
        exact unfit (List.forall₂_cons.mp fit).1
      · obtain ⟨cells, areCells, unfit⟩ := ih others later
        obtain ⟨cell, isCell⟩ := walked first List.mem_cons_self
        refine ⟨cell :: cells, ⟨cell, cells, rfl, isCell, areCells⟩, ?_⟩
        intro fit
        exact unfit (List.forall₂_cons.mp fit).2

/-- A placeholder that is no cell shows in a well-formed cell of the type. -/
theorem exists_not_valuesFit {colType : ColumnType} (walked : colType.isWalked = true)
    (unfilled : colType.nullsFilled = false) :
    ∃ cell, IsRowBinary colType cell ∧ ¬ ValuesFit colType cell := by
  have one : Reader.Reads rbReadVaruint [1] 1 := @reads_rbReadVaruint 1 (by decide)
  induction colType using ColumnType.induction_forms with
  | fixed colType width fixed => cases colType <;> first | cases fixed; done | cases unfilled
  | string | json | newJson => cases unfilled
  | dynamic | point | simpleAggregateFunction | variant => cases walked
  | nullable inner ih =>
      by_cases has : inner.hasPlaceholder = true
      · rw [ColumnType.nullsFilled, has, Bool.true_and] at unfilled
        obtain ⟨held, isHeld, unfit⟩ := ih walked unfilled
        exact ⟨0 :: held, .inr ⟨held, rfl, isHeld⟩, fun fits => unfit (fits 0 held rfl).2⟩
      · refine ⟨[1], .inl rfl, fun fits => has ?_⟩
        have isDefault : IsRowBinary inner (rbWriteDefault inner) := (fits 1 _ rfl).1
        exact (rbAdvance_default_iff inner).mp (ok_of_reads (reads_isRowBinary isDefault))
  | lowCardinality inner ih =>
      obtain ⟨cell, isCell, unfit⟩ := ih walked unfilled
      refine ⟨cell, isCell, fun fits => unfit ?_⟩
      cases inner with
      | nullable inner => exact ((valuesFit_lowCardinality isCell).mp fits).2
      | _ => exact fits
  | array inner ih =>
      obtain ⟨element, isElement, unfit⟩ := ih walked unfilled
      have isElements : ∀ other ∈ [element], IsRowBinary inner other :=
        List.forall_mem_singleton.mpr isElement
      refine ⟨_, ⟨[1], [element], rfl, one, isElements⟩, fun fits => unfit ?_⟩
      exact (valuesFit_array one isElements).mp fits element List.mem_cons_self
  | map keyType valType keyIh valIh =>
      rw [ColumnType.isWalked, Bool.and_eq_true] at walked
      have spoils {key value : Bytes} (isKey : IsRowBinary keyType key)
          (isValue : IsRowBinary valType value)
          (unfit : ¬ (ValuesFit keyType key ∧ ValuesFit valType value)) :
          ∃ cell, IsRowBinary (.map keyType valType) cell ∧
            ¬ ValuesFit (.map keyType valType) cell := by
        have isEntries : ∀ entry ∈ [(key, value)],
            IsRowBinary keyType entry.1 ∧ IsRowBinary valType entry.2 :=
          List.forall_mem_singleton.mpr ⟨isKey, isValue⟩
        refine ⟨_, ⟨[1], [(key, value)], rfl, one, isEntries⟩, fun fits => unfit ?_⟩
        exact (valuesFit_map one isEntries).mp fits (key, value) List.mem_cons_self
      rw [ColumnType.nullsFilled, Bool.and_eq_false_iff] at unfilled
      rcases unfilled with unfilled | unfilled
      · obtain ⟨key, isKey, unfit⟩ := keyIh walked.1 unfilled
        obtain ⟨value, isValue⟩ := exists_isRowBinary walked.2
        exact spoils isKey isValue fun both => unfit both.1
      · obtain ⟨key, isKey⟩ := exists_isRowBinary walked.1
        obtain ⟨value, isValue, unfit⟩ := valIh walked.2 unfilled
        exact spoils isKey isValue fun both => unfit both.2
  | tuple fields ih =>
      have each := areWalked_iff.mp walked
      have found : ∃ field ∈ fields, field.nullsFilled = false := by
        by_contra none
        push Not at none
        have filled : ColumnType.fieldNullsFilled fields = true :=
          fieldNullsFilled_iff.mpr fun field member => by simpa using none field member
        rw [ColumnType.nullsFilled, filled] at unfilled
        cases unfilled
      obtain ⟨field, member, unfilled⟩ := found
      obtain ⟨cells, areCells, unfit⟩ := exists_cells_not_fit
        (fun field member => exists_isRowBinary (each field member)) member
        (ih field member (each field member) unfilled)
      exact ⟨cells.flatten, ⟨cells, rfl, areCells⟩, fun fits =>
        unfit ((valuesFit_tuple areCells).mp fits)⟩

/-! ## Writing -/

mutual

/-- Every dictionary the encoder makes below a column of cells has fewer than 2^32
entries. -/
def DictionariesFit : ColumnType → List Bytes → Prop
  | .nullable inner, cells =>
      ∀ slots, cells.mapM (splitNullable (rbWriteDefault inner)) = .ok slots →
        DictionariesFit inner (slots.map Prod.snd)
  | .lowCardinality (.nullable inner), cells =>
      (dictionaryEntries (.nullable inner) cells).length < 2 ^ 32 ∧
        ∀ indices dictionary, (Dictionary.initial true inner).internAll
            (cells.map (dictionaryKey true)) = .ok (indices, dictionary) →
          DictionariesFit inner dictionary.dict
  | .lowCardinality inner, cells =>
      (dictionaryEntries inner cells).length < 2 ^ 32 ∧
        ∀ indices dictionary, (Dictionary.initial false inner).internAll
            (cells.map (dictionaryKey false)) = .ok (indices, dictionary) →
          DictionariesFit inner dictionary.dict
  | .array inner, cells =>
      ∀ rows, sliceCells (arrayElements inner) cells = .ok rows →
        DictionariesFit inner rows.flatten
  | .map keyType valType, cells =>
      ∀ rows, sliceCells (mapEntries keyType valType) cells = .ok rows →
        DictionariesFit keyType (rows.flatten.map Prod.fst) ∧
          DictionariesFit valType (rows.flatten.map Prod.snd)
  | .tuple fields, cells =>
      ∀ rows, sliceCells (rbCells fields) cells = .ok rows → FieldDictionariesFit fields rows
  | _, _ => True

/-- The dictionaries below the columns of tuple fields fit. -/
def FieldDictionariesFit : List ColumnType → List (List Bytes) → Prop
  | [], _ => True
  | field :: fields, rows =>
      DictionariesFit field (rows.map fun row => row.headD []) ∧
        FieldDictionariesFit fields (rows.map List.tail)

end

theorem dictionariesFit_lowCardinality (inner : ColumnType) (cells : List Bytes) :
    DictionariesFit (.lowCardinality inner) cells ↔
      (dictionaryEntries inner cells).length < 2 ^ 32 ∧
        ∀ indices dictionary,
          (Dictionary.initial (dictionaryType inner).2 (dictionaryType inner).1).internAll
            (cells.map (dictionaryKey (dictionaryType inner).2)) = .ok (indices, dictionary) →
          DictionariesFit (dictionaryType inner).1 dictionary.dict := by
  cases inner <;> exact Iff.rfl

theorem value_of_took {α : Type} {reader : ByteReader α} {cell rest : Bytes} {value : α}
    (took : reader cell = .ok (value, rest)) :
    (do
      let (result, _) ← reader cell
      return result : Except Error α) = .ok value := by
  rw [took]
  rfl

theorem sliceCells_of_taken {α : Type} {reader : ByteReader α} {fits : α → Prop}
    {cells : List Bytes}
    (each : ∀ cell ∈ cells, ∃ value rest, reader cell = .ok (value, rest) ∧ fits value) :
    ∃ values, sliceCells reader cells = .ok values ∧ ∀ value ∈ values, fits value := by
  induction cells with
  | nil => exact ⟨[], rfl, fun _ member => nomatch member⟩
  | cons cell cells ih =>
      obtain ⟨value, rest, took, fit⟩ := each cell List.mem_cons_self
      obtain ⟨values, sliced, fits⟩ := ih fun other member =>
        each other (List.mem_cons_of_mem cell member)
      refine ⟨value :: values, ?_, List.forall_mem_cons.mpr ⟨fit, fits⟩⟩
      exact Reader.mapM_ok_iff.mpr (.cons (value_of_took took) (Reader.mapM_ok_iff.mp sliced))

theorem splitNullable_of_isRowBinary {inner : ColumnType} {cells : List Bytes} (default : Bytes)
    (each : ∀ cell ∈ cells, IsRowBinary (.nullable inner) cell) :
    ∃ slots, cells.mapM (splitNullable default) = .ok slots ∧
      ∀ slot ∈ slots, ∃ cell ∈ cells, splitNullable default cell = .ok slot := by
  have split : ∀ cell ∈ cells, ∃ slot, splitNullable default cell = .ok slot := by
    intro cell member
    rcases each cell member with rfl | ⟨held, rfl, -⟩
    · exact ⟨_, rfl⟩
    · exact ⟨_, rfl⟩
  choose! slot taken using split
  refine ⟨cells.map slot, Reader.mapM_ok taken, ?_⟩
  rw [List.forall_mem_map]
  exact fun cell member => ⟨cell, member, taken cell member⟩

/-- A column of well-formed cells is written. -/
def Writes (colType : ColumnType) : Prop :=
  ∀ cells : List Bytes, (∀ cell ∈ cells, IsRowBinary colType cell) →
    DictionariesFit colType cells → ∃ out, writeColValues colType cells = .ok out

theorem writes_nullable {inner : ColumnType} (has : inner.hasPlaceholder = true)
    (writes : Writes inner) : Writes (.nullable inner) := by
  intro cells wellFormed fits
  obtain ⟨slots, mapped, split⟩ := splitNullable_of_isRowBinary (rbWriteDefault inner) wellFormed
  have slotsFormed : ∀ slot ∈ slots, IsRowBinary inner slot.2 := by
    intro slot member
    obtain ⟨cell, inside, taken⟩ := split slot member
    rcases splitNullable_isRowBinary (wellFormed cell inside) taken with isDefault | isSlot
    · exact isDefault ▸ isRowBinary_default has
    · exact isSlot
  obtain ⟨out, written⟩ := writes (slots.map Prod.snd) (List.forall_mem_map.mpr slotsFormed)
    (fits slots mapped)
  refine ⟨slots.map Prod.fst ++ out, ?_⟩
  rw [writeColValues, mapped]
  simp only [bind, Except.bind, written]
  rfl

/-- What a nullable column writes for rows that are not NULL is the column of their values. -/
theorem writes_of_nullable {inner : ColumnType} (writes : Writes (.nullable inner)) :
    Writes inner := by
  intro cells wellFormed fits
  have mapped : (cells.map (List.cons 0)).mapM (splitNullable (rbWriteDefault inner)) =
      .ok (cells.map fun cell => (0, cell)) := by
    rw [List.mapM_map]
    exact Reader.mapM_ok fun cell _ => rfl
  have values : (cells.map fun cell => ((0 : UInt8), cell)).map Prod.snd = cells := by
    rw [List.map_map]
    exact List.map_id cells
  obtain ⟨out, written⟩ := writes (cells.map (List.cons 0))
    (List.forall_mem_map.mpr fun cell member => .inr ⟨cell, rfl, wellFormed cell member⟩)
    (fun slots taken => by
      cases mapped.symm.trans taken
      rwa [values])
  rw [writeColValues, Reader.ok_bind_iff] at written
  obtain ⟨slots, taken, written⟩ := written
  cases mapped.symm.trans taken
  rw [Reader.ok_bind_iff, values] at written
  obtain ⟨payload, written, -⟩ := written
  exact ⟨payload, written⟩

/-- The keys of well-formed dictionary cells are cells of the dictionary's type. -/
theorem isRowBinary_dictionaryKey {inner : ColumnType} {cell key : Bytes}
    (wellFormed : IsRowBinary inner cell)
    (keyed : dictionaryKey (dictionaryType inner).2 cell = some key) :
    IsRowBinary (dictionaryType inner).1 key := by
  rcases dictionaryType_cases inner with ⟨type, rfl, split⟩ | split
  · rw [split] at keyed ⊢
    rcases wellFormed with rfl | ⟨held, rfl, isHeld⟩
    · cases keyed
    · cases keyed
      exact isHeld
  · rw [split] at keyed ⊢
    cases keyed
    exact wellFormed

theorem isRowBinary_initial {inner : ColumnType} (filled : inner.nullsFilled = true)
    {entry : Bytes}
    (member : entry ∈
      (Dictionary.initial (dictionaryType inner).2 (dictionaryType inner).1).dict) :
    IsRowBinary (dictionaryType inner).1 entry := by
  rcases dictionaryType_cases inner with ⟨type, rfl, split⟩ | split
  · rw [split] at member ⊢
    rw [ColumnType.nullsFilled, Bool.and_eq_true] at filled
    rw [List.mem_singleton.mp member]
    exact isRowBinary_default filled.1
  · rw [split] at member
    cases member

theorem writes_lowCardinality {inner : ColumnType} (filled : inner.nullsFilled = true)
    (writes : Writes (dictionaryType inner).1) : Writes (.lowCardinality inner) := by
  intro cells wellFormed fits
  have ⟨few, entriesFit⟩ := (dictionariesFit_lowCardinality inner cells).mp fits
  obtain ⟨indices, dictionary, interned, -, -, -, added⟩ :=
    Dictionary.internAll_spec (Dictionary.consistent_initial _ _) few
  have entriesFormed : ∀ entry ∈ dictionary.dict, IsRowBinary (dictionaryType inner).1 entry := by
    intro entry member
    rcases List.mem_append.mp (added entry member) with initial | keyed
    · exact isRowBinary_initial filled initial
    · rw [List.reduceOption_mem_iff] at keyed
      obtain ⟨cell, inside, keyed⟩ := List.mem_map.mp keyed
      exact isRowBinary_dictionaryKey (wellFormed cell inside) keyed
  obtain ⟨entries, written⟩ := writes dictionary.dict entriesFormed
    (entriesFit indices dictionary interned)
  rw [writeColValues_lowCardinality, writeDictionary, interned]
  simp only [bind, Except.bind, written]
  exact ⟨_, rfl⟩

theorem writes_fields {fields : List ColumnType} (each : ∀ field ∈ fields, Writes field)
    {rows : List (List Bytes)} (wellFormed : ∀ row ∈ rows, AreRowBinary fields row)
    (fits : FieldDictionariesFit fields rows) : ∃ out, writeFieldValues fields rows = .ok out := by
  induction fields generalizing rows with
  | nil => exact ⟨[], rfl⟩
  | cons field fields ih =>
      have heads : ∀ cell ∈ rows.map fun row => row.headD [], IsRowBinary field cell := by
        rw [List.forall_mem_map]
        intro row member
        obtain ⟨cell, rest, rfl, isHead, -⟩ := wellFormed row member
        exact isHead
      have tails : ∀ row ∈ rows.map List.tail, AreRowBinary fields row := by
        rw [List.forall_mem_map]
        intro row member
        obtain ⟨cell, rest, rfl, -, areRest⟩ := wellFormed row member
        exact areRest
      obtain ⟨column, first⟩ := each field List.mem_cons_self _ heads fits.1
      obtain ⟨columns, others⟩ := ih (fun other member =>
        each other (List.mem_cons_of_mem field member)) tails fits.2
      rw [writeFieldValues, first]
      simp only [bind, Except.bind, others]
      exact ⟨_, rfl⟩

/-- A column of a walked type in which every null is filled is written. -/
theorem writes {colType : ColumnType} (walked : colType.isWalked = true)
    (filled : colType.nullsFilled = true) : Writes colType := by
  induction colType using ColumnType.induction_forms with
  | fixed colType width fixed =>
      exact fun cells _ _ => ⟨_, writeColValues_of_fixed fixed cells⟩
  | string | json | newJson => exact fun cells _ _ => ⟨cells.flatten, rfl⟩
  | dynamic | point | simpleAggregateFunction | variant => cases walked
  | nullable inner ih =>
      rw [ColumnType.nullsFilled, Bool.and_eq_true] at filled
      exact writes_nullable filled.1 (ih walked filled.2)
  | lowCardinality inner ih =>
      have plain := ih walked filled
      apply @writes_lowCardinality inner filled
      rcases dictionaryType_cases inner with ⟨type, rfl, split⟩ | split
      · exact writes_of_nullable plain
      · rwa [split]
  | array inner ih =>
      intro cells wellFormed fits
      have taken : ∀ cell ∈ cells, ∃ elements rest,
          arrayElements inner cell = .ok (elements, rest) ∧
            ∀ element ∈ elements, IsRowBinary inner element := by
        intro cell member
        obtain ⟨count, elements, rfl, counted, areElements⟩ := wellFormed cell member
        exact ⟨elements, [], ok_of_reads (reads_elements counted areElements), areElements⟩
      obtain ⟨rows, sliced, rowsFormed⟩ := sliceCells_of_taken taken
      obtain ⟨out, written⟩ := ih walked filled rows.flatten
        (List.forall_mem_flatten.mpr rowsFormed) (fits rows sliced)
      rw [writeColValues, sliced]
      simp only [bind, Except.bind, written]
      exact ⟨_, rfl⟩
  | map keyType valType keyIh valIh =>
      rw [ColumnType.isWalked, Bool.and_eq_true] at walked
      rw [ColumnType.nullsFilled, Bool.and_eq_true] at filled
      intro cells wellFormed fits
      have taken : ∀ cell ∈ cells, ∃ entries rest,
          mapEntries keyType valType cell = .ok (entries, rest) ∧
            ∀ entry ∈ entries, IsRowBinary keyType entry.1 ∧ IsRowBinary valType entry.2 := by
        intro cell member
        obtain ⟨count, entries, rfl, counted, areEntries⟩ := wellFormed cell member
        exact ⟨entries, [], ok_of_reads (reads_entries counted areEntries), areEntries⟩
      obtain ⟨rows, sliced, rowsFormed⟩ := sliceCells_of_taken taken
      have entriesFormed := List.forall_mem_flatten.mpr rowsFormed
      obtain ⟨keysFit, valuesFit⟩ := fits rows sliced
      obtain ⟨keys, keysWritten⟩ := keyIh walked.1 filled.1 (rows.flatten.map Prod.fst)
        (List.forall_mem_map.mpr fun entry member => (entriesFormed entry member).1) keysFit
      obtain ⟨values, valuesWritten⟩ := valIh walked.2 filled.2 (rows.flatten.map Prod.snd)
        (List.forall_mem_map.mpr fun entry member => (entriesFormed entry member).2) valuesFit
      rw [writeColValues, sliced]
      simp only [bind, Except.bind, keysWritten, valuesWritten]
      exact ⟨_, rfl⟩
  | tuple fields ih =>
      have eachWalked := areWalked_iff.mp walked
      have eachFilled := fieldNullsFilled_iff.mp filled
      intro cells wellFormed fits
      have taken : ∀ cell ∈ cells, ∃ row rest,
          rbCells fields cell = .ok (row, rest) ∧ AreRowBinary fields row := by
        intro cell member
        obtain ⟨row, rfl, areCells⟩ := wellFormed cell member
        exact ⟨row, [], ok_of_reads (reads_fields (areRowBinary_iff.mp areCells)), areCells⟩
      obtain ⟨rows, sliced, rowsFormed⟩ := sliceCells_of_taken taken
      obtain ⟨out, written⟩ := writes_fields (fun field member =>
        ih field member (eachWalked field member) (eachFilled field member)) rowsFormed
        (fits rows sliced)
      rw [writeColValues, sliced]
      exact ⟨out, written⟩

/-! ## Rows of a nullable column -/

/-- The cell of a row. -/
def cellOfRow : Option Bytes → Bytes
  | none => [1]
  | some cell => 0 :: cell

/-- The null flag of a row. -/
def nullFlag : Option Bytes → UInt8
  | none => 1
  | some _ => 0

/-- The value slot of a row, with the placeholder for NULL. -/
def valueSlot (inner : ColumnType) : Option Bytes → Bytes
  | none => rbWriteDefault inner
  | some cell => cell

/-- The slot of every row is a value, which holds values at any depth; and the column is
written as the flags of its rows and the column of their slots. -/
structure Aligned (inner : ColumnType) (rows : List (Option Bytes)) : Prop where
  slots : ∀ row ∈ rows,
    IsRowBinary inner (valueSlot inner row) ∧ ValuesFit inner (valueSlot inner row)
  written : DictionariesFit inner (rows.map (valueSlot inner)) →
    ∃ payload, writeColValues inner (rows.map (valueSlot inner)) = .ok payload ∧
      writeColValues (.nullable inner) (rows.map cellOfRow) =
        .ok (rows.map nullFlag ++ payload)

theorem writeColValues_nullable {inner : ColumnType} {rows : List (Option Bytes)}
    {payload : Bytes} (written : writeColValues inner (rows.map (valueSlot inner)) = .ok payload) :
    writeColValues (.nullable inner) (rows.map cellOfRow) =
      .ok (rows.map nullFlag ++ payload) := by
  have mapped : (rows.map cellOfRow).mapM (splitNullable (rbWriteDefault inner)) =
      .ok (rows.map fun row => (nullFlag row, valueSlot inner row)) := by
    rw [List.mapM_map]
    apply Reader.mapM_ok
    intro row _
    cases row <;> rfl
  rw [writeColValues, mapped]
  simp only [bind, Except.bind, List.map_map]
  rw [show Prod.snd ∘ (fun row => (nullFlag row, valueSlot inner row)) = valueSlot inner from rfl,
    written]
  rfl

/-- The placeholder of a type is one cell of it, and all rows of its nullable column are
aligned, exactly when the type has a placeholder and so has every type under a `Nullable`
in it. -/
theorem placeholder_aligned_iff {inner : ColumnType} (walked : inner.isWalked = true) :
    (rbAdvance inner (rbWriteDefault inner) = .ok ((), []) ∧
      ∀ rows : List (Option Bytes), (∀ cell, some cell ∈ rows → IsRowBinary inner cell) →
        Aligned inner rows) ↔
    inner.hasPlaceholder = true ∧ inner.nullsFilled = true := by
  rw [rbAdvance_default_iff]
  apply and_congr_right
  intro has
  constructor
  · intro aligned
    by_contra unfilled
    obtain ⟨cell, isCell, unfit⟩ := exists_not_valuesFit walked (by simpa using unfilled)
    have present : ∀ other, some other ∈ [some cell] → IsRowBinary inner other := by
      intro other member
      cases List.mem_singleton.mp member
      exact isCell
    exact unfit ((aligned [some cell] present).slots (some cell) List.mem_cons_self).2
  · intro filled rows present
    have slots : ∀ row ∈ rows, IsRowBinary inner (valueSlot inner row) := by
      intro row member
      cases row with
      | none => exact isRowBinary_default has
      | some cell => exact present cell member
    refine ⟨fun row member => ⟨slots row member, ?_⟩, fun fits => ?_⟩
    · exact valuesFit_of_nullsFilled filled (slots row member)
    · obtain ⟨payload, written⟩ := writes walked filled _ (List.forall_mem_map.mpr slots) fits
      exact ⟨payload, written, writeColValues_nullable written⟩

theorem placeholder_aligned_array :
    (rbAdvance (.array (.nullable .string)) (rbWriteDefault (.array (.nullable .string))) =
        .ok ((), []) ∧
      ∀ rows : List (Option Bytes),
        (∀ cell, some cell ∈ rows → IsRowBinary (.array (.nullable .string)) cell) →
          Aligned (.array (.nullable .string)) rows) ↔
    (ColumnType.array (.nullable .string)).hasPlaceholder = true ∧
      (ColumnType.array (.nullable .string)).nullsFilled = true :=
  placeholder_aligned_iff rfl

/-- The placeholder of a record of one `UInt32` is shorter than its cell, and the column of
a NULL and a record is refused. -/
theorem placeholder_record_truncated :
    (ColumnType.tuple [.uInt32]).isWalked = true ∧
      rbAdvance (.tuple [.uInt32]) (rbWriteDefault (.tuple [.uInt32])) = .error rbTruncated ∧
      IsRowBinary (.tuple [.uInt32]) [7, 0, 0, 0] ∧
      writeColValues (.nullable (.tuple [.uInt32])) [[1], [0, 7, 0, 0, 0]] =
        .error rbTruncated :=
  ⟨rfl, rfl, ⟨[[7, 0, 0, 0]], rfl, _, [], rfl, rfl, rfl⟩, rfl⟩

end DfeClickhouse.Native
