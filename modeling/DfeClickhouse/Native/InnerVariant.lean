import DfeClickhouse.Library.Postcondition
import DfeClickhouse.Library.TokenRun
import DfeClickhouse.Native.ColumnRoundTrip
import DfeClickhouse.Native.Decode
import DfeClickhouse.Native.Discriminated

/-!
# The inner Variant of a Dynamic column

The values of a `Dynamic` column are those of a `Variant` of its declared types and the
spill type.  The prefix rule of `Variant` has every element type add its own prefix;
the prefix of `Dynamic` stops after the discriminator mode.  The two agree exactly when
no element type has a prefix of its own and none needs the nesting level that the body
of `Dynamic` starts further down.
-/

namespace DfeClickhouse.Native

open Library

/-! ## Columns inside a column -/

namespace ColumnType

/-- The types of the columns that are read inside a column of a type.  The null flag of a
dictionary's entries is not a column. -/
def subcolumns : ColumnType → List ColumnType
  | nullable inner | simpleAggregateFunction inner | array inner => [inner]
  | lowCardinality inner => [(dictionaryType inner).1]
  | tuple types | variant types => types
  | map key value => [key, value]
  | _ => []

/-- The arms a discriminated type declares itself. -/
def armCount : ColumnType → Nat
  | variant types => types.length
  | _ => 0

/-- Whether the cell reader gets through a column of a type with `levels` nesting levels
left: it refuses deeper types, and variants with too many arms. -/
def readableWithin : Nat → ColumnType → Bool
  | 0, _ => false
  | levels + 1, columnType =>
      columnType.armCount ≤ maxVariantTypes && columnType.subcolumns.all (readableWithin levels)

theorem readableWithin_succ_iff {levels : Nat} {columnType : ColumnType} :
    readableWithin (levels + 1) columnType = true ↔ columnType.armCount ≤ maxVariantTypes ∧
      ∀ child ∈ columnType.subcolumns, readableWithin levels child = true := by
  rw [readableWithin, Bool.and_eq_true, decide_eq_true_eq, List.all_eq_true]

mutual

/-- Whether a type has no `Dynamic` and no `JSON` anywhere. -/
def isStatic : ColumnType → Bool
  | dynamic | newJson => false
  | nullable inner | lowCardinality inner | simpleAggregateFunction inner | array inner =>
      inner.isStatic
  | tuple types | variant types => areStatic types
  | map key value => key.isStatic && value.isStatic
  | _ => true

/-- Whether no type of a list has a `Dynamic` or a `JSON`. -/
def areStatic : List ColumnType → Bool
  | [] => true
  | head :: tail => head.isStatic && areStatic tail

end

mutual

/-- How many 8-byte words the serialisation prefix of a static type takes. -/
def prefixWords : ColumnType → Nat
  | lowCardinality _ => 1
  | variant types => 1 + prefixWordsEach types
  | nullable inner | simpleAggregateFunction inner | array inner => inner.prefixWords
  | tuple types => prefixWordsEach types
  | map key value => key.prefixWords + value.prefixWords
  | _ => 0

/-- The prefix words of a list of types. -/
def prefixWordsEach : List ColumnType → Nat
  | [] => 0
  | head :: tail => head.prefixWords + prefixWordsEach tail

end

mutual

/-- How many bytes a row takes in a column that consists of zero bytes: strings and
arrays are empty there, and variants select their first arm.  A dictionary does not
read from zero bytes at all. -/
def zeroRowBytes : ColumnType → Nat
  | string | json => 1
  | point => 16
  | nullable inner => 1 + inner.zeroRowBytes
  | simpleAggregateFunction inner => inner.zeroRowBytes
  | array _ | map .. => 8
  | tuple types => zeroRowBytesEach types
  | variant types => 1 + zeroRowBytesFirst types
  | columnType => columnType.fixedSize.getD 0

/-- The zero bytes of a row of tuple fields. -/
def zeroRowBytesEach : List ColumnType → Nat
  | [] => 0
  | head :: tail => head.zeroRowBytes + zeroRowBytesEach tail

/-- The zero bytes of a row of the first arm. -/
def zeroRowBytesFirst : List ColumnType → Nat
  | [] => 0
  | first :: _ => first.zeroRowBytes

end

@[simp] theorem areStatic_iff {types : List ColumnType} :
    areStatic types = true ↔ ∀ type ∈ types, type.isStatic = true := by
  induction types with
  | nil => simp [areStatic]
  | cons head tail ih => simp [areStatic, ih]

@[simp] theorem prefixWordsEach_eq_sum (types : List ColumnType) :
    prefixWordsEach types = (types.map prefixWords).sum := by
  induction types with
  | nil => rfl
  | cons head tail ih => rw [prefixWordsEach, ih, List.map_cons, List.sum_cons]

theorem isStatic_of_mem_subcolumns {columnType child : ColumnType}
    (fixed : columnType.isStatic = true) (member : child ∈ columnType.subcolumns) :
    child.isStatic = true := by
  cases columnType with
  | nullable inner | simpleAggregateFunction inner | array inner =>
      rw [List.mem_singleton.mp member]
      exact fixed
  | lowCardinality inner =>
      rw [List.mem_singleton.mp member]
      rcases dictionaryType_cases inner with ⟨type, rfl, split⟩ | same
      · rw [split]
        exact fixed
      · rw [same]
        exact fixed
  | tuple types | variant types => exact areStatic_iff.mp fixed child member
  | map key value =>
      simp only [isStatic, Bool.and_eq_true] at fixed
      simp only [subcolumns, List.mem_cons, List.not_mem_nil, or_false] at member
      rcases member with rfl | rfl
      · exact fixed.1
      · exact fixed.2
  | _ => cases member

end ColumnType

/-! ## Columns of zero bytes -/

/-- The reader takes a fixed number of zero bytes for each row of a column of the type,
unless it fails. -/
def ReadsZeros (nested : ColumnReader) (colType : ColumnType) : Prop :=
  ∀ count, Reader.OnRun (0 : UInt8) 8 (nested colType count) (count * colType.zeroRowBytes)
    fun _ => True

section Zeros

variable {nested : ColumnReader}

theorem onRun_readU64Le : Reader.OnRun (0 : UInt8) 8 readU64Le 8 (· = 0) := by
  have word : Reader.Reads readU64Le (natLe 8 0) 0 := reads_readU64Le (by decide)
  exact .of_reads word

/-- A reader that refuses a first word of zero. -/
theorem onRun_of_zeroWord {α : Type} {next : Nat → ByteReader α} {used : Nat} {post : α → Prop}
    (refuses : ∀ input, ∃ error, next 0 input = .error error) :
    Reader.OnRun (0 : UInt8) 8 (readU64Le >>= next) used post := by
  apply Reader.OnRun.of_fails
  intro more tail enough
  have word : Reader.Reads readU64Le (natLe 8 0) 0 := reads_readU64Le (by decide)
  obtain ⟨left, rfl⟩ := Nat.exists_eq_add_of_le enough
  rw [List.replicate_add, List.append_assoc]
  change ∃ error, (readU64Le >>= next) (natLe 8 0 ++ _) = _
  rw [Reader.bind_of_ok (word _)]
  exact refuses _

theorem onRun_readFixedColumn (count width : Nat) :
    Reader.OnRun (0 : UInt8) 8 (readFixedColumn count width) (count * width) fun _ => True :=
  ((Reader.OnRun.take _ width).times count).mono fun _ _ => trivial

theorem onRun_readStringColumn (count : Nat) :
    Reader.OnRun (0 : UInt8) 8 (readStringColumn count) (count * 1) fun _ => True := by
  have empty : Reader.Reads readString (putString []) [] := reads_readString (by decide)
  have one : Reader.OnRun (0 : UInt8) 8 (do
      let bytes ← readString
      pure (rowbinaryString bytes)) 1 (· = rowbinaryString []) := .of_reads empty.bind_pure
  exact (one.times count).mono fun _ _ => trivial

theorem onRun_readByteDiscriminators (count : Nat) :
    Reader.OnRun (0 : UInt8) 8 (readByteDiscriminators count) count
      (· = List.replicate count 0) := by
  apply (Reader.OnRun.take _ count).bind_idle
  intro bytes zeros
  apply (Reader.OnRun.pure _).mono
  intro discriminators same
  rw [same, zeros, List.map_replicate]
  rfl

/-- The last of offsets that are all zero. -/
theorem onRun_readOffsets (count : Nat) :
    Reader.OnRun (0 : UInt8) 8 (readOffsets count) (count * 8)
      fun offsets => offsets.getLast?.getD 0 = 0 := by
  apply (onRun_readU64Le.times count).mono
  intro offsets ⟨_, zeros⟩
  cases last : offsets.getLast? with
  | none => rfl
  | some offset => exact zeros offset (List.mem_of_getLast? last)

theorem onRun_readTupleFields {fields : List ColumnType}
    (zeros : ∀ field ∈ fields, ReadsZeros nested field) (count : Nat) (rows : ColumnData) :
    Reader.OnRun (0 : UInt8) 8 (readTupleFields nested count fields rows)
      (count * ColumnType.zeroRowBytesEach fields) fun _ => True := by
  induction fields generalizing rows with
  | nil => exact (Reader.OnRun.pure rows).mono fun _ _ => trivial
  | cons field fields ih =>
      rw [ColumnType.zeroRowBytesEach, Nat.mul_add]
      apply (zeros field (by simp) count).bind
      intro cells _
      exact ih (fun other member => zeros other (by simp [member])) _

/-- All rows select the first arm. -/
theorem onRun_readArms {types : List ColumnType}
    (zeros : ∀ type ∈ types, ReadsZeros nested type) (count : Nat) :
    Reader.OnRun (0 : UInt8) 8 (readArms nested types (List.replicate count 0))
      (count * ColumnType.zeroRowBytesFirst types) fun _ => True := by
  have run : Reader.OnRun (0 : UInt8) 8 (readArms nested types (List.replicate count 0))
      ((types.zipIdx.map fun arm =>
        (List.replicate count 0).count arm.2 * arm.1.zeroRowBytes).sum) fun _ => True := by
    apply Reader.OnRun.each
    intro arm member
    exact zeros arm.1 (List.fst_mem_of_mem_zipIdx member) _
  have total : (types.zipIdx.map fun arm =>
      (List.replicate count 0).count arm.2 * arm.1.zeroRowBytes).sum =
        count * ColumnType.zeroRowBytesFirst types := by
    cases types with
    | nil => rfl
    | cons first types =>
        have others : ∀ width ∈ (types.zipIdx 1).map fun arm =>
            (List.replicate count 0).count arm.2 * arm.1.zeroRowBytes, width = 0 := by
          intro width member
          obtain ⟨arm, held, rfl⟩ := List.mem_map.mp member
          have later := List.le_snd_of_mem_zipIdx held
          rw [List.count_replicate, if_neg (by simp; omega), Nat.zero_mul]
        rw [List.zipIdx_cons, List.map_cons, List.sum_cons,
          List.sum_eq_zero_iff_forall_eq_nat.mpr others,
          List.count_replicate_self, ColumnType.zeroRowBytesFirst, Nat.add_zero]
  rwa [total] at run

theorem readsZeros_step {colType : ColumnType}
    (zeros : ∀ child ∈ colType.subcolumns, ReadsZeros nested child) :
    ReadsZeros (readColumnStep nested) colType := by
  intro count
  cases colType with
  | string | json => exact onRun_readStringColumn count
  | point =>
      change Reader.OnRun _ _ _ (count * (8 + 8)) _
      rw [Nat.mul_add]
      apply (onRun_readFixedColumn count 8).bind
      intro xColumn _
      apply (onRun_readFixedColumn count 8).bind_idle
      intro yColumn _
      exact (Reader.OnRun.pure _).mono fun _ _ => trivial
  | nullable inner =>
      rw [ColumnType.zeroRowBytes, Nat.mul_add, Nat.mul_one]
      apply (Reader.OnRun.take _ count).bind
      intro nullFlags _
      apply (zeros inner (by simp [ColumnType.subcolumns]) count).bind_idle
      intro cells _
      exact (Reader.OnRun.pure _).mono fun _ _ => trivial
  | lowCardinality inner => exact onRun_of_zeroWord fun input => ⟨_, rfl⟩
  | newJson => exact onRun_of_zeroWord fun input => ⟨_, rfl⟩
  | dynamic => exact onRun_of_zeroWord fun input => ⟨_, rfl⟩
  | simpleAggregateFunction inner => exact zeros inner (by simp [ColumnType.subcolumns]) count
  | array inner =>
      have empty := zeros inner (by simp [ColumnType.subcolumns]) 0
      rw [Nat.zero_mul] at empty
      apply (onRun_readOffsets count).bind_idle
      intro offsets total
      rw [total]
      exact empty.bind_idle fun _ _ => Reader.OnRun.ofExcept _
  | map key value =>
      have keys := zeros key (by simp [ColumnType.subcolumns]) 0
      have values := zeros value (by simp [ColumnType.subcolumns]) 0
      rw [Nat.zero_mul] at keys values
      apply (onRun_readOffsets count).bind_idle
      intro offsets total
      rw [total]
      exact keys.bind_idle fun _ _ => values.bind_idle fun _ _ => Reader.OnRun.ofExcept _
  | tuple fields => exact onRun_readTupleFields zeros count _
  | variant types =>
      rw [ColumnType.zeroRowBytes, Nat.mul_add, Nat.mul_one]
      apply Reader.OnRun.require_bind
      apply (onRun_readByteDiscriminators count).bind
      intro discriminators same
      rw [same]
      apply (onRun_readArms zeros count).bind_idle
      intro values _
      exact (Reader.OnRun.pure _).mono fun _ _ => trivial
  | _ => exact onRun_readFixedColumn count _

theorem readsZeros_readColumnLevels (levels : Nat) (colType : ColumnType) :
    ReadsZeros (readColumnLevels levels) colType := by
  induction levels generalizing colType with
  | zero => exact fun count => Reader.OnRun.fail _
  | succ levels ih =>
      intro count
      rw [readColumnLevels]
      split
      · rename_i outermost
        rw [outermost.2, Nat.zero_mul]
        exact (Reader.OnRun.pure []).mono fun _ _ => trivial
      · exact readsZeros_step (fun child _ => ih child) count

end Zeros

/-! ## Readable types -/

section Readable

variable {nested : ColumnReader} {known : ColumnType → Prop}

theorem yields_readTupleFields_known
    (reveals : ∀ colType count, Reader.Yields (nested colType count) fun _ => known colType)
    (count : Nat) (fields : List ColumnType) (rows : ColumnData) :
    Reader.Yields (readTupleFields nested count fields rows) fun _ =>
      ∀ field ∈ fields, known field := by
  induction fields generalizing rows with
  | nil => exact Reader.Yields.pure (by simp)
  | cons field fields ih =>
      refine (reveals field count).bind fun cells holds => ?_
      exact (ih _).mono fun _ others => List.forall_mem_cons.mpr ⟨holds, others⟩

theorem yields_readArms_known
    (reveals : ∀ colType count, Reader.Yields (nested colType count) fun _ => known colType)
    (types : List ColumnType) (discriminators : List Nat) :
    Reader.Yields (readArms nested types discriminators) fun _ => ∀ type ∈ types, known type := by
  have each : Reader.Yields (readArms nested types discriminators)
      (List.Forall₂ (fun arm _ => known arm.1) types.zipIdx) :=
    Reader.Yields.each fun arm _ => reveals arm.1 _
  refine each.mono fun values all type member => ?_
  obtain ⟨position, held⟩ := List.getElem?_of_mem member
  have arm : (type, position) ∈ types.zipIdx := List.mk_mem_zipIdx_iff_getElem?.mpr held
  obtain ⟨_, _, holds⟩ := Reader.exists_left_of_mem all.flip arm
  exact holds

/-- A column is read only where all columns inside are. -/
theorem yields_readColumnStep_known
    (reveals : ∀ colType count, Reader.Yields (nested colType count) fun _ => known colType)
    (colType : ColumnType) (count : Nat) :
    Reader.Yields (readColumnStep nested colType count) fun _ =>
      colType.armCount ≤ maxVariantTypes ∧ ∀ child ∈ colType.subcolumns, known child := by
  have single : ∀ {child : ColumnType}, known child → 0 ≤ maxVariantTypes ∧
      ∀ other ∈ [child], known other := by
    intro child holds
    exact ⟨Nat.zero_le _, by simpa using holds⟩
  cases colType with
  | nullable inner =>
      refine Reader.Yields.after fun nullFlags => ?_
      refine (reveals inner count).bind fun cells holds => ?_
      exact Reader.Yields.pure (single holds)
  | lowCardinality inner =>
      refine Reader.Yields.after fun state => ?_
      refine Reader.Yields.after fun _ => ?_
      refine Reader.Yields.after fun _ => ?_
      refine Reader.Yields.after fun size => ?_
      refine (reveals (dictionaryType inner).1 size).bind fun dict holds => ?_
      exact (Reader.Yields.trivial _).mono fun _ _ => single holds
  | simpleAggregateFunction inner => exact (reveals inner count).mono fun _ holds => single holds
  | array inner =>
      refine Reader.Yields.after fun offsets => ?_
      refine (reveals inner _).bind fun cells holds => ?_
      exact (Reader.Yields.trivial _).mono fun _ _ => single holds
  | map key value =>
      refine Reader.Yields.after fun offsets => ?_
      refine (reveals key _).bind fun keys keyHolds => ?_
      refine (reveals value _).bind fun values valueHolds => ?_
      refine (Reader.Yields.trivial _).mono fun _ _ => ?_
      exact ⟨Nat.zero_le _, by simpa [ColumnType.subcolumns] using And.intro keyHolds valueHolds⟩
  | tuple fields =>
      exact (yields_readTupleFields_known reveals count fields _).mono
        fun _ holds => ⟨Nat.zero_le _, holds⟩
  | variant types =>
      refine (Reader.Yields.require _).bind fun _ few => ?_
      refine Reader.Yields.after fun discriminators => ?_
      refine (yields_readArms_known reveals types discriminators).bind fun values holds => ?_
      exact Reader.Yields.pure ⟨few, holds⟩
  | _ => exact (Reader.Yields.trivial _).mono fun _ _ =>
    ⟨Nat.zero_le _, by simp [ColumnType.subcolumns]⟩

/-- Only readable types are read. -/
theorem yields_readColumnLevels_readable {levels : Nat} (inner : levels ≤ maxReadDepth)
    (colType : ColumnType) (count : Nat) :
    Reader.Yields (readColumnLevels levels colType count) fun _ =>
      colType.readableWithin levels = true := by
  induction levels generalizing colType count with
  | zero => exact Reader.Yields.fail _ _
  | succ levels ih =>
      rw [readColumnLevels_succ inner]
      exact (yields_readColumnStep_known (ih (Nat.le_of_succ_le inner)) colType count).mono
        fun _ holds => ColumnType.readableWithin_succ_iff.mpr holds

/-- The types among which a reader reads columns without rows. -/
def ReadsNoRows (nested : ColumnReader) (colType : ColumnType) : Prop :=
  ∃ used cells, Reader.Reads (nested colType 0) used cells

theorem reads_readTupleFields_noRows {fields : List ColumnType}
    (empty : ∀ field ∈ fields, ReadsNoRows nested field) (rows : ColumnData) :
    ∃ used cells, Reader.Reads (readTupleFields nested 0 fields rows) used cells := by
  induction fields generalizing rows with
  | nil => exact ⟨[], rows, Reader.Reads.pure rows⟩
  | cons field fields ih =>
      obtain ⟨used, cells, reads⟩ := empty field (by simp)
      obtain ⟨others, result, readsOthers⟩ :=
        ih (fun other member => empty other (by simp [member])) (appendCells rows cells)
      exact ⟨used ++ others, result, reads.bind readsOthers⟩

theorem reads_each_noRows {discriminators : List Nat} {arms : List (ColumnType × Nat)}
    (empty : ∀ arm ∈ arms, ReadsNoRows nested arm.1)
    (unselected : ∀ arm ∈ arms, discriminators.count arm.2 = 0) :
    ∃ used values, Reader.Reads
      (Reader.each (fun arm => nested arm.1 (discriminators.count arm.2)) arms) used values := by
  induction arms with
  | nil => exact ⟨[], [], Reader.Reads.pure []⟩
  | cons arm arms ih =>
      obtain ⟨used, cells, reads⟩ := empty arm (by simp)
      obtain ⟨others, values, readsOthers⟩ :=
        ih (fun other member => empty other (by simp [member]))
        fun other member => unselected other (by simp [member])
      rw [← unselected arm (by simp)] at reads
      exact ⟨used ++ others, cells :: values, reads.bind readsOthers.bind_pure⟩

/-- Arms no row selects. -/
theorem reads_readArms_noRows {types : List ColumnType} {discriminators : List Nat}
    (empty : ∀ type ∈ types, ReadsNoRows nested type)
    (unselected : ∀ position < types.length, discriminators.count position = 0) :
    ∃ used values, Reader.Reads (readArms nested types discriminators) used values := by
  apply reads_each_noRows
  · intro arm member
    exact empty arm.1 (List.fst_mem_of_mem_zipIdx member)
  · intro arm member
    exact unselected arm.2 (by simpa using List.snd_lt_of_mem_zipIdx member)

theorem readsNoRows_step {colType : ColumnType} (fixed : colType.isStatic = true)
    (few : colType.armCount ≤ maxVariantTypes)
    (empty : ∀ child ∈ colType.subcolumns, ReadsNoRows nested child) :
    ReadsNoRows (readColumnStep nested) colType := by
  cases colType with
  | newJson | dynamic => cases fixed
  | nullable inner =>
      obtain ⟨used, cells, reads⟩ := empty inner (by simp [ColumnType.subcolumns])
      have nullFlags : Reader.Reads (readExact 0) [] [] := reads_readExact rfl
      exact ⟨[] ++ used, [].zipWith nullableCell cells, nullFlags.bind reads.bind_pure⟩
  | lowCardinality inner =>
      obtain ⟨used, dict, reads⟩ := empty (dictionaryType inner).1 (by simp [ColumnType.subcolumns])
      refine ⟨natLe 8 512 ++ (natLe 8 0 ++ (used ++ (natLe 8 0 ++ []))), [], ?_⟩
      apply (reads_readU64Le (by decide)).bind
      apply Reader.Reads.require_bind (by decide)
      apply Reader.Reads.require_bind (by decide)
      apply (reads_readU64Le (by decide)).bind
      apply reads.bind
      apply (reads_readU64Le (by decide)).bind
      apply Reader.Reads.require_bind rfl
      exact Reader.Reads.pure []
  | simpleAggregateFunction inner => exact empty inner (by simp [ColumnType.subcolumns])
  | array inner =>
      obtain ⟨used, cells, reads⟩ := empty inner (by simp [ColumnType.subcolumns])
      refine ⟨[] ++ used, [], ?_⟩
      apply (Reader.Reads.pure []).bind
      exact @Reader.Reads.bind_ofExcept _ _ _ _ (nested inner 0)
        (fun cells => spanRows "Array" cells 0 []) _ _ _ reads rfl
  | map key value =>
      obtain ⟨used, keys, reads⟩ := empty key (by simp [ColumnType.subcolumns])
      obtain ⟨used', values, reads'⟩ := empty value (by simp [ColumnType.subcolumns])
      refine ⟨[] ++ (used ++ used'), [], ?_⟩
      apply (Reader.Reads.pure []).bind
      apply reads.bind
      exact @Reader.Reads.bind_ofExcept _ _ _ _ (nested value 0)
        (fun values => spanRows "Map" (keys.zipWith (· ++ ·) values) 0 []) _ _ _ reads' rfl
  | tuple fields => exact reads_readTupleFields_noRows empty _
  | variant types =>
      obtain ⟨used, values, reads⟩ := @reads_readArms_noRows nested types [] empty
        fun _ _ => List.count_nil
      have discriminators : Reader.Reads (readByteDiscriminators 0) [] [] := Reader.Reads.pure []
      exact ⟨[] ++ used, _, Reader.Reads.require_bind few (discriminators.bind reads.bind_pure)⟩
  | _ => exact ⟨[], [], Reader.Reads.pure []⟩

/-- Columns of readable types without rows can be read. -/
theorem readsNoRows_readColumnLevels {levels : Nat} (inner : levels ≤ maxReadDepth)
    {colType : ColumnType} (fixed : colType.isStatic = true)
    (readable : colType.readableWithin levels = true) :
    ReadsNoRows (readColumnLevels levels) colType := by
  induction levels generalizing colType with
  | zero => cases readable
  | succ levels ih =>
      obtain ⟨few, nestedReadable⟩ := ColumnType.readableWithin_succ_iff.mp readable
      unfold ReadsNoRows
      rw [readColumnLevels_succ inner]
      apply readsNoRows_step fixed few
      intro child member
      exact ih (Nat.le_of_succ_le inner) (ColumnType.isStatic_of_mem_subcolumns fixed member)
        (nestedReadable child member)

end Readable

/-! ## Nesting levels -/

theorem readTupleFields_congr {nested nested' : ColumnReader} {fields : List ColumnType}
    (same : ∀ field ∈ fields, nested field = nested' field) (count : Nat) (rows : ColumnData) :
    readTupleFields nested count fields rows = readTupleFields nested' count fields rows := by
  induction fields generalizing rows with
  | nil => rfl
  | cons field fields ih =>
      rw [readTupleFields, readTupleFields, same field (by simp)]
      congr 1
      funext cells
      exact ih (fun other member => same other (by simp [member])) _

theorem readArms_congr {nested nested' : ColumnReader} {types : List ColumnType}
    (same : ∀ type ∈ types, nested type = nested' type) (discriminators : List Nat) :
    readArms nested types discriminators = readArms nested' types discriminators := by
  apply Reader.each_congr
  intro arm member
  rw [same arm.1 (List.fst_mem_of_mem_zipIdx member)]

theorem readColumnStep_congr {nested nested' : ColumnReader} {colType : ColumnType}
    (fixed : colType.isStatic = true)
    (same : ∀ child ∈ colType.subcolumns, nested child = nested' child) :
    readColumnStep nested colType = readColumnStep nested' colType := by
  funext count
  cases colType with
  | newJson | dynamic => cases fixed
  | nullable inner =>
      simp only [readColumnStep, readNullableColumn, same inner (by simp [ColumnType.subcolumns])]
  | lowCardinality inner =>
      have entries := same (dictionaryType inner).1 (by simp [ColumnType.subcolumns])
      simp only [readColumnStep, readLowCardinalityColumn, entries]
  | simpleAggregateFunction inner =>
      simp only [readColumnStep, same inner (by simp [ColumnType.subcolumns])]
  | array inner =>
      simp only [readColumnStep, readArrayColumn, same inner (by simp [ColumnType.subcolumns])]
  | map key value =>
      simp only [readColumnStep, readMapColumn, same key (by simp [ColumnType.subcolumns]),
        same value (by simp [ColumnType.subcolumns])]
  | tuple fields => exact readTupleFields_congr same count _
  | variant types =>
      have arms : readArms nested types = readArms nested' types := funext (readArms_congr same)
      simp only [readColumnStep, readVariantColumn, arms]
  | _ => rfl

/-- The levels that are left do not matter to a type that is readable within them. -/
theorem readColumnLevels_congr {levels levels' : Nat} (inner : levels ≤ maxReadDepth)
    (inner' : levels' ≤ maxReadDepth) {colType : ColumnType} (fixed : colType.isStatic = true)
    (readable : colType.readableWithin levels = true)
    (readable' : colType.readableWithin levels' = true) :
    readColumnLevels levels colType = readColumnLevels levels' colType := by
  induction levels generalizing levels' colType with
  | zero => cases readable
  | succ levels ih =>
      cases levels' with
      | zero => cases readable'
      | succ levels' =>
          obtain ⟨_, nestedReadable⟩ := ColumnType.readableWithin_succ_iff.mp readable
          obtain ⟨_, nestedReadable'⟩ := ColumnType.readableWithin_succ_iff.mp readable'
          funext count
          rw [readColumnLevels_succ inner, readColumnLevels_succ inner']
          refine congrFun (readColumnStep_congr fixed fun child member => ?_) count
          exact ih (Nat.le_of_succ_le inner) (Nat.le_of_succ_le inner')
            (ColumnType.isStatic_of_mem_subcolumns fixed member) (nestedReadable child member)
            (nestedReadable' child member)

/-! ## Prefixes of zero bytes -/

theorem flatten_zeroWords (widths : List Nat) :
    (widths.map fun width => List.replicate (8 * width) (0 : UInt8)).flatten =
      List.replicate (8 * widths.sum) 0 := by
  induction widths with
  | nil => rfl
  | cons width widths ih =>
      rw [List.map_cons, List.flatten_cons, ih, List.sum_cons, Nat.mul_add, List.replicate_add]

section Prefixes

variable {nested : ColumnType → ByteReader (List DynamicHeader)}

theorem reads_eachPrefix {types : List ColumnType}
    (zeros : ∀ type ∈ types,
      Reader.Reads (nested type) (List.replicate (8 * type.prefixWords) 0) []) :
    Reader.Reads (do
      let headers ← Reader.each nested types
      pure headers.flatten)
      (List.replicate (8 * ColumnType.prefixWordsEach types) 0) [] := by
  have each : Reader.Reads (do
      let headers ← Reader.each nested types
      pure headers.flatten)
      (types.map fun type => List.replicate (8 * type.prefixWords) 0).flatten
      (types.map fun _ => ([] : List DynamicHeader)).flatten :=
    (Reader.Reads.each zeros).bind_pure
  have none : (types.map fun _ => ([] : List DynamicHeader)).flatten = [] := by simp
  have words := flatten_zeroWords (types.map ColumnType.prefixWords)
  rw [List.map_map] at words
  rw [ColumnType.prefixWordsEach_eq_sum, ← words, ← none]
  exact each

theorem reads_prefixStep_zeros {colType : ColumnType} (fixed : colType.isStatic = true)
    (zeros : ∀ child ∈ colType.subcolumns,
      Reader.Reads (nested child) (List.replicate (8 * child.prefixWords) 0) []) :
    Reader.Reads (decodePrefixesStep nested colType)
      (List.replicate (8 * colType.prefixWords) 0) [] := by
  have word : Reader.Reads readU64Le (natLe 8 0) 0 := reads_readU64Le (by decide)
  cases colType with
  | dynamic => cases fixed
  | lowCardinality inner => exact word.bind_pure
  | nullable inner | simpleAggregateFunction inner | array inner =>
      exact zeros inner (by simp [ColumnType.subcolumns])
  | tuple types => exact reads_eachPrefix zeros
  | variant types =>
      have mode : Reader.Reads readVariantMode (natLe 8 0 ++ []) () :=
        word.bind (Reader.Reads.require rfl _)
      rw [ColumnType.prefixWords, Nat.mul_add, List.replicate_add]
      exact mode.bind (reads_eachPrefix zeros)
  | map key value =>
      rw [ColumnType.prefixWords, Nat.mul_add, List.replicate_add]
      apply (zeros key (by simp [ColumnType.subcolumns])).bind
      exact (zeros value (by simp [ColumnType.subcolumns])).bind_pure
  | _ => exact Reader.Reads.pure []

/-- Zero bytes are a valid prefix of a static type. -/
theorem reads_prefix_zeros {levels : Nat} {colType : ColumnType}
    (fixed : colType.isStatic = true) (readable : colType.readableWithin levels = true) :
    Reader.Reads (decodePrefixesLevels levels colType)
      (List.replicate (8 * colType.prefixWords) 0) [] := by
  induction levels generalizing colType with
  | zero => cases readable
  | succ levels ih =>
      obtain ⟨_, nestedReadable⟩ := ColumnType.readableWithin_succ_iff.mp readable
      apply reads_prefixStep_zeros fixed
      intro child member
      exact ih (ColumnType.isStatic_of_mem_subcolumns fixed member) (nestedReadable child member)

end Prefixes

/-! ## Reading as Variant -/

/-- The rows of a `Variant` of arms, the opaque spill rendered as null. -/
def readVariantArms (nested : ColumnReader) (count : Nat) (arms : List Arm) :
    ByteReader ColumnData := do
  Reader.require (arms.length ≤ maxVariantTypes)
    (.badResponse ("native protocol: Variant declares " ++ toString arms.length ++
      " arms, above the " ++ toString maxVariantTypes ++ " cap"))
  let discriminators ← readByteDiscriminators count
  let typeValues ← readArms nested (arms.map Arm.colType) discriminators
  pure (renderDiscriminated arms typeValues discriminators)

/-- The payload of a `Variant` column of arms: the prefixes by the prefix rule of
`Variant`, then the rows. -/
def readInnerVariant (arms : List Arm) (rows : Nat) : ByteReader DecodedColumn := do
  let _ ← decodePrefixes (.variant (arms.map Arm.colType))
  let cells ← readVariantArms (fun colType count => readColumnAt colType count 1) rows arms
  let documents ← Reader.ofExcept (unwrapJsonCells cells)
  pure (.json documents)

/-- Without a spill among the arms this is how the decoder reads a `Variant` column. -/
theorem readInnerVariant_plain (types : List ColumnType) {rows : Nat} (some : 0 < rows) :
    readInnerVariant (types.map Arm.plain) rows =
      decodeColumnPayload (.variant types) rows false := by
  have cells : readColumnData (.variant types) rows =
      readVariantArms (fun colType count => readColumnAt colType count 1) rows
        (types.map Arm.plain) := by
    change readColumnLevels (maxReadDepth + 1) _ _ = _
    rw [readColumnLevels, if_neg (by omega), readVariantArms, map_colType_plain, List.length_map]
    rfl
  have column (headers : List DynamicHeader) : decodeColumn (.variant types) rows 0 headers = (do
      let cells ← readColumnData (.variant types) rows
      let documents ← Reader.ofExcept (unwrapJsonCells cells)
      pure (.json documents, headers)) := by
    change decodeColumnLevels (maxDecodeDepth + 1) _ _ _ = _
    rw [decodeColumnLevels, if_neg (by omega)]
    rfl
  rw [readInnerVariant, decodeColumnPayload, map_colType_plain]
  simp only [column, cells, some, if_true, Bool.false_eq_true, false_and, if_false,
    bind_assoc, pure_bind]

/-- The rows behind the prefixes, with `levels` nesting levels left for the arms. -/
def readInnerRows (levels : Nat) (arms : List Arm) (rows : Nat) : ByteReader DecodedColumn := do
  let discriminators ← readByteDiscriminators rows
  let typeValues ← readArms (readColumnLevels levels) (arms.map Arm.colType) discriminators
  let documents ← Reader.ofExcept
    (unwrapJsonCells (renderDiscriminated arms typeValues discriminators))
  pure (.json documents)

theorem readInnerVariant_eq (arms : List Arm) (rows : Nat) :
    readInnerVariant arms rows = (do
      readVariantMode
      let _ ← Reader.each (decodePrefixesLevels maxDecodeDepth) (arms.map Arm.colType)
      Reader.require (arms.length ≤ maxVariantTypes)
        (.badResponse ("native protocol: Variant declares " ++ toString arms.length ++
          " arms, above the " ++ toString maxVariantTypes ++ " cap"))
      readInnerRows maxReadDepth arms rows) := by
  simp only [readInnerVariant, decodePrefixes, decodePrefixesLevels, decodePrefixesStep,
    readVariantArms, readInnerRows, bind_assoc, pure_bind]
  rfl

section Rows

variable {arms : List Arm} {levels rows : Nat}

/-- Only readable arms are read. -/
theorem yields_readInnerRows_readable (inner : levels ≤ maxReadDepth) :
    Reader.Yields (readInnerRows levels arms rows) fun _ =>
      ∀ type ∈ arms.map Arm.colType, type.readableWithin levels = true := by
  refine Reader.Yields.after fun discriminators => ?_
  refine (yields_readArms_known (yields_readColumnLevels_readable inner) _ discriminators).bind
    fun values holds => ?_
  exact (Reader.Yields.trivial _).mono fun _ _ => holds

theorem readInnerRows_congr {levels' : Nat} (inner : levels ≤ maxReadDepth)
    (inner' : levels' ≤ maxReadDepth)
    (fixed : ∀ type ∈ arms.map Arm.colType, type.isStatic = true)
    (readable : ∀ type ∈ arms.map Arm.colType, type.readableWithin levels = true)
    (readable' : ∀ type ∈ arms.map Arm.colType, type.readableWithin levels' = true) :
    readInnerRows levels arms rows = readInnerRows levels' arms rows := by
  have values : readArms (readColumnLevels levels) (arms.map Arm.colType) =
      readArms (readColumnLevels levels') (arms.map Arm.colType) := by
    funext discriminators
    apply readArms_congr
    intro type member
    exact readColumnLevels_congr inner inner' (fixed type member) (readable type member)
      (readable' type member)
  simp only [readInnerRows, values]

/-- Rows of zero bytes take a fixed number of them. -/
theorem onRun_readInnerRows :
    Reader.OnRun (0 : UInt8) 8 (readInnerRows levels arms rows)
      (rows + rows * ColumnType.zeroRowBytesFirst (arms.map Arm.colType)) fun _ => True := by
  apply (onRun_readByteDiscriminators rows).bind
  intro discriminators same
  rw [same]
  apply (onRun_readArms (fun type _ => readsZeros_readColumnLevels levels type) rows).bind_idle
  intro values _
  apply (Reader.OnRun.ofExcept _).bind_idle
  intro documents _
  exact (Reader.OnRun.pure _).mono fun _ _ => trivial

/-- One row that is null. -/
theorem exists_reads_readInnerRows (inner : levels ≤ maxReadDepth)
    (few : arms.length ≤ maxVariantTypes)
    (fixed : ∀ type ∈ arms.map Arm.colType, type.isStatic = true)
    (readable : ∀ type ∈ arms.map Arm.colType, type.readableWithin levels = true) :
    ∃ used column, Reader.Reads (readInnerRows levels arms 1) used column := by
  have null : Reader.Reads (readByteDiscriminators 1) [255] [nullDiscriminator] :=
    @Reader.Reads.bind_pure _ _ _ _ (readExact 1) (List.map UInt8.toNat) [255] [255]
      (reads_readExact rfl)
  have unselected : ∀ position < (arms.map Arm.colType).length,
      [nullDiscriminator].count position = 0 := by
    intro position inside
    rw [List.length_map] at inside
    apply List.count_eq_zero_of_not_mem
    intro member
    rw [List.mem_singleton.mp member] at inside
    exact absurd (Nat.lt_of_lt_of_le inside few) (by decide)
  obtain ⟨used, values, reads⟩ := reads_readArms_noRows
    (fun type member =>
      readsNoRows_readColumnLevels inner (fixed type member) (readable type member))
    unselected
  have document : unwrapJsonCells (renderDiscriminated arms values [nullDiscriminator]) =
      .ok [utf8 "null"] := by
    have outside : arms[nullDiscriminator]? = none := List.getElem?_eq_none few
    simp only [renderDiscriminated, discriminatedRows, discriminatedValue, outside,
      Option.getD_none]
    rfl
  refine ⟨[255] ++ (used ++ ([] ++ [])), .json [utf8 "null"], null.bind (reads.bind ?_)⟩
  rw [document]
  exact (Reader.Reads.pure _).bind (Reader.Reads.pure _)

end Rows

/-! ## Reading as Dynamic -/

/-- A declared type list as it is on the wire. -/
def typeList (names : List String) : Bytes :=
  encodeVarUint names.length ++ (names.map fun name => putString (utf8 name)).flatten

/-- The arm a parseable type name stands for. -/
def armOf (name : String) : Arm :=
  ⟨if name = sharedVariant then .string else (ColumnType.parse name).getD .string,
    name = sharedVariant⟩

/-- A list of parseable names of static types, each no longer than a string can be. -/
structure StaticTypeNames (names : List String) : Prop where
  parsed : ∀ name ∈ names, ∃ colType, ColumnType.parse name = some colType ∧ colType.isStatic = true
  sized : ∀ name ∈ names, (utf8 name).length < 2 ^ 64

@[simp] theorem mem_sortedTypeNames {names : List String} {name : String} :
    name ∈ sortedTypeNames names ↔ name ∈ names ∨ name = sharedVariant := by
  rw [sortedTypeNames, (List.mergeSort_perm _ _).mem_iff, List.mem_append, List.mem_singleton]

@[simp] theorem parse_sharedVariant : ColumnType.parse sharedVariant = none := by
  rfl

namespace StaticTypeNames

variable {names : List String}

theorem arms (declared : StaticTypeNames names) :
    (sortedTypeNames names).mapM namedArm = .ok ((sortedTypeNames names).map armOf) := by
  apply Reader.mapM_ok
  intro name member
  by_cases shared : name = sharedVariant
  · rw [namedArm, wireType, armOf, if_pos shared, if_pos shared]
    rfl
  · obtain ⟨colType, parsed, _⟩ := declared.parsed name
      ((mem_sortedTypeNames.mp member).resolve_right shared)
    rw [namedArm, wireType, armOf, if_neg shared, if_neg shared, parsed]
    rfl

/-- The types of the arms are the declared ones and the spill type. -/
theorem mem_armTypes (declared : StaticTypeNames names) {colType : ColumnType} :
    colType ∈ ((sortedTypeNames names).map armOf).map Arm.colType ↔
      colType = .string ∨ ∃ name ∈ names, ColumnType.parse name = some colType := by
  rw [List.map_map]
  constructor
  · intro member
    obtain ⟨name, listed, rfl⟩ := List.mem_map.mp member
    by_cases shared : name = sharedVariant
    · exact .inl (if_pos shared)
    · have held := (mem_sortedTypeNames.mp listed).resolve_right shared
      obtain ⟨colType, parsed, _⟩ := declared.parsed name held
      refine .inr ⟨name, held, ?_⟩
      rw [Function.comp_apply, armOf, if_neg shared, parsed, Option.getD_some]
  · intro named
    rcases named with rfl | ⟨name, held, parsed⟩
    · refine List.mem_map.mpr ⟨sharedVariant, mem_sortedTypeNames.mpr (.inr rfl), ?_⟩
      rw [Function.comp_apply, armOf, if_pos rfl]
    · have plain : name ≠ sharedVariant := by
        intro shared
        rw [shared, parse_sharedVariant] at parsed
        cases parsed
      refine List.mem_map.mpr ⟨name, mem_sortedTypeNames.mpr (.inl held), ?_⟩
      rw [Function.comp_apply, armOf, if_neg plain, parsed, Option.getD_some]

theorem isStatic (declared : StaticTypeNames names) :
    ∀ type ∈ ((sortedTypeNames names).map armOf).map Arm.colType, type.isStatic = true := by
  intro type member
  rcases declared.mem_armTypes.mp member with rfl | ⟨name, held, parsed⟩
  · rfl
  · obtain ⟨colType, same, fixed⟩ := declared.parsed name held
    rw [parsed] at same
    cases same
    exact fixed

/-- Something holds of all arms when it holds of the spill type and the declared types. -/
theorem forall_armTypes (declared : StaticTypeNames names) (known : ColumnType → Prop)
    (spill : known .string) :
    (∀ type ∈ ((sortedTypeNames names).map armOf).map Arm.colType, known type) ↔
      ∀ name ∈ names, ∀ colType, ColumnType.parse name = some colType → known colType := by
  constructor
  · intro all name held colType parsed
    exact all colType (declared.mem_armTypes.mpr (.inr ⟨name, held, parsed⟩))
  · intro all type member
    rcases declared.mem_armTypes.mp member with rfl | ⟨name, held, parsed⟩
    · exact spill
    · exact all name held type parsed

end StaticTypeNames

section Payload

variable {names : List String} {rows : Nat}

theorem decodeDynamic_eq (some : 0 < rows) (input : Bytes) :
    decodeColumnPayload .dynamic rows false (natLe 8 2 ++ input) = (do
      let header ← readDynamicV1v2Prefix false
      let arms ← Reader.ofExcept (header.typeNames.mapM namedArm)
      readInnerRows (maxReadDepth - 1) arms rows : ByteReader DecodedColumn) input := by
  have version : Reader.Reads readU64Le (natLe 8 2) 2 := reads_readU64Le (by decide)
  have headers : decodePrefixes .dynamic (natLe 8 2 ++ input) = (do
      let header ← readDynamicV1v2Prefix false
      pure [header] : ByteReader (List DynamicHeader)) input := by
    change (readU64Le >>= _) _ = _
    rw [Reader.bind_of_ok (version input)]
    rfl
  have column (header : DynamicHeader) : decodeColumn .dynamic rows 0 [header] = (do
      let arms ← Reader.ofExcept (header.typeNames.mapM namedArm)
      let column ← readInnerRows (maxReadDepth - 1) arms rows
      pure (column, [])) := by
    change decodeColumnLevels (maxDecodeDepth + 1) _ _ _ = _
    rw [decodeColumnLevels, if_neg (by omega)]
    simp only [decodeColumnStep, readDynamicV1v2Body, readInnerRows, bind_assoc, pure_bind]
    rfl
  rw [decodeColumnPayload]
  simp only [some, if_true, Bool.false_eq_true, false_and, if_false]
  rw [Reader.bind_run, headers, Reader.bind_run, Reader.bind_run]
  cases readDynamicV1v2Prefix false input with
  | error error => rfl
  | ok result =>
      simp only [Reader.pure_run, column, bind_assoc, pure_bind, bind_pure]

/-- What follows the version word and the number of types. -/
theorem decodeDynamic_typeNames (few : names.length ≤ maxWireTypes) (some : 0 < rows)
    (input : Bytes) :
    decodeColumnPayload .dynamic rows false (natLe 8 2 ++ (typeList names ++ input)) = (do
      let typeNames ← Reader.times readUtf8String names.length
      readVariantMode
      let arms ← Reader.ofExcept ((sortedTypeNames typeNames).mapM namedArm)
      readInnerRows (maxReadDepth - 1) arms rows : ByteReader DecodedColumn)
        ((names.map fun name => putString (utf8 name)).flatten ++ input) := by
  have count : Reader.Reads (readCappedCount maxWireTypes "Dynamic type")
      (encodeVarUint names.length ++ []) names.length :=
    (reads_readVarUint (Nat.lt_of_le_of_lt few (by decide))).bind
      (Reader.Reads.require_bind few (Reader.Reads.pure _))
  rw [decodeDynamic_eq some, typeList, List.append_assoc, ← List.append_nil (encodeVarUint _)]
  simp only [readDynamicV1v2Prefix, Bool.false_eq_true, if_false, bind_assoc, pure_bind]
  rw [Reader.bind_of_ok (count _)]

theorem reads_typeNames (capped : ∀ name ∈ names, (utf8 name).length ≤ maxStringSize) :
    Reader.Reads (Reader.times readUtf8String names.length)
      (names.map fun name => putString (utf8 name)).flatten names := by
  have run := @Reader.Reads.times_map _ _ _ _ readUtf8String
    (fun name : String => putString (utf8 name)) id names
    fun name member => reads_readUtf8String (capped name member)
  rwa [List.map_id] at run

/-- The type list is read, then the mode word, then the rows. -/
theorem decodeDynamic_typeList (declared : StaticTypeNames names)
    (few : names.length ≤ maxWireTypes)
    (capped : ∀ name ∈ names, (utf8 name).length ≤ maxStringSize) (some : 0 < rows)
    (input : Bytes) :
    decodeColumnPayload .dynamic rows false (natLe 8 2 ++ (typeList names ++ input)) = (do
      readVariantMode
      readInnerRows (maxReadDepth - 1) ((sortedTypeNames names).map armOf) rows :
        ByteReader DecodedColumn) input := by
  rw [decodeDynamic_typeNames few some, Reader.bind_of_ok (reads_typeNames capped _)]
  simp only [declared.arms]
  rfl

/-- A type list is only read when every name fits. -/
theorem capped_of_times {rest : Bytes} {result : List String × Bytes}
    (sized : ∀ name ∈ names, (utf8 name).length < 2 ^ 64)
    (read : Reader.times readUtf8String names.length
      ((names.map fun name => putString (utf8 name)).flatten ++ rest) = .ok result) :
    ∀ name ∈ names, (utf8 name).length ≤ maxStringSize := by
  induction names generalizing rest result with
  | nil => simp
  | cons name names ih =>
      obtain ⟨values, left⟩ := result
      rw [List.length_cons, Reader.times, List.map_cons, List.flatten_cons, List.append_assoc]
        at read
      obtain ⟨first, middle, headRead, tailRead⟩ := Reader.bind_ok_iff.mp read
      have fits : (utf8 name).length ≤ maxStringSize := by
        by_contra long
        have refused : checkedStringLen (utf8 name).length = .error (.badResponse
            ("native protocol: string too large: " ++ toString (utf8 name).length ++ " > " ++
              toString maxStringSize)) := by
          rw [checkedStringLen, if_pos (by omega)]
        rw [readUtf8String, readString, putString, List.append_assoc, bind_assoc,
          Reader.bind_of_ok (reads_readVarUint (sized name (by simp)) _), refused] at headRead
        cases headRead
      rw [reads_readUtf8String fits] at headRead
      cases headRead
      obtain ⟨others, end', othersRead, _⟩ := Reader.bind_ok_iff.mp tailRead
      exact List.forall_mem_cons.mpr
        ⟨fits, ih (fun other member => sized other (by simp [member])) othersRead⟩

theorem capped_of_decodeDynamic (declared : StaticTypeNames names)
    (few : names.length ≤ maxWireTypes) (some : 0 < rows) {input : Bytes}
    {result : DecodedColumn × Bytes}
    (read : decodeColumnPayload .dynamic rows false (natLe 8 2 ++ (typeList names ++ input)) =
      .ok result) :
    ∀ name ∈ names, (utf8 name).length ≤ maxStringSize := by
  obtain ⟨column, rest⟩ := result
  rw [decodeDynamic_typeNames few some] at read
  obtain ⟨typeNames, middle, namesRead, _⟩ := Reader.bind_ok_iff.mp read
  exact capped_of_times declared.sized namesRead

end Payload

/-! ## The two readings -/

/-- Behind the type list, the version 2 `Dynamic` reading of every input that the Variant
reading accepts takes the same bytes and gives the same documents. -/
def InnerVariantAgrees (names : List String) : Prop :=
  ∀ arms rows input column rest, (sortedTypeNames names).mapM namedArm = .ok arms → 0 < rows →
    readInnerVariant arms rows input = .ok (column, rest) →
      decodeColumnPayload .dynamic rows false (natLe 8 2 ++ (typeList names ++ input)) =
        .ok (column, rest)

/-- Whether the Variant reading accepts any input at all. -/
def VariantReadable (names : List String) : Prop :=
  names.length < maxVariantTypes ∧ ∀ name ∈ names, ∀ colType,
    ColumnType.parse name = some colType → colType.readableWithin maxReadDepth = true

section Agreement

variable {names : List String}

@[simp, grind =] theorem length_arms (names : List String) :
    ((sortedTypeNames names).map armOf).length = names.length + 1 := by
  rw [List.length_map, length_sortedTypeNames]

/-- Without prefixes the Variant reading is the mode word and the rows. -/
theorem readInnerVariant_of_prefixFree {arms : List Arm} {rows : Nat}
    (few : arms.length ≤ maxVariantTypes)
    (fixed : ∀ type ∈ arms.map Arm.colType, type.isStatic = true)
    (readable : ∀ type ∈ arms.map Arm.colType, type.readableWithin maxReadDepth = true)
    (prefixFree : ∀ type ∈ arms.map Arm.colType, type.prefixWords = 0) :
    readInnerVariant arms rows = (do
      readVariantMode
      readInnerRows maxReadDepth arms rows) := by
  have each : Reader.each (decodePrefixesLevels maxDecodeDepth) (arms.map Arm.colType) =
      Reader.each (fun _ => pure []) (arms.map Arm.colType) := by
    apply Reader.each_congr
    intro type member
    have reads := reads_prefix_zeros (fixed type member) (readable type member)
    rw [prefixFree type member] at reads
    exact reads.eq_pure
  have nothing : Reader.each (fun _ => (pure [] : ByteReader (List DynamicHeader)))
      (arms.map Arm.colType) = pure ((arms.map Arm.colType).map fun _ => []) := by
    have reads := @Reader.Reads.each _ _ _ _ (fun _ => (pure [] : ByteReader (List DynamicHeader)))
      (fun _ => []) (fun _ => []) (arms.map Arm.colType) fun _ _ => Reader.Reads.pure []
    have empty : ((arms.map Arm.colType).map fun _ => ([] : Bytes)).flatten = [] := by simp
    rw [empty] at reads
    exact reads.eq_pure
  rw [readInnerVariant_eq, each, nothing]
  simp only [pure_bind, Reader.require_of_holds few]

/-- Rows behind a prefix of zero bytes, read as Variant. -/
theorem readInnerVariant_of_rows {arms : List Arm} {rows : Nat} {input rest : Bytes}
    {column : DecodedColumn} (few : arms.length ≤ maxVariantTypes)
    (fixed : ∀ type ∈ arms.map Arm.colType, type.isStatic = true)
    (readable : ∀ type ∈ arms.map Arm.colType, type.readableWithin maxReadDepth = true)
    (read : readInnerRows maxReadDepth arms rows input = .ok (column, rest)) :
    readInnerVariant arms rows (natLe 8 0 ++ (List.replicate
        (8 * ColumnType.prefixWordsEach (arms.map Arm.colType)) 0 ++ input)) =
      .ok (column, rest) := by
  have mode : Reader.Reads readVariantMode (natLe 8 0 ++ []) () :=
    (reads_readU64Le (by decide)).bind (Reader.Reads.require rfl _)
  have words : Reader.Reads (Reader.each (decodePrefixesLevels maxDecodeDepth)
      (arms.map Arm.colType)) (List.replicate
        (8 * ColumnType.prefixWordsEach (arms.map Arm.colType)) 0)
      ((arms.map Arm.colType).map fun _ => []) := by
    rw [ColumnType.prefixWordsEach_eq_sum, ← flatten_zeroWords, List.map_map]
    exact Reader.Reads.each fun type member =>
      reads_prefix_zeros (fixed type member) (readable type member)
  rw [readInnerVariant_eq, ← List.append_nil (natLe 8 0), Reader.bind_of_ok (mode _),
    Reader.bind_of_ok (words _), Reader.require_of_holds few, pure_bind]
  exact read

/-- A readable Variant of arms with prefixes is read differently as Dynamic. -/
theorem prefixWords_of_agrees (declared : StaticTypeNames names) (agrees : InnerVariantAgrees names)
    (readable : VariantReadable names) :
    (∀ name ∈ names, (utf8 name).length ≤ maxStringSize) ∧
      ∀ type ∈ ((sortedTypeNames names).map armOf).map Arm.colType,
        type.prefixWords = 0 ∧ type.readableWithin (maxReadDepth - 1) = true := by
  have few : ((sortedTypeNames names).map armOf).length ≤ maxVariantTypes := by
    rw [length_arms]
    exact readable.1
  have fewNames : names.length ≤ maxWireTypes := Nat.le_of_lt_succ readable.1
  have fixed := declared.isStatic
  have outer := (declared.forall_armTypes (·.readableWithin maxReadDepth = true) rfl).mpr readable.2
  obtain ⟨used, column, null⟩ := exists_reads_readInnerRows (Nat.le_refl _) few fixed outer
  have dynamic : ∀ input rest, readInnerRows maxReadDepth ((sortedTypeNames names).map armOf) 1
        input = .ok (column, rest) →
      decodeColumnPayload .dynamic 1 false (natLe 8 2 ++ (typeList names ++ (natLe 8 0 ++
        (List.replicate (8 * ColumnType.prefixWordsEach
          (((sortedTypeNames names).map armOf).map Arm.colType)) 0 ++ input)))) =
        .ok (column, rest) := by
    intro input rest read
    exact agrees _ _ _ _ _ declared.arms Nat.one_pos
      (readInnerVariant_of_rows few fixed outer read)
  have capped := capped_of_decodeDynamic declared fewNames Nat.one_pos (dynamic _ _ (null []))
  have behind : ∀ input rest, readInnerRows maxReadDepth ((sortedTypeNames names).map armOf) 1
        input = .ok (column, rest) →
      readInnerRows (maxReadDepth - 1) ((sortedTypeNames names).map armOf) 1
        (List.replicate (8 * ColumnType.prefixWordsEach
          (((sortedTypeNames names).map armOf).map Arm.colType)) 0 ++ input) =
        .ok (column, rest) := by
    intro input rest read
    have whole := dynamic input rest read
    have mode : Reader.Reads readVariantMode (natLe 8 0 ++ []) () :=
      (reads_readU64Le (by decide)).bind (Reader.Reads.require rfl _)
    rw [decodeDynamic_typeList declared fewNames capped Nat.one_pos,
      ← List.append_nil (natLe 8 0), Reader.bind_of_ok (mode _)] at whole
    exact whole
  have nested := yields_readInnerRows_readable (Nat.sub_le _ _) _ _ _ (behind _ _ (null []))
  have same := @readInnerRows_congr ((sortedTypeNames names).map armOf) _ 1 _ (Nat.sub_le _ 1)
    (Nat.le_refl maxReadDepth) fixed nested outer
  refine ⟨capped, fun type member => ⟨?_, nested type member⟩⟩
  cases words : ColumnType.prefixWordsEach
    (((sortedTypeNames names).map armOf).map Arm.colType) with
  | zero =>
      rw [ColumnType.prefixWordsEach_eq_sum] at words
      exact List.sum_eq_zero_iff_forall_eq_nat.mp words _ (List.mem_map_of_mem member)
  | succ words' =>
      have absorbs : ∀ longer, readInnerRows maxReadDepth ((sortedTypeNames names).map armOf) 1
            longer = .ok (column, []) →
          readInnerRows maxReadDepth ((sortedTypeNames names).map armOf) 1
            (List.replicate (8 * words' + 7 + 1) 0 ++ longer) = .ok (column, []) := by
        intro longer read
        have run := behind longer [] read
        rwa [words, same] at run
      exact absurd absorbs (onRun_readInnerRows.not_absorbs (null []))

end Agreement

/-- A version 2 `Dynamic` column is read like a `Variant` of its sorted types with the
spill type exactly when no declared type has a serialisation prefix of its own and all
are readable one nesting level further down.  A declared name must also fit the string
cap, and where the Variant reading accepts nothing there is nothing to agree on. -/
theorem innerVariant_agrees_iff {names : List String} (declared : StaticTypeNames names) :
    InnerVariantAgrees names ↔ (VariantReadable names → ∀ name ∈ names,
      (utf8 name).length ≤ maxStringSize ∧ ∀ colType, ColumnType.parse name = some colType →
        colType.prefixWords = 0 ∧ colType.readableWithin (maxReadDepth - 1) = true) := by
  constructor
  · intro agrees readable name held
    obtain ⟨capped, free⟩ := prefixWords_of_agrees declared agrees readable
    exact ⟨capped name held, (declared.forall_armTypes _ ⟨rfl, rfl⟩).mp free name held⟩
  · intro condition arms rows input column rest named some read
    rw [declared.arms] at named
    cases named
    have parts := read
    rw [readInnerVariant_eq] at parts
    obtain ⟨_, _, _, parts⟩ := Reader.bind_ok_iff.mp parts
    obtain ⟨_, _, _, parts⟩ := Reader.bind_ok_iff.mp parts
    obtain ⟨_, _, checked, rowsRead⟩ := Reader.bind_ok_iff.mp parts
    have few := Reader.Yields.require _ _ _ _ checked
    have outer := yields_readInnerRows_readable (Nat.le_refl _) _ _ _ rowsRead
    have readable : VariantReadable names := by
      constructor
      · rw [length_arms] at few
        exact few
      · exact (declared.forall_armTypes (·.readableWithin maxReadDepth = true) rfl).mp outer
    have holds := condition readable
    have free := (declared.forall_armTypes (fun type => type.prefixWords = 0 ∧
      type.readableWithin (maxReadDepth - 1) = true) ⟨rfl, rfl⟩).mpr fun name held =>
        (holds name held).2
    rw [decodeDynamic_typeList declared (Nat.le_of_lt_succ readable.1)
      (fun name held => (holds name held).1) some]
    rw [readInnerVariant_of_prefixFree few declared.isStatic outer fun type member =>
      (free type member).1] at read
    rw [readInnerRows_congr (Nat.sub_le _ 1) (Nat.le_refl maxReadDepth) declared.isStatic
      (fun type member => (free type member).2) outer]
    exact read

theorem innerVariant_agrees_scalars : InnerVariantAgrees ["String", "UInt8"] := by
  have text : ColumnType.parse "String" = some .string := rfl
  have byte : ColumnType.parse "UInt8" = some .uInt8 := rfl
  have parsed : ∀ name ∈ ["String", "UInt8"],
      ColumnType.parse name = some .string ∨ ColumnType.parse name = some .uInt8 := by
    simp [text, byte]
  have declared : StaticTypeNames ["String", "UInt8"] := by
    constructor
    · intro name held
      rcases parsed name held with same | same
      · exact ⟨_, same, rfl⟩
      · exact ⟨_, same, rfl⟩
    · decide
  apply (innerVariant_agrees_iff declared).mpr
  intro _ name held
  constructor
  · have short : ∀ name ∈ ["String", "UInt8"], (utf8 name).length ≤ maxStringSize := by decide
    exact short name held
  · intro colType same
    rcases parsed name held with known | known
    · rw [known] at same
      cases same
      exact ⟨rfl, rfl⟩
    · rw [known] at same
      cases same
      exact ⟨rfl, rfl⟩

/-- One row of a dictionary arm: the mode word and the dictionary's version word, the
discriminator, and a dictionary with the one key "x". -/
def dictionaryRow : Bytes :=
  natLe 8 0 ++ natLe 8 1 ++ [0] ++ (natLe 8 512 ++ natLe 8 1 ++ [1, 0x78] ++ natLe 8 1 ++ [0])

/-- Dynamic takes the version word of a dictionary for discriminators. -/
theorem innerVariant_astray_dictionary :
    ¬ InnerVariantAgrees ["LowCardinality(String)"] := by
  intro agrees
  have sorted : sortedTypeNames ["LowCardinality(String)"] =
      ["LowCardinality(String)", sharedVariant] := List.mergeSort_of_pairwise (by decide)
  have parsed : ColumnType.parse "LowCardinality(String)" = some (.lowCardinality .string) := rfl
  have declared : StaticTypeNames ["LowCardinality(String)"] := by
    constructor
    · intro name held
      rw [List.mem_singleton.mp held]
      exact ⟨_, parsed, rfl⟩
    · decide
  have variant : readInnerVariant ((sortedTypeNames ["LowCardinality(String)"]).map armOf) 1
      dictionaryRow = .ok (.json [[0x22, 0x78, 0x22]], []) := by
    rw [sorted]
    rfl
  have dynamic : decodeColumnPayload .dynamic 1 false
      (natLe 8 2 ++ (typeList ["LowCardinality(String)"] ++ dictionaryRow)) =
        .error (.badResponse ("native protocol: LowCardinality block set neither the " ++
          "additional-keys nor the global-dictionary flag")) := by
    rw [decodeDynamic_typeList declared (by decide) (by decide) Nat.one_pos, sorted]
    rfl
  have same := agrees _ _ _ _ _ declared.arms Nat.one_pos variant
  rw [dynamic] at same
  cases same

end DfeClickhouse.Native
