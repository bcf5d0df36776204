import DfeClickhouse.Dynamic.TypeAgreement
import DfeClickhouse.Native.RowBinary

/-!
# Cell boundaries

The encoder writes a row cell by cell, and the block writer cuts it again by walking
the column types over it.  Both stop at the same places, except where a decimal's
argument list ends in a comma.
-/

namespace DfeClickhouse.Dynamic

open Library Native

/-- Whatever is written has the given size. -/
def Sized (size : Nat) (outcome : Except DynamicError Bytes) : Prop :=
  ∀ bytes, outcome = .ok bytes → bytes.length = size

namespace Sized

variable {size : Nat}

theorem ok {bytes : Bytes} (sized : bytes.length = size) : Sized size (.ok bytes) := by
  rintro _ ⟨⟩
  exact sized

theorem error (error : DynamicError) : Sized size (.error error) := by
  intro bytes impossible
  cases impossible

theorem bind {α : Type} (outcome : Except DynamicError α) {next : α → Except DynamicError Bytes}
    (each : ∀ value, Sized size (next value)) : Sized size (outcome >>= next) := by
  cases outcome with
  | error error => exact Sized.error error
  | ok value => exact each value

end Sized

@[simp] theorem length_intLe (width : Nat) (value : Int) : (intLe width value).length = width :=
  length_scalarBytes ..

theorem sized_intLe {width : Nat} (outcome : Except DynamicError Int) :
    Sized width (do return intLe width (← outcome)) :=
  .bind _ fun _ => .ok (length_intLe ..)

theorem sized_narrowed (width : Nat) (wide : Except DynamicError Int)
    (fits : Nat → Int → Option Int) (col typeName : String) :
    Sized width (narrowed width wide fits col typeName) :=
  .bind _ fun _ => .bind _ fun _ => .ok (length_intLe ..)

theorem sized_checked (width : Nat) (wide : Except DynamicError Int)
    (fits : Nat → Int → Option Int) (col message : String) :
    Sized width (checked width wide fits col message) :=
  .bind _ fun _ => .bind _ fun _ => .ok (length_intLe ..)

theorem sized_fixedStringBytes (width : Nat) (bytes : Bytes) (col : String) :
    Sized width (fixedStringBytes width bytes col) := by
  unfold fixedStringBytes
  split
  · exact .error _
  · apply Sized.ok
    rw [List.length_append, List.length_replicate]
    omega

theorem sized_float32Bytes (value : Value) (col : String) : Sized 4 (float32Bytes value col) := by
  apply Sized.bind
  intro wide
  split
  · exact .error _
  · exact .ok (length_scalarBytes ..)

theorem sized_uuidBytes (json : JsonText) (value : Value) (col : String) :
    Sized 16 (uuidBytes json value col) := by
  unfold uuidBytes
  dsimp only
  split
  · exact .error _
  · exact .ok (by simp)

theorem sized_ipv4Bytes (json : JsonText) (value : Value) (col : String) :
    Sized 4 (ipv4Bytes json value col) := by
  unfold ipv4Bytes
  dsimp only
  split
  · exact .bind _ fun _ => .ok (by simp)
  · exact .bind _ fun _ => .ok (by simp)

/-- A run of groups fills no more than its slots. -/
theorem length_readGroups_le (slots index : Nat) (text : Text) :
    (readGroups slots index text).groups.length ≤ slots := by
  induction slots generalizing index text with
  | zero => exact Nat.le_refl _
  | succ slots ih =>
      rw [readGroups]
      dsimp only
      split
      · rename_i octets rest found
        split at found
        · -- An embedded address fills two of at least two slots.
          unfold embeddedGroups
          dsimp only
          split
          · simp only [List.length_cons, List.length_nil]
            omega
          · exact Nat.zero_le _
        · cases found
      · split
        · rename_i group rest found
          exact Nat.succ_le_succ (ih _ _)
        · exact Nat.zero_le _

theorem length_of_parseIpv6 {text : Text} {bytes : Bytes} (parsed : parseIpv6 text = some bytes) :
    bytes.length = 16 := by
  have sized (groups : List Nat) : (groups.flatMap fun group =>
      [UInt8.ofNat (group / 256), UInt8.ofNat group]).length = 2 * groups.length := by
    induction groups with
    | nil => rfl
    | cons group groups ih =>
        rw [List.flatMap_cons, List.length_append, ih, List.length_cons]
        simp only [List.length_cons, List.length_nil]
        omega
  unfold parseIpv6 at parsed
  split at parsed
  · rename_i groups found
    cases parsed
    rw [sized]
    unfold readIpv6Addr at found
    dsimp only at found
    split at found
    · rename_i full
      obtain ⟨rfl, _⟩ := Prod.mk.inj (Option.some.inj found)
      rw [full]
    · split at found
      · cases found
      · obtain ⟨rest, _, same⟩ := Option.map_eq_some_iff.mp found
        obtain ⟨rfl, _⟩ := Prod.mk.inj same
        have head := length_readGroups_le 8 0 text
        have tail := length_readGroups_le (7 - (readGroups 8 0 text).groups.length) 0 rest
        simp only [List.length_append, List.length_replicate]
        omega
  · cases parsed

theorem sized_ipv6Bytes (json : JsonText) (value : Value) (col : String) :
    Sized 16 (ipv6Bytes json value col) := by
  intro bytes written
  unfold ipv6Bytes at written
  cases parsed : parseIpv6 (valueToStr json value).toList with
  | none =>
      rw [parsed] at written
      cases written
  | some octets =>
      rw [parsed] at written
      cases written
      exact length_of_parseIpv6 parsed

theorem sized_scalarCell {json : JsonText} {info : TypeInfo} {width : Nat}
    (fixed : cellWidth info = some width) (value : Value) (col : String) :
    Sized width (scalarCell json info value col) := by
  rw [cellWidth] at fixed
  unfold scalarCell
  cases tag : encodingTag info <;> rw [tag] at fixed <;> dsimp only at fixed ⊢
  case fixedString =>
    rw [fixed]
    apply sized_fixedStringBytes
  case string | array | map | point | json | variant | dynamic | unknown => cases fixed
  all_goals cases fixed
  case uInt8 | uInt16 | uInt32 | int8 | int16 | int32 => apply sized_narrowed
  case enum8 | enum16 | date | dateTime | decimal32 | decimal64 => apply sized_checked
  case bool => exact .bind _ fun _ => .ok rfl
  case uInt256 | int256 | decimal256 =>
    exact .bind _ fun _ => .ok (by simp [u128ToU256Le, i128ToI256Le])
  case float32 => apply sized_float32Bytes
  case float64 => exact .bind _ fun _ => .ok (length_scalarBytes ..)
  case uuid => apply sized_uuidBytes
  case iPv4 => apply sized_ipv4Bytes
  case iPv6 => apply sized_ipv6Bytes
  all_goals exact sized_intLe _

/-- What the table of widths says of a name. -/
theorem fixedByteSize_of_tag {info : TypeInfo} {width : Nat} (tag : info.tag = .fromBase info.base)
    (notDecimal : info.base ≠ "Decimal".toList) (fixed : cellWidth info = some width) :
    ParsedType.fixedByteSize info = some width ∧ isTextTag info.tag = false ∧
      isRefusedTag info.tag = false := by
  have tagged : encodingTag info = info.tag := if_neg notDecimal
  rw [cellWidth, tagged] at fixed
  have table : baseTags.all (fun entry =>
      (ParsedType.baseWidths.find? fun known => known.1.toList == entry.1.toList).map Prod.snd ==
        tagWidth entry.2 &&
      ((tagWidth entry.2).isNone || !(isTextTag entry.2 || isRefusedTag entry.2)) &&
      (entry.1.toList == "FixedString".toList) == (entry.2 == .fixedString)) = true := by
    decide +kernel
  cases found : baseTags.find? fun entry => entry.1.toList == info.base with
  | none =>
      have unknown : info.tag = .unknown := by rw [tag, TypeTag.fromBase, found]; rfl
      rw [unknown] at fixed
      cases fixed
  | some entry =>
      have known : info.tag = entry.2 := by rw [tag, TypeTag.fromBase, found]; rfl
      have matched := List.find?_some found
      have same : entry.1.toList = info.base := eq_of_beq matched
      have facts := List.all_eq_true.mp table entry (List.mem_of_find?_eq_some found)
      rw [same, ← known] at facts
      simp only [Bool.and_eq_true, beq_iff_eq] at facts
      obtain ⟨⟨width, kinds⟩, fixedString⟩ := facts
      unfold ParsedType.fixedByteSize
      split at fixed
      · rename_i isFixedString
        have isFixed : info.base = "FixedString".toList := by
          rw [isFixedString] at fixedString
          simpa using fixedString
        rw [if_pos isFixed, isFixedString]
        exact ⟨fixed, rfl, rfl⟩
      · rename_i notFixedString
        have notFixed : info.base ≠ "FixedString".toList := by
          intro same
          rw [same] at fixedString
          exact notFixedString (by simpa using fixedString.symm)
        rw [fixed] at kinds
        simp only [Option.isNone_some, Bool.false_or, Bool.not_eq_true', Bool.or_eq_false_iff]
          at kinds
        rw [if_neg notFixed, width]
        exact ⟨fixed, kinds.1, kinds.2⟩

/-- The zeros of a missing value have the width of a cell. -/
theorem defaultCell_of_fixed {info : TypeInfo} {width : Nat}
    (tag : info.tag = .fromBase info.base) (fixed : cellWidth info = some width) (col : String) :
    defaultCell info col = .ok (List.replicate width 0) := by
  unfold defaultCell
  split
  · rename_i decimal
    rw [cellWidth_of_decimal decimal] at fixed
    cases fixed
    rfl
  · rename_i notDecimal
    obtain ⟨size, notText, notRefused⟩ := fixedByteSize_of_tag tag notDecimal fixed
    split
    case h_1 isJson =>
      rw [isJson] at notText
      cases notText
    case h_6 => rw [size]
    all_goals
      rename_i refused
      rw [refused] at notRefused
      cases notRefused

variable {columnType base : ColumnType} {bytes : Bytes}

theorem reads_fixed {width : Nat} (native : columnType.fixedSize = some width)
    (sized : bytes.length = width) : Reader.Reads (rbAdvance columnType) bytes () := by
  rw [rbAdvance_of_fixed native]
  exact (Reader.Reads.take rbTruncated sized).bind_pure

theorem reads_text (native : isTextType columnType = true) (small : bytes.length < addressSpace) :
    Reader.Reads (rbAdvance columnType) (putString bytes) () := by
  cases columnType with
  | string => exact reads_advanceText small
  | newJson => exact reads_advanceText small
  | _ => cases native

/-- A value behind the flag of its wrappers. -/
theorem reads_present {nullable : Bool} (wraps : Wraps columnType nullable base)
    (reads : Reader.Reads (rbAdvance base) bytes ()) :
    Reader.Reads (rbAdvance columnType) ((if nullable then [0] else []) ++ bytes) () := by
  induction wraps with
  | base columnType => exact reads
  | lowCardinality _ ih => exact ih reads
  | nullable _ ih =>
      have flag : Reader.Reads (Reader.take rbTruncated 1) [(0 : UInt8)] [0] :=
        Reader.Reads.take rbTruncated rfl
      exact flag.bind (ih reads)

theorem reads_null (wraps : Wraps columnType true base) :
    Reader.Reads (rbAdvance columnType) [1] () := by
  generalize isNullable : true = nullable at wraps
  induction wraps with
  | base columnType => cases isNullable
  | lowCardinality _ ih => exact ih isNullable
  | nullable _ _ =>
      have flag : Reader.Reads (Reader.take rbTruncated 1) [(1 : UInt8)] [1] :=
        Reader.Reads.take rbTruncated rfl
      exact flag.bind (Reader.Reads.pure ())

theorem writes_ofExcept_put_iff {outcome : Except DynamicError Bytes} :
    Writer.Writes (do
      let bytes ← Writer.ofExcept outcome
      Writer.put bytes : CellWriter) bytes ↔ outcome = .ok bytes := by
  rw [Writer.writes_ofExcept_bind_iff]
  constructor
  · rintro ⟨value, same, writes⟩
    rw [same, Writer.writes_put_iff.mp writes]
  · intro same
    exact ⟨bytes, same, Writer.writes_put_iff.mpr rfl⟩

/-- What a value behind its null flag is written as. -/
theorem writes_encodeFlagged {info : TypeInfo} {col : String} {value : Value}
    {typed : Value → CellWriter}
    (writes : Writer.Writes (encodeFlagged info col value typed) bytes) :
    (info.nullable = true ∧ bytes = [1]) ∨
      (info.nullable = false ∧ defaultCell info col = .ok bytes) ∨
      ∃ body, Writer.Writes (typed value) body ∧
        bytes = (if info.nullable then [0] else []) ++ body := by
  unfold encodeFlagged at writes
  split at writes
  · exact .inl ⟨‹_›, Writer.writes_put_iff.mp writes⟩
  · rename_i nullable _
    obtain ⟨body, bodyWrites, rfl⟩ := Writer.writes_put_bind_iff.mp writes
    exact .inr (.inr ⟨body, bodyWrites, by rw [nullable]; rfl⟩)
  · exact .inr (.inl ⟨‹_›, writes_ofExcept_put_iff.mp writes⟩)
  · rename_i nullable _
    exact .inr (.inr ⟨bytes, writes, by rw [nullable]; rfl⟩)

/-- The cell of a text column. -/
theorem scalarCell_of_text {json : JsonText} {info : TypeInfo} {value : Value} {col : String}
    (isText : isTextTag (encodingTag info) = true)
    (written : scalarCell json info value col = .ok bytes) : ∃ text, bytes = putString text := by
  unfold scalarCell at written
  cases tag : encodingTag info <;> rw [tag] at isText written <;> try cases isText
  · cases written
    exact ⟨_, rfl⟩
  · cases written
    exact ⟨_, rfl⟩

/-- Decimals are neither texts nor refused. -/
theorem notDecimal_of_tag {info : TypeInfo}
    (known : isTextTag (encodingTag info) = true ∨ isRefusedTag (encodingTag info) = true) :
    info.base ≠ "Decimal".toList := by
  intro decimal
  have width := tagWidth_decimalTagForPrecision (info.precision.getD 38)
  rw [encodingTag, if_pos decimal] at known
  cases tag : decimalTagForPrecision (info.precision.getD 38) <;> rw [tag] at known width <;>
    first | cases width | rcases known with known | known <;> cases known

theorem defaultCell_of_text {info : TypeInfo} {col : String}
    (tag : info.tag = .fromBase info.base) (isText : isTextTag (encodingTag info) = true)
    (written : defaultCell info col = .ok bytes) : ∃ text, bytes = putString text := by
  have notDecimal := notDecimal_of_tag (.inl isText)
  rw [encodingTag, if_neg notDecimal] at isText
  unfold defaultCell at written
  rw [if_neg notDecimal] at written
  cases known : info.tag <;> rw [known] at isText written <;> try cases isText
  · have string : info.base = "String".toList := eq_of_fromBase_string (tag ▸ known)
    have sizeless : ParsedType.fixedByteSize info = none := by
      unfold ParsedType.fixedByteSize
      rw [string]
      rfl
    dsimp only at written
    rw [sizeless] at written
    cases written
    exact ⟨[], (List.append_nil _).symm⟩
  · cases written
    exact ⟨_, rfl⟩

/-- Nothing is written where the encoder refuses a type. -/
theorem refused_of_tag {json : JsonText} {info : TypeInfo} {value : Value} {col : String}
    (refused : isRefusedTag (encodingTag info) = true) :
    scalarCell json info value col = .error (unsupported col info) ∧
      defaultCell info col = .error (unsupported col info) := by
  have notDecimal := notDecimal_of_tag (.inr refused)
  have tagged : encodingTag info = info.tag := if_neg notDecimal
  rw [tagged] at refused
  unfold scalarCell defaultCell
  rw [tagged, if_neg notDecimal]
  cases known : info.tag <;> rw [known] at refused <;>
    first | cases refused; done | exact ⟨rfl, rfl⟩

mutual

/-- The number of JSON values in a value. -/
def Value.nodes : Value → Nat
  | .array items => nodesAll items + 1
  | .object entries => nodesEntries entries + 1
  | _ => 1

/-- The number of JSON values in the items of an array. -/
def nodesAll : List Value → Nat
  | [] => 0
  | item :: items => item.nodes + nodesAll items

/-- The number of JSON values in the entries of an object. -/
def nodesEntries : List (String × Value) → Nat
  | [] => 0
  | (_, value) :: entries => value.nodes + nodesEntries entries

end

theorem nodes_pos (value : Value) : 1 ≤ value.nodes := by
  cases value <;> simp [Value.nodes]

theorem nodesAll_bounds {items : List Value} :
    items.length ≤ nodesAll items ∧ ∀ item ∈ items, item.nodes ≤ nodesAll items := by
  induction items with
  | nil => simp [nodesAll]
  | cons head items ih =>
      have positive := nodes_pos head
      obtain ⟨count, each⟩ := ih
      rw [nodesAll, List.length_cons]
      refine ⟨by omega, ?_⟩
      intro item member
      rcases List.mem_cons.mp member with rfl | member
      · omega
      · have := each item member
        omega

theorem nodesEntries_bounds {entries : List (String × Value)} :
    entries.length ≤ nodesEntries entries ∧
      ∀ entry ∈ entries, entry.2.nodes ≤ nodesEntries entries := by
  induction entries with
  | nil => simp [nodesEntries]
  | cons head entries ih =>
      have positive := nodes_pos head.2
      obtain ⟨count, each⟩ := ih
      rw [nodesEntries, List.length_cons]
      refine ⟨by omega, ?_⟩
      intro entry member
      rcases List.mem_cons.mp member with rfl | member
      · omega
      · have := each entry member
        omega

/-- Whether the innermost type the encoder writes values of is a loose decimal. -/
def isLoose : ParsedType → Bool
  | .plain info => isLooseDecimal info
  | .array _ element => isLoose element
  | .map _ key value => key.info.tag == .string && !key.info.nullable && isLoose value

/-- A cell is read when its default and its value are. -/
theorem reads_encodeFlagged {info : TypeInfo} {col : String} {value : Value}
    {typed : Value → CellWriter} (wraps : Wraps columnType info.nullable base)
    (writes : Writer.Writes (encodeFlagged info col value typed) bytes)
    (room : bytes.length < addressSpace)
    (default : ∀ body, defaultCell info col = .ok body → body.length < addressSpace →
      Reader.Reads (rbAdvance base) body ())
    (present : ∀ body, Writer.Writes (typed value) body → body.length < addressSpace →
      Reader.Reads (rbAdvance base) body ()) :
    Reader.Reads (rbAdvance columnType) bytes () := by
  rcases writes_encodeFlagged writes with
    ⟨nullable, rfl⟩ | ⟨notNull, written⟩ | ⟨body, written, rfl⟩
  · rw [nullable] at wraps
    exact reads_null wraps
  · rw [notNull] at wraps
    exact reads_present wraps (default bytes written room)
  · rw [List.length_append] at room
    exact reads_present wraps (present body written (by omega))

theorem length_putString_lt {text : Bytes} (room : (putString text).length < addressSpace) :
    text.length < addressSpace := by
  rw [putString, List.length_append] at room
  omega

/-- A cell without a type below is read as far as it was written. -/
theorem reads_plain {json : JsonText} {info : TypeInfo} {col : String} {value : Value}
    (tag : info.tag = .fromBase info.base) (wraps : Wraps columnType info.nullable base)
    (agrees : PlainAgrees info base) (tight : isLooseDecimal info = false)
    (writes : Writer.Writes (encodeValue json col (.plain info) value) bytes)
    (room : bytes.length < addressSpace) : Reader.Reads (rbAdvance columnType) bytes () := by
  rw [encodeValue] at writes
  apply reads_encodeFlagged wraps writes room
  · intro body written small
    cases agrees with
    | fixed _ native encoder =>
        rw [defaultCell_of_fixed tag encoder] at written
        cases written
        exact reads_fixed native (List.length_replicate ..)
    | text native encoder =>
        obtain ⟨text, rfl⟩ := defaultCell_of_text tag encoder written
        exact reads_text native (length_putString_lt small)
    | refused encoder =>
        rw [(@refused_of_tag json info .null col encoder).2] at written
        cases written
    | loose loose => rw [loose] at tight; cases tight
  · intro body written small
    rw [writes_ofExcept_put_iff] at written
    cases agrees with
    | fixed _ native encoder => exact reads_fixed native (sized_scalarCell encoder _ _ _ written)
    | text native encoder =>
        obtain ⟨text, rfl⟩ := scalarCell_of_text encoder written
        exact reads_text native (length_putString_lt small)
    | refused encoder =>
        rw [(refused_of_tag encoder).1] at written
        cases written
    | loose loose => rw [loose] at tight; cases tight

/-- A list of runs is read run by run behind its length. -/
theorem reads_counted {reader : ByteReader Unit} {runs : List Bytes} {count : Nat}
    (counted : runs.length = count) (small : count < addressSpace)
    (each : ∀ run ∈ runs, Reader.Reads reader run ()) :
    Reader.Reads (do
      let count ← rbReadVaruint
      let _ ← Reader.times reader count
      pure ()) (encodeVarUint count ++ runs.flatten) () := by
  subst counted
  apply (reads_rbReadVaruint small).bind
  have run := @reads_advanceTimes Bytes reader id runs each
  rwa [List.map_id] at run

theorem defaultCell_of_empty {info : TypeInfo} {col : String}
    (list : (info.base = "Array".toList ∧ info.tag = .array) ∨
      (info.base = "Map".toList ∧ info.tag = .map)) :
    defaultCell info col = .ok (encodeVarUint 0) := by
  unfold defaultCell ParsedType.fixedByteSize
  rcases list with ⟨base, tag⟩ | ⟨base, tag⟩ <;> rw [base, tag] <;> rfl

/-- The items of an array are read as far as they were written. -/
theorem reads_encodeArray {col : String} {item : Value → CellWriter} {value : Value}
    {inner : ColumnType}
    (each : ∀ element run, element.nodes < addressSpace → Writer.Writes (item element) run →
      run.length < addressSpace → Reader.Reads (rbAdvance inner) run ())
    (held : value.nodes < addressSpace)
    (writes : Writer.Writes (encodeArray col item value) bytes)
    (room : bytes.length < addressSpace) : Reader.Reads (rbAdvance (.array inner)) bytes () := by
  cases value with
  | array items =>
      obtain ⟨rest, written, rfl⟩ := Writer.writes_put_bind_iff.mp writes
      obtain ⟨runs, parts, rfl⟩ := Writer.writes_each_iff.mp written
      obtain ⟨count, nodes⟩ := @nodesAll_bounds items
      rw [Value.nodes] at held
      rw [List.length_append] at room
      apply reads_counted parts.length_eq.symm (by omega)
      intro run member
      obtain ⟨element, isItem, runWrites⟩ := Writer.exists_of_mem_runs parts member
      have elementHeld := nodes element isItem
      have runLength := (List.sublist_flatten_of_mem member).length_le
      exact each element run (by omega) runWrites (by omega)
  | _ => exact absurd writes Writer.not_writes_fail

/-- The entries of a map are read as far as they were written. -/
theorem reads_encodeMap {col : String} {key : TypeInfo} {item : Value → CellWriter}
    {value : Value} {keyType valueType : ColumnType}
    (keyWraps : key.tag = .string → key.nullable = false → Wraps keyType false .string)
    (each : key.tag = .string → key.nullable = false → ∀ element run,
      element.nodes < addressSpace → Writer.Writes (item element) run →
      run.length < addressSpace → Reader.Reads (rbAdvance valueType) run ())
    (held : value.nodes < addressSpace)
    (writes : Writer.Writes (encodeMap col key item value) bytes)
    (room : bytes.length < addressSpace) :
    Reader.Reads (rbAdvance (.map keyType valueType)) bytes () := by
  cases value with
  | object entries =>
      by_cases refused : key.tag ≠ .string ∨ key.nullable = true
      · rw [encodeMap, if_pos refused] at writes
        exact absurd writes Writer.not_writes_fail
      rw [encodeMap, if_neg refused] at writes
      simp only [ne_eq, not_or, Decidable.not_not, Bool.not_eq_true] at refused
      obtain ⟨isString, notNull⟩ := refused
      obtain ⟨rest, written, rfl⟩ := Writer.writes_put_bind_iff.mp writes
      obtain ⟨runs, parts, rfl⟩ := Writer.writes_each_iff.mp written
      obtain ⟨count, nodes⟩ := @nodesEntries_bounds entries
      rw [Value.nodes] at held
      rw [List.length_append] at room
      apply reads_counted parts.length_eq.symm (by omega)
      intro run member
      obtain ⟨entry, isEntry, runWrites⟩ := Writer.exists_of_mem_runs parts member
      have runLength := (List.sublist_flatten_of_mem member).length_le
      obtain ⟨cell, cellWrites, rfl⟩ := Writer.writes_put_bind_iff.mp runWrites
      have entryHeld := nodes entry isEntry
      rw [List.length_append] at runLength
      have keyReads : Reader.Reads (rbAdvance keyType) (putString (utf8 entry.1)) () :=
        reads_present (keyWraps isString notNull)
          (@reads_text .string _ rfl (length_putString_lt (by omega)))
      exact keyReads.bind
        (each isString notNull entry.2 cell (by omega) cellWrites (by omega))
  | _ => exact absurd writes Writer.not_writes_fail

/-- An empty list is read as far as it was written. -/
theorem reads_empty (reader : ByteReader Unit) : Reader.Reads (do
      let count ← rbReadVaruint
      let _ ← Reader.times reader count
      pure ()) (encodeVarUint 0) () := by
  have run := @reads_counted reader [] 0 rfl (by decide) (by simp)
  rwa [List.flatten_nil, List.append_nil] at run

/-- A cell is read as far as it was written. -/
theorem reads_encodeValue {json : JsonText} {col : String} {parsed : ParsedType} {value : Value}
    (agrees : Agrees parsed columnType) (tight : isLoose parsed = false)
    (held : value.nodes < addressSpace)
    (writes : Writer.Writes (encodeValue json col parsed value) bytes)
    (room : bytes.length < addressSpace) : Reader.Reads (rbAdvance columnType) bytes () := by
  induction agrees generalizing value bytes with
  | plain tag wraps agrees => exact reads_plain tag wraps agrees tight writes room
  | array isArray tag wraps _ ih =>
      rw [encodeValue] at writes
      apply reads_encodeFlagged wraps writes room
      · intro body written _
        rw [defaultCell_of_empty (.inl ⟨isArray, tag⟩)] at written
        cases written
        exact reads_empty _
      · intro body written small
        apply reads_encodeArray _ held written small
        intro element run elementHeld runWrites runRoom
        exact ih tight elementHeld runWrites runRoom
  | @map info key val columnType keyType valueType isMap tag wraps keyWraps _ ih =>
      rw [encodeValue] at writes
      apply reads_encodeFlagged wraps writes room
      · intro body written _
        rw [defaultCell_of_empty (.inr ⟨isMap, tag⟩)] at written
        cases written
        exact reads_empty _
      · intro body written small
        apply reads_encodeMap keyWraps _ held written small
        intro isString notNull element run elementHeld runWrites runRoom
        have tightValue : isLoose val = false := by
          simpa [isLoose, isString, notNull] using tight
        exact ih isString notNull tightValue elementHeld runWrites runRoom

/-- A reader that, if it succeeds, does not stop where the tokens end. -/
def Misreads (reader : ByteReader Unit) (bytes : Bytes) : Prop :=
  ∀ rest after, reader (bytes ++ rest) = .ok ((), after) → after.length ≠ rest.length

theorem Misreads.bind {α : Type} {first : ByteReader α} {next : α → ByteReader Unit}
    {front : Bytes} {value : α} (reads : Reader.Reads first front value)
    (misreads : Misreads (next value) bytes) : Misreads (first >>= next) (front ++ bytes) := by
  intro rest after succeeded
  rw [List.append_assoc, Reader.bind_of_ok (reads _)] at succeeded
  exact misreads rest after succeeded

theorem misreads_fixed {width : Nat} (native : columnType.fixedSize = some width)
    (different : bytes.length ≠ width) : Misreads (rbAdvance columnType) bytes := by
  intro rest after succeeded
  rw [rbAdvance_of_fixed native] at succeeded
  obtain ⟨taken, middle, head, tail⟩ := Reader.bind_ok_iff.mp succeeded
  cases tail
  obtain ⟨split, sized⟩ := Reader.take_ok_iff.mp head
  have lengths := congrArg List.length split
  simp only [List.length_append] at lengths
  omega

theorem misreads_present {nullable : Bool} (wraps : Wraps columnType nullable base)
    (misreads : Misreads (rbAdvance base) bytes) :
    Misreads (rbAdvance columnType) ((if nullable then [0] else []) ++ bytes) := by
  induction wraps with
  | base columnType => exact misreads
  | lowCardinality _ ih => exact ih misreads
  | nullable _ ih =>
      have flag : Reader.Reads (Reader.take rbTruncated 1) [(0 : UInt8)] [0] :=
        Reader.Reads.take rbTruncated rfl
      exact Misreads.bind flag (ih misreads)

/-- One item that is misread spoils its list. -/
theorem misreads_counted {reader : ByteReader Unit} (misreads : Misreads reader bytes) :
    Misreads (do
      let count ← rbReadVaruint
      let _ ← Reader.times reader count
      pure ()) (encodeVarUint 1 ++ bytes) := by
  apply Misreads.bind (reads_rbReadVaruint (by decide))
  intro rest after succeeded
  obtain ⟨results, middle, head, tail⟩ := Reader.bind_ok_iff.mp succeeded
  cases tail
  obtain ⟨result, between, first, others⟩ := Reader.bind_ok_iff.mp head
  cases others
  exact misreads rest after first

/-- A value that reaches the innermost type of a column. -/
def probe : ParsedType → Value
  | .plain _ => .number (.posInt 0)
  | .array _ element => .array [probe element]
  | .map _ _ value => .object [("", probe value)]

theorem probe_nonnull (parsed : ParsedType) : probe parsed ≠ .null := by
  cases parsed <;> simp [probe]

theorem encodeFlagged_of_nonnull {info : TypeInfo} {col : String} {value : Value}
    {typed : Value → CellWriter} (nonnull : value ≠ .null)
    (writes : Writer.Writes (typed value) bytes) :
    Writer.Writes (encodeFlagged info col value typed)
      ((if info.nullable then [0] else []) ++ bytes) := by
  unfold encodeFlagged
  split
  · exact absurd rfl nonnull
  · rename_i nullable _
    rw [nullable]
    exact Writer.writes_put_bind_iff.mpr ⟨bytes, writes, rfl⟩
  · exact absurd rfl nonnull
  · rename_i notNull _
    rw [notNull]
    exact writes

@[simp] theorem shiftDigits_zero (count place : Nat) : shiftDigits [] count place 0 = some 0 := by
  induction count generalizing place with
  | zero => rfl
  | succ count ih => exact ih (place + 1)

@[simp] theorem decimalFromText_zero (scale : Nat) : decimalFromText ['0'] scale = some 0 := by
  have start : decimalFromText ['0'] scale = (do
      let acc ← shiftDigits [] scale 0 0
      let rounded ← if 5 ≤ fractionDigit [] scale then fitsSigned 128 (acc + 1) else some acc
      some rounded) := rfl
  rw [start, shiftDigits_zero]
  rfl

/-- The probe of a loose decimal is sixteen bytes wide. -/
theorem scalarCell_probe {json : JsonText} {info : TypeInfo} {col : String}
    (tag : encodingTag info = .decimal128) :
    scalarCell json info (.number (.posInt 0)) col = .ok (intLe 16 0) := by
  have backing : decimalBackingI128 json (.number (.posInt 0)) (info.scale.getD 0) col = .ok 0 := by
    have text : ((Number.posInt 0).text json).toList = ['0'] := by
      rw [Number.text]
      decide
    simp only [decimalBackingI128, text, decimalFromText_zero, bind, Except.bind]
    rfl
  unfold scalarCell
  rw [tag]
  dsimp only
  rw [backing]
  rfl

/-- The probe of a column that reaches a loose decimal is written, and misread. -/
theorem exists_probe_misread {json : JsonText} {col : String} {parsed : ParsedType}
    (agrees : Agrees parsed columnType) (loose : isLoose parsed = true) :
    ∃ cell, Writer.Writes (encodeValue json col parsed (probe parsed)) cell ∧
      Misreads (rbAdvance columnType) cell ∧ (probe parsed).nodes ≤ cell.length := by
  induction agrees with
  | @plain info columnType base tag wraps agrees =>
      cases agrees with
      | loose _ native different encoder =>
          refine ⟨_, encodeFlagged_of_nonnull (probe_nonnull _)
            (writes_ofExcept_put_iff.mpr (scalarCell_probe encoder)), ?_, ?_⟩
          · apply misreads_present wraps
            apply misreads_fixed native
            rw [length_intLe]
            exact different.symm
          · rw [List.length_append, length_intLe, probe, Value.nodes]
            · omega
            all_goals simp
      | fixed tight =>
          rw [isLoose, tight] at loose
          cases loose
      | text _ encoder =>
          rw [isLoose, not_isLooseDecimal (notDecimal_of_tag (.inl encoder))] at loose
          cases loose
      | refused encoder =>
          rw [isLoose, not_isLooseDecimal (notDecimal_of_tag (.inr encoder))] at loose
          cases loose
  | array _ _ wraps _ ih =>
      obtain ⟨cell, writes, misreads, held⟩ := ih loose
      refine ⟨_, encodeFlagged_of_nonnull (probe_nonnull _) (Writer.writes_put_bind_iff.mpr
        ⟨cell, Writer.writes_each_iff.mpr ⟨[cell], .cons writes .nil, by simp⟩, rfl⟩), ?_, ?_⟩
      · exact misreads_present wraps (misreads_counted misreads)
      · have one : (encodeVarUint 1).length = 1 := rfl
        simp only [probe, Value.nodes, nodesAll, List.length_append, List.length_singleton, one]
        omega
  | @map info key val columnType keyType valueType _ _ wraps keyWraps _ ih =>
      simp only [isLoose, Bool.and_eq_true, beq_iff_eq, Bool.not_eq_true'] at loose
      obtain ⟨⟨isString, notNull⟩, loose⟩ := loose
      obtain ⟨cell, writes, misreads, held⟩ := ih isString notNull loose
      have supported : ¬ (key.info.tag ≠ .string ∨ key.info.nullable = true) := by
        simp [isString, notNull]
      have entry : Writer.Writes (encodeMap col key.info (encodeValue json col val)
          (.object [("", probe val)])) (encodeVarUint 1 ++ (putString (utf8 "") ++ cell)) := by
        rw [encodeMap, if_neg supported]
        refine Writer.writes_put_bind_iff.mpr ⟨_, Writer.writes_each_iff.mpr
          ⟨[putString (utf8 "") ++ cell], .cons ?_ .nil, by simp⟩, rfl⟩
        exact Writer.writes_put_bind_iff.mpr ⟨cell, writes, rfl⟩
      have keyReads : Reader.Reads (rbAdvance keyType) (putString (utf8 "")) () :=
        reads_present (keyWraps isString notNull) (@reads_text .string (utf8 "") rfl (by decide))
      refine ⟨_, encodeFlagged_of_nonnull (probe_nonnull _) entry, ?_, ?_⟩
      · exact misreads_present wraps (misreads_counted (Misreads.bind keyReads misreads))
      · have one : (encodeVarUint 1).length = 1 := rfl
        simp only [probe, Value.nodes, nodesEntries, List.length_append, one]
        omega

end DfeClickhouse.Dynamic
