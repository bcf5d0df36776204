import DfeClickhouse.Native.Decode

/-!
# Schema-only blocks

A block without rows is only its column headers.  The TCP client reads them with
`read_empty_data_block_schema`, the HTTP client with `decode_block` at zero rows.
The two walks differ on the custom-serialization header, which is one byte for the
default serialization and two bytes for an announced kind.
-/

namespace DfeClickhouse.Tcp

open Library Native

/-- Hard cap on the columns of a block the TCP client reads. -/
def maxBlockColumns : Nat := 16384

/-- The error of a column whose custom-serialization flag is set. -/
def customSerializationRefused (name : String) (flag : UInt8) : Error :=
  .badResponse ("tcp: column '" ++ name ++ "' uses custom serialization flag " ++
    toString flag.toNat ++ " -- only normal (0) is supported")

/-- The name and type name of one column of a schema block. -/
def readSchemaColumn (serverRevision : Nat) : ByteReader (String × String) := do
  let name ← readUtf8String
  let typeName ← readUtf8String
  if serverRevision ≥ customSerializationRevision then
    let flag ← readU8
    Reader.require (flag = 0) (customSerializationRefused name flag)
  pure (name, typeName)

/-- The most `(String, String)` pairs a vector can hold: they take 48 bytes each, and
an allocation at most `isize::MAX`. -/
def maxReservedColumns : Nat := (2 ^ 63 - 1) / 48

/-- Read the column headers of a block without rows. -/
def readEmptyDataBlockSchema (numColumns serverRevision : Nat) :
    ByteReader (List (String × String)) := do
  Reader.require (numColumns ≤ maxReservedColumns)
    (.badResponse ("tcp: cannot reserve " ++ toString numColumns ++ " columns: " ++
      "memory allocation failed because the computed capacity exceeded the " ++
      "collection's maximum"))
  Reader.times (readSchemaColumn serverRevision) numColumns

/-- What precedes a column's payload on the wire. -/
structure ColumnHeader where
  name : String
  typeName : String
  /-- The custom-serialization header, as it stands on the wire. -/
  serialization : Bytes

/-- The custom-serialization headers of a column the codec can read: none for an older
server, else the default one, an announced default or an announced sparse one. -/
def serializationHeaders (serverRevision : Nat) : List Bytes :=
  if serverRevision ≥ customSerializationRevision then [[0], [1, 0], [1, 1]] else [[]]

/-- Whether a header announces its serialization kind in a second byte. -/
def ColumnHeader.announcesKind (header : ColumnHeader) : Bool :=
  decide (header.serialization.length = 2)

/-- The input starts with a column header. -/
def HeaderAt (serverRevision : Nat) (input : Bytes) (header : ColumnHeader) (after : Bytes) :
    Prop :=
  header.serialization ∈ serializationHeaders serverRevision ∧
    ∃ middle, readUtf8String input = .ok (header.name, middle) ∧
      readUtf8String middle = .ok (header.typeName, header.serialization ++ after)

/-- The input starts with the given column headers. -/
inductive HeaderWalk (serverRevision : Nat) : Nat → Bytes → List ColumnHeader → Bytes → Prop
  | done (input : Bytes) : HeaderWalk serverRevision 0 input [] input
  | column {count : Nat} {input after rest : Bytes} {header : ColumnHeader}
      {headers : List ColumnHeader} (first : HeaderAt serverRevision input header after)
      (others : HeaderWalk serverRevision count after headers rest) :
      HeaderWalk serverRevision (count + 1) input (header :: headers) rest

/-- Every type name the walk over the headers comes to is one the codec knows. -/
def TypesKnown (serverRevision numColumns : Nat) (input : Bytes) : Prop :=
  ∀ before headers rest middle after name typeName, before < numColumns →
    HeaderWalk serverRevision before input headers rest →
    readUtf8String rest = .ok (name, middle) → readUtf8String middle = .ok (typeName, after) →
    (ColumnType.parse typeName).isSome

theorem TypesKnown.next {serverRevision numColumns : Nat} {input after : Bytes}
    {header : ColumnHeader} (known : TypesKnown serverRevision (numColumns + 1) input)
    (first : HeaderAt serverRevision input header after) :
    TypesKnown serverRevision numColumns after := by
  intro before headers rest middle' after' name typeName inside walk
  exact known (before + 1) (header :: headers) rest middle' after' name typeName (by omega)
    (.column first walk)

theorem TypesKnown.first {serverRevision numColumns : Nat} {input after : Bytes}
    {header : ColumnHeader} (known : TypesKnown serverRevision (numColumns + 1) input)
    (first : HeaderAt serverRevision input header after) :
    (ColumnType.parse header.typeName).isSome := by
  obtain ⟨_, middle, named, typed⟩ := first
  exact known 0 [] input middle _ header.name header.typeName (by omega) (.done input) named typed

/-- No custom-serialization header is the start of another one. -/
theorem serialization_unique {serverRevision : Nat} {first second after after' : Bytes}
    (firstValid : first ∈ serializationHeaders serverRevision)
    (secondValid : second ∈ serializationHeaders serverRevision)
    (same : first ++ after = second ++ after') : first = second ∧ after = after' := by
  by_cases newer : serverRevision ≥ customSerializationRevision
  · simp only [serializationHeaders, if_pos newer, List.mem_cons, List.not_mem_nil,
      or_false] at firstValid secondValid
    rcases firstValid with rfl | rfl | rfl <;> rcases secondValid with rfl | rfl | rfl <;>
      simp_all
  · simp only [serializationHeaders, if_neg newer, List.mem_singleton] at firstValid secondValid
    subst firstValid secondValid
    exact ⟨rfl, same⟩

theorem HeaderAt.unique {serverRevision : Nat} {input after after' : Bytes}
    {header header' : ColumnHeader} (first : HeaderAt serverRevision input header after)
    (second : HeaderAt serverRevision input header' after') :
    header = header' ∧ after = after' := by
  obtain ⟨name, typeName, serialization⟩ := header
  obtain ⟨name', typeName', serialization'⟩ := header'
  obtain ⟨serialized, middle, named, typed⟩ := first
  obtain ⟨serialized', middle', named', typed'⟩ := second
  rw [named] at named'
  cases named'
  rw [typed, Except.ok.injEq, Prod.mk.injEq] at typed'
  obtain ⟨rfl, tail⟩ := typed'
  obtain ⟨rfl, rfl⟩ := serialization_unique serialized serialized' tail
  exact ⟨rfl, rfl⟩

/-- The headers an input starts with are determined by their number. -/
theorem HeaderWalk.unique {serverRevision count : Nat} {input rest rest' : Bytes}
    {headers headers' : List ColumnHeader}
    (walk : HeaderWalk serverRevision count input headers rest)
    (walk' : HeaderWalk serverRevision count input headers' rest') :
    headers = headers' ∧ rest = rest' := by
  induction walk generalizing headers' rest' with
  | done input =>
      cases walk'
      exact ⟨rfl, rfl⟩
  | column first others ih =>
      cases walk' with
      | column first' others' =>
          obtain ⟨rfl, rfl⟩ := first.unique first'
          obtain ⟨rfl, rfl⟩ := ih others'
          exact ⟨rfl, rfl⟩

@[simp] theorem readU8_ok_iff {input rest : Bytes} {byte : UInt8} :
    readU8 input = .ok (byte, rest) ↔ input = byte :: rest := by
  constructor
  · intro read
    obtain ⟨bytes, middle, taken, finished⟩ := Reader.bind_ok_iff.mp read
    obtain ⟨rfl, sized⟩ := Reader.take_ok_iff.mp taken
    obtain ⟨only, rfl⟩ := List.length_eq_one_iff.mp sized
    cases finished
    rfl
  · rintro rfl
    exact reads_readU8 byte rest

/-- Kinds other than the default and the sparse one end in an error, a combination
after its list. -/
theorem readSerializationKind_ok {name : String} {input rest : Bytes} {sparse : Bool}
    (read : readSerializationKind name input = .ok (sparse, rest)) :
    ∃ serialization ∈ [[0], [1, 0], [1, 1]], input = serialization ++ rest := by
  obtain ⟨flag, middle, flagRead, kindRead⟩ := Reader.bind_ok_iff.mp read
  obtain rfl := readU8_ok_iff.mp flagRead
  by_cases normal : flag = 0
  · rw [if_pos normal] at kindRead
    cases kindRead
    exact ⟨[0], by simp, by simp [normal]⟩
  rw [if_neg normal] at kindRead
  by_cases custom : flag = 1
  · rw [if_pos custom] at kindRead
    obtain ⟨kind, after, kindByte, announced⟩ := Reader.bind_ok_iff.mp kindRead
    obtain rfl := readU8_ok_iff.mp kindByte
    by_cases default : kind = 0
    · rw [if_pos default] at announced
      cases announced
      exact ⟨[1, 0], by simp, by simp [custom, default]⟩
    rw [if_neg default] at announced
    by_cases sparse : kind = 1
    · rw [if_pos sparse] at announced
      cases announced
      exact ⟨[1, 1], by simp, by simp [custom, sparse]⟩
    rw [if_neg sparse] at announced
    exfalso
    split at announced
    · cases announced
    split at announced
    · cases announced
    split at announced
    · cases announced
    split at announced
    · obtain ⟨numKinds, _, _, announced⟩ := Reader.bind_ok_iff.mp announced
      obtain ⟨_, _, _, announced⟩ := Reader.bind_ok_iff.mp announced
      obtain ⟨_, _, _, announced⟩ := Reader.bind_ok_iff.mp announced
      cases announced
    · cases announced
  · rw [if_neg custom] at kindRead
    cases kindRead

section Column

variable {serverRevision : Nat} {input after : Bytes} {header : ColumnHeader}

/-- Nothing follows the header of a column without rows. -/
@[simp] theorem decodeColumnPayload_zero (colType : ColumnType) (sparse : Bool) :
    decodeColumnPayload colType 0 sparse = pure (emptyColumn colType) := by
  rw [decodeColumnPayload, if_neg (by decide), pure_bind]
  dsimp only
  rw [if_neg (by simp)]
  rfl

/-- The codec reads a column without rows where its header is readable and its type
known. -/
theorem decodeBlockColumn_of_headerAt (first : HeaderAt serverRevision input header after)
    (known : (ColumnType.parse header.typeName).isSome) :
    ∃ column, decodeBlockColumn 0 serverRevision input =
      .ok (((header.name, header.typeName), column), after) := by
  obtain ⟨serialized, middle, named, typed⟩ := first
  obtain ⟨colType, parsed⟩ := Option.isSome_iff_exists.mp known
  refine ⟨emptyColumn colType, ?_⟩
  rw [decodeBlockColumn, Reader.bind_of_ok named, Reader.bind_of_ok typed]
  by_cases newer : serverRevision ≥ customSerializationRevision
  · simp only [serializationHeaders, if_pos newer, List.mem_cons, List.not_mem_nil,
      or_false] at serialized
    have read : ∃ sparse, readSerializationKind header.name (header.serialization ++ after) =
        .ok (sparse, after) := by
      rcases serialized with form | form | form
      · exact ⟨false, form ▸ rfl⟩
      · exact ⟨false, form ▸ rfl⟩
      · exact ⟨true, form ▸ rfl⟩
    obtain ⟨sparse, read⟩ := read
    simp only [if_pos newer, parsed, decodeColumnPayload_zero]
    rw [Reader.bind_of_ok read]
    rfl
  · simp only [serializationHeaders, if_neg newer, List.mem_singleton] at serialized
    simp only [if_neg newer, parsed, decodeColumnPayload_zero, serialized]
    rfl

/-- What the codec reads as a column without rows is a header. -/
theorem headerAt_of_decodeBlockColumn {entry : (String × String) × DecodedColumn}
    (read : decodeBlockColumn 0 serverRevision input = .ok (entry, after)) :
    ∃ header : ColumnHeader, HeaderAt serverRevision input header after ∧
      entry.1 = (header.name, header.typeName) := by
  obtain ⟨name, middle, named, read⟩ := Reader.bind_ok_iff.mp read
  obtain ⟨typeName, body, typed, read⟩ := Reader.bind_ok_iff.mp read
  cases parsed : ColumnType.parse typeName with
  | none =>
      simp only [parsed] at read
      split at read
      · obtain ⟨_, _, _, failed⟩ := Reader.bind_ok_iff.mp read
        cases failed
      · cases read
  | some colType =>
      simp only [parsed, decodeColumnPayload_zero] at read
      by_cases newer : serverRevision ≥ customSerializationRevision
      · rw [if_pos newer] at read
        obtain ⟨sparse, payload, kind, finished⟩ := Reader.bind_ok_iff.mp read
        cases finished
        obtain ⟨serialization, form, rfl⟩ := readSerializationKind_ok kind
        refine ⟨⟨name, typeName, serialization⟩, ⟨?_, middle, named, typed⟩, rfl⟩
        rw [serializationHeaders, if_pos newer]
        exact form
      · rw [if_neg newer] at read
        cases read
        refine ⟨⟨name, typeName, []⟩, ⟨?_, middle, named, typed⟩, rfl⟩
        rw [serializationHeaders, if_neg newer]
        simp

/-- The TCP reader reads a header exactly when it announces no kind. -/
theorem readSchemaColumn_of_headerAt (first : HeaderAt serverRevision input header after) :
    readSchemaColumn serverRevision input =
      if header.announcesKind then .error (customSerializationRefused header.name 1)
      else .ok ((header.name, header.typeName), after) := by
  obtain ⟨name, typeName, serialization⟩ := header
  obtain ⟨serialized, middle, named, typed⟩ := first
  rw [readSchemaColumn, Reader.bind_of_ok named, Reader.bind_of_ok typed]
  by_cases newer : serverRevision ≥ customSerializationRevision
  · simp only [serializationHeaders, if_pos newer, List.mem_cons, List.not_mem_nil,
      or_false] at serialized
    rw [if_pos newer]
    rcases serialized with rfl | rfl | rfl <;> rfl
  · simp only [serializationHeaders, if_neg newer, List.mem_singleton] at serialized
    rw [if_neg newer, serialized]
    rfl

/-- What the TCP reader reads as a column is a header. -/
theorem headerAt_of_readSchemaColumn {entry : String × String}
    (read : readSchemaColumn serverRevision input = .ok (entry, after)) :
    ∃ header : ColumnHeader, HeaderAt serverRevision input header after := by
  obtain ⟨name, middle, named, read⟩ := Reader.bind_ok_iff.mp read
  obtain ⟨typeName, body, typed, read⟩ := Reader.bind_ok_iff.mp read
  by_cases newer : serverRevision ≥ customSerializationRevision
  · rw [if_pos newer] at read
    obtain ⟨flag, payload, flagRead, checked⟩ := Reader.bind_ok_iff.mp read
    obtain rfl := readU8_ok_iff.mp flagRead
    by_cases normal : flag = 0
    · rw [Reader.require_of_holds normal] at checked
      cases checked
      refine ⟨⟨name, typeName, [0]⟩, ?_, middle, named, by simpa [normal] using typed⟩
      rw [serializationHeaders, if_pos newer]
      simp
    · rw [Reader.require_of_not normal] at checked
      cases checked
  · rw [if_neg newer] at read
    cases read
    refine ⟨⟨name, typeName, []⟩, ?_, middle, named, typed⟩
    rw [serializationHeaders, if_neg newer]
    simp

end Column

section Blocks

variable {serverRevision count : Nat} {input rest : Bytes} {headers : List ColumnHeader}

/-- The names and types of headers. -/
def schemaOf (headers : List ColumnHeader) : List (String × String) :=
  headers.map fun header => (header.name, header.typeName)

theorem decodeColumns_of_walk (walk : HeaderWalk serverRevision count input headers rest)
    (known : TypesKnown serverRevision count input) :
    ∃ entries, Reader.times (decodeBlockColumn 0 serverRevision) count input =
        .ok (entries, rest) ∧ entries.map Prod.fst = schemaOf headers := by
  induction walk with
  | done input => exact ⟨[], rfl, rfl⟩
  | column first others ih =>
      obtain ⟨column, read⟩ := decodeBlockColumn_of_headerAt first (known.first first)
      obtain ⟨entries, tail, schema⟩ := ih (known.next first)
      refine ⟨(_, column) :: entries, ?_, congrArg (_ :: ·) schema⟩
      rw [Reader.times, Reader.bind_of_ok read, Reader.bind_of_ok tail]
      rfl

theorem walk_of_decodeColumns {entries : List ((String × String) × DecodedColumn)}
    (read : Reader.times (decodeBlockColumn 0 serverRevision) count input =
      .ok (entries, rest)) :
    ∃ headers, HeaderWalk serverRevision count input headers rest := by
  induction count generalizing input entries with
  | zero =>
      cases read
      exact ⟨[], .done _⟩
  | succ count ih =>
      obtain ⟨entry, after, head, read⟩ := Reader.bind_ok_iff.mp read
      obtain ⟨others, tail, read, finished⟩ := Reader.bind_ok_iff.mp read
      cases finished
      obtain ⟨header, first, _⟩ := headerAt_of_decodeBlockColumn head
      obtain ⟨headers, walk⟩ := ih read
      exact ⟨header :: headers, .column first walk⟩

/-- The TCP reader succeeds on a walk that announces no kind. -/
theorem readSchemaColumns_of_walk
    (walk : HeaderWalk serverRevision count input headers rest)
    (normal : ∀ header ∈ headers, header.announcesKind = false) :
    Reader.times (readSchemaColumn serverRevision) count input =
      .ok (schemaOf headers, rest) := by
  induction walk with
  | done input => rfl
  | @column _ _ _ _ header _ first others ih =>
      have read := readSchemaColumn_of_headerAt first
      rw [normal header (by simp)] at read
      have tail := ih fun other member => normal other (by simp [member])
      rw [Reader.times, Reader.bind_of_ok read, Reader.bind_of_ok tail]
      rfl

theorem walk_of_readSchemaColumns {schema : List (String × String)}
    (read : Reader.times (readSchemaColumn serverRevision) count input = .ok (schema, rest)) :
    ∃ headers, HeaderWalk serverRevision count input headers rest ∧
      ∀ header ∈ headers, header.announcesKind = false := by
  induction count generalizing input schema with
  | zero =>
      cases read
      exact ⟨[], .done _, by simp⟩
  | succ count ih =>
      obtain ⟨entry, after, head, read⟩ := Reader.bind_ok_iff.mp read
      obtain ⟨others, tail, read, finished⟩ := Reader.bind_ok_iff.mp read
      cases finished
      obtain ⟨header, first⟩ := headerAt_of_readSchemaColumn head
      obtain ⟨headers, walk, normal⟩ := ih read
      refine ⟨header :: headers, .column first walk, ?_⟩
      intro other member
      rcases List.mem_cons.mp member with rfl | later
      · rw [readSchemaColumn_of_headerAt first] at head
        by_contra announced
        rw [Bool.not_eq_false] at announced
        rw [announced] at head
        cases head
      · exact normal other later

end Blocks

/-- Both readers fail, or both succeed at the same byte with the same columns. -/
def SchemasAgree (tcp : Except Error (List (String × String) × Bytes))
    (http : Except Error (DecodedBlock × Bytes)) : Prop :=
  ((∃ error, tcp = .error error) ∧ ∃ error, http = .error error) ∨
    ∃ schema block rest, tcp = .ok (schema, rest) ∧ http = .ok (block, rest) ∧
      block.schema = schema

theorem readEmptyDataBlockSchema_eq {numColumns : Nat} (capped : numColumns ≤ maxBlockColumns)
    (serverRevision : Nat) :
    readEmptyDataBlockSchema numColumns serverRevision =
      Reader.times (readSchemaColumn serverRevision) numColumns := by
  have reserved : numColumns ≤ maxReservedColumns := by
    unfold maxBlockColumns at capped
    unfold maxReservedColumns
    omega
  rw [readEmptyDataBlockSchema, Reader.require_of_holds reserved, pure_bind]

theorem decodeBlock_zero_eq {numColumns : Nat} (capped : numColumns ≤ maxBlockColumns)
    (serverRevision : Nat) :
    decodeBlock numColumns 0 serverRevision = (do
      let entries ← Reader.times (decodeBlockColumn 0 serverRevision) numColumns
      pure ⟨entries.map Prod.snd, entries.map Prod.fst, 0⟩) := by
  have columnCap : numColumns ≤ Native.maxBlockColumns := by
    unfold maxBlockColumns at capped
    unfold Native.maxBlockColumns
    omega
  rw [decodeBlock, Reader.require_of_holds columnCap, Reader.require_of_holds (Nat.zero_le _),
    pure_bind, pure_bind]

/-- The two readers agree exactly when the input does not start with that many column
headers of which one announces its serialization kind. -/
theorem readEmptyDataBlockSchema_agrees_iff (numColumns serverRevision : Nat) (input : Bytes)
    (capped : numColumns ≤ maxBlockColumns)
    (known : TypesKnown serverRevision numColumns input) :
    SchemasAgree (readEmptyDataBlockSchema numColumns serverRevision input)
        (decodeBlock numColumns 0 serverRevision input) ↔
      ¬ ∃ headers rest, HeaderWalk serverRevision numColumns input headers rest ∧
        ∃ header ∈ headers, header.announcesKind = true := by
  rw [readEmptyDataBlockSchema_eq capped, decodeBlock_zero_eq capped]
  constructor
  · rintro agree ⟨headers, rest, walk, header, member, announced⟩
    obtain ⟨entries, decoded, _⟩ := decodeColumns_of_walk walk known
    rcases agree with ⟨_, error, failed⟩ | ⟨schema, block, rest', read, _⟩
    · rw [Reader.bind_of_ok decoded] at failed
      cases failed
    · obtain ⟨headers', walk', normal⟩ := walk_of_readSchemaColumns read
      obtain ⟨rfl, _⟩ := walk.unique walk'
      rw [normal header member] at announced
      cases announced
  · intro plain
    cases decoded : Reader.times (decodeBlockColumn 0 serverRevision) numColumns input with
    | error error =>
        refine .inl ⟨?_, error, Reader.bind_of_error decoded⟩
        cases read : Reader.times (readSchemaColumn serverRevision) numColumns input with
        | error error => exact ⟨error, rfl⟩
        | ok result =>
            obtain ⟨headers, walk, _⟩ := walk_of_readSchemaColumns read
            obtain ⟨entries, succeeded, _⟩ := decodeColumns_of_walk walk known
            rw [decoded] at succeeded
            cases succeeded
    | ok result =>
        obtain ⟨entries, rest⟩ := result
        obtain ⟨headers, walk⟩ := walk_of_decodeColumns decoded
        have normal : ∀ header ∈ headers, header.announcesKind = false := by
          intro header member
          apply Bool.eq_false_iff.mpr
          intro announced
          exact plain ⟨headers, rest, walk, header, member, announced⟩
        obtain ⟨entries', succeeded, schema⟩ := decodeColumns_of_walk walk known
        rw [decoded] at succeeded
        cases succeeded
        refine .inr ⟨schemaOf headers, ⟨entries.map Prod.snd, entries.map Prod.fst, 0⟩, rest,
          readSchemaColumns_of_walk walk normal, ?_, schema⟩
        rw [Reader.bind_of_ok decoded]
        rfl

/-- The header of a column `n` of type `UInt64` with the given serialization. -/
def numberHeader (serialization : Bytes) : Bytes :=
  putString (utf8 "n") ++ putString (utf8 "UInt64") ++ serialization

theorem readUtf8String_numberHeader (serialization : Bytes) :
    readUtf8String (numberHeader serialization) =
        .ok ("n", putString (utf8 "UInt64") ++ serialization) ∧
      readUtf8String (putString (utf8 "UInt64") ++ serialization) =
        .ok ("UInt64", serialization) := by
  have name : (utf8 "n").length ≤ maxStringSize := Nat.le_of_ble_eq_true rfl
  have type : (utf8 "UInt64").length ≤ maxStringSize := Nat.le_of_ble_eq_true rfl
  refine ⟨?_, reads_readUtf8String type serialization⟩
  rw [numberHeader, List.append_assoc]
  exact reads_readUtf8String name _

theorem typesKnown_numberHeader (serialization : Bytes) :
    TypesKnown 54454 1 (numberHeader serialization) := by
  obtain ⟨first, second⟩ := readUtf8String_numberHeader serialization
  intro before headers rest middle after name typeName inside walk named typed
  obtain rfl : before = 0 := by omega
  cases walk
  rw [first] at named
  cases named
  rw [second] at typed
  cases typed
  rfl

theorem readEmptyDataBlockSchema_agrees_number :
    SchemasAgree (readEmptyDataBlockSchema 1 54454 (numberHeader [0]))
      (decodeBlock 1 0 54454 (numberHeader [0])) := by
  apply (readEmptyDataBlockSchema_agrees_iff 1 54454 _ (by decide)
    (typesKnown_numberHeader [0])).mpr
  rintro ⟨headers, rest, walk, header, member, announced⟩
  cases walk with
  | column first others =>
      cases others
      rw [List.mem_singleton.mp member] at announced
      obtain ⟨named, typed⟩ := readUtf8String_numberHeader [0]
      have normal : HeaderAt 54454 (numberHeader [0]) ⟨"n", "UInt64", [0]⟩ [] :=
        ⟨by decide, _, named, typed⟩
      obtain ⟨rfl, _⟩ := first.unique normal
      cases announced

/-- A column that announces the default serialization. -/
theorem readEmptyDataBlockSchema_refuses_announced :
    TypesKnown 54454 1 (numberHeader [1, 0]) ∧
      (∃ block, decodeBlock 1 0 54454 (numberHeader [1, 0]) = .ok (block, []) ∧
        block.schema = [("n", "UInt64")]) ∧
      (∃ error, readEmptyDataBlockSchema 1 54454 (numberHeader [1, 0]) = .error error) ∧
      ¬ SchemasAgree (readEmptyDataBlockSchema 1 54454 (numberHeader [1, 0]))
        (decodeBlock 1 0 54454 (numberHeader [1, 0])) := by
  refine ⟨typesKnown_numberHeader [1, 0], ⟨_, rfl, rfl⟩, ⟨_, rfl⟩, ?_⟩
  rintro (⟨_, error, failed⟩ | ⟨schema, block, rest, read, _⟩)
  · cases failed
  · cases read

end DfeClickhouse.Tcp
